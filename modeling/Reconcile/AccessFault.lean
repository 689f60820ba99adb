/-!
# Faults of access

Why something could not be read or written.
-/

namespace Reconcile

inductive AccessFault where
  | notFound
  | notADirectory
  | isADirectory
  | alreadyExists
  /-- the content is not what it should be -/
  | invalidData
  /-- the content ends too early -/
  | unexpectedEnd
  | other (text : String)
deriving DecidableEq, Repr

/-- Two steps succeed only if the first of them does. -/
theorem exists_of_bind_eq_ok {ε α β : Type} {first : Except ε α} {next : α → Except ε β} {b : β}
    (done : first >>= next = .ok b) : ∃ a, first = .ok a ∧ next a = .ok b := by
  cases first with
  | error e => cases done
  | ok a => exact ⟨a, rfl, done⟩

end Reconcile
