import Reconcile.Record

/-!
# Previews

Records as text in messages: the first of them, and a mark where there are more.
-/

namespace Reconcile

namespace Preview

/-- How many records a message shows. -/
def limit : Nat := 20

/-- At most `limit` records with a separator behind each but the last, and three dots in place of
the rest. -/
def text (render : Record → String) (separator : String) : Nat → List Record → String
  | _, [] => ""
  | 0, _ :: _ => "..."
  | _ + 1, [r] => render r
  | limit + 1, r :: rest => render r ++ separator ++ text render separator limit rest

/-- The records of a message. -/
def message (render : Record → String) (records : List Record) : String :=
  text render ", " limit records

end Preview

end Reconcile
