import Mathlib.Data.List.Forall2
import Reconcile.Input
import Reconcile.Proofs.SerializedRecords

/-!
# Readers in turn

What readers give that fail at nothing: first all records of the first reader, then all of the
second, and so on.
-/

namespace Reconcile

variable {files : Store}

namespace Reader

/-- The records that a reader gives, one after another, before it ends and is closed well. -/
inductive Yields (files : Store) : Reader → List Record → Prop where
  | ended {reader last : Reader} (nothing : reader.next files = (.nothing, last))
      (closes : last.problem = none) : Yields files reader []
  | record {reader next : Reader} {r : Record} {others : List Record}
      (given : reader.next files = (.record r, next)) (later : Yields files next others) :
      Yields files reader (r :: others)

/-! ## Readers of one kind -/

/-- Records in memory are given as they are. -/
theorem yields_ofRecords (name : String) (records : List Record) :
    Yields files (ofRecords name records) records := by
  induction records with
  | nil => exact Yields.ended rfl rfl
  | cons r records ih => exact Yields.record rfl ih

/-- A file that was taken as a whole gives the records that are still ahead. -/
theorem yields_ahead {serializer : Serializer} {path : String} {octets ahead : List UInt8}
    (content : files.read path = .ok octets) {records : List Record}
    (gives : serializer.Gives ahead records) (name : String) :
    Yields files ⟨name, .file serializer path octets.length ahead false, none⟩ records := by
  induction gives with
  | @ended ahead last =>
      have nothing : next files ⟨name, .file serializer path octets.length ahead false, none⟩ =
          (.nothing, ⟨name, .file serializer path octets.length [] true, none⟩) := by
        simp [next, reachedEnd, read, readFile, last, content, serializer.next?_nil]
      exact Yields.ended nothing rfl
  | record given later ih =>
      refine Yields.record ?_ ih
      simp [next, reachedEnd, read, readFile, given, readFile.ofItem]

/-- A file gives the records that are read from its octets. -/
theorem yields_ofFile {serializer : Serializer} {path : String} {octets : List UInt8}
    (content : files.read path = .ok octets) {records : List Record}
    (gives : serializer.Gives octets records) :
    Yields files (ofFile serializer path) records := by
  cases gives with
  | ended last =>
      have nothing : next files (ofFile serializer path) =
          (.nothing, ⟨path, .file serializer path octets.length [] true, none⟩) := by
        simp [next, reachedEnd, read, readFile, ofFile, last, content, serializer.next?_nil]
      exact Yields.ended nothing rfl
  | record given later =>
      refine Yields.record ?_ (yields_ahead content later path)
      simp [next, reachedEnd, read, readFile, readFile.ofItem, ofFile, given, content,
        serializer.next?_nil]

/-! ## How many records there are -/

theorem ofItem_eq_record {item : Except AccessFault Record} {r : Record}
    (given : readFile.ofItem item = .record r) : item = .ok r := by
  cases item with
  | ok first =>
      cases given
      rfl
  | error fault => cases given

/-- A record of a file lies in what was taken from it, or in what was not taken yet. -/
theorem exists_of_readFile {serializer : Serializer} {path : String} {position : Nat}
    {ahead : List UInt8} {r : Record} {source : ReaderSource}
    (given : readFile serializer files path position ahead = (.record r, source)) :
    (∃ rest, serializer.next? ahead = some (.ok r, rest) ∧
        source = .file serializer path position rest false) ∨
      serializer.next? ahead = none ∧ ∃ octets rest, files.read path = .ok octets ∧
        serializer.next? (octets.drop position) = some (.ok r, rest) ∧
          source = .file serializer path octets.length rest false := by
  unfold readFile at given
  split at given
  · rename_i item rest taken
    obtain ⟨first, rfl⟩ := Prod.mk.inj given
    obtain rfl := ofItem_eq_record first
    exact Or.inl ⟨rest, taken, rfl⟩
  · rename_i used
    split at given
    · cases given
    · rename_i octets content
      split at given
      · rename_i item rest taken
        obtain ⟨first, rfl⟩ := Prod.mk.inj given
        obtain rfl := ofItem_eq_record first
        exact Or.inr ⟨used, octets, rest, content, taken, rfl⟩
      · cases given

/-- A reader that gives a record of a file has not come to its end. -/
theorem exists_of_next_file {name path : String} {serializer : Serializer} {position : Nat}
    {ahead : List UInt8} {ended : Bool} {problem : Option String} {r : Record} {after : Reader}
    (given : next files ⟨name, .file serializer path position ahead ended, problem⟩ =
      (.record r, after)) :
    ended = false ∧ ∃ source, readFile serializer files path position ahead = (.record r, source) ∧
      after = ⟨name, source, problem⟩ := by
  cases ended with
  | true => cases given
  | false =>
      obtain ⟨first, rfl⟩ := Prod.mk.inj given
      exact ⟨rfl, _, Prod.ext first rfl, rfl⟩

/-- A record that is read makes what is ahead shorter. -/
theorem size_of_next_record {reader after : Reader} {r : Record}
    (given : reader.next files = (.record r, after)) : after.size files < reader.size files := by
  obtain ⟨name, source, problem⟩ := reader
  cases source with
  | records rest =>
      cases rest with
      | nil => cases given
      | cons first rest =>
          cases given
          exact Nat.lt_succ_self _
  | script rest announced =>
      cases rest with
      | nil => simp [next, reachedEnd, read] at given
      | cons first rest =>
          simp only [next, reachedEnd, read, List.isEmpty_cons, Bool.and_false,
            Bool.false_eq_true, if_false, Prod.mk.injEq] at given
          obtain ⟨rfl, rfl⟩ := given
          exact Nat.lt_succ_self _
  | generation g remaining =>
      cases remaining with
      | zero => cases given
      | succ remaining =>
          simp only [next, reachedEnd, read, Nat.add_one_ne_zero, beq_iff_eq, if_false] at given
          split at given
          · simp only [Prod.mk.injEq] at given
            rw [← given.2]
            exact Nat.lt_succ_self remaining
          · simp at given
  | file serializer path position ahead ended =>
      obtain ⟨rfl, source, taken, rfl⟩ := exists_of_next_file given
      obtain ⟨rest, next, rfl⟩ | ⟨-, octets, rest, content, next, rfl⟩ := exists_of_readFile taken
      · have shorter := serializer.next?_shorter next
        simp only [size]
        split <;> omega
      · have shorter := serializer.next?_shorter next
        rw [List.length_drop] at shorter
        simp only [size, content]
        omega

theorem Yields.length_le_size {reader : Reader} {records : List Record}
    (yields : Yields files reader records) : records.length ≤ reader.size files := by
  induction yields with
  | ended _ _ => exact Nat.zero_le _
  | record given _ ih =>
      have smaller := size_of_next_record given
      rw [List.length_cons]
      omega

end Reader

namespace Input

open Reader (Yields)

/-- The readers that are not closed yet, the current one first. -/
def unclosed (i : Input) : List Reader := i.current.toList ++ i.pending

/-- The records that the open readers give in turn. -/
def InTurn (files : Store) (i : Input) (records : List Record) : Prop :=
  i.failed = false ∧
    ∃ lists, List.Forall₂ (Yields files) i.unclosed lists ∧ lists.flatten = records

/-- What one step gives: the first record with the others left, or nothing at the end. -/
def IsStep (files : Store) (records : List Record)
    (result : Option (Except Failure Record) × Input) : Prop :=
  match records with
  | [] => result.1 = none
  | r :: rest => result.1 = some (.ok r) ∧ result.2.InTurn files rest

/-- A reader that has ended is left behind. -/
theorem attempt_of_ended {reader : Reader} (yields : Yields files reader []) (closed : List Reader)
    (pending : List Reader) : ∃ last, attempt files closed reader pending = .inr last := by
  cases yields with
  | ended nothing closes =>
      rw [attempt, nothing]
      simp only [closes]
      exact ⟨_, rfl⟩

/-- A record is given by the reader that has one. -/
theorem attempt_of_record {reader : Reader} {r : Record} {others : List Record}
    (yields : Yields files reader (r :: others)) (closed : List Reader) (pending : List Reader) :
    ∃ next, attempt files closed reader pending =
      .inl (.ok r, ⟨some next, pending, false, closed⟩) ∧ Yields files next others := by
  cases yields with
  | record given later =>
      rw [attempt, given]
      exact ⟨_, rfl, later⟩

/-- Readers without a record are passed over. -/
theorem isStep_readFrom {reader : Reader} {pending : List Reader} {lists : List (List Record)}
    (yields : List.Forall₂ (Yields files) (reader :: pending) lists) (closed : List Reader) :
    IsStep files lists.flatten (readFrom files closed reader pending) := by
  -- Readers that have ended are left behind until one gives a record.
  induction pending generalizing reader lists closed with
  | nil =>
      cases yields with
      | @cons _ first _ others yieldsFirst none_ =>
          cases none_
          cases first with
          | nil =>
              obtain ⟨last, ended⟩ := attempt_of_ended yieldsFirst closed []
              rw [readFrom, ended]
              rfl
          | cons r rest =>
              obtain ⟨next, given, later⟩ := attempt_of_record yieldsFirst closed []
              rw [readFrom, given]
              exact ⟨rfl, rfl, [rest], List.Forall₂.cons later List.Forall₂.nil, rfl⟩
  | cons second pending ih =>
      cases yields with
      | @cons _ first _ others yieldsFirst yieldsOthers =>
          cases first with
          | nil =>
              obtain ⟨last, ended⟩ := attempt_of_ended yieldsFirst closed (second :: pending)
              rw [readFrom, ended]
              exact ih yieldsOthers (closed ++ [last])
          | cons r rest =>
              obtain ⟨next, given, later⟩ :=
                attempt_of_record yieldsFirst closed (second :: pending)
              rw [readFrom, given]
              exact ⟨rfl, rfl, rest :: others, List.Forall₂.cons later yieldsOthers, rfl⟩

theorem InTurn.isStep_next {i : Input} {records : List Record} (inTurn : i.InTurn files records) :
    IsStep files records (i.next files) := by
  obtain ⟨running, lists, yields, rfl⟩ := inTurn
  obtain ⟨current, pending, failed, closed⟩ := i
  cases running
  cases current with
  | some reader => exact isStep_readFrom yields closed
  | none =>
      cases pending with
      | nil =>
          cases yields
          rfl
      | cons reader pending => exact isStep_readFrom yields closed

/-- All steps give the records one after another. -/
theorem InTurn.take_eq {i : Input} {records : List Record} (inTurn : i.InTurn files records)
    {count : Nat} (enough : records.length ≤ count) :
    (i.take files count).1 = .ofRecords records := by
  induction count generalizing i records with
  | zero =>
      obtain rfl := List.length_eq_zero_iff.mp (Nat.le_zero.mp enough)
      rfl
  | succ count ih =>
      have step := inTurn.isStep_next
      rw [take]
      generalize i.next files = result at step
      obtain ⟨item, after⟩ := result
      cases records with
      | nil =>
          obtain rfl : item = none := step
          rfl
      | cons r rest =>
          obtain ⟨rfl, later⟩ : item = some (.ok r) ∧ after.InTurn files rest := step
          exact congrArg (Except.ok r :: ·) (ih later (Nat.le_of_succ_le_succ enough))

theorem length_le_of_yields {readers : List Reader} {lists : List (List Record)}
    (yields : List.Forall₂ (Yields files) readers lists) :
    lists.flatten.length ≤ readers.foldr (fun r count => r.size files + count) 0 := by
  induction yields with
  | nil => exact Nat.le_refl 0
  | cons first _ ih =>
      have bound := first.length_le_size
      rw [List.flatten_cons, List.length_append, List.foldr_cons]
      omega

/-- Readers that fail at nothing are read as one. -/
theorem feed_ofReaders {readers : List Reader} {lists : List (List Record)}
    (yields : List.Forall₂ (Yields files) readers lists) :
    (ofReaders readers).feed files = .ofRecords lists.flatten := by
  have inTurn : (ofReaders readers).InTurn files lists.flatten := ⟨rfl, lists, yields, rfl⟩
  exact inTurn.take_eq (Nat.le_succ_of_le (length_le_of_yields yields))

end Input

end Reconcile
