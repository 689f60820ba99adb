import Reconcile.Proofs.ReadersInTurn

/-!
# Items in turn

What readers of any behaviour give when they are read as one: the records of each in turn, up to the
first failure in reading or in closing one of them.  Nothing follows that failure, and when the
input is given up each reader has been closed once, in the order of the readers.
-/

namespace Reconcile

variable {files : Store}

/-- The items of a feed up to its first failure, which is the last of them. -/
def Feed.throughFailure : Feed → Feed
  | [] => []
  | .ok r :: rest => .ok r :: Feed.throughFailure rest
  | .error e :: _ => [.error e]

namespace Reader

/-! ## One reader -/

/-- What a reader gives: its records until it ends or stops, and behind them the failure to read on
or to close it, if there is one. -/
def items (files : Store) (reader : Reader) : Feed :=
  match told : reader.next files with
  | (.record r, after) =>
      have := size_of_next_record told
      .ok r :: after.items files
  | (.fault fault, _) => [.error (.access reader.name fault)]
  | (.nothing, last) =>
      match last.problem with
      | some problem => [.error (.access reader.name (.other problem))]
      | none => []
termination_by reader.size files

theorem items_of_record {reader after : Reader} {r : Record}
    (told : reader.next files = (.record r, after)) :
    reader.items files = .ok r :: after.items files := by
  rw [items]
  split
  · rename_i given
    cases told.symm.trans given
    rfl
  · rename_i given
    cases told.symm.trans given
  · rename_i given
    cases told.symm.trans given

theorem items_of_fault {reader after : Reader} {fault : AccessFault}
    (told : reader.next files = (.fault fault, after)) :
    reader.items files = [.error (.access reader.name fault)] := by
  rw [items]
  split
  · rename_i given
    cases told.symm.trans given
  · rename_i given
    cases told.symm.trans given
    rfl
  · rename_i given
    cases told.symm.trans given

theorem items_of_nothing {reader last : Reader} (told : reader.next files = (.nothing, last)) :
    reader.items files =
      (last.problem.map fun problem =>
        .error (.access reader.name (.other problem))).toList := by
  rw [items]
  split
  · rename_i given
    cases told.symm.trans given
  · rename_i given
    cases told.symm.trans given
  · rename_i given
    cases told.symm.trans given
    cases last.problem <;> rfl

theorem name_next (reader : Reader) : (reader.next files).2.name = reader.name := by
  unfold next
  split <;> rfl

/-- What readers give in turn, up to the first failure. -/
def inTurn (files : Store) (readers : List Reader) : Feed :=
  Feed.throughFailure (readers.flatMap (items files))

/-- A reader, after it has been read from some number of times. -/
inductive Later (files : Store) : Reader → Reader → Prop where
  | unread (reader : Reader) : Later files reader reader
  | read {reader later : Reader} (further : Later files (reader.next files).2 later) :
      Later files reader later

theorem Later.trans {reader later last : Reader} (first : Later files reader later)
    (second : Later files later last) : Later files reader last := by
  induction first with
  | unread => exact second
  | read _ ih => exact .read (ih second)

/-! ## Several readers -/

theorem forall₂_later_refl (readers : List Reader) : List.Forall₂ (Later files) readers readers :=
  List.forall₂_same.mpr fun reader _ => .unread reader

/-- Only one of the readers is read from. -/
theorem forall₂_later_at (closed : List Reader) {reader later : Reader}
    (read : Later files reader later) (pending : List Reader) :
    List.Forall₂ (Later files) (closed ++ reader :: pending) (closed ++ later :: pending) :=
  List.rel_append (forall₂_later_refl closed) (.cons read (forall₂_later_refl pending))

theorem forall₂_later_trans {readers laters lasts : List Reader}
    (first : List.Forall₂ (Later files) readers laters)
    (second : List.Forall₂ (Later files) laters lasts) :
    List.Forall₂ (Later files) readers lasts := by
  induction first generalizing lasts with
  | nil => exact second
  | cons here _ ih =>
      cases second with
      | cons here' rest => exact .cons (here.trans here') (ih rest)

end Reader

namespace Input

open Reader (Later)

/-! ## One step -/

theorem release_closed (i : Input) : i.release.closed = i.closed ++ i.unclosed :=
  List.append_assoc i.closed i.current.toList i.pending

/-- The items that are still to come. -/
def remaining (files : Store) (i : Input) : Feed :=
  if i.failed then [] else Reader.inTurn files i.unclosed

/-- A step from some readers with some items to come: it gives the first of the items, the others
are still to come, and if the input is given up then, each of the readers has been closed once. -/
structure Steps (files : Store) (readers : List Reader) (items : Feed)
    (result : Option (Except Failure Record) × Input) : Prop where
  item : result.1 = items.head?
  remaining : result.2.remaining files = items.tail
  closed : List.Forall₂ (Later files) readers result.2.release.closed

/-- Where a reader fails, all are closed and nothing is to come. -/
theorem steps_fail {reader after : Reader} {e : Failure} (items : reader.items files = [.error e])
    (later : Later files reader after) (closed pending : List Reader) :
    Steps files (closed ++ reader :: pending) (Reader.inTurn files (reader :: pending))
      (some (.error e), fail closed after pending) where
  item := by rw [Reader.inTurn, List.flatMap_cons, items]; rfl
  remaining := by rw [Reader.inTurn, List.flatMap_cons, items]; rfl
  closed := by simpa [release, fail] using Reader.forall₂_later_at closed later pending

/-- A reader gives the first of its items, or it has none and is closed well. -/
theorem attempt_cases (files : Store) (closed : List Reader) (reader : Reader)
    (pending : List Reader) :
    (∃ item i, attempt files closed reader pending = .inl (item, i) ∧
      Steps files (closed ++ reader :: pending) (Reader.inTurn files (reader :: pending))
        (some item, i)) ∨
    ∃ last, attempt files closed reader pending = .inr last ∧ reader.items files = [] ∧
      Later files reader last := by
  have name : (reader.next files).2.name = reader.name := reader.name_next
  have later : Later files reader (reader.next files).2 := .read (.unread _)
  unfold attempt
  cases told : reader.next files with
  | mk reading after =>
      rw [told] at name later
      have sameName : after.name = reader.name := name
      cases reading with
      | record r =>
          refine Or.inl ⟨_, _, rfl, ?_, ?_, ?_⟩
          · rw [Reader.inTurn, List.flatMap_cons, Reader.items_of_record told]
            rfl
          · rw [Reader.inTurn, List.flatMap_cons, Reader.items_of_record told]
            rfl
          · simpa [release] using Reader.forall₂_later_at closed later pending
      | fault fault =>
          simp only [sameName]
          exact Or.inl ⟨_, _, rfl, steps_fail (Reader.items_of_fault told) later closed pending⟩
      | nothing =>
          have items := Reader.items_of_nothing told
          cases problem : after.problem with
          | none =>
              rw [problem] at items
              simp only [problem]
              exact Or.inr ⟨after, rfl, items, later⟩
          | some text =>
              rw [problem] at items
              simp only [problem, sameName]
              exact Or.inl ⟨_, _, rfl, steps_fail items later closed pending⟩

/-- Readers without an item are closed and passed over. -/
theorem steps_readFrom (files : Store) (closed : List Reader) (reader : Reader)
    (pending : List Reader) :
    Steps files (closed ++ reader :: pending) (Reader.inTurn files (reader :: pending))
      (readFrom files closed reader pending) := by
  induction pending generalizing closed reader with
  | nil =>
      rw [readFrom]
      rcases attempt_cases files closed reader [] with
        ⟨item, i, given, steps⟩ | ⟨last, ended, nothing, later⟩
      · rw [given]
        exact steps
      · rw [ended, Reader.inTurn, List.flatMap_cons, nothing]
        exact ⟨rfl, rfl, by simpa [release] using Reader.forall₂_later_at closed later []⟩
  | cons next pending ih =>
      rw [readFrom]
      rcases attempt_cases files closed reader (next :: pending) with
        ⟨item, i, given, steps⟩ | ⟨last, ended, nothing, later⟩
      · rw [given]
        exact steps
      · have passed := ih (closed ++ [last]) next
        rw [List.append_assoc, List.singleton_append] at passed
        rw [ended, Reader.inTurn, List.flatMap_cons, nothing]
        exact ⟨passed.item, passed.remaining, Reader.forall₂_later_trans
          (Reader.forall₂_later_at closed later (next :: pending)) passed.closed⟩

/-- A step gives the first item that is to come. -/
theorem steps_next (files : Store) (i : Input) :
    Steps files i.release.closed (i.remaining files) (i.next files) := by
  rw [release_closed]
  obtain ⟨current, pending, failed, closed⟩ := i
  cases failed with
  | true => exact ⟨rfl, rfl, release_closed _ ▸ Reader.forall₂_later_refl _⟩
  | false =>
      cases current with
      | some reader => exact steps_readFrom files closed reader pending
      | none =>
          cases pending with
          | nil => exact ⟨rfl, rfl, release_closed _ ▸ Reader.forall₂_later_refl _⟩
          | cons reader pending => exact steps_readFrom files closed reader pending

/-! ## Many steps -/

/-- Asks for an item a number of times, whatever is given. -/
def pull (files : Store) : Nat → Input → List (Option (Except Failure Record)) × Input
  | 0, i => ([], i)
  | count + 1, i =>
      let (item, i) := i.next files
      let (items, i) := pull files count i
      (item :: items, i)

/-- Steps give the items that are to come one after another, and then nothing. -/
theorem pull_eq (files : Store) (count : Nat) (i : Input) :
    (i.pull files count).1 = ((i.remaining files).take count).map some ++
        List.replicate (count - (i.remaining files).length) none ∧
      List.Forall₂ (Later files) i.release.closed (i.pull files count).2.release.closed := by
  induction count generalizing i with
  | zero => exact ⟨by simp [pull], Reader.forall₂_later_refl _⟩
  | succ count ih =>
      obtain ⟨item, remaining, closed⟩ := i.steps_next files
      obtain ⟨items, closedLater⟩ := ih (i.next files).2
      refine ⟨?_, Reader.forall₂_later_trans closed closedLater⟩
      change (i.next files).1 :: ((i.next files).2.pull files count).1 = _
      rw [items, item, remaining]
      cases i.remaining files with
      | nil => simp [List.replicate_succ]
      | cons first rest => simp

/-- Readers of any behaviour that are read as one give what each gives in turn, up to the first
failure, and nothing behind it.  However often they are read from, each of them is closed once when
they are given up, in their order. -/
theorem pull_ofReaders (files : Store) (readers : List Reader) (count : Nat) :
    ((ofReaders readers).pull files count).1 =
        ((Reader.inTurn files readers).take count).map some ++
          List.replicate (count - (Reader.inTurn files readers).length) none ∧
      List.Forall₂ (Later files) readers
        ((ofReaders readers).pull files count).2.release.closed :=
  pull_eq files count (ofReaders readers)

end Input

end Reconcile
