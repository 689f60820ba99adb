import Mathlib.Algebra.BigOperators.Group.Multiset.Basic
import Reconcile.Proofs.FaithfulSorting
import Reconcile.Proofs.FileFeeds
import Reconcile.Proofs.Initialization

/-!
# Contents

What a source holds depends on how it was last given an origin and on what was added to it since:
without additions it gives what lies at that origin, otherwise the records that were added.  Views,
checks and failed additions change nothing, neither of the source nor of others.
-/

namespace Reconcile

/-! ## Origins -/

/-- What can be read at an origin: what the files or the reader give, the records in memory, or
nothing. -/
def Origin.contents (c : Comparison) (files : Store) :
    Origin → Except Failure (Multiset (Except Failure Record))
  | .files path format => do
      let readers ← (Source.inputPaths files path).mapM (format c files)
      return ((Input.ofReaders readers).feed files : Feed)
  | .reader source => .ok ((Input.ofReaders [source]).feed files : Feed)
  | .records inMemory => .ok ((inMemory : Multiset Record).map .ok)
  | .unset => .ok 0
  | .empty => .ok 0

namespace Source

variable {s s' other : Source} {c : Comparison} {files : Store} {w : Workspace}
  {records : List Record}

/-! ## What a source gives -/

/-- What a source gives in the order of its origin, as a bag of records and failures. -/
def contents (s : Source) (files : Store) : Except Failure (Multiset (Except Failure Record)) :=
  (s.records files).map fun input => (input.feed files : Feed)

/-- The bag of the records that a source gives. -/
def bag (s : Source) (files : Store) : Multiset Record :=
  match s.contents files with
  | .ok items => items.filterMap Except.toOption
  | .error _ => 0

theorem feed_ofRecords (name : String) (records : List Record) :
    (Input.ofReaders [.ofRecords name records]).feed files = .ofRecords records := by
  have yields : List.Forall₂ (Reader.Yields files) [.ofRecords name records] [records] :=
    .cons (Reader.yields_ofRecords name records) .nil
  rw [Input.feed_ofReaders yields, List.flatten_singleton]

theorem contents_of_records (origin : s.origin = .records records) :
    s.contents files = .ok ((records : Multiset Record).map .ok) := by
  unfold contents Source.records
  rw [origin]
  exact congrArg (fun feed : Feed => Except.ok (feed : Multiset (Except Failure Record)))
    (feed_ofRecords "records" records)

/-- What lies elsewhere is read from the readers that are opened. -/
theorem records_eq_map (configured : s.comparison = some c)
    (elsewhere : ∀ inMemory, s.origin ≠ .records inMemory) :
    s.records files = (s.openReaders c files).map Input.ofReaders := by
  unfold Source.records openReaders required
  rw [configured]
  cases origin : s.origin with
  | records inMemory => exact absurd origin (elsewhere inMemory)
  | files path format =>
      let opened := (inputPaths files path).mapM (format c files)
      change opened.bind (fun readers => .ok (Input.ofReaders readers)) = opened.map _
      cases opened <;> rfl
  | _ => rfl

theorem contents_eq_map (configured : s.comparison = some c)
    (elsewhere : ∀ inMemory, s.origin ≠ .records inMemory) :
    s.contents files = (s.openReaders c files).map fun readers =>
      Multiset.ofList ((Input.ofReaders readers).feed files) := by
  rw [contents, records_eq_map configured elsewhere]
  cases s.openReaders c files <;> rfl

theorem contents_eq (configured : s.comparison = some c) :
    s.contents files = s.origin.contents c files := by
  cases origin : s.origin with
  | records inMemory => exact contents_of_records origin
  | files path format =>
      rw [contents_eq_map configured (by simp [origin]), openReaders, origin, Origin.contents]
      simp only
      cases (inputPaths files path).mapM (format c files) <;> rfl
  | _ =>
      rw [contents_eq_map configured (by simp [origin]), openReaders, origin]
      rfl

/-- A source gives the records that it provides, in their order. -/
theorem Provides.records_eq (provides : s.Provides files c.serializer records)
    (configured : s.comparison = some c) :
    ∃ input, s.records files = .ok input ∧ input.feed files = .ofRecords records := by
  rcases provides.cases_memory with origin | ⟨elsewhere, readers, lists, opened, yields, rfl⟩
  · refine ⟨.ofReaders [.ofRecords "records" records], ?_, feed_ofRecords "records" records⟩
    rw [Source.records, origin]
  · refine ⟨.ofReaders readers, ?_, Input.feed_ofReaders yields⟩
    rw [records_eq_map configured elsewhere, opened, Except.map]

/-- The records that a source provides are its contents. -/
theorem Provides.contents_eq (provides : s.Provides files c.serializer records)
    (configured : s.comparison = some c) :
    s.contents files = .ok ((records : Multiset Record).map .ok) := by
  obtain ⟨input, given, feed⟩ := provides.records_eq configured
  rw [contents, given, Except.map, feed]
  rfl

/-- Views leave the contents as they are. -/
theorem Rearranged.contents_eq (kept : s.Rearranged s') (files : Store) :
    s'.contents files = s.contents files := by
  have origins := kept.origin
  unfold contents Source.records openReaders required
  rw [kept.comparison]
  generalize s.origin = o, s'.origin = o' at origins
  cases origins with
  | same => rfl
  | records perm =>
      refine congrArg Except.ok ?_
      simp only [feed_ofRecords]
      exact Multiset.coe_eq_coe.mpr (perm.map Except.ok)

/-! ## Handing over -/

/-- The records of a source that are not in memory are sorted with a serializer that is faithful to
them. -/
def SortsFaithfully (s : Source) (files : Store) : Prop :=
  ∀ c, s.comparison = some c → ∀ readers, s.openReaders c files = .ok readers →
    c.serializer.IsFaithful ((Input.ofReaders readers).feed files).untilFailure.1

/-- Whatever lies in files of fixtures is sorted faithfully. -/
theorem sortsFaithfully_of_files {path : String} (origin : s.origin = .files path)
    (lines : ∀ c, s.comparison = some c → c.serializer = .jsonLines) (files : Store) :
    s.SortsFaithfully files := by
  intro c configured readers opened
  have jsonLines := lines c configured
  rw [openReaders, origin] at opened
  have each (reader : Reader) (member : reader ∈ readers) : reader.ReadsLines := by
    obtain ⟨path, -, opens⟩ := exists_of_forall₂_right (forall₂_of_mapM_eq_ok opened) member
    unfold openFile at opens
    split at opens
    · obtain rfl := Except.ok.inj opens
      exact ⟨path, 0, [], false, by rw [Reader.ofFile, jsonLines]⟩
    · cases opens
  rw [jsonLines]
  refine Serializer.ReadsBack.isFaithful (Serializer.readsBack_jsonLines fun r member => ?_)
  exact Reader.isKept_of_mem_feed each member

namespace Operation

/-- The origin that an operation puts in place of all that a source holds. -/
def switch? : Operation → Option Origin
  | load path => some (.files path)
  | loadWith format path => some (.files path format)
  | generate source => some (.reader source)
  | generateFrom schema seed count => some (.reader (.ofGeneration schema seed count))
  | markEmpty => some .empty
  | addSource other => if other.isMarkedEmpty then some .empty else none
  | _ => none

/-- The bag that an operation adds, if it is an addition and succeeds. -/
def addition? (w : Workspace) : Operation → Option (Multiset Record)
  | extend addition => some addition.records
  | addSource other =>
      if other.isMarkedEmpty then none
      else
        match other.handedOver w with
        | .ok _ => some (other.bag w.files)
        | .error _ => none
  | _ => none

/-- A source that is added is sorted faithfully. -/
def IsFaithful (w : Workspace) : Operation → Prop
  | addSource other => other.SortsFaithfully w.files
  | _ => True

end Operation

/-- The bags that operations in a row add. -/
def additions (steps : List (Operation × Workspace)) : List (Multiset Record) :=
  steps.filterMap fun step => step.1.addition? step.2

end Source

/-- An origin after additions: as it was if there were none, otherwise the records added. -/
inductive Origin.Extended (o : Origin) : List (Multiset Record) → Origin → Prop where
  | kept : Extended o [] o
  | replaced {bags : List (Multiset Record)} {added : List Record} (nonempty : bags ≠ [])
      (sum : (added : Multiset Record) = bags.sum) : Extended o bags (.records added)

namespace Origin.Extended

variable {o o' o'' : Origin} {bags : List (Multiset Record)}

theorem rearranged (held : o.Extended bags o') (outside : ∀ inMemory, o ≠ .records inMemory)
    (kept : o'.Rearranged o'') : o.Extended bags o'' := by
  cases kept with
  | same => exact held
  | records perm =>
      cases held with
      | kept => exact absurd rfl (outside _)
      | replaced nonempty sum => exact .replaced nonempty ((Multiset.coe_eq_coe.mpr perm).trans sum)

theorem addAll {s : Source} (held : o.Extended bags s.origin)
    (outside : ∀ inMemory, o ≠ .records inMemory) (records : List Record) :
    o.Extended (bags ++ [(records : Multiset Record)]) (s.addAll records).origin := by
  have nonempty : bags ++ [(records : Multiset Record)] ≠ [] := by simp
  unfold Source.addAll
  generalize s.origin = o' at held
  cases held with
  | kept =>
      have sum : (records : Multiset Record) =
          (([] : List (Multiset Record)) ++ [(records : Multiset Record)]).sum := by simp
      cases o with
      | records inMemory => exact absurd rfl (outside inMemory)
      | _ => exact .replaced nonempty sum
  | @replaced _ added _ sum =>
      refine .replaced nonempty ?_
      rw [List.sum_append, ← sum, List.sum_singleton, Multiset.coe_add]

theorem contents_eq (held : o.Extended bags o') (c : Comparison) (files : Store) :
    o'.contents c files =
      if bags.isEmpty then o.contents c files else .ok (bags.sum.map .ok) := by
  cases held with
  | kept => rfl
  | replaced nonempty sum =>
      rw [List.isEmpty_eq_false_iff.mpr nonempty, if_neg Bool.false_ne_true, contents, sum]

end Origin.Extended

namespace Source

variable {s other : Source} {c : Comparison} {w : Workspace} {o : Origin}
  {before after : List (Operation × Workspace)}

/-! ## Steps -/

namespace Operation

theorem outside_of_switch {op : Operation} (switch : op.switch? = some o)
    (inMemory : List Record) : o ≠ .records inMemory := by
  rintro rfl
  cases op with
  | addSource other =>
      rw [switch?] at switch
      split at switch <;> cases switch
  | _ => cases switch

end Operation

/-! ## Sequences -/

/-- How a new source comes to an origin: by being made, or by the last of some operations. -/
inductive Begins : List (Operation × Workspace) → Origin → Prop where
  | made : Begins [] .unset
  | switched {op : Operation} {o : Origin} (switch : op.switch? = some o)
      (before : List (Operation × Workspace)) (w : Workspace) : Begins (before ++ [(op, w)]) o

theorem Begins.outside (begins : Begins before o) (inMemory : List Record) :
    o ≠ .records inMemory := by
  cases begins with
  | made => simp
  | switched switch => exact Operation.outside_of_switch switch inMemory

end Source

end Reconcile
