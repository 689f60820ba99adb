import Reconcile.Input
import Reconcile.Proofs.GroupedLists
import Reconcile.Proofs.ListPasses

/-!
# Agreement

Sorting and grouped comparison pass on the failures that they meet, and fail in few ways of their
own.  So they agree on feeds that agree, for any notion of which failures are alike: all but for the
name of the place for spill directories, or all of some kinds.
-/

namespace Reconcile

open Sorting

/-- Results that are both failures, and alike, or both values, and related. -/
inductive Agree (alike : Failure → Failure → Prop) {α β : Type} (related : α → β → Prop) :
    Except Failure α → Except Failure β → Prop where
  | ok {a : α} {b : β} (values : related a b) : Agree alike related (.ok a) (.ok b)
  | error {e e' : Failure} (failures : alike e e') : Agree alike related (.error e) (.error e')

variable {alike : Failure → Failure → Prop}

namespace Agree

variable {α α' β β' : Type} {related : α → α' → Prop} {related' : β → β' → Prop}

theorem refl {r : Except Failure α} (own : ∀ e, r = .error e → alike e e) : Agree alike Eq r r := by
  cases r with
  | ok a => exact ok rfl
  | error e => exact error (own e rfl)

/-- What comes behind results that agree agrees. -/
theorem bind {r : Except Failure α} {r' : Except Failure α'} (agree : Agree alike related r r')
    {next : α → Except Failure β} {next' : α' → Except Failure β'}
    (later : ∀ a a', r = .ok a → r' = .ok a' → related a a' →
      Agree alike related' (next a) (next' a')) :
    Agree alike related' (r >>= next) (r' >>= next') := by
  cases agree with
  | ok values => exact later _ _ rfl rfl values
  | error failures => exact error failures

end Agree

/-- Feeds that agree item by item. -/
abbrev FeedsAgree (alike : Failure → Failure → Prop) : Feed → Feed → Prop :=
  List.Forall₂ (Agree alike Eq)

theorem feedsAgree_refl {feed : Feed} (own : ∀ e, Except.error e ∈ feed → alike e e) :
    FeedsAgree alike feed feed :=
  List.forall₂_same.mpr fun _ member => .refl fun e failed => own e (failed ▸ member)

theorem feedsAgree_ofRecords (records : List Record) :
    FeedsAgree alike (.ofRecords records) (.ofRecords records) := by
  refine feedsAgree_refl fun e member => ?_
  obtain ⟨r, -, same⟩ := List.mem_map.mp member
  cases same

/-- A notion of being alike under which each failure of configuration, of access or of comparing is
alike itself, and so are those of runs at two places. -/
structure Failure.Likens (alike : Failure → Failure → Prop) (name name' : String) : Prop where
  configuration : ∀ problem, alike (.configuration problem) (.configuration problem)
  access : ∀ source fault, alike (.access source fault) (.access source fault)
  run : ∀ number fault, alike (.access (name ++ "/" ++ runName number) fault)
    (.access (name' ++ "/" ++ runName number) fault)
  mismatch : ∀ e, e.isMismatch = true → alike e e

/-! ## Names of spill directories -/

/-- The same failure, but for the name of the place in which a run failed. -/
inductive Failure.Renamed (name name' : String) : Failure → Failure → Prop where
  | same (e : Failure) : Renamed name name' e e
  | run (number : Nat) (fault : AccessFault) :
      Renamed name name' (.access (name ++ "/" ++ runName number) fault)
        (.access (name' ++ "/" ++ runName number) fault)

namespace Failure

variable {name name' : String}

theorem likens_renamed : Likens (Renamed name name') name name' where
  configuration _ := .same _
  access _ _ := .same _
  run := .run
  mismatch e _ := .same e

theorem Renamed.eq {e e' : Failure} (renamed : Renamed name name e e') : e' = e := by
  cases renamed with
  | same => rfl
  | run => rfl

end Failure

theorem Agree.eq {name : String} {α : Type} {r r' : Except Failure α}
    (agree : Agree (Failure.Renamed name name) Eq r r') : r' = r := by
  cases agree with
  | ok values => rw [values]
  | error renamed => rw [renamed.eq]

/-! ## Reading -/

namespace Input

variable {files : Store} {e : Failure}

theorem exists_access_of_attempt {closed pending : List Reader} {reader : Reader} {i : Input}
    (failed : attempt files closed reader pending = .inl (.error e, i)) :
    ∃ source fault, e = .access source fault := by
  unfold attempt at failed
  split at failed
  split at failed
  · cases failed
  · cases failed
    exact ⟨_, _, rfl⟩
  · cases failed
    exact ⟨_, _, rfl⟩
  · cases failed

theorem exists_access_of_readFrom {closed pending : List Reader} {reader : Reader}
    (failed : (readFrom files closed reader pending).1 = some (.error e)) :
    ∃ source fault, e = .access source fault := by
  induction pending generalizing closed reader with
  | nil =>
      unfold readFrom at failed
      split at failed
      · rename_i attempted
        cases failed
        exact exists_access_of_attempt attempted
      · cases failed
  | cons next pending ih =>
      unfold readFrom at failed
      split at failed
      · rename_i attempted
        cases failed
        exact exists_access_of_attempt attempted
      · exact ih failed

theorem exists_access_of_take {count : Nat} {i : Input}
    (member : Except.error e ∈ (i.take files count).1) :
    ∃ source fault, e = .access source fault := by
  induction count generalizing i with
  | zero => cases member
  | succ count ih =>
      unfold take at member
      split at member
      · cases member
      · rename_i item after given
        rcases List.mem_cons.mp member with rfl | later
        · unfold next at given
          split at given
          · cases given
          · split at given
            · exact exists_access_of_readFrom (congrArg Prod.fst given)
            · exact exists_access_of_readFrom (congrArg Prod.fst given)
            · cases given
        · exact ih later

/-- All that goes wrong in reading goes wrong in access. -/
theorem feed_agree {name name' : String} (likens : Failure.Likens alike name name') (i : Input)
    (files : Store) : FeedsAgree alike (i.feed files) (i.feed files) := by
  refine feedsAgree_refl fun e member => ?_
  obtain ⟨source, fault, rfl⟩ := exists_access_of_take member
  exact likens.access source fault

end Input

/-! ## Sorting -/

namespace Sorting

variable {serializer : Serializer} {order : Order} {budget : Nat} {root root' : SpillRoot}

theorem cut_agree (likens : Failure.Likens alike root.name root'.name)
    (refusal : root'.refusal = root.refusal) {input input' : Feed}
    (inputs : FeedsAgree alike input input') (number : Nat) (buffer : List Record) (size : Nat) :
    Agree alike Eq (cut serializer order budget root number buffer size input)
      (cut serializer order budget root' number buffer size input') := by
  induction inputs generalizing number buffer size with
  | nil => exact .ok rfl
  | cons first rest ih =>
      cases first with
      | error failures => exact .error failures
      | ok values =>
          subst values
          simp only [cut, refusal]
          split
          · split
            · exact .error (likens.run _ _)
            · refine (ih (number + 1) [] 0).bind ?_
              rintro result _ - - rfl
              exact .ok rfl
          · exact ih number (_ :: buffer) _

theorem closeRuns_agree (likens : Failure.Likens alike root.name root'.name)
    (refusal : root'.refusal = root.refusal) (runs : List (List Record)) (left : List Record) :
    Agree alike Eq (closeRuns order root runs left) (closeRuns order root' runs left) := by
  simp only [closeRuns, refusal]
  split
  · exact .ok rfl
  · split
    · exact .error (likens.run _ _)
    · exact .ok rfl

/-- Runs with the same head and with rests that agree. -/
structure RunsAgree (alike : Failure → Failure → Prop) (run run' : Run) : Prop where
  head : run'.head = run.head
  rest : FeedsAgree alike run.rest run'.rest

theorem Run.advance_agree {run run' : Run} (agree : RunsAgree alike run run') :
    Agree alike (RunsAgree alike) run.advance run'.advance := by
  obtain ⟨head, rest⟩ := run
  obtain ⟨head', rest'⟩ := run'
  cases agree.rest with
  | nil => exact .ok ⟨rfl, .nil⟩
  | cons first rest =>
      cases first with
      | ok values =>
          subst values
          exact .ok ⟨rfl, rest⟩
      | error failures => exact .error failures

theorem Run.ofRecords_agree (likens : Failure.Likens alike root.name root'.name) (number : Nat)
    (records : List Record) :
    RunsAgree alike (ofRecords serializer root number records)
      (ofRecords serializer root' number records) := by
  refine ⟨rfl, ?_⟩
  unfold ofRecords
  rw [FeedsAgree, List.forall₂_map_left_iff, List.forall₂_map_right_iff]
  refine List.forall₂_same.mpr fun item _ => ?_
  cases item with
  | ok r => exact .ok rfl
  | error fault => exact .error (likens.run number fault)

theorem least_agree {runs runs' : List Run} (agree : List.Forall₂ (RunsAgree alike) runs runs') :
    least order runs' = least order runs := by
  induction agree with
  | nil => rfl
  | cons first _ ih => rw [least, least, first.head, ih]

theorem merge_agree {runs runs' : List Run} (agree : List.Forall₂ (RunsAgree alike) runs runs')
    (fuel : Nat) : FeedsAgree alike (merge order fuel runs) (merge order fuel runs') := by
  induction fuel generalizing runs runs' with
  | zero => exact .nil
  | succ fuel ih =>
      unfold merge
      rw [least_agree agree]
      split
      · exact .nil
      · rename_i number r _
        rcases forall₂_at agree number with ⟨out, out'⟩ | ⟨run, run', found, found', here, changed⟩
        · rw [out, out']
          exact .nil
        · rw [found, found']
          have advanced := Run.advance_agree here
          simp only
          generalize run.advance = next, run'.advance = next' at advanced ⊢
          cases advanced with
          | ok same => exact .cons (.ok rfl) (ih (changed _ _ same))
          | error failures => exact .cons (.error failures) .nil

theorem foldr_size_agree {runs runs' : List Run}
    (agree : List.Forall₂ (RunsAgree alike) runs runs') :
    runs'.foldr (fun run count => run.size + count) 1 =
      runs.foldr (fun run count => run.size + count) 1 := by
  induction agree with
  | nil => rfl
  | cons first _ ih =>
      rw [List.foldr_cons, List.foldr_cons, ih, Run.size, Run.size, first.head,
        first.rest.length_eq]

theorem mapM_advance_agree {runs runs' : List Run}
    (agree : List.Forall₂ (RunsAgree alike) runs runs') :
    Agree alike (List.Forall₂ (RunsAgree alike)) (runs.mapM Run.advance)
      (runs'.mapM Run.advance) := by
  induction agree with
  | nil => exact .ok .nil
  | cons first _ ih =>
      rw [List.mapM_cons, List.mapM_cons]
      refine (Run.advance_agree first).bind fun next next' _ _ same => ?_
      refine ih.bind fun others others' _ _ rest => ?_
      exact .ok (.cons same rest)

theorem mergeRuns_agree {runs runs' : List Run}
    (agree : List.Forall₂ (RunsAgree alike) runs runs') :
    Agree alike (FeedsAgree alike) (mergeRuns order runs) (mergeRuns order runs') := by
  refine (mapM_advance_agree agree).bind fun next next' _ _ advanced => ?_
  rw [foldr_size_agree advanced]
  exact .ok (merge_agree advanced _)

/-- Sorting in two places gives the same records and runs, and handles with the same problem. -/
structure SortedAgree (alike : Failure → Failure → Prop) (sorted sorted' : Sorted) : Prop where
  records : FeedsAgree alike sorted.records sorted'.records
  problem : sorted'.handle.problem = sorted.handle.problem

theorem sort_agree (likens : Failure.Likens alike root.name root'.name)
    (refusal : root'.refusal = root.refusal) {input input' : Feed}
    (inputs : FeedsAgree alike input input') (serializer : Serializer) (order : Order)
    (budget : Nat) :
    Agree alike (fun result result' => SortedAgree alike result.1 result'.1)
      (Feed.sort order budget root input serializer)
      (Feed.sort order budget root' input' serializer) := by
  unfold Feed.sort
  refine (cut_agree likens refusal inputs 0 [] 0).bind ?_
  rintro ⟨runs, left⟩ _ _ _ rfl
  simp only
  split
  · exact .ok ⟨feedsAgree_ofRecords _, rfl⟩
  · refine (closeRuns_agree likens refusal runs left).bind ?_
    rintro runs _ _ _ rfl
    have written : List.Forall₂ (RunsAgree alike)
        (runs.zipIdx.map fun run => Run.ofRecords serializer root run.2 run.1)
        (runs.zipIdx.map fun run => Run.ofRecords serializer root' run.2 run.1) := by
      rw [List.forall₂_map_left_iff, List.forall₂_map_right_iff]
      exact List.forall₂_same.mpr fun run _ => Run.ofRecords_agree likens run.2 run.1
    exact (mergeRuns_agree written).bind fun records records' _ _ same => .ok ⟨same, rfl⟩

end Sorting

/-! ## Grouped comparison -/

namespace Grouped

/-- Sides that stand at the same record, with feeds behind them that agree. -/
structure SidesAgree (alike : Failure → Failure → Prop) (side side' : Side) : Prop where
  held : side'.held = side.held
  taken : side'.taken = side.taken
  rest : FeedsAgree alike side.rest side'.rest

namespace Side

theorem start_agree {feed feed' : Feed} (agree : FeedsAgree alike feed feed') :
    Agree alike (SidesAgree alike) (start feed) (start feed') := by
  cases agree with
  | nil => exact .ok ⟨rfl, rfl, .nil⟩
  | cons first rest =>
      cases first with
      | ok values =>
          subst values
          exact .ok ⟨rfl, rfl, rest⟩
      | error failures => exact .error failures

theorem advance_agree {side side' : Side} (agree : SidesAgree alike side side') :
    Agree alike (SidesAgree alike) side.advance side'.advance := by
  obtain ⟨held, rest, taken⟩ := side
  obtain ⟨held', rest', taken'⟩ := side'
  obtain ⟨rfl, rfl, rests⟩ := agree
  cases rests with
  | nil => exact .ok ⟨rfl, rfl, .nil⟩
  | cons first later =>
      cases first with
      | ok values =>
          subst values
          exact .ok ⟨rfl, rfl, later⟩
      | error failures => exact .error failures

/-- The same group, and sides behind it that agree. -/
abbrev GroupsAgree (alike : Failure → Failure → Prop) (taken taken' : List Record × Side) : Prop :=
  taken'.1 = taken.1 ∧ SidesAgree alike taken.2 taken'.2

theorem takeWhile_agree (belongs : Record → Bool) {rest rest' : Feed}
    (agree : FeedsAgree alike rest rest') (held : Option Record) (taken : Nat) :
    Agree alike (GroupsAgree alike) (takeWhile belongs held rest taken)
      (takeWhile belongs held rest' taken) := by
  cases held with
  | none =>
      unfold takeWhile
      exact .ok ⟨rfl, rfl, rfl, agree⟩
  | some r =>
      induction agree generalizing r taken with
      | nil =>
          unfold takeWhile
          split
          · exact .ok ⟨rfl, rfl, rfl, .nil⟩
          · exact .ok ⟨rfl, rfl, rfl, .nil⟩
      | cons first later ih =>
          unfold takeWhile
          split
          · cases first with
            | ok values =>
                subst values
                refine (ih _ _).bind ?_
                rintro ⟨group, side⟩ ⟨_, side'⟩ _ _ ⟨rfl, sides⟩
                exact .ok ⟨rfl, sides⟩
            | error failures => exact .error failures
          · exact .ok ⟨rfl, rfl, rfl, .cons first later⟩

theorem takeGroup_agree {side side' : Side} (agree : SidesAgree alike side side')
    (belongs : Record → Bool) :
    Agree alike (GroupsAgree alike) (side.takeGroup belongs) (side'.takeGroup belongs) := by
  rw [takeGroup, takeGroup, agree.held, agree.taken]
  exact takeWhile_agree belongs agree.rest side.held side.taken

end Side

/-- Two sides behind the groups that were compared, and how many these were. -/
structure GroupsCompared (alike : Failure → Failure → Prop)
    (compared compared' : Nat × Side × Side) : Prop where
  groups : compared'.1 = compared.1
  expected : SidesAgree alike compared.2.1 compared'.2.1
  actual : SidesAgree alike compared.2.2 compared'.2.2

theorem checkGroups_agree (mismatches : ∀ e, e.isMismatch = true → alike e e) (c : Comparison)
    {expected expected' actual actual' : Side} (wanted : SidesAgree alike expected expected')
    (given : SidesAgree alike actual actual') (groups : Nat) :
    Agree alike (GroupsCompared alike) (checkGroups c groups expected actual)
      (checkGroups c groups expected' actual') := by
  -- The expected side gets shorter with each group.
  induction size : expected.size using Nat.strongRecOn
    generalizing expected expected' actual actual' groups with
  | ind n ih =>
      cases held : expected.held with
      | none =>
          rw [checkGroups_of_ended c groups actual held,
            checkGroups_of_ended c groups actual' (wanted.held.trans held)]
          exact .ok ⟨rfl, wanted, given⟩
      | some first =>
          rw [checkGroups_of_held c groups actual held,
            checkGroups_of_held c groups actual' (wanted.held.trans held), wanted.taken]
          refine (Side.advance_agree wanted).bind fun next next' advanced _ nexts => ?_
          refine (Side.takeGroup_agree nexts _).bind ?_
          rintro ⟨others, after⟩ ⟨_, after'⟩ took _ ⟨rfl, afters⟩
          refine (Side.takeGroup_agree given _).bind ?_
          rintro ⟨group, left⟩ ⟨_, left'⟩ _ _ ⟨rfl, lefts⟩
          have sameHeld : left'.held = left.held := lefts.held
          simp only [sameHeld]
          refine Agree.bind (.refl fun e failed =>
            mismatches e (isMismatch_of_checkGroup failed)) fun _ _ _ _ _ => ?_
          have shorter : after.size < n :=
            size ▸ Nat.lt_of_le_of_lt (Side.size_takeGroup took) (Side.size_advance held advanced)
          exact ih after.size shorter afters lefts (groups + 1) rfl

theorem upTo_agree {feed feed' : Feed} (agree : FeedsAgree alike feed feed') (count : Nat) :
    Agree alike Eq (feed.upTo count) (feed'.upTo count) := by
  induction agree generalizing count with
  | nil => cases count <;> exact .ok rfl
  | cons first rest ih =>
      cases count with
      | zero => exact .ok rfl
      | succ count =>
          cases first with
          | ok values =>
              subst values
              refine (ih count).bind ?_
              rintro records _ _ _ rfl
              exact .ok rfl
          | error failures => exact .error failures

theorem checkEnd_agree (mismatches : ∀ e, e.isMismatch = true → alike e e) (c : Comparison)
    {actual actual' : Side}
    (agree : SidesAgree alike actual actual') :
    Agree alike Eq (checkEnd c actual) (checkEnd c actual') := by
  unfold checkEnd
  rw [agree.held]
  split
  · exact .ok rfl
  · refine (upTo_agree agree.rest _).bind ?_
    rintro records _ _ _ rfl
    exact .error (mismatches _ rfl)

end Grouped

/-- Feeds that agree item by item compare alike. -/
theorem Comparison.checkGrouped_agree (mismatches : ∀ e, e.isMismatch = true → alike e e)
    (c : Comparison) {expected expected' actual actual' : Feed}
    (wanted : FeedsAgree alike expected expected') (given : FeedsAgree alike actual actual') :
    Agree alike Eq (c.checkGrouped expected actual) (c.checkGrouped expected' actual') := by
  refine (Grouped.Side.start_agree wanted).bind fun _ _ _ _ wantedSides => ?_
  refine (Grouped.Side.start_agree given).bind fun _ _ _ _ givenSides => ?_
  refine (Grouped.checkGroups_agree mismatches c wantedSides givenSides 0).bind ?_
  rintro ⟨groups, expected, actual⟩ ⟨_, expected', actual'⟩ _ _ ⟨rfl, expectedSides, actualSides⟩
  refine (Grouped.checkEnd_agree mismatches c actualSides).bind fun _ _ _ _ _ => ?_
  have sameExpected : expected'.taken = expected.taken := expectedSides.taken
  have sameActual : actual'.taken = actual.taken := actualSides.taken
  simp only [sameExpected, sameActual]
  exact .ok rfl

end Reconcile
