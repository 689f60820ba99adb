import Mathlib.Data.List.Basic
import Mathlib.Data.List.Induction
import Reconcile.Proofs.ViewEffects

/-!
# Histories of handle sets

Handles are added to several sets, which are closed and given up in any order and any number of
times.  After any such history each handle has been closed once if its set was closed or given up
since, and is held otherwise; what was held before a set was closed makes no difference to it
afterwards.
-/

namespace Reconcile

/-! ## Several sets -/

/-- What is done with the set of an owner.  A set that is dropped leaves room for a new one. -/
inductive SetUse where
  | add (owner : Nat) (h : Handle)
  | close (owner : Nat)
  | drop (owner : Nat)

namespace SetUse

def owner : SetUse → Nat
  | add owner _ => owner
  | close owner => owner
  | drop owner => owner

/-- Whether nothing is held in the set of an owner afterwards. -/
def ends (owner : Nat) : SetUse → Bool
  | add _ _ => false
  | close other => other = owner
  | drop other => other = owner

/-- The handles that were added to the sets of some owners, in order: those whose set was closed or
dropped since, or those whose set was not. -/
def added (owners : Nat → Bool) (ended : Bool) : List SetUse → List Handle
  | [] => []
  | add owner h :: later =>
      if owners owner && later.any (ends owner) == ended then h :: added owners ended later
      else added owners ended later
  | close _ :: later => added owners ended later
  | drop _ :: later => added owners ended later

end SetUse

/-- The sets of all owners, and the handles that have been closed so far, in order. -/
structure Holdings where
  held : Nat → HandleSet
  closed : List Handle

namespace Holdings

open SetUse

def new : Holdings := ⟨fun _ => .empty, []⟩

def put (s : Holdings) (owner : Nat) (set : HandleSet) : Holdings :=
  { s with held := fun other => if other = owner then set else s.held other }

/-- Uses a set; gives how that ends, and what it leaves. -/
def use (s : Holdings) : SetUse → Except Failure Unit × Holdings
  | .add owner h => (.ok (), s.put owner ((s.held owner).add h))
  | .close owner =>
      let (result, left, closed) := (s.held owner).close s.closed
      (result, { s.put owner left with closed := closed })
  | .drop owner =>
      (.ok (), { s.put owner .empty with closed := (s.held owner).drop s.closed })

def run (s : Holdings) (history : List SetUse) : Holdings :=
  history.foldl (fun s use => (s.use use).2) s

/-- What the uses of one owner's set come to, one after another: how each of them ends, and which
handles it closes. -/
def outcomes (owner : Nat) : Holdings → List SetUse → List (Except Failure Unit × List Handle)
  | _, [] => []
  | s, use :: later =>
      let after := (s.use use).2
      if use.owner = owner then
        ((s.use use).1, after.closed.drop s.closed.length) :: outcomes owner after later
      else outcomes owner after later

/-! ## One use -/

/-- The holdings once the set of an owner was closed. -/
def released (s : Holdings) (owner : Nat) : Holdings :=
  { s.put owner .empty with closed := s.closed ++ (s.held owner).handles }

theorem use_close (s : Holdings) (owner : Nat) :
    s.use (.close owner) = ((s.held owner).closing, s.released owner) := by
  rw [use, HandleSet.close_eq]
  rfl

theorem use_drop (s : Holdings) (owner : Nat) :
    s.use (.drop owner) = (.ok (), s.released owner) := by
  rw [use, HandleSet.drop, HandleSet.close_eq]
  rfl

theorem held_put (s : Holdings) (owner : Nat) (set : HandleSet) :
    (s.put owner set).held owner = set :=
  if_pos rfl

theorem held_put_of_ne (s : Holdings) {owner other : Nat} (apart : other ≠ owner)
    (set : HandleSet) : (s.put owner set).held other = s.held other :=
  if_neg apart

theorem use_of_ends (s : Holdings) {owner : Nat} {use : SetUse} (ends : use.ends owner = true) :
    (s.use use).2 = s.released owner := by
  cases use with
  | add other h => cases ends
  | close other =>
      obtain rfl := of_decide_eq_true ends
      rw [use_close]
  | drop other =>
      obtain rfl := of_decide_eq_true ends
      rw [use_drop]

/-- A use of another set is not noticed. -/
theorem held_use_of_ne (s : Holdings) {owner : Nat} {use : SetUse} (apart : use.owner ≠ owner) :
    (s.use use).2.held owner = s.held owner := by
  cases use with
  | add other h => exact held_put_of_ne s (Ne.symm apart) _
  | close other =>
      rw [use_close]
      exact held_put_of_ne s (Ne.symm apart) _
  | drop other =>
      rw [use_drop]
      exact held_put_of_ne s (Ne.symm apart) _

/-- How a use ends, and which handles it closes, is up to the set that is used. -/
theorem use_alike {s s' : Holdings} {use : SetUse}
    (same : s'.held use.owner = s.held use.owner) :
    (s'.use use).1 = (s.use use).1 ∧
      (s'.use use).2.closed.drop s'.closed.length = (s.use use).2.closed.drop s.closed.length ∧
      (s'.use use).2.held use.owner = (s.use use).2.held use.owner := by
  cases use with
  | add owner h =>
      change s'.held owner = s.held owner at same
      simp [Holdings.use, SetUse.owner, put, same]
  | close owner =>
      change s'.held owner = s.held owner at same
      simp [use_close, released, SetUse.owner, put, same]
  | drop owner =>
      change s'.held owner = s.held owner at same
      simp [use_drop, released, SetUse.owner, put, same]

/-- Sets that hold the same are used in the same way. -/
theorem outcomes_alike {owner : Nat} {s s' : Holdings} (same : s'.held owner = s.held owner)
    (later : List SetUse) : outcomes owner s' later = outcomes owner s later := by
  induction later generalizing s s' with
  | nil => rfl
  | cons use later ih =>
      rw [outcomes, outcomes]
      by_cases own : use.owner = owner
      · subst own
        obtain ⟨result, closes, left⟩ := use_alike same
        simp only [if_true, result, closes, ih left]
      · simp only [own, if_false]
        refine ih ?_
        rw [held_use_of_ne s' own, held_use_of_ne s own, same]

end Holdings

namespace SetUse

/-! ## One use more -/

variable {owners : Nat → Bool} {ended : Bool} {history : List SetUse} {owner : Nat}

theorem added_true_of_not_ends (open_ : history.any (ends owner) = false) :
    added (· = owner) true history = [] := by
  induction history with
  | nil => rfl
  | cons use later ih =>
      rw [List.any_cons, Bool.or_eq_false_iff] at open_
      cases use with
      | add other h =>
          rw [added, ih open_.2]
          by_cases own : other = owner
          · simp [own, open_.2]
          · simp [own]
      | close other => exact ih open_.2
      | drop other => exact ih open_.2

/-- An added handle is held. -/
theorem added_concat_add (h : Handle) :
    added owners ended (history ++ [add owner h]) =
      added owners ended history ++ if owners owner && !ended then [h] else [] := by
  induction history with
  | nil =>
      simp only [List.nil_append, added, List.any_nil]
      cases owners owner <;> cases ended <;> rfl
  | cons use later ih =>
      cases use with
      | add other h' =>
          rw [List.cons_append, added, added, ih, List.any_append]
          simp only [List.any_cons, List.any_nil, ends, Bool.or_false]
          split <;> rfl
      | close other => exact ih
      | drop other => exact ih

variable {use : SetUse}

theorem ends_eq (ended : use.ends owner = true) (other : Nat) :
    use.ends other = decide (other = owner) := by
  cases use with
  | add other h => cases ended
  | close own =>
      obtain rfl := of_decide_eq_true ended
      exact decide_eq_decide.mpr eq_comm
  | drop own =>
      obtain rfl := of_decide_eq_true ended
      exact decide_eq_decide.mpr eq_comm

theorem any_concat (use : SetUse) (later : List SetUse) (other : Nat) :
    (later ++ [use]).any (ends other) = (later.any (ends other) || use.ends other) := by
  rw [List.any_append, List.any_cons, List.any_nil, Bool.or_false]

theorem added_of_ends (ends : use.ends owner = true) : added owners ended [use] = [] := by
  cases use with
  | add other h => cases ends
  | close other => rfl
  | drop other => rfl

/-- Ending one set is not noticed by others. -/
theorem added_concat_of_apart (ends : use.ends owner = true) (apart : owners owner = false) :
    added owners ended (history ++ [use]) = added owners ended history := by
  induction history with
  | nil => exact added_of_ends ends
  | cons first later ih =>
      cases first with
      | add other h =>
          rw [List.cons_append, added, added, ih, any_concat, ends_eq ends]
          by_cases own : other = owner
          · rw [own, apart, Bool.false_and, Bool.false_and]
          · rw [decide_eq_false own, Bool.or_false]
      | close other => exact ih
      | drop other => exact ih

/-- Nothing is held in a set that was ended. -/
theorem added_false_concat (ends : use.ends owner = true) :
    added (· = owner) false (history ++ [use]) = [] := by
  induction history with
  | nil => exact added_of_ends ends
  | cons first later ih =>
      cases first with
      | add other h =>
          rw [List.cons_append, added, ih, any_concat, ends_eq ends]
          by_cases own : other = owner
          · simp [own]
          · simp [own]
      | close other => exact ih
      | drop other => exact ih

/-- What was held in a set that is ended comes behind what was closed with it before. -/
theorem added_true_concat (ends : use.ends owner = true) :
    added (· = owner) true (history ++ [use]) =
      added (· = owner) true history ++ added (· = owner) false history := by
  induction history with
  | nil => exact added_of_ends ends
  | cons first later ih =>
      cases first with
      | add other h =>
          rw [List.cons_append, added, added, added, ih, any_concat, ends_eq ends]
          by_cases own : other = owner
          · subst own
            cases closed : later.any (SetUse.ends other) with
            | true => simp
            | false =>
                -- no handle of this set was closed yet, so that this one is the first
                simp [added_true_of_not_ends closed]
          · simp [own]
      | close other => exact ih
      | drop other => exact ih

/-- Ending a set closes what was held in it, and nothing else. -/
theorem added_all_concat (ends : use.ends owner = true) :
    (added (fun _ => true) true (history ++ [use])).Perm
      (added (fun _ => true) true history ++ added (· = owner) false history) := by
  induction history with
  | nil =>
      rw [List.nil_append, added_of_ends ends]
      exact .nil
  | cons first later ih =>
      cases first with
      | add other h =>
          rw [List.cons_append, added, added, added, any_concat, ends_eq ends]
          by_cases own : other = owner
          · subst own
            cases later.any (SetUse.ends other) with
            | true => simpa using ih
            | false => simpa using (ih.cons h).trans List.perm_middle.symm
          · cases later.any (SetUse.ends other) with
            | true => simpa [own] using ih
            | false => simpa [own] using ih
      | close other => exact ih
      | drop other => exact ih

end SetUse

namespace Holdings

open SetUse

/-! ## Histories -/

theorem run_concat (s : Holdings) (history : List SetUse) (use : SetUse) :
    s.run (history ++ [use]) = ((s.run history).use use).2 := by
  rw [run, List.foldl_append]
  rfl

/-- What a history leaves in the sets and has closed. -/
structure Follows (s : Holdings) (history : List SetUse) : Prop where
  held : ∀ owner, (s.held owner).handles = added (· = owner) false history
  closed : s.closed.Perm (added (fun _ => true) true history)
  inOrder : ∀ owner, (added (· = owner) true history).Sublist s.closed

variable {s : Holdings} {history : List SetUse}

theorem Follows.add (follows : s.Follows history) (owner : Nat) (h : Handle) :
    (s.use (.add owner h)).2.Follows (history ++ [.add owner h]) where
  held other := by
    rw [added_concat_add]
    by_cases own : other = owner
    · subst own
      rw [use]
      simp only [held_put, HandleSet.add, follows.held, decide_true]
      rfl
    · rw [held_use_of_ne s (Ne.symm own), follows.held]
      simp [Ne.symm own]
  closed := by
    rw [added_concat_add, Bool.not_true, Bool.and_false, if_neg Bool.false_ne_true, List.append_nil]
    exact follows.closed
  inOrder other := by
    rw [added_concat_add, Bool.not_true, Bool.and_false, if_neg Bool.false_ne_true, List.append_nil]
    exact follows.inOrder other

theorem Follows.release (follows : s.Follows history) {owner : Nat} {use : SetUse}
    (ends : use.ends owner = true) : (s.released owner).Follows (history ++ [use]) where
  held other := by
    by_cases own : other = owner
    · subst own
      rw [added_false_concat ends]
      exact congrArg HandleSet.handles (held_put s other .empty)
    · rw [added_concat_of_apart ends (decide_eq_false (Ne.symm own)), ← follows.held]
      exact congrArg HandleSet.handles (held_put_of_ne s own .empty)
  closed := by
    refine .trans ?_ (added_all_concat ends).symm
    rw [released, follows.held]
    exact follows.closed.append_right _
  inOrder other := by
    by_cases own : other = owner
    · subst own
      rw [added_true_concat ends, released, follows.held]
      exact (follows.inOrder other).append (.refl _)
    · rw [added_concat_of_apart ends (decide_eq_false (Ne.symm own)), released]
      exact (follows.inOrder other).trans (List.sublist_append_left _ _)

/-- One use more. -/
theorem Follows.use (follows : s.Follows history) (use : SetUse) :
    (s.use use).2.Follows (history ++ [use]) := by
  have self (owner : Nat) : decide (owner = owner) = true := decide_eq_true rfl
  cases use with
  | add owner h => exact follows.add owner h
  | close owner =>
      rw [use_close]
      exact follows.release (self owner)
  | drop owner =>
      rw [use_drop]
      exact follows.release (self owner)

theorem follows_run (history : List SetUse) : (new.run history).Follows history := by
  induction history using List.reverseRecOn with
  | nil => exact ⟨fun _ => rfl, .nil, fun _ => .refl _⟩
  | append_singleton history use ih =>
      rw [run_concat]
      exact ih.use use

/-- How closing a set ends, by the handles in it. -/
theorem closing_cases (set : HandleSet) :
    (set.closing = .ok () ↔ ∀ h ∈ set.handles, h.problem = none) ∧
      ∀ problems, set.closing = .error (.close problems) ↔
        problems ≠ [] ∧ problems = set.handles.filterMap Handle.problem := by
  have problems_eq : set.problems = set.handles.filterMap Handle.problem :=
    (List.filterMap_eq_flatMap_toList _ _).symm
  rw [← HandleSet.problems_eq_nil_iff, ← problems_eq]
  by_cases sound : set.problems = []
  · rw [HandleSet.closing_of_problems sound, sound]
    exact ⟨iff_of_true rfl rfl, fun _ => iff_of_false (by rintro ⟨⟩) fun both => both.1 both.2⟩
  · rw [HandleSet.closing_of_problem sound]
    refine ⟨iff_of_false (by rintro ⟨⟩) sound, fun problems => ?_⟩
    constructor
    · rintro ⟨⟩
      exact ⟨sound, rfl⟩
    · rintro ⟨-, rfl⟩
      rfl

/-- After any history of several sets, each set holds the handles that were added to it since it was
last closed or dropped, and all others have been closed, each once, those of one set in the order in
which they were added.  Closing or dropping a set closes what it holds, in order.  Closing goes well
just if these handles do, and else tells all of their problems.  Afterwards the set is used as if it
were new. -/
theorem run_closes_once (history : List SetUse) :
    let s := new.run history
    (∀ owner, (s.held owner).handles = added (· = owner) false history) ∧
    s.closed.Perm (added (fun _ => true) true history) ∧
    (∀ owner, (added (· = owner) true history).Sublist s.closed) ∧
    ∀ owner,
      let waiting := added (· = owner) false history
      let result := (s.use (.close owner)).1
      (result = .ok () ↔ ∀ h ∈ waiting, h.problem = none) ∧
      (∀ problems, result = .error (.close problems) ↔
        problems ≠ [] ∧ problems = waiting.filterMap Handle.problem) ∧
      ∀ use : SetUse, use.ends owner = true →
        let after := (s.use use).2
        after.closed = s.closed ++ waiting ∧ after.held owner = .empty ∧
        (∀ other, other ≠ owner → after.held other = s.held other) ∧
        ∀ later, outcomes owner after later = outcomes owner new later := by
  intro s
  have follows : s.Follows history := follows_run history
  refine ⟨follows.held, follows.closed, follows.inOrder, fun owner => ?_⟩
  intro waiting result
  have held : (s.held owner).handles = waiting := follows.held owner
  have closing : result = (s.held owner).closing := congrArg Prod.fst (use_close s owner)
  obtain ⟨sound, unsound⟩ := closing_cases (s.held owner)
  rw [held, ← closing] at sound unsound
  refine ⟨sound, unsound, fun use ends => ?_⟩
  intro after
  have left : after = s.released owner := use_of_ends s ends
  have emptied : after.held owner = .empty := by
    rw [left]
    exact held_put s owner .empty
  refine ⟨?_, emptied, fun other apart => ?_, outcomes_alike emptied⟩
  · rw [left, released, held]
  · rw [left]
    exact held_put_of_ne s apart .empty

end Holdings

end Reconcile
