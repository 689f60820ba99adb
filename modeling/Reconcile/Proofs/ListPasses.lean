import Mathlib.Data.List.Forall2
import Reconcile.AccessFault

/-!
# Passes over lists

A function that may give nothing or fail, applied to the items of a list one after another, and lists
that are related item by item.
-/

namespace Reconcile

/-! ## Functions that may give nothing -/

section

variable {α α' β : Type} {f g : α → Option β} {items : List α} {images : List β} {image : β}

theorem mapM_eq_some_iff : items.mapM f = some images ↔ items.map f = images.map some := by
  induction items generalizing images with
  | nil => cases images <;> simp
  | cons first rest ih =>
      simp only [List.mapM_cons, Option.bind_eq_bind, Option.bind_eq_some_iff, Option.pure_def,
        Option.some.injEq, ih]
      cases images with
      | nil => simp
      | cons image images => simp

theorem exists_of_mem_of_mapM (mapped : items.mapM f = some images) (member : image ∈ images) :
    ∃ a ∈ items, f a = some image := by
  have given : some image ∈ images.map some := List.mem_map_of_mem member
  rw [← mapM_eq_some_iff.mp mapped] at given
  exact List.mem_map.mp given

/-- A function that gives the same for all items of a list gives that for each of them. -/
theorem mapM_eq_replicate (all : ∀ a ∈ items, f a = some image) :
    items.mapM f = some (List.replicate items.length image) := by
  rw [mapM_eq_some_iff, List.map_replicate, List.map_eq_replicate_iff]
  exact all

theorem isSome_mapM_iff : (items.mapM f).isSome = true ↔ ∀ a ∈ items, (f a).isSome = true := by
  induction items with
  | nil => simp
  | cons first rest ih =>
      rw [List.mapM_cons, List.forall_mem_cons, ← ih]
      cases f first with
      | none => simp
      | some image => cases rest.mapM f <;> simp

theorem mapM_congr (same : ∀ a ∈ items, f a = g a) : items.mapM f = items.mapM g := by
  induction items with
  | nil => rfl
  | cons first rest ih =>
      obtain ⟨head, tail⟩ := List.forall_mem_cons.mp same
      rw [List.mapM_cons, List.mapM_cons, head, ih tail]

/-- If each item of a list has the image of its partner, so have the lists as a whole. -/
theorem mapM_eq_some_of_forall₂ {related : α → α' → Prop} {g : α' → Option β}
    (step : ∀ {a a' image}, related a a' → f a = some image → g a' = some image)
    {items' : List α'} (paired : List.Forall₂ related items items')
    (mapped : items.mapM f = some images) : items'.mapM g = some images := by
  induction paired generalizing images with
  | nil => exact mapped
  | cons related _ ih =>
      simp only [List.mapM_cons, Option.bind_eq_bind, Option.bind_eq_some_iff, Option.pure_def,
        Option.some.injEq] at mapped ⊢
      obtain ⟨image, first, others, rest, rfl⟩ := mapped
      exact ⟨image, step related first, others, ih rest, rfl⟩

end

/-! ## Functions that may fail -/

section

variable {ε α β γ : Type} {f : α → Except ε β} {g : β → Except ε γ} {items : List α}
  {results : List β} {e : ε}

theorem mapM_ok (items : List α) : items.mapM (Except.ok (ε := ε)) = .ok items := by
  have same : items.mapM (fun x => (pure x : Except ε α)) = pure (items.map fun x => x) :=
    List.mapM_pure
  rwa [List.map_id'] at same

theorem forall₂_of_mapM_eq_ok (done : items.mapM f = .ok results) :
    List.Forall₂ (fun a b => f a = .ok b) items results := by
  induction items generalizing results with
  | nil =>
      cases done
      exact .nil
  | cons a items ih =>
      rw [List.mapM_cons] at done
      obtain ⟨b, first, done⟩ := exists_of_bind_eq_ok done
      obtain ⟨others, later, same⟩ := exists_of_bind_eq_ok done
      cases same
      exact .cons first (ih later)

theorem eq_none_of_tells {result : Except ε α} {failure : Option ε} {a : α}
    (tells : ∀ e, result = .error e ↔ failure = some e) (done : result = .ok a) :
    failure = none := by
  cases failure with
  | none => rfl
  | some e => cases done.symm.trans ((tells e).mpr rfl)

/-- A pass that fails where something is known to stand in its way fails with the first of that. -/
theorem mapM_eq_error_iff {fault? : α → Option ε}
    (tells : List.Forall₂ (fun a b => ∀ e, g b = .error e ↔ fault? a = some e) items results) :
    results.mapM g = .error e ↔ items.findSome? fault? = some e := by
  induction tells with
  | nil => exact iff_of_false (fun failed => by cases failed) (by simp)
  | @cons a b items results first _ ih =>
      rw [List.mapM_cons, List.findSome?_cons]
      cases result : g b with
      | error e' =>
          rw [(first e').mp result]
          simp [bind, Except.bind]
      | ok c =>
          rw [eq_none_of_tells first result, ← ih]
          cases results.mapM g <;> simp [bind, Except.bind, pure, Except.pure]

theorem exists_of_mapM_eq_error (failed : items.mapM f = .error e) :
    ∃ item ∈ items, f item = .error e := by
  induction items with
  | nil => cases failed
  | cons item items ih =>
      rw [List.mapM_cons] at failed
      cases first : f item with
      | error e' =>
          rw [first] at failed
          cases failed
          exact ⟨item, List.mem_cons_self, first⟩
      | ok b =>
          cases later : items.mapM f with
          | error e' =>
              rw [first, later] at failed
              cases failed
              obtain ⟨other, member, same⟩ := ih later
              exact ⟨other, List.mem_cons_of_mem item member, same⟩
          | ok results =>
              rw [first, later] at failed
              cases failed

end

/-! ## Related lists -/

section

variable {α β γ : Type} {R : α → β → Prop} {S : β → γ → Prop} {T : α → γ → Prop}

theorem exists_of_forall₂_left {items : List α} {others : List β}
    (all : List.Forall₂ R items others) {a : α} (member : a ∈ items) : ∃ b ∈ others, R a b := by
  induction all with
  | nil => cases member
  | cons first _ ih =>
      rcases List.mem_cons.mp member with rfl | later
      · exact ⟨_, List.mem_cons_self, first⟩
      · obtain ⟨b, inside, related⟩ := ih later
        exact ⟨b, List.mem_cons_of_mem _ inside, related⟩

theorem exists_of_forall₂_right {items : List α} {others : List β}
    (all : List.Forall₂ R items others) {b : β} (member : b ∈ others) : ∃ a ∈ items, R a b :=
  exists_of_forall₂_left all.flip member

theorem forall₂_comp (both : ∀ {a b c}, R a b → S b c → T a c) {items : List α}
    {between : List β} {last : List γ} (first : List.Forall₂ R items between)
    (second : List.Forall₂ S between last) : List.Forall₂ T items last := by
  induction first generalizing last with
  | nil =>
      cases second
      exact .nil
  | cons related _ ih =>
      obtain _ | ⟨next, others⟩ := second
      exact .cons (both related next) (ih others)

/-- Lists that are related item by item are so at each place, also after a change there. -/
theorem forall₂_at {items : List α} {items' : List β} (all : List.Forall₂ R items items')
    (number : Nat) :
    (items[number]? = none ∧ items'[number]? = none) ∨
      ∃ item item', items[number]? = some item ∧ items'[number]? = some item' ∧
        R item item' ∧ ∀ next next', R next next' →
          List.Forall₂ R (items.set number next) (items'.set number next') := by
  induction all generalizing number with
  | nil => exact Or.inl ⟨rfl, rfl⟩
  | @cons item item' items items' first rest ih =>
      cases number with
      | zero => exact Or.inr ⟨item, item', rfl, rfl, first, fun _ _ changed => .cons changed rest⟩
      | succ number =>
          rcases ih number with ⟨out, out'⟩ | ⟨other, other', found, found', here, changed⟩
          · exact Or.inl ⟨out, out'⟩
          · exact Or.inr ⟨other, other', found, found', here,
              fun next next' after => .cons first (changed next next' after)⟩

end

/-! ## Names that give nothing -/

section

variable {α β : Type} [DecidableEq α] {R : α → List β → Prop} {names : List α}
  {parts : List (List β)} {name : α}

theorem exists_forall₂_filter (all : List.Forall₂ R names parts)
    (nothing : ∀ part, R name part → part = []) :
    ∃ others, List.Forall₂ R (names.filter (· ≠ name)) others ∧
      others.flatten = parts.flatten := by
  induction all with
  | nil => exact ⟨[], List.Forall₂.nil, rfl⟩
  | @cons first part names parts here _ ih =>
      obtain ⟨others, given, same⟩ := ih
      by_cases own : first = name
      · subst own
        rw [List.filter_cons_of_neg (by simp), nothing part here]
        exact ⟨others, given, same⟩
      · rw [List.filter_cons_of_pos (by simpa using own)]
        refine ⟨part :: others, List.Forall₂.cons here given, ?_⟩
        rw [List.flatten_cons, List.flatten_cons, same]

theorem exists_forall₂_of_filter (all : List.Forall₂ R (names.filter (· ≠ name)) parts)
    (nothing : R name []) :
    ∃ others, List.Forall₂ R names others ∧ others.flatten = parts.flatten := by
  induction names generalizing parts with
  | nil => exact ⟨parts, all, rfl⟩
  | cons first names ih =>
      by_cases own : first = name
      · subst own
        rw [List.filter_cons_of_neg (by simp)] at all
        obtain ⟨others, given, same⟩ := ih all
        exact ⟨[] :: others, List.Forall₂.cons nothing given, same⟩
      · rw [List.filter_cons_of_pos (by simpa using own)] at all
        cases all with
        | @cons _ part _ parts here later =>
            obtain ⟨others, given, same⟩ := ih later
            refine ⟨part :: others, List.Forall₂.cons here given, ?_⟩
            rw [List.flatten_cons, List.flatten_cons, same]

end

end Reconcile
