import Reconcile.Record

/-!
# The order of values

Values and records are linearly ordered, and a value compares equal to nothing but itself.  Values
of one kind follow the order of that kind, so each law is split by kind first.  Records order
lexicographically.
-/

namespace Reconcile

instance : Std.TransOrd Binary64 :=
  inferInstanceAs (Std.TransCmp (compareOn Binary64.rank))

instance : Std.LawfulEqOrd Binary64 where
  compare_self := Binary64.compare_eq_iff.mpr rfl
  eq_of_compare := Binary64.compare_eq_iff.mp

instance : Std.TransOrd Timestamp :=
  inferInstanceAs (Std.TransCmp
    (compareLex (compareOn Timestamp.seconds) (compareOn Timestamp.nanos)))

instance : Std.LawfulEqOrd Timestamp where
  compare_self := Timestamp.compare_eq_iff.mpr rfl
  eq_of_compare := Timestamp.compare_eq_iff.mp

instance : Std.TransOrd Uuid :=
  inferInstanceAs (Std.TransCmp (compareOn Uuid.bits))

instance : Std.LawfulEqOrd Uuid where
  compare_self := Uuid.compare_eq_iff.mpr rfl
  eq_of_compare := Uuid.compare_eq_iff.mp

namespace Value

/-- Values of different kinds order by kind. -/
theorem compare_of_kindRank_ne {a b : Value} (different : a.kindRank ≠ b.kindRank) :
    compare a b = compare a.kindRank b.kindRank := by
  cases a <;> cases b <;> first | rfl | exact absurd rfl different

theorem compare_swap (a b : Value) : compare a b = (compare b a).swap := by
  by_cases kinds : a.kindRank = b.kindRank
  · cases a <;> cases b <;> cases kinds
    case null.null.refl => rfl
    case bool.bool.refl => exact Std.OrientedOrd.eq_swap (α := Bool)
    case int.int.refl => exact Std.OrientedOrd.eq_swap (α := Int32)
    case bigInt.bigInt.refl => exact Std.OrientedOrd.eq_swap (α := Int64)
    case double.double.refl => exact Std.OrientedOrd.eq_swap (α := Binary64)
    case text.text.refl => exact Std.OrientedOrd.eq_swap (α := String)
    case bytes.bytes.refl => exact Std.OrientedOrd.eq_swap (α := List UInt8)
    case uuid.uuid.refl => exact Std.OrientedOrd.eq_swap (α := Uuid)
    case dateTime.dateTime.refl => exact Std.OrientedOrd.eq_swap (α := Timestamp)
  · rw [compare_of_kindRank_ne kinds, compare_of_kindRank_ne (Ne.symm kinds)]
    exact Std.OrientedOrd.eq_swap

theorem kindRank_le_of_isLE {a b : Value} (before : (compare a b).isLE) :
    a.kindRank ≤ b.kindRank := by
  by_cases kinds : a.kindRank = b.kindRank
  · exact Nat.le_of_eq kinds
  · rw [compare_of_kindRank_ne kinds] at before
    exact Nat.isLE_compare.mp before

theorem eq_of_compare {a b : Value} (equal : compare a b = .eq) : a = b := by
  by_cases kinds : a.kindRank = b.kindRank
  · cases a <;> cases b <;> cases kinds
    case null.null.refl => rfl
    case bool.bool.refl => exact congrArg bool (Std.LawfulEqOrd.eq_of_compare equal)
    case int.int.refl => exact congrArg int (Std.LawfulEqOrd.eq_of_compare equal)
    case bigInt.bigInt.refl => exact congrArg bigInt (Std.LawfulEqOrd.eq_of_compare equal)
    case double.double.refl => exact congrArg double (Std.LawfulEqOrd.eq_of_compare equal)
    case text.text.refl => exact congrArg text (Std.LawfulEqOrd.eq_of_compare equal)
    case bytes.bytes.refl => exact congrArg bytes (Std.LawfulEqOrd.eq_of_compare equal)
    case uuid.uuid.refl => exact congrArg uuid (Std.LawfulEqOrd.eq_of_compare equal)
    case dateTime.dateTime.refl => exact congrArg dateTime (Std.LawfulEqOrd.eq_of_compare equal)
  · rw [compare_of_kindRank_ne kinds] at equal
    exact absurd (Std.LawfulEqOrd.eq_of_compare equal) kinds

theorem compare_trans {a b c : Value} (first : (compare a b).isLE) (second : (compare b c).isLE) :
    (compare a c).isLE := by
  have firstKinds := kindRank_le_of_isLE first
  have secondKinds := kindRank_le_of_isLE second
  by_cases kinds : a.kindRank = c.kindRank
  · have same : a.kindRank = b.kindRank := by omega
    cases a <;> cases b <;> cases same <;> cases c <;> cases kinds
    case null.null.refl.null.refl => rfl
    case bool.bool.refl.bool.refl => exact Std.TransOrd.isLE_trans (α := Bool) first second
    case int.int.refl.int.refl => exact Std.TransOrd.isLE_trans (α := Int32) first second
    case bigInt.bigInt.refl.bigInt.refl =>
      exact Std.TransOrd.isLE_trans (α := Int64) first second
    case double.double.refl.double.refl =>
      exact Std.TransOrd.isLE_trans (α := Binary64) first second
    case text.text.refl.text.refl => exact Std.TransOrd.isLE_trans (α := String) first second
    case bytes.bytes.refl.bytes.refl =>
      exact Std.TransOrd.isLE_trans (α := List UInt8) first second
    case uuid.uuid.refl.uuid.refl => exact Std.TransOrd.isLE_trans (α := Uuid) first second
    case dateTime.dateTime.refl.dateTime.refl =>
      exact Std.TransOrd.isLE_trans (α := Timestamp) first second
  · rw [compare_of_kindRank_ne kinds]
    exact Nat.isLE_compare.mpr (Nat.le_trans firstKinds secondKinds)

instance : Std.TransOrd Value where
  eq_swap := compare_swap _ _
  isLE_trans := compare_trans

instance : Std.LawfulEqOrd Value where
  compare_self := Std.ReflOrd.compare_self
  eq_of_compare := eq_of_compare

end Value

instance : Std.TransOrd Record :=
  inferInstanceAs (Std.TransCmp (compareOn Record.fields))

instance : Std.LawfulEqOrd Record where
  compare_self := Std.ReflOrd.compare_self
  eq_of_compare {a b} equal := by
    cases a
    cases b
    exact congrArg Record.mk (Std.LawfulEqOrd.eq_of_compare (α := List Value) equal)

/-! ## Linear orders -/

/-- The laws of a total preorder. -/
structure IsTotalPreorder {α : Type} (order : α → α → Ordering) : Prop where
  refl (a : α) : order a a = .eq
  swap (a b : α) : order b a = (order a b).swap
  total (a b : α) : (order a b).isLE ∨ (order b a).isLE
  trans {a b c : α} : (order a b).isLE → (order b c).isLE → (order a c).isLE

theorem isTotalPreorder_of_transCmp {α : Type} (order : α → α → Ordering) [Std.TransCmp order] :
    IsTotalPreorder order where
  refl _ := Std.ReflCmp.compare_self
  swap _ _ := Std.OrientedCmp.eq_swap
  total a b := by
    have swapped : order b a = (order a b).swap := Std.OrientedCmp.eq_swap
    rw [swapped]
    cases order a b <;> decide
  trans := Std.TransCmp.isLE_trans

/-- Just one of three statements holds. -/
def ExactlyOne (first second third : Prop) : Prop :=
  (first ∧ ¬second ∧ ¬third) ∨ (¬first ∧ second ∧ ¬third) ∨ (¬first ∧ ¬second ∧ third)

/-- The laws of a linear order in which a thing equals nothing but itself. -/
structure IsLinear {α : Type} (order : α → α → Ordering) : Prop where
  exactlyOne (a b : α) : ExactlyOne (order a b = .lt) (order a b = .eq) (order b a = .lt)
  trans {a b c : α} : order a b = .lt → order b c = .lt → order a c = .lt
  swap (a b : α) : order b a = (order a b).swap
  identity {a b : α} : order a b = .eq ↔ a = b

theorem isLinear_of_lawful {α : Type} (order : α → α → Ordering) [Std.TransCmp order]
    [Std.LawfulEqCmp order] : IsLinear order where
  exactlyOne a b := by
    have swapped : order b a = (order a b).swap := Std.OrientedCmp.eq_swap
    rw [swapped]
    unfold ExactlyOne
    cases order a b <;> decide
  trans := Std.TransCmp.lt_trans
  swap _ _ := Std.OrientedCmp.eq_swap
  identity := Std.LawfulEqCmp.compare_eq_iff_eq

/-- A list comes before another in the order of lists just if it does so lexicographically. -/
theorem compareLex_eq_lt_iff {α : Type} {order : α → α → Ordering} [Std.LawfulEqCmp order]
    {first second : List α} :
    List.compareLex order first second = .lt ↔
      List.Lex (fun a b => order a b = .lt) first second := by
  induction first generalizing second with
  | nil =>
      cases second with
      | nil => exact iff_of_false (by rintro ⟨⟩) (by rintro ⟨⟩)
      | cons b second => exact iff_of_true rfl .nil
  | cons a first ih =>
      cases second with
      | nil => exact iff_of_false (by rintro ⟨⟩) (by rintro ⟨⟩)
      | cons b second =>
          rw [List.compareLex_cons_cons, Ordering.then_eq_lt, Std.LawfulEqCmp.compare_eq_iff_eq, ih]
          constructor
          · rintro (before | ⟨rfl, later⟩)
            · exact .rel before
            · exact .cons later
          · intro before
            cases before with
            | rel before => exact Or.inl before
            | cons later => exact Or.inr ⟨rfl, later⟩

namespace Value

/-- Values of one kind with the same content: doubles of the same bits, points in time of the same
second and nanosecond. -/
inductive SameContent : Value → Value → Prop where
  | null : SameContent null null
  | bool (b : Bool) : SameContent (bool b) (bool b)
  | int (n : Int32) : SameContent (int n) (int n)
  | bigInt (n : Int64) : SameContent (bigInt n) (bigInt n)
  | double {x y : Binary64} (bits : x.bits = y.bits) : SameContent (double x) (double y)
  | text (s : String) : SameContent (text s) (text s)
  | bytes (b : List UInt8) : SameContent (bytes b) (bytes b)
  | uuid {u v : Uuid} (bits : u.bits = v.bits) : SameContent (uuid u) (uuid v)
  | dateTime {t t' : Timestamp} (seconds : t.seconds = t'.seconds) (nanos : t.nanos = t'.nanos) :
      SameContent (dateTime t) (dateTime t')

theorem SameContent.refl (a : Value) : a.SameContent a := by
  cases a with
  | null => exact .null
  | bool b => exact .bool b
  | int n => exact .int n
  | bigInt n => exact .bigInt n
  | double x => exact .double rfl
  | text s => exact .text s
  | bytes b => exact .bytes b
  | uuid u => exact .uuid rfl
  | dateTime t => exact .dateTime rfl rfl

theorem SameContent.eq {a b : Value} (same : a.SameContent b) : a = b := by
  cases same with
  | double bits => exact congrArg Value.double (congrArg Binary64.mk bits)
  | uuid bits => exact congrArg Value.uuid (congrArg Uuid.mk bits)
  | dateTime seconds nanos => exact congrArg Value.dateTime (Timestamp.ext seconds nanos)
  | _ => rfl

theorem compare_eq_iff_sameContent {a b : Value} : compare a b = .eq ↔ a.SameContent b := by
  constructor
  · intro equal
    rw [eq_of_compare equal]
    exact .refl b
  · intro same
    rw [same.eq]
    exact Std.ReflOrd.compare_self

theorem fieldType?_eq_of_kindRank_eq {a b : Value} (kinds : a.kindRank = b.kindRank) :
    a.fieldType? = b.fieldType? := by
  cases a <;> cases b <;> cases kinds <;> rfl

/-- Values are linearly ordered, and equal only if they are of one kind and have the same content.
Those of different kinds are ordered by kind, null first.  Records are linearly ordered, too: they
order lexicographically. -/
theorem compare_linear :
    IsLinear (compare : Value → Value → Ordering) ∧
      (∀ a b : Value, compare a b = .eq ↔ a.SameContent b) ∧
      (∀ a b : Value, a.fieldType? ≠ b.fieldType? →
        a.kindRank ≠ b.kindRank ∧ compare a b = compare a.kindRank b.kindRank) ∧
      (∀ a : Value, a ≠ null → compare null a = .lt) ∧
      IsLinear (compare : Record → Record → Ordering) ∧
      ∀ r r' : Record, compare r r' = .lt ↔
        List.Lex (fun a b => compare a b = .lt) r.fields r'.fields := by
  refine ⟨isLinear_of_lawful _, fun _ _ => compare_eq_iff_sameContent, fun a b kinds => ?_,
    fun a some_ => ?_, isLinear_of_lawful _, fun _ _ => compareLex_eq_lt_iff⟩
  · have ranks := mt fieldType?_eq_of_kindRank_eq kinds
    exact ⟨ranks, compare_of_kindRank_ne ranks⟩
  · cases a with
    | null => exact absurd rfl some_
    | _ => rfl

/-- From a negative NaN to a NaN through the zeros, which differ.  A leap second lies between the
seconds around it.  Null and doubles come before points in time. -/
theorem compare_linear_nan :
    let low : Value := double Binary64.nan.neg
    let negativeZero : Value := double Binary64.zero.neg
    let zero : Value := double .zero
    let high : Value := double .nan
    let before : Value := dateTime ⟨59, 999999999, by decide, by decide⟩
    let leap : Value := dateTime ⟨59, 1999999999, by decide, by decide⟩
    let after : Value := dateTime ⟨60, 0, by decide, by decide⟩
    compare low high = .lt ∧ compare zero negativeZero ≠ .eq ∧ compare before after = .lt ∧
      compare before leap ≠ .eq ∧ compare null low = .lt ∧ compare high before = .lt ∧
      compare (Record.mk [low, high]) ⟨[low, high, null]⟩ = .lt := by
  intro low negativeZero zero high before leap after
  obtain ⟨linear, -, kinds, least, -, lexicographic⟩ := compare_linear
  refine ⟨?_, ?_, ?_, ?_, ?_, ?_, ?_⟩
  · have throughZeros : compare negativeZero zero = .lt := by decide
    exact linear.trans (linear.trans (b := negativeZero) (by decide) throughZeros) (by decide)
  · exact fun same => absurd (linear.identity.mp same) (by decide)
  · exact linear.trans (b := leap) (by decide) (by decide)
  · exact fun same => absurd (linear.identity.mp same) (by decide)
  · exact least low (by decide)
  · rw [(kinds high before (by decide)).2]
    rfl
  · exact (lexicographic _ _).mpr (.cons (.cons .nil))

end Value

end Reconcile
