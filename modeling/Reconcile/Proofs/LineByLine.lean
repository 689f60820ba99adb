import Mathlib.Data.List.Basic
import Mathlib.Data.List.TakeWhile
import Reconcile.Proofs.FixtureLines
import Reconcile.Proofs.SerializedRecords

/-!
# Fixtures line by line

Octets are lines that end at line feeds, and what follows the last of these.  Calling for one record
after another gives for each line what that line gives by itself, in order, and then the end.  A
line that cannot be read therefore costs no other line its record.
-/

namespace Reconcile

namespace Text

theorem trim_eq_nil_iff {text : List Char} :
    trim text = [] ↔ ∀ c ∈ text, isBlank c = true := by
  rw [trim, trimEnd, trimStart, List.reverse_eq_nil_iff, List.dropWhile_eq_nil_iff,
    ← List.dropWhile_eq_nil_iff (p := isBlank) (l := text)]
  constructor
  · intro behind
    by_cases none_ : text.dropWhile isBlank = []
    · exact none_
    · -- the first visible character is still there once blanks were dropped in front
      have first := behind _ (List.mem_reverse.mpr (List.head_mem none_))
      rw [List.head_dropWhile_not isBlank none_] at first
      cases first
  · intro none_ c member
    rw [none_] at member
    cases member

end Text

namespace Fixture

/-! ## Lines -/

/-- Octets as lines that end at line feeds, and a last one that ends with the octets. -/
structure AreLines (octets : List UInt8) (ended : List (List UInt8)) (last : List UInt8) :
    Prop where
  together : octets = (ended.flatMap fun line => line ++ [lineFeed]) ++ last
  ended_whole : ∀ line ∈ ended, lineFeed ∉ line
  last_whole : lineFeed ∉ last

/-- The lines of octets; what follows the last line feed is one unless there is nothing. -/
def withLast (ended : List (List UInt8)) (last : List UInt8) : List (List UInt8) :=
  ended ++ if last = [] then [] else [last]

/-- A line of nothing but white space. -/
def IsBlank (line : List UInt8) : Prop :=
  ∃ text, decode? line = some text ∧ ∀ c ∈ text, Text.isBlank c = true

theorem exists_areLines (octets : List UInt8) : ∃ ended last, AreLines octets ended last := by
  induction octets with
  | nil => exact ⟨[], [], rfl, List.forall_mem_nil _, List.not_mem_nil⟩
  | cons octet octets ih =>
      obtain ⟨ended, last, rfl, ended_whole, last_whole⟩ := ih
      by_cases feed : octet = lineFeed
      · subst feed
        exact ⟨[] :: ended, last, rfl, List.forall_mem_cons.mpr ⟨List.not_mem_nil, ended_whole⟩,
          last_whole⟩
      · cases ended with
        | nil =>
            refine ⟨[], octet :: last, rfl, List.forall_mem_nil _, ?_⟩
            exact List.not_mem_cons_of_ne_of_not_mem (Ne.symm feed) last_whole
        | cons line ended =>
            obtain ⟨line_whole, ended_whole⟩ := List.forall_mem_cons.mp ended_whole
            refine ⟨(octet :: line) :: ended, last, rfl, List.forall_mem_cons.mpr ⟨?_, ended_whole⟩,
              last_whole⟩
            exact List.not_mem_cons_of_ne_of_not_mem (Ne.symm feed) line_whole

/-- Octets without a line feed are one line. -/
theorem firstLine_of_whole {line : List UInt8} (whole : lineFeed ∉ line) :
    firstLine line = line ∧ afterLine line = [] := by
  have all := bne_lineFeed_of_mem whole
  refine ⟨List.takeWhile_eq_self_iff.mpr all, ?_⟩
  rw [afterLine, List.dropWhile_eq_nil_iff.mpr all]
  rfl

theorem AreLines.lines_eq {octets last : List UInt8} {ended : List (List UInt8)}
    (cut : AreLines octets ended last) : lines octets = withLast ended last := by
  obtain ⟨rfl, ended_whole, last_whole⟩ := cut
  induction ended with
  | nil =>
      rw [withLast, List.flatMap_nil, List.nil_append, List.nil_append]
      by_cases none_ : last = []
      · rw [if_pos none_, none_, lines_nil]
      · obtain ⟨first, after⟩ := firstLine_of_whole last_whole
        rw [if_neg none_, lines_of_ne_nil none_, first, after, lines_nil]
  | cons line ended ih =>
      obtain ⟨line_whole, ended_whole⟩ := List.forall_mem_cons.mp ended_whole
      have front : ((line :: ended).flatMap fun line => line ++ [lineFeed]) ++ last =
          line ++ lineFeed :: ((ended.flatMap fun line => line ++ [lineFeed]) ++ last) := by
        simp
      obtain ⟨first, after⟩ := firstLine_append line_whole
        ((ended.flatMap fun line => line ++ [lineFeed]) ++ last)
      rw [front, lines_of_ne_nil (by simp), first, after, ih ended_whole]
      rfl

theorem AreLines.whole_of_mem {octets last line : List UInt8} {ended : List (List UInt8)}
    (cut : AreLines octets ended last) (member : line ∈ withLast ended last) :
    lineFeed ∉ line := by
  rcases List.mem_append.mp member with inEnded | isLast
  · exact cut.ended_whole line inEnded
  · split at isLast
    · cases isLast
    · rw [List.mem_singleton.mp isLast]
      exact cut.last_whole

/-- Only white space gives nothing. -/
theorem readLine?_eq_none_iff {line : List UInt8} : readLine? line = none ↔ IsBlank line := by
  unfold readLine? IsBlank
  cases decode? line with
  | none => exact iff_of_false (by simp) (by simp)
  | some text =>
      simp only [Option.some.injEq, exists_eq_left', ← Text.trim_eq_nil_iff]
      split
      · rename_i blank
        exact iff_of_true rfl (List.isEmpty_iff.mp blank)
      · rename_i visible
        exact iff_of_false (Option.some_ne_none _) (mt List.isEmpty_iff.mpr visible)

end Fixture

namespace Serializer

/-! ## Calls -/

/-- The octets that a number of calls for the next record leave. -/
def behind (s : Serializer) : Nat → List UInt8 → List UInt8
  | 0, octets => octets
  | calls + 1, octets =>
      match s.next? octets with
      | none => []
      | some (_, rest) => s.behind calls rest

/-- What the call behind a number of calls gives, none at the end. -/
def call (s : Serializer) (calls : Nat) (octets : List UInt8) :
    Option (Except AccessFault Record) :=
  (s.next? (s.behind calls octets)).map Prod.fst

/-- One call after another gives these results, and then nothing but the end. -/
def Answers (s : Serializer) (octets : List UInt8)
    (results : List (Except AccessFault Record)) : Prop :=
  ∀ calls, s.call calls octets = results[calls]?

section

variable {s : Serializer} {octets rest : List UInt8}

theorem answers_of_next?_none (last : s.next? octets = none) : s.Answers octets [] := by
  intro calls
  cases calls with
  | zero =>
      rw [call, behind, last]
      rfl
  | succ calls =>
      rw [call, behind, last]
      simp only [s.next?_nil]
      rfl

theorem answers_of_next?_some {item : Except AccessFault Record}
    {results : List (Except AccessFault Record)} (next : s.next? octets = some (item, rest))
    (later : s.Answers rest results) : s.Answers octets (item :: results) := by
  intro calls
  cases calls with
  | zero =>
      rw [call, behind, next]
      rfl
  | succ calls =>
      rw [call, behind, next]
      exact later calls

end

/-! ## Lines of JSON -/

/-- What a line gives, as calls for records give it. -/
def ofLine? (line : List UInt8) : Option (Except AccessFault Record) :=
  (Fixture.readLine? line).map fun item => item.mapError Sorting.ofFault

/-- Calls give one result for each line that gives anything. -/
theorem answers_jsonLines (octets : List UInt8) :
    jsonLines.Answers octets ((Fixture.lines octets).filterMap ofLine?) := by
  have all (octets : List UInt8) : (Fixture.lines octets).filterMap ofLine? =
      (Fixture.read octets).map fun item => item.mapError Sorting.ofFault :=
    List.map_filterMap.symm
  induction bound : octets.length using Nat.strongRecOn generalizing octets with
  | ind bound ih =>
      subst bound
      cases next : Fixture.next? octets with
      | none =>
          rw [all, Fixture.read_of_next?_none next]
          exact answers_of_next?_none (next?_jsonLines_eq_none.mpr next)
      | some taken =>
          obtain ⟨item, rest⟩ := taken
          have later := ih _ (Fixture.next?_shorter next) rest rfl
          rw [all] at later
          rw [all, Fixture.read_of_next?_some next]
          refine answers_of_next?_some ?_ later
          change (Fixture.next? octets).map _ = _
          rw [next]
          rfl

theorem ofLine?_eq_none_iff {line : List UInt8} : ofLine? line = none ↔ Fixture.IsBlank line :=
  Option.map_eq_none_iff.trans Fixture.readLine?_eq_none_iff

/-- A line by itself gives what it gives among others. -/
theorem call_of_whole {line : List UInt8} (whole : Fixture.lineFeed ∉ line) :
    jsonLines.call 0 line = ofLine? line := by
  have cut : Fixture.AreLines line [] line := ⟨rfl, List.forall_mem_nil _, whole⟩
  have first := answers_jsonLines line 0
  rw [cut.lines_eq, Fixture.withLast, List.nil_append] at first
  rw [first]
  by_cases none_ : line = []
  · have blank : Fixture.IsBlank [] := ⟨[], Fixture.decode?_flatMap [], List.forall_mem_nil _⟩
    rw [if_pos none_, none_, ofLine?_eq_none_iff.mpr blank]
    rfl
  · rw [if_neg none_, List.filterMap_cons, List.filterMap_nil]
    cases ofLine? line <;> rfl

theorem filterMap_call {octets last : List UInt8} {ended : List (List UInt8)}
    (cut : Fixture.AreLines octets ended last) :
    (Fixture.withLast ended last).filterMap (jsonLines.call 0) =
      (Fixture.lines octets).filterMap ofLine? := by
  rw [cut.lines_eq]
  exact List.filterMap_congr fun line member => call_of_whole (cut.whole_of_mem member)

/-- Octets are lines, and calling for one record after another gives one result for each line that
is not blank, in order: what that line gives by itself.  The end comes once there were as many calls
as lines, at the latest.  Where one line stands instead of another, whatever it is, all other
results are the same. -/
theorem jsonLines_line_by_line (octets : List UInt8) :
    (∃ ended last, Fixture.AreLines octets ended last) ∧
    ∀ ended last, Fixture.AreLines octets ended last →
      let lines := Fixture.withLast ended last
      jsonLines.Answers octets (lines.filterMap (jsonLines.call 0)) ∧
      (∀ line ∈ lines, jsonLines.call 0 line = none ↔ Fixture.IsBlank line) ∧
      (∀ calls, lines.length ≤ calls → jsonLines.call calls octets = none) ∧
      ∀ changed ended' last', Fixture.AreLines changed ended' last' →
        ∀ front line other behind, lines = front ++ line :: behind →
          Fixture.withLast ended' last' = front ++ other :: behind →
          ∃ before after,
            jsonLines.Answers octets (before ++ (jsonLines.call 0 line).toList ++ after) ∧
            jsonLines.Answers changed (before ++ (jsonLines.call 0 other).toList ++ after) := by
  refine ⟨Fixture.exists_areLines octets, fun ended last cut => ?_⟩
  have answers {octets last : List UInt8} {ended : List (List UInt8)}
      (cut : Fixture.AreLines octets ended last) :
      jsonLines.Answers octets ((Fixture.withLast ended last).filterMap (jsonLines.call 0)) := by
    rw [filterMap_call cut]
    exact answers_jsonLines octets
  refine ⟨answers cut, fun line member => ?_, fun calls behind => ?_, ?_⟩
  · rw [call_of_whole (cut.whole_of_mem member), ofLine?_eq_none_iff]
  · rw [answers cut calls, List.getElem?_eq_none_iff]
    exact Nat.le_trans (List.length_filterMap_le _ _) behind
  · intro changed ended' last' cut' front line other behind lines lines'
    have split (line : List UInt8) : (front ++ line :: behind).filterMap (jsonLines.call 0) =
        front.filterMap (jsonLines.call 0) ++ (jsonLines.call 0 line).toList ++
          behind.filterMap (jsonLines.call 0) := by
      simp only [List.filterMap_eq_flatMap_toList, List.flatMap_append, List.flatMap_cons,
        List.append_assoc]
    refine ⟨front.filterMap (jsonLines.call 0), behind.filterMap (jsonLines.call 0), ?_, ?_⟩
    · rw [← split, ← lines]
      exact answers cut
    · rw [← split, ← lines']
      exact answers cut'

end Serializer

end Reconcile
