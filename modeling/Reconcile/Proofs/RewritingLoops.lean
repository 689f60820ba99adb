import Reconcile.Proofs.DrawnTexts
import Reconcile.Proofs.Occurrences
import Reconcile.Proofs.TextRanges

/-!
# Rewriting loops

Rewriting a pattern in place comes to an end, whatever is drawn, and stays within the text.  The loop
for identifiers makes an iteration for each placeholder that there is, since none of them brings a new
one.  The loop for digits has less text behind its position after every iteration, even if the whole
text gets longer.  What is left in the end is the filled pattern.
-/

namespace Reconcile

namespace Pattern

open Text (octets octets_append find?_ofList slice_octets slice_behind replaceRange_octets)

/-! ## Loops -/

namespace IsRun

variable {ε α : Type} {iteration : α → Except ε (Option α)} {s : α} {states : List α}

/-- A loop ends or stops if each of its iterations makes some size smaller.  What each of them keeps
holds at last, and what relates two states in turn relates all of them. -/
theorem exists_of_size (invariant : α → Prop) (allowed : ε → Prop) {R : α → α → Prop}
    {size : α → Nat} (smaller : ∀ s t, R s t → size t < size s)
    (goes : ∀ s, invariant s → iteration s = .ok none ∨
      (∃ stop, iteration s = .error stop ∧ allowed stop) ∨
      ∃ t, iteration s = .ok (some t) ∧ invariant t ∧ R s t)
    (holds : invariant s) :
    ∃ states outcome, IsRun iteration s states outcome ∧
      (∀ stop, outcome = .error stop → allowed stop) ∧ invariant (states.getLastD s) ∧
      (s :: states).IsChain R := by
  induction given : size s using Nat.strongRecOn generalizing s with
  | ind bound ih =>
      subst given
      rcases goes s holds with ends | ⟨stop, stops, fits⟩ | ⟨t, step, still, related⟩
      · exact ⟨[], .ok (), .ended ends, nofun, holds, .singleton s⟩
      · refine ⟨[], .error stop, .stopped stops, fun other same => ?_, holds, .singleton s⟩
        rwa [← Except.error.inj same]
      · obtain ⟨states, outcome, run, fits, last, chain⟩ := ih _ (smaller s t related) still rfl
        refine ⟨t :: states, outcome, .next step run, fits, ?_, .cons_cons related chain⟩
        rwa [List.getLastD_cons]

/-- A loop that counts down to its end has as many iterations. -/
theorem length_eq (count : α → Nat) (ended : ∀ s, iteration s = .ok none → count s = 0)
    (run : IsRun iteration s states (.ok ()))
    (chain : (s :: states).IsChain fun s t => count s = count t + 1) :
    states.length = count s := by
  generalize all : (.ok () : Except ε Unit) = outcome at run
  induction run with
  | ended ends => exact (ended _ ends).symm
  | stopped _ => cases all
  | next step _ ih =>
      obtain ⟨counts, others⟩ := List.isChain_cons_cons.mp chain
      rw [List.length_cons, ih others all, counts]

end IsRun

/-- Whether rewriting stops for want of digits and not at a range: so many may not be drawn. -/
def Stop.IsUndrawn {σ : Type} (randomness : Randomness σ) : Stop → Prop
  | .range _ => False
  | .undrawn count => ∃ source, ((randomness.digits count).run.run source).1 = none

namespace Rewriting

variable {σ : Type} {s : Rewriting σ}

/-! ## Identifiers -/

/-- How many identifiers are still to be put. -/
def missing (s : Rewriting σ) : Nat := (places uuidMark s.text.toList).length

/-- Whether the first placeholder of an identifier is gone and none has come: the others have moved by
the thirty characters that an identifier is longer. -/
def TakesUuid (s t : Rewriting σ) : Prop :=
  ∃ place others, places uuidMark s.text.toList = place :: others ∧
    places uuidMark t.text.toList = others.map (· + 30)

theorem TakesUuid.missing_eq {t : Rewriting σ} (takes : TakesUuid s t) :
    s.missing = t.missing + 1 := by
  obtain ⟨place, others, here, there⟩ := takes
  rw [missing, missing, here, there, List.length_cons, List.length_map]

/-- A rewriting with an identifier between two parts of its text. -/
def withUuid (randomness : Randomness σ) (s : Rewriting σ) (before behind : List Char) :
    Rewriting σ :=
  ⟨.ofList (before ++ (randomness.uuid.run s.source).1.text ++ behind), s.position,
    (randomness.uuid.run s.source).2⟩

theorem putUuid_cases (randomness : Randomness σ) (s : Rewriting σ) :
    (split? uuidMark s.text.toList = none ∧ s.putUuid randomness = .ok none) ∨
      ∃ before behind, split? uuidMark s.text.toList = some (before, behind) ∧
        s.putUuid randomness = .ok (some (s.withUuid randomness before behind)) := by
  cases found : split? uuidMark s.text.toList with
  | none =>
      refine .inl ⟨rfl, ?_⟩
      rw [putUuid, Text.find?, found]
      rfl
  | some parts =>
      obtain ⟨before, behind⟩ := parts
      refine .inr ⟨before, behind, rfl, ?_⟩
      have search : Text.find? uuidMark s.text = some (octets before) := by
        rw [Text.find?, found]
        rfl
      have whole : s.text = .ofList (before ++ uuidMark ++ behind) := by
        rw [← eq_of_split? found, String.ofList_toList]
      cases drawn : randomness.uuid.run s.source with
      | mk uuid source =>
          have replaced := replaceRange_octets before uuidMark behind uuid.text
          rw [← whole, octets_append] at replaced
          simp only [putUuid, withUuid, search, drawn, replaced]
          rfl

theorem uuidMark_eq : uuidMark = '{' :: "uuid\x7d".toList := by decide

/-- An identifier makes no placeholder with what is around it. -/
theorem isPassed_uuid {text before behind : List Char}
    (found : split? uuidMark text = some (before, behind)) (uuid : Uuid) :
    IsPassed uuidMark (before ++ uuid.text) behind := by
  have ends : uuidMark.getLast? = some '}' := by decide
  have closing : '}' ∉ uuid.text := Uuid.not_mem_text (by decide) (by decide) uuid
  have shorter : uuidMark.length ≤ uuid.text.length := by
    change 6 ≤ 36
    decide
  exact isPassed_replaced uuidMark_eq ends (Uuid.brace_not_mem_text uuid) closing shorter found

theorem takesUuid_withUuid (randomness : Randomness σ) {before behind : List Char}
    (found : split? uuidMark s.text.toList = some (before, behind)) :
    TakesUuid s (s.withUuid randomness before behind) := by
  refine ⟨_, _, places_of_some uuidMark_eq (by decide) found, ?_⟩
  rw [withUuid, String.toList_ofList, places_append (isPassed_uuid found _), List.map_map,
    List.length_append]
  refine List.map_congr_left fun place _ => ?_
  change place + (before.length + 36) = place + (before.length + 6) + 30
  omega

theorem missing_of_putUuid {randomness : Randomness σ} (ends : s.putUuid randomness = .ok none) :
    s.missing = 0 := by
  rcases putUuid_cases randomness s with ⟨found, -⟩ | ⟨before, behind, -, step⟩
  · rw [missing, places_of_none (by decide) found, List.length_nil]
  · rw [step] at ends
    cases ends

/-- The loop for identifiers ends after as many iterations as there are placeholders.  Each of them
searches the whole text. -/
theorem exists_uuids_run (randomness : Randomness σ) (first : s.position = 0) :
    ∃ uuids, IsRun (putUuid randomness) s uuids (.ok ()) ∧ (uuids.getLastD s).position = 0 ∧
      uuids.length = s.missing ∧ (s :: uuids).IsChain TakesUuid := by
  have goes (s : Rewriting σ) (first : s.position = 0) : s.putUuid randomness = .ok none ∨
      (∃ fault, s.putUuid randomness = .error fault ∧ False) ∨
      ∃ t, s.putUuid randomness = .ok (some t) ∧ t.position = 0 ∧ TakesUuid s t := by
    rcases putUuid_cases randomness s with ⟨-, ends⟩ | ⟨before, behind, found, step⟩
    · exact .inl ends
    · exact .inr (.inr ⟨_, step, first, takesUuid_withUuid randomness found⟩)
  -- The text only gets longer and the search never moves, so the placeholders are counted.
  have fewer (s t : Rewriting σ) (takes : TakesUuid s t) : t.missing < s.missing := by
    rw [takes.missing_eq]
    exact Nat.lt_succ_self _
  obtain ⟨uuids, outcome, run, never, last, chain⟩ :=
    IsRun.exists_of_size (fun s : Rewriting σ => s.position = 0) (fun _ => False) fewer goes first
  cases outcome with
  | error fault => exact absurd rfl (never fault)
  | ok nothing =>
      have many := run.length_eq missing (fun _ => missing_of_putUuid)
        (chain.imp fun _ _ => TakesUuid.missing_eq)
      exact ⟨uuids, run, last, many, chain⟩

/-! ## Digits -/

/-- A rewriting whose position is where a part of its text ends. -/
def placed (done text : List Char) (source : σ) : Rewriting σ :=
  ⟨.ofList (done ++ text), octets done, source⟩

theorem behind_placed (done text : List Char) (source : σ) :
    (placed done text source).behind = octets text := by
  change octets (done ++ text) - octets done = octets text
  rw [octets_append, Nat.add_sub_cancel_left]

theorem eq_placed_of_position (first : s.position = 0) :
    s = placed [] s.text.toList s.source := by
  obtain ⟨text, position, source⟩ := s
  rw [placed, List.nil_append, String.ofList_toList]
  exact congrArg (fun position => Rewriting.mk text position source) first

section

variable {done text before behind inside rest : List Char}

theorem placeholder?_of_none (found : split? digitsMark text = none) (source : σ) :
    (placed done text source).placeholder? = .ok none := by
  have search : Text.find? digitsMark (.ofList text) = none := by
    rw [find?_ofList, found]
    rfl
  simp only [placeholder?, placed, slice_behind, search, bind, Except.bind]
  rfl

/-- The closing brace of a placeholder of digits is found behind its mark. -/
theorem find?_closing (behind : List Char) :
    Text.find? ['}'] (.ofList (digitsMark ++ behind)) =
      (split? ['}'] behind).map fun parts => octets (digitsMark ++ parts.1) := by
  have passed : IsPassed ['}'] digitsMark behind := isPassed_of_not_mem (by decide) behind
  rw [find?_ofList, passed, Option.map_map]
  rfl

theorem placeholder?_of_some (found : split? digitsMark text = some (before, behind))
    (source : σ) :
    (placed done text source).placeholder? =
      match split? ['}'] behind with
      | none => .ok none
      | some (inside, _) =>
          .ok (some (octets (done ++ before), octets (done ++ before ++ (digitsMark ++ inside)),
            .ofList inside)) := by
  have whole : done ++ text = done ++ before ++ (digitsMark ++ behind) := by
    rw [eq_of_split? found, List.append_assoc, List.append_assoc]
  have search : Text.find? digitsMark (.ofList text) = some (octets before) := by
    rw [find?_ofList, found]
    rfl
  have opened := slice_behind (done ++ before) (digitsMark ++ behind)
  rw [← whole, octets_append] at opened
  simp only [placeholder?, placed, slice_behind, search, opened, find?_closing, bind, Except.bind]
  cases closed : split? ['}'] behind with
  | none => rfl
  | some parts =>
      obtain ⟨inside, rest⟩ := parts
      have parts : done ++ before ++ digitsMark ++ inside ++ (['}'] ++ rest) = done ++ text := by
        rw [whole, eq_of_split? closed]
        simp only [List.append_assoc]
      have first : octets (done ++ before ++ digitsMark) =
          octets done + octets before + octets digitsMark := by
        rw [octets_append, octets_append]
      have last : octets (done ++ before ++ (digitsMark ++ inside)) =
          octets done + octets before + octets (digitsMark ++ inside) := by
        rw [octets_append, octets_append]
      have named := slice_octets (done ++ before ++ digitsMark) inside (['}'] ++ rest)
      rw [parts, first, List.append_assoc _ digitsMark, last] at named
      simp only [Option.map_some, named, last, octets_append done]
      rfl

/-- Whether no placeholder of digits is closed in a text. -/
def IsUnclosed (text : List Char) : Prop :=
  ∀ before behind, split? digitsMark text = some (before, behind) → split? ['}'] behind = none

theorem isUnclosed_or (text : List Char) : IsUnclosed text ∨
    ∃ before behind inside rest, split? digitsMark text = some (before, behind) ∧
      split? ['}'] behind = some (inside, rest) := by
  by_cases unclosed : IsUnclosed text
  · exact .inl unclosed
  · unfold IsUnclosed at unclosed
    push Not at unclosed
    obtain ⟨before, behind, found, closed⟩ := unclosed
    obtain ⟨⟨inside, rest⟩, closed⟩ := Option.ne_none_iff_exists'.mp closed
    exact .inr ⟨before, behind, inside, rest, found, closed⟩

theorem putDigits_of_unclosed (unclosed : IsUnclosed text) (randomness : Randomness σ)
    (source : σ) : (placed done text source).putDigits randomness = .ok none := by
  have nowhere : (placed done text source).placeholder? = .ok none := by
    cases found : split? digitsMark text with
    | none => exact placeholder?_of_none found source
    | some parts =>
        obtain ⟨before, behind⟩ := parts
        rw [placeholder?_of_some found, unclosed before behind found]
  rw [putDigits, nowhere]
  rfl

/-- What stands for a placeholder of digits in the end. -/
def filling (randomness : Randomness σ) (inside : List Char) : OptionT (StateM σ) (List Char) :=
  match digitCount? inside with
  | some count => randomness.digits count
  | none => pure (digitsMark ++ inside ++ ['}'])

theorem placeholder?_of_closed (found : split? digitsMark text = some (before, behind))
    (closed : split? ['}'] behind = some (inside, rest)) (source : σ) :
    (placed done text source).placeholder? =
      .ok (some (octets (done ++ before), octets (done ++ before ++ (digitsMark ++ inside)),
        .ofList inside)) := by
  rw [placeholder?_of_some found, closed]

/-- Digits that are drawn stand in place of the placeholder. -/
theorem putDigits_of_drawn (found : split? digitsMark text = some (before, behind))
    (closed : split? ['}'] behind = some (inside, rest)) {randomness : Randomness σ}
    {source left : σ} {digits : List Char}
    (drawn : (filling randomness inside).run.run source = (some digits, left)) :
    (placed done text source).putDigits randomness =
      .ok (some (placed (done ++ before ++ digits) rest left)) := by
  have whole : done ++ text = done ++ before ++ (digitsMark ++ inside ++ ['}']) ++ rest := by
    rw [eq_of_split? found, eq_of_split? closed]
    simp only [List.append_assoc]
  have brace : octets (done ++ before ++ (digitsMark ++ inside)) + 1 =
      octets (done ++ before ++ (digitsMark ++ inside ++ ['}'])) := by
    rw [← List.append_assoc _ _ ['}'], octets_append _ ['}']]
    rfl
  unfold filling at drawn
  simp only [putDigits, placeholder?_of_closed found closed, Except.mapError, brace,
    String.toList_ofList, bind, Except.bind]
  cases asked : digitCount? inside with
  | none =>
      rw [asked] at drawn
      obtain ⟨same, rfl⟩ := Prod.mk.inj drawn
      obtain rfl := Option.some.inj same
      change Except.ok (some (Rewriting.mk (.ofList (done ++ text)) _ source)) = _
      rw [whole]
      rfl
  | some count =>
      rw [asked] at drawn
      have replaced :=
        replaceRange_octets (done ++ before) (digitsMark ++ inside ++ ['}']) rest digits
      rw [← whole] at replaced
      simp only [placed, drawn, replaced, octets_append (done ++ before) digits]
      rfl

/-- Rewriting stops at a placeholder for which no digits are drawn. -/
theorem putDigits_of_undrawn (found : split? digitsMark text = some (before, behind))
    (closed : split? ['}'] behind = some (inside, rest)) {randomness : Randomness σ}
    {source left : σ} (undrawn : (filling randomness inside).run.run source = (none, left)) :
    ∃ count, (randomness.digits count).run.run source = (none, left) ∧
      digitCount? inside = some count ∧
      (placed done text source).putDigits randomness = .error (.undrawn count) := by
  unfold filling at undrawn
  cases asked : digitCount? inside with
  | none =>
      rw [asked] at undrawn
      cases undrawn
  | some count =>
      rw [asked] at undrawn
      refine ⟨count, undrawn, rfl, ?_⟩
      simp only [putDigits, placeholder?_of_closed found closed, Except.mapError,
        String.toList_ofList, asked, bind, Except.bind]
      simp only [placed, undrawn]
      rfl

end

/-- Whether the position is where a part of the text ends. -/
def IsPlaced (s : Rewriting σ) : Prop := ∃ done text, s = placed done text s.source

/-- An iteration leaves less of the text behind the position than there was. -/
theorem putDigits_cases (randomness : Randomness σ) (shape : s.IsPlaced) :
    s.putDigits randomness = .ok none ∨
      (∃ stop, s.putDigits randomness = .error stop ∧ stop.IsUndrawn randomness) ∨
      ∃ t, s.putDigits randomness = .ok (some t) ∧ t.IsPlaced ∧ t.behind < s.behind := by
  obtain ⟨done, text, shape⟩ := shape
  rw [shape]
  rcases isUnclosed_or text with unclosed | ⟨before, behind, inside, rest, found, closed⟩
  · exact .inl (putDigits_of_unclosed unclosed randomness s.source)
  · cases drawn : (filling randomness inside).run.run s.source with
    | mk result left =>
        cases result with
        | none =>
            obtain ⟨count, nothing, -, stops⟩ := putDigits_of_undrawn found closed drawn
            exact .inr (.inl ⟨_, stops, s.source, congrArg Prod.fst nothing⟩)
        | some digits =>
            refine .inr (.inr ⟨_, putDigits_of_drawn found closed drawn, ⟨_, _, rfl⟩, ?_⟩)
            have brace : octets ['}'] = 1 := rfl
            rw [behind_placed, behind_placed, eq_of_split? found, eq_of_split? closed]
            simp only [octets_append, brace]
            omega

/-- The loop for digits ends, or stops for want of digits. -/
theorem exists_digits_run (randomness : Randomness σ) (shape : s.IsPlaced) :
    ∃ digits outcome, IsRun (putDigits randomness) s digits outcome ∧
      (∀ stop, outcome = .error stop → stop.IsUndrawn randomness) ∧
      (s :: digits).IsChain fun s t => t.behind < s.behind := by
  have goes (s : Rewriting σ) (shape : s.IsPlaced) := putDigits_cases randomness shape
  obtain ⟨digits, outcome, run, undrawn, -, chain⟩ :=
    IsRun.exists_of_size IsPlaced (Stop.IsUndrawn randomness) (fun _ _ => id) goes shape
  exact ⟨digits, outcome, run, undrawn, chain⟩

end Rewriting

/-! ## The filled pattern -/

section

variable {text before behind : List Char}

/-- An identifier may be put into the text before the rest is filled in. -/
theorem fillUuids_of_put (found : split? uuidMark text = some (before, behind)) :
    fillUuids text = Draw.uuid >>= fun uuid => fillUuids (before ++ uuid.text ++ behind) := by
  rw [fillUuids_of_some found]
  refine Draw.bind_congr_run fun stream => ?_
  rw [fillUuids_append (Rewriting.isPassed_uuid found _)]
  rfl

theorem fillUuids_of_isRun {s : Rewriting KeyStream} {uuids : List (Rewriting KeyStream)}
    {outcome : Except Text.RangeFault Unit}
    (run : IsRun (Rewriting.putUuid .keyStream) s uuids outcome) :
    (fillUuids s.text.toList).run s.source =
      ((uuids.getLastD s).text.toList, (uuids.getLastD s).source) := by
  induction run with
  | @ended s ends =>
      rcases Rewriting.putUuid_cases .keyStream s with ⟨found, -⟩ | ⟨before, behind, -, goes⟩
      · rw [fillUuids_of_none found]
        rfl
      · rw [goes] at ends
        cases ends
  | @stopped s stop stops =>
      rcases Rewriting.putUuid_cases .keyStream s with ⟨-, ends⟩ | ⟨before, behind, -, goes⟩
      · rw [ends] at stops
        cases stops
      · rw [goes] at stops
        cases stops
  | @next s t uuids outcome step _ ih =>
      rw [List.getLastD_cons, ← ih]
      rcases Rewriting.putUuid_cases .keyStream s with ⟨-, ends⟩ | ⟨before, behind, found, goes⟩
      · rw [ends] at step
        cases step
      · rw [goes] at step
        cases step
        rw [fillUuids_of_put found, Rewriting.withUuid, String.toList_ofList]
        rfl

theorem fillDigits_of_unclosed (unclosed : Rewriting.IsUnclosed text) :
    fillDigits text = pure text := by
  cases found : split? digitsMark text with
  | none => exact fillDigits_of_none found
  | some parts =>
      obtain ⟨before, behind⟩ := parts
      exact fillDigits_of_open found (unclosed before behind found)

theorem run_fillDigits {inside rest : List Char}
    (found : split? digitsMark text = some (before, behind))
    (closed : split? ['}'] behind = some (inside, rest)) (stream : KeyStream) :
    (fillDigits text).run.run stream =
      match (filling inside).run.run stream with
      | (none, left) => (none, left)
      | (some digits, left) => ((before ++ digits ++ ·) <$> fillDigits rest).run.run left := by
  rw [fillDigits_of_closed found closed, Draw.run_bind]
  rcases (filling inside).run.run stream with ⟨_ | digits, left⟩
  · rfl
  · simp only [map_eq_pure_bind]

/-- An iteration for digits as a case of filling a text: it ends where no placeholder is closed, stops
where no digits are drawn, and else goes on with the rest. -/
theorem putDigits_keyStream_cases (done text : List Char) (stream : KeyStream) :
    (Rewriting.putDigits .keyStream (.placed done text stream) = .ok none ∧
        fillDigits text = pure text) ∨
      (∃ stop, Rewriting.putDigits .keyStream (.placed done text stream) = .error stop ∧
        (fillDigits text).run.run stream = (none, stream)) ∨
      ∃ front rest left, Rewriting.putDigits .keyStream (.placed done text stream) =
          .ok (some (.placed (done ++ front) rest left)) ∧
        (fillDigits text).run.run stream = ((front ++ ·) <$> fillDigits rest).run.run left := by
  rcases Rewriting.isUnclosed_or text with unclosed | ⟨before, behind, inside, rest, found, closed⟩
  · exact .inl ⟨Rewriting.putDigits_of_unclosed unclosed _ stream, fillDigits_of_unclosed unclosed⟩
  · have filled := run_fillDigits found closed stream
    have same : filling inside = Rewriting.filling .keyStream inside := rfl
    cases drawn : (Rewriting.filling .keyStream inside).run.run stream with
    | mk result left =>
        rw [same, drawn] at filled
        cases result with
        | none =>
            obtain ⟨count, undrawn, -, stops⟩ := Rewriting.putDigits_of_undrawn found closed drawn
            obtain rfl := Draw.eq_of_run_digits undrawn
            exact .inr (.inl ⟨_, stops, filled⟩)
        | some digits =>
            refine .inr (.inr ⟨before ++ digits, rest, left, ?_, filled⟩)
            rw [← List.append_assoc]
            exact Rewriting.putDigits_of_drawn found closed drawn

theorem fillDigits_of_isRun {done : List Char} {stream : KeyStream}
    {digits : List (Rewriting KeyStream)} {outcome : Except Stop Unit}
    (run : IsRun (Rewriting.putDigits .keyStream) (.placed done text stream) digits outcome) :
    ((done ++ ·) <$> fillDigits text).run.run stream =
      (outcome.toOption.map fun _ => (digits.getLastD (.placed done text stream)).text.toList,
        (digits.getLastD (.placed done text stream)).source) := by
  -- What has been read is in front of any later text, so the induction is over all such parts.
  generalize shape : Rewriting.placed done text stream = s at run
  induction run generalizing done text stream with
  | ended ends =>
      subst shape
      obtain ⟨-, same⟩ | ⟨stop, stops, -⟩ | ⟨front, rest, left, step, -⟩ :=
        putDigits_keyStream_cases done text stream
      · rw [same, map_pure, List.getLastD_nil, Rewriting.placed, String.toList_ofList]
        rfl
      · rw [stops] at ends
        cases ends
      · rw [step] at ends
        cases ends
  | stopped stops =>
      subst shape
      obtain ⟨ends, -⟩ | ⟨stop, -, nothing⟩ | ⟨front, rest, left, step, -⟩ :=
        putDigits_keyStream_cases done text stream
      · rw [ends] at stops
        cases stops
      · rw [Draw.run_map, nothing]
        rfl
      · rw [step] at stops
        cases stops
  | next goes _ ih =>
      subst shape
      obtain ⟨ends, -⟩ | ⟨stop, stops, -⟩ | ⟨front, rest, left, step, filled⟩ :=
        putDigits_keyStream_cases done text stream
      · rw [ends] at goes
        cases goes
      · rw [stops] at goes
        cases goes
      · rw [step] at goes
        rw [List.getLastD_cons, ← ih (Option.some.inj (Except.ok.inj goes)), Draw.run_map, filled,
          Draw.run_map, Draw.run_map]
        simp only [Option.map_map, Function.comp_def, List.append_assoc]

end

/-- Rewriting a pattern with a key stream leaves what filling it gives. -/
theorem fill_of_isRewriting {pattern : String} {index : UInt64} {stream : KeyStream}
    {uuids digits : List (Rewriting KeyStream)} {outcome : Except Stop Unit}
    (rewrites : IsRewriting .keyStream (.start pattern index stream) uuids digits outcome)
    (first : (uuids.getLastD (.start pattern index stream)).position = 0) :
    let last := digits.getLastD (uuids.getLastD (.start pattern index stream))
    (fill pattern index).run.run stream = (outcome.toOption.map fun _ => last.text, last.source) := by
  obtain ⟨uuidsRun, digitsRun⟩ := rewrites
  have identified := fillUuids_of_isRun uuidsRun
  rw [Rewriting.toList_text_start] at identified
  generalize uuids.getLastD (.start pattern index stream) = between at *
  rw [Rewriting.eq_placed_of_position first] at digitsRun ⊢
  have randomised := fillDigits_of_isRun digitsRun
  simp only [List.nil_append, id_map'] at randomised
  have filled : fill pattern index =
      OptionT.lift (fillUuids (fillIndex index pattern.toList)) >>= fun text =>
        String.ofList <$> fillDigits text := by
    simp only [map_eq_pure_bind]
    rfl
  rw [filled, Draw.run_bind, Draw.run_lift]
  simp only [show (fillUuids _).run stream = _ from identified, Draw.run_map, randomised,
    Option.map_map, Function.comp_def, String.ofList_toList]

/-- Rewriting a pattern ends, or stops for want of digits. -/
theorem exists_isRewriting {σ : Type} (randomness : Randomness σ) (pattern : String)
    (index : UInt64) (source : σ) :
    let start := Rewriting.start pattern index source
    ∃ uuids digits outcome, IsRewriting randomness start uuids digits outcome ∧
      (uuids.getLastD start).position = 0 ∧
      (∀ stop, outcome = .error stop → stop.IsUndrawn randomness) ∧
      uuids.length = (places uuidMark (fillIndex index pattern.toList)).length ∧
      (start :: uuids).IsChain Rewriting.TakesUuid ∧
      (uuids.getLastD start :: digits).IsChain fun s t => t.behind < s.behind := by
  intro start
  obtain ⟨uuids, uuidsRun, first, many, takes⟩ :=
    Rewriting.exists_uuids_run randomness (s := start) rfl
  obtain ⟨digits, outcome, digitsRun, undrawn, shorter⟩ :=
    Rewriting.exists_digits_run randomness ⟨_, _, Rewriting.eq_placed_of_position first⟩
  rw [Rewriting.missing, Rewriting.toList_text_start] at many
  exact ⟨uuids, digits, outcome, ⟨uuidsRun, digitsRun⟩, first, undrawn, many, takes, shorter⟩

/-- Whatever is drawn, rewriting a pattern ends, and all its ranges lie within the text as it then is
and cut no character: a range that does not is a fault, and no run has one.  It only stops before its
end where digits are asked for that are not drawn.  The marks of identifiers do not overlap.  There is
an iteration for each of them, which takes that mark and brings no other.  An iteration for digits
leaves less of the text behind its position, even if what it draws is longer than its placeholder or
is nothing at all.  With a key stream the last text is the filled pattern. -/
theorem rewriting_ends (pattern : String) (index : UInt64) :
    (places uuidMark (fillIndex index pattern.toList)).Pairwise
        (fun place next => place + uuidMark.length ≤ next) ∧
      (∀ {σ : Type} (randomness : Randomness σ) (source : σ),
        let start := Rewriting.start pattern index source
        ∃ uuids digits outcome, IsRewriting randomness start uuids digits outcome ∧
          (∀ stop, outcome = .error stop → stop.IsUndrawn randomness) ∧
          uuids.length = (places uuidMark (fillIndex index pattern.toList)).length ∧
          (start :: uuids).IsChain Rewriting.TakesUuid ∧
          (uuids.getLastD start :: digits).IsChain fun s t => t.behind < s.behind) ∧
      ∀ stream, ∃ uuids digits outcome,
        let start := Rewriting.start pattern index stream
        let last := digits.getLastD (uuids.getLastD start)
        IsRewriting .keyStream start uuids digits outcome ∧
          (fill pattern index).run.run stream =
            (outcome.toOption.map fun _ => last.text, last.source) := by
  refine ⟨apart_places Rewriting.uuidMark_eq (by decide) _, fun randomness source => ?_,
    fun stream => ?_⟩
  · obtain ⟨uuids, digits, outcome, rewrites, -, counted⟩ :=
      exists_isRewriting randomness pattern index source
    exact ⟨uuids, digits, outcome, rewrites, counted⟩
  · obtain ⟨uuids, digits, outcome, rewrites, first, -⟩ :=
      exists_isRewriting .keyStream pattern index stream
    exact ⟨uuids, digits, outcome, rewrites, fill_of_isRewriting rewrites first⟩

end Pattern

end Reconcile
