import Reconcile.Text.Digits

/-!
# Quoted JSON strings

How a string is written between quotes, and how it is read back.  A reader takes what it accepts
off the front of a text; it fails as `truncated` when the text ends too early and as `malformed`
at the first character that cannot stand where it is.
-/

namespace Reconcile

namespace Json

/-- Why a text is not a document. -/
inductive Fault where
  | truncated
  | malformed
deriving DecidableEq, Repr

abbrev Reader (α : Type) := List Char → Except Fault (α × List Char)

/-- The short escapes: the letter after the backslash and the character that it stands for. -/
def shortEscapes : List (Char × Char) :=
  [('"', '"'), ('\\', '\\'), ('b', '\x08'), ('f', '\x0c'), ('n', '\n'), ('r', '\r'), ('t', '\t')]

/-! ## Writing -/

/-- Characters with a short escape have it, other controls their code; all else stands as it is. -/
def escape (c : Char) : List Char :=
  match shortEscapes.find? fun (_, meaning) => meaning == c with
  | some (letter, _) => ['\\', letter]
  | none =>
      if c.toNat < 0x20 then '\\' :: 'u' :: '0' :: '0' :: Text.hexByte (UInt8.ofNat c.toNat)
      else [c]

def quote (text : List Char) : List Char := '"' :: text.flatMap escape ++ ['"']

/-! ## Reading -/

/-- Four hexadecimal digits.  A rest of fewer than four octets ends too early, whatever it
holds. -/
def hexDigits : Reader Nat
  | a :: b :: c :: d :: rest =>
      match Text.natOfText? 16 [a, b, c, d] with
      | some code => .ok (code, rest)
      | none => .error .malformed
  | text =>
      if text.foldr (fun c count => c.utf8Size + count) 0 < 4 then .error .truncated
      else .error .malformed

/-- The second half of a surrogate pair, after the code of the first. -/
def trailingSurrogate (leading : Nat) : Reader Char
  | [] => .error .truncated
  | ['\\'] => .error .truncated
  | '\\' :: 'u' :: rest => do
      let (trailing, rest) ← hexDigits rest
      if 0xdc00 ≤ trailing ∧ trailing ≤ 0xdfff then
        .ok (Char.ofNat ((leading - 0xd800) * 0x400 + (trailing - 0xdc00) + 0x10000), rest)
      else .error .malformed
  | _ => .error .malformed

/-- The character of a code escape; surrogates stand only in pairs. -/
def codeEscape (text : List Char) : Except Fault (Char × List Char) := do
  let (code, rest) ← hexDigits text
  if 0xdc00 ≤ code ∧ code ≤ 0xdfff then .error .malformed
  else if 0xd800 ≤ code ∧ code ≤ 0xdbff then trailingSurrogate code rest
  else .ok (Char.ofNat code, rest)

/-- The character that a letter stands for after a backslash.  A slash may be escaped too. -/
def shortEscape? (letter : Char) : Option Char :=
  if letter = '/' then some '/' else shortEscapes.lookup letter

/-- The character of an escape, after its backslash. -/
def readEscape : Reader Char
  | [] => .error .truncated
  | letter :: rest =>
      if letter = 'u' then codeEscape rest
      else
        match shortEscape? letter with
        | some meaning => .ok (meaning, rest)
        | none => .error .malformed

theorem hexDigits_shorter {text rest : List Char} {code : Nat}
    (read : hexDigits text = .ok (code, rest)) : rest.length < text.length := by
  unfold hexDigits at read
  split at read
  · split at read
    · cases read
      simp only [List.length_cons]
      omega
    · cases read
  · split at read <;> cases read

theorem trailingSurrogate_shorter {leading : Nat} {text rest : List Char} {c : Char}
    (read : trailingSurrogate leading text = .ok (c, rest)) : rest.length < text.length := by
  unfold trailingSurrogate at read
  split at read
  · cases read
  · cases read
  · rename_i inner
    cases digits : hexDigits inner with
    | error fault => simp [digits, bind, Except.bind] at read
    | ok pair =>
      obtain ⟨trailing, after⟩ := pair
      have shorter := hexDigits_shorter digits
      simp only [digits, bind, Except.bind] at read
      split at read
      · simp only [Except.ok.injEq, Prod.mk.injEq] at read
        simp only [List.length_cons, ← read.2]
        omega
      · cases read
  · cases read

theorem codeEscape_shorter {text rest : List Char} {c : Char}
    (read : codeEscape text = .ok (c, rest)) : rest.length < text.length := by
  unfold codeEscape at read
  cases digits : hexDigits text with
  | error fault => simp [digits, bind, Except.bind] at read
  | ok pair =>
    obtain ⟨code, after⟩ := pair
    have shorter := hexDigits_shorter digits
    simp only [digits, bind, Except.bind] at read
    split at read
    · cases read
    · split at read
      · have := trailingSurrogate_shorter read
        omega
      · simp only [Except.ok.injEq, Prod.mk.injEq] at read
        exact read.2 ▸ shorter

theorem readEscape_shorter {text rest : List Char} {c : Char}
    (read : readEscape text = .ok (c, rest)) : rest.length < text.length := by
  unfold readEscape at read
  split at read
  · cases read
  · split at read
    · have := codeEscape_shorter read
      simp only [List.length_cons]
      omega
    · split at read
      · cases read
        simp only [List.length_cons, Nat.lt_add_one]
      · cases read

/-- A string after its opening quote, up to and with the closing one. -/
def readString (text : List Char) : Except Fault (List Char × List Char) :=
  match text with
  | [] => .error .truncated
  | c :: rest =>
      if c = '"' then .ok ([], rest)
      else if c = '\\' then
        match escaped : readEscape rest with
        | .error fault => .error fault
        | .ok (first, after) =>
            have : after.length < rest.length := readEscape_shorter escaped
            match readString after with
            | .error fault => .error fault
            | .ok (others, after) => .ok (first :: others, after)
      else if c.toNat < 0x20 then .error .malformed
      else
        match readString rest with
        | .error fault => .error fault
        | .ok (others, after) => .ok (c :: others, after)
termination_by text.length
decreasing_by
  all_goals
    simp only [List.length_cons]
    omega

/-- The rest behind a string that is passed over, after its opening quote.  Of its escapes only
the spelling is looked at, not whether surrogates pair up. -/
def skipString (text : List Char) : Except Fault (List Char) :=
  match text with
  | [] => .error .truncated
  | c :: rest =>
      if c = '"' then .ok rest
      else if c = '\\' then
        match rest with
        | [] => .error .truncated
        | 'u' :: inner =>
            match digits : hexDigits inner with
            | .error fault => .error fault
            | .ok (_, after) =>
                have : after.length < inner.length := hexDigits_shorter digits
                skipString after
        | escaped :: inner =>
            if (shortEscape? escaped).isSome then skipString inner else .error .malformed
      else if c.toNat < 0x20 then .error .malformed
      else skipString rest
termination_by text.length
decreasing_by
  all_goals
    simp only [List.length_cons]
    omega

end Json

end Reconcile
