import Reconcile.Json.Number
import Reconcile.Text.Blank

/-!
# JSON documents

Whole documents as trees, for members whose meaning is only known later, and a way past members
that nobody asked for.  Nesting is bounded in trees and unbounded in what is passed over.
-/

namespace Reconcile

inductive Json where
  | null
  | bool (b : Bool)
  | number (n : Json.Number)
  | string (s : String)
  | array (items : List Json)
  | object (members : List (String × Json))

namespace Json

def isBlank (c : Char) : Bool := c == ' ' || c == '\n' || c == '\r' || c == '\t'

def skipBlanks (text : List Char) : List Char := text.dropWhile isBlank

/-- The rest of a literal name. -/
def expect : List Char → List Char → Except Fault (List Char)
  | [], rest => .ok rest
  | _ :: _, [] => .error .truncated
  | c :: expected, d :: rest => if c = d then expect expected rest else .error .malformed

/-- The literals by their first letter: the other letters and the meaning. -/
def literal? : Char → Option (List Char × Json)
  | 'n' => some (['u', 'l', 'l'], .null)
  | 't' => some (['r', 'u', 'e'], .bool true)
  | 'f' => some (['a', 'l', 's', 'e'], .bool false)
  | _ => none

def startsNumber (c : Char) : Bool := c == '-' || Text.isDigit c

/-- The separator before a further item, or none at the closing bracket, which is left in place. -/
def nextItem (first : Bool) (text : List Char) : Except Fault (Option (List Char)) :=
  match skipBlanks text with
  | [] => .error .truncated
  | ']' :: _ => .ok none
  | c :: rest =>
      if first then .ok (some (c :: rest))
      else if c = ',' then
        match skipBlanks rest with
        | [] => .error .truncated
        | ']' :: _ => .error .malformed
        | rest => .ok (some rest)
      else .error .malformed

/-- The rest behind the opening quote of a further member's name, or none at the closing brace,
which is left in place. -/
def nextMember (first : Bool) (text : List Char) : Except Fault (Option (List Char)) :=
  match skipBlanks text with
  | [] => .error .truncated
  | '}' :: _ => .ok none
  | c :: rest =>
      if first then if c = '"' then .ok (some rest) else .error .malformed
      else if c = ',' then
        match skipBlanks rest with
        | [] => .error .truncated
        | '"' :: rest => .ok (some rest)
        | _ => .error .malformed
      else .error .malformed

/-- The rest behind the colon between name and value. -/
def afterColon (text : List Char) : Except Fault (List Char) :=
  match skipBlanks text with
  | [] => .error .truncated
  | ':' :: rest => .ok rest
  | _ => .error .malformed

/-- The rest behind a closing bracket or brace. -/
def closing (bracket : Char) (text : List Char) : Except Fault (List Char) :=
  match skipBlanks text with
  | [] => .error .truncated
  | c :: rest => if c = bracket then .ok rest else .error .malformed

mutual

/-- The rest behind a value that is passed over. -/
def skipValue : Nat → List Char → Except Fault (List Char)
  | 0, _ => .error .malformed
  | fuel + 1, text =>
      match skipBlanks text with
      | [] => .error .truncated
      | c :: rest =>
          if c = '"' then skipString rest
          else if startsNumber c then (readNumber (c :: rest)).map Prod.snd
          else if c = '[' then skipItems fuel true rest
          else if c = '{' then skipMembers fuel true rest
          else match literal? c with
            | some (letters, _) => expect letters rest
            | none => .error .malformed

def skipItems : Nat → Bool → List Char → Except Fault (List Char)
  | 0, _, _ => .error .malformed
  | fuel + 1, first, text => do
      match ← nextItem first text with
      | none => closing ']' text
      | some rest => skipItems fuel false (← skipValue fuel rest)

def skipMembers : Nat → Bool → List Char → Except Fault (List Char)
  | 0, _, _ => .error .malformed
  | fuel + 1, first, text => do
      match ← nextMember first text with
      | none => closing '}' text
      | some rest =>
          let rest ← afterColon (← skipString rest)
          skipMembers fuel false (← skipValue fuel rest)

end

mutual

/-- A value as a tree in which brackets nest at most `depth` deep. -/
def readTree : Nat → Nat → Reader Json
  | 0, _, _ => .error .malformed
  | fuel + 1, depth, text =>
      match skipBlanks text with
      | [] => .error .truncated
      | c :: rest =>
          if c = '"' then do
            let (s, rest) ← readString rest
            .ok (.string (String.ofList s), rest)
          else if startsNumber c then do
            let (token, rest) ← readNumber (c :: rest)
            match token.number? with
            | some n => .ok (.number n, rest)
            | none => .error .malformed
          else if c = '[' then
            match depth with
            | 0 => .error .malformed
            | depth + 1 => do
                let (items, rest) ← readItems fuel depth true rest
                .ok (.array items, rest)
          else if c = '{' then
            match depth with
            | 0 => .error .malformed
            | depth + 1 => do
                let (members, rest) ← readMembers fuel depth true rest
                .ok (.object members, rest)
          else match literal? c with
            | some (letters, meaning) => do .ok (meaning, ← expect letters rest)
            | none => .error .malformed

def readItems : Nat → Nat → Bool → Reader (List Json)
  | 0, _, _, _ => .error .malformed
  | fuel + 1, depth, first, text => do
      match ← nextItem first text with
      | none => .ok ([], ← closing ']' text)
      | some rest =>
          let (item, rest) ← readTree fuel depth rest
          let (items, rest) ← readItems fuel depth false rest
          .ok (item :: items, rest)

def readMembers : Nat → Nat → Bool → Reader (List (String × Json))
  | 0, _, _, _ => .error .malformed
  | fuel + 1, depth, first, text => do
      match ← nextMember first text with
      | none => .ok ([], ← closing '}' text)
      | some rest =>
          let (name, rest) ← readString rest
          let (value, rest) ← readTree fuel depth (← afterColon rest)
          let (members, rest) ← readMembers fuel depth false rest
          .ok ((String.ofList name, value) :: members, rest)

end

/-- How a value of the wrong kind fails: by its own first fault, else as malformed. -/
def mismatch (text : List Char) : Fault :=
  let faultOf {α : Type} (result : Except Fault α) : Fault :=
    match result with
    | .error fault => fault
    | .ok _ => .malformed
  match skipBlanks text with
  | [] => .truncated
  | c :: rest =>
      if c = '"' then faultOf (readString rest)
      else if startsNumber c then faultOf (readNumber (c :: rest))
      else match literal? c with
        | some (letters, _) => faultOf (expect letters rest)
        | none => .malformed

end Json

end Reconcile
