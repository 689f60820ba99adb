import Reconcile.Binary64.Reading
import Reconcile.Command

/-!
# Command lines

A command line names a command and gives it options.  An option is written with two dashes and its
name or with one dash and its letter; its value is attached, with or without an equals sign, or is
the next word.
-/

namespace Reconcile

namespace CommandLine

/-- Why a command line is not followed. -/
inductive UsageError where
  | helpRequested
  /-- there is no command -/
  | nothingRequested
  | unknownCommand
  | unknownArgument
  | missingOption
  /-- an option has no value, or an empty one where a path is needed -/
  | missingValue
  /-- the value of an option is not the number that it has to be -/
  | malformedNumber
  | repeatedOption
  /-- a value is attached to what takes none -/
  | unwantedValue
deriving DecidableEq, Repr

def UsageError.message : UsageError → String
  | helpRequested => "usage: recordcheck (verify | generate | sort | help) [options]"
  | nothingRequested => "a command is needed: verify, generate, sort or help"
  | unknownCommand => "there is no such command"
  | unknownArgument => "there is no such argument"
  | missingOption => "a required option is missing"
  | missingValue => "an option has no value"
  | malformedNumber => "the value of an option is not a number that it can have"
  | repeatedOption => "an option is given twice"
  | unwantedValue => "a value is attached to an option that takes none"

/-! ## Options -/

inductive OptionKind where
  | path
  /-- a natural number below 2^64 -/
  | number
  | double
deriving DecidableEq

inductive OptionValue where
  | path (path : String)
  | number (n : UInt64)
  | double (x : Binary64)
deriving DecidableEq

/-- A natural number in decimal, with an optional plus sign. -/
def number? (text : List Char) : Option UInt64 :=
  let digits := match text with
    | '+' :: rest => rest
    | text => text
  match Text.natOfText? 10 digits with
  | some n => if n < 2 ^ 64 then some (UInt64.ofNat n) else none
  | none => none

def OptionKind.read (kind : OptionKind) (text : String) : Except UsageError OptionValue :=
  match kind with
  | path => if text.isEmpty then .error .missingValue else .ok (.path text)
  | number =>
      match number? text.toList with
      | some n => .ok (.number n)
      | none => .error .malformedNumber
  | double =>
      match Binary64.ofText? text.toList with
      | some x => .ok (.double x)
      | none => .error .malformedNumber

structure OptionSpec where
  name : String
  letter : Option Char
  kind : OptionKind
  required : Bool
  /-- the variable that gives the value where the command line does not -/
  fallback : Option String
deriving DecidableEq

def requiredPath (name : String) (letter : Char) : OptionSpec := ⟨name, some letter, .path, true, none⟩

def optionalNumber (name : String) : OptionSpec := ⟨name, none, .number, false, none⟩

def budgetOption : OptionSpec :=
  ⟨"memory-budget", none, .number, false, some "RECORDCHECK_MEMORY_BUDGET"⟩

def verifyOptions : List OptionSpec :=
  [requiredPath "schema" 's', requiredPath "expected" 'e', requiredPath "actual" 'a',
    ⟨"double-delta", none, .double, false, some "RECORDCHECK_DOUBLE_DELTA"⟩,
    optionalNumber "integer-delta", budgetOption]

def generateOptions : List OptionSpec :=
  [requiredPath "schema" 's', optionalNumber "seed", optionalNumber "count",
    optionalNumber "start-index", requiredPath "output" 'o']

def sortOptions : List OptionSpec :=
  [requiredPath "schema" 's', requiredPath "input" 'i', requiredPath "output" 'o', budgetOption]

/-! ## Words -/

/-- What a word of a command line is by its form. -/
inductive Word where
  /-- two dashes alone: no options follow -/
  | ending
  /-- the name of an option, with what is attached to it -/
  | named (name : List Char) (attached : Option (List Char))
  /-- a letter, with what follows it -/
  | lettered (letter : Char) (rest : List Char)
  | plain (text : List Char)
deriving DecidableEq

def Word.ofText : List Char → Word
  | ['-', '-'] => .ending
  | '-' :: '-' :: rest =>
      match rest.span (· != '=') with
      | (name, _ :: attached) => .named name (some attached)
      | (name, []) => .named name none
  | '-' :: letter :: rest => .lettered letter rest
  | text => .plain text

/-- The value that follows a letter in the same word. -/
def attachedValue : List Char → Option (List Char)
  | [] => none
  | '=' :: rest => some rest
  | rest => some rest

/-! ## Reading options -/

/-- The options that were given a value, by name. -/
abbrev Given := List (String × OptionValue)

/-- Gives an option a value. -/
def accept (given : Given) (spec : OptionSpec) (text : Option String) : Except UsageError Given :=
  match text with
  | none => .error .missingValue
  | some text =>
      if (given.lookup spec.name).isSome then .error .repeatedOption
      else do return (spec.name, ← spec.kind.read text) :: given

/-- An option whose value, if there is one yet, stood in the next word.  It is looked at only when
the following option has been found. -/
abbrev Pending := Option (OptionSpec × Option String)

def settle (given : Given) : Pending → Except UsageError Given
  | none => .ok given
  | some (spec, text) => accept given spec text

/-- Begins an option. -/
def startOption (given : Given) (pending : Pending) (spec : OptionSpec) (attached : Option (List Char)) :
    Except UsageError (Given × Pending) := do
  let given ← settle given pending
  match attached with
  | some text => return (← accept given spec (some (String.ofList text)), none)
  | none => return (given, some (spec, none))

/-- Asks for help, after what was given before. -/
def help (given : Given) (pending : Pending) : Except UsageError (Given × Pending) := do
  let _ ← settle given pending
  .error .helpRequested

/-- Takes a word that stands in front of the ending. -/
def takeWord (specs : List OptionSpec) (given : Given) (pending : Pending) :
    Word → Except UsageError (Given × Pending)
  | .ending => .ok (given, pending)
  | .named name attached =>
      match specs.find? (·.name.toList == name), name == "help".toList, attached with
      | some spec, _, attached => startOption given pending spec attached
      | none, true, none => help given pending
      | none, true, some _ => .error .unwantedValue
      | none, false, _ => .error .unknownArgument
  | .lettered letter rest =>
      match specs.find? (·.letter == some letter), letter == 'h' with
      | some spec, _ => startOption given pending spec (attachedValue rest)
      | none, true => help given pending
      | none, false => .error .unknownArgument
  | .plain text =>
      match pending with
      | some (spec, none) => .ok (given, some (spec, some (String.ofList text)))
      | _ => .error .unknownArgument

/-- Reads the words of options.  Nothing may stand behind the ending. -/
def readWords (specs : List OptionSpec) (given : Given) (pending : Pending) :
    List String → Except UsageError Given
  | [] => settle given pending
  | word :: rest =>
      match Word.ofText word.toList, rest with
      | .ending, [] => settle given pending
      | .ending, _ :: _ => .error .unknownArgument
      | word, rest => do
          let (given, pending) ← takeWord specs given pending word
          readWords specs given pending rest

/-- Adds what an environment gives to options that were not given. -/
def readVariables (environment : List (String × String)) (specs : List OptionSpec) (given : Given) :
    Except UsageError Given :=
  specs.foldlM (fun given spec =>
    match given.lookup spec.name, spec.fallback.bind (List.lookup · environment) with
    | none, some text => accept given spec (some text)
    | _, _ => .ok given) given

/-- Reads all options of a command. -/
def readOptions (environment : List (String × String)) (specs : List OptionSpec)
    (words : List String) : Except UsageError Given := do
  let given ← readWords specs [] none words
  let given ← readVariables environment specs given
  if specs.all fun spec => !spec.required || (given.lookup spec.name).isSome then .ok given
  else .error .missingOption

namespace Given

def path (given : Given) (name : String) : String :=
  match given.lookup name with
  | some (.path path) => path
  | _ => ""

def number? (given : Given) (name : String) : Option UInt64 :=
  match given.lookup name with
  | some (.number n) => some n
  | _ => none

def double? (given : Given) (name : String) : Option Binary64 :=
  match given.lookup name with
  | some (.double x) => some x
  | _ => none

def budget (given : Given) : Nat :=
  match number? given "memory-budget" with
  | some n => n.toNat
  | none => Source.defaultBudget

end Given

/-! ## Commands -/

/-- The names of the commands, with that of the one that explains them. -/
def commandNames : List String := ["verify", "generate", "sort", "help"]

def verifyRequest (given : Given) : Command.VerifyRequest :=
  ⟨Given.path given "schema", Given.path given "expected", Given.path given "actual",
    Given.double? given "double-delta", Given.number? given "integer-delta", Given.budget given⟩

def generateRequest (given : Given) : Command.GenerateRequest where
  schema := Given.path given "schema"
  seed := (Given.number? given "seed").getD 42
  count := ((Given.number? given "count").getD 1000).toNat
  start := (Given.number? given "start-index").getD 0
  output := Given.path given "output"

def sortRequest (given : Given) : Command.SortRequest :=
  ⟨Given.path given "schema", Given.path given "input", Given.path given "output",
    Given.budget given⟩

/-- Help on a command, or on all of them. -/
def readHelp : List String → UsageError
  | [] => .helpRequested
  | [name] => if commandNames.contains name then .helpRequested else .unknownCommand
  | _ => .unknownCommand

/-- Words without a command in front. -/
def readNoCommand (word : String) (rest : List String) : UsageError :=
  match Word.ofText word.toList, rest with
  | .ending, [] => .nothingRequested
  | .ending, next :: _ => if commandNames.contains next then .unknownArgument else .unknownCommand
  | .named name attached, _ =>
      match name == "help".toList, attached with
      | true, none => .helpRequested
      | true, some _ => .unwantedValue
      | false, _ => .unknownArgument
  | .lettered letter _, _ => if letter = 'h' then .helpRequested else .unknownArgument
  | .plain _, _ => .unknownCommand

/-- Reads a command line, without the name of the program, under a given environment. -/
def read (environment : List (String × String)) : List String → Except UsageError Command
  | [] => .error .nothingRequested
  | "verify" :: words => do
      return .verify (verifyRequest (← readOptions environment verifyOptions words))
  | "generate" :: words => do
      return .generate (generateRequest (← readOptions environment generateOptions words))
  | "sort" :: words => do
      return .sort (sortRequest (← readOptions environment sortOptions words))
  | "help" :: words => .error (readHelp words)
  | word :: rest => .error (readNoCommand word rest)

end CommandLine

end Reconcile
