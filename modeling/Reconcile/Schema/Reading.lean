import Reconcile.Schema.Basic
import Reconcile.Schema.Literal

/-!
# Reading schemas

A schema is written as a document: a name and a list of fields.  The parts of a schema, a field
or a generator are given by name or in their fixed order.  Members of other names are passed over;
a known one may be given once.
-/

namespace Reconcile

namespace Schema

open Yaml (Document Node Style Tag)

/-! ## Parts of a document -/

/-- The members of a mapping whose names are among `names`; other members are passed over, but
their names must be scalars. -/
def namedMembers (d : Document) (names : List String) (members : List (Node × Node)) :
    Yaml.Reading (List (String × Node)) := do
  let named ← members.filterMapM fun (key, member) => do
    let name := String.ofList (← d.text key)
    return if names.contains name then some (name, member) else none
  if (firstRepeated? [] (named.map Prod.fst)).isSome then failure else return named

/-- The parts of a structure by name, from a mapping or from a sequence in the order of the
names. -/
def parts (d : Document) (names : List String) (node : Node) :
    Yaml.Reading (List (String × Node)) := do
  match ← d.follow node with
  | .mapping _ members => namedMembers d names members
  | .sequence _ items => if names.length < items.length then failure else return names.zip items
  | _ => failure

def required (parts : List (String × Node)) (name : String) : Yaml.Reading Node :=
  match parts.lookup name with
  | some node => return node
  | none => failure

/-- A truth value.  Quoted text is none, unless it is a block that is tagged as one. -/
def truth (d : Document) (node : Node) : Yaml.Reading Bool := do
  match ← d.follow node with
  | .scalar tag style text =>
      if style = .plain ∨ (style = .literal ∧ tag = some .bool) then Yaml.Scalar.bool? text
      else failure
  | _ => failure

/-- Whether a node says that an optional part is missing. -/
def isMissing (d : Document) (node : Node) : Yaml.Reading Bool := do
  match ← d.follow node with
  | .scalar tag .plain text =>
      match tag with
      | none => return text.isEmpty || Yaml.Scalar.isNullName text
      | some .null => if Yaml.Scalar.isNullName text then return true else failure
      | some _ => return false
  | _ => return false

/-- An optional part: absent, missing or there. -/
def optional {α : Type} (d : Document) (parts : List (String × Node)) (name : String)
    (read : Node → Yaml.Reading α) : Yaml.Reading (Option α) := do
  match parts.lookup name with
  | none => return none
  | some node => if ← isMissing d node then return none else return some (← read node)

/-- The items of a sequence; an empty place has none. -/
def items (d : Document) (node : Node) : Yaml.Reading (List Node) := do
  match ← d.follow node with
  | .sequence _ items => return items
  | .scalar _ .plain [] => return []
  | _ => failure

/-- A field type by its name, which may also stand as the tag of an empty place. -/
def fieldType (d : Document) (node : Node) : Yaml.Reading FieldType := do
  match ← d.follow node with
  | .scalar (some (.custom name)) .plain text =>
      if text.isEmpty || Yaml.Scalar.isNullName text then FieldType.ofName? (String.ofList name)
      else failure
  | .scalar (some (.custom _)) _ _ => failure
  | .scalar _ _ text => FieldType.ofName? (String.ofList text)
  | _ => failure

/-! ## Generators -/

/-- The parameters of each kind of generators. -/
def parameterNames : String → Option (List String)
  | "uuid_v4" => some []
  | "sequential" => some ["start"]
  | "pattern" => some ["pattern"]
  | "int_range" => some ["min", "max"]
  | "float_range" => some ["min", "max"]
  | "timestamp_range" => some ["start", "end"]
  | "weighted_bool" => some ["true_weight"]
  | "one_of" => some ["values"]
  | "static" => some ["value"]
  | "null" => some []
  | _ => none

abbrev Parameters := List (String × Yaml)

namespace Parameters

def integer? (p : Parameters) (name : String) : Option Int64 :=
  match p.lookup name with
  | some (.scalar (.integer n)) =>
      if -2 ^ 63 ≤ n ∧ n < 2 ^ 63 then some (Int64.ofInt n) else none
  | _ => none

/-- A double; integers are taken for the nearest one. -/
def double? (p : Parameters) (name : String) : Option Binary64 :=
  match p.lookup name with
  | some (.scalar (.double x)) => some x
  | some (.scalar (.integer n)) => some (Binary64.ofInt n)
  | _ => none

def text? (p : Parameters) (name : String) : Option String :=
  match p.lookup name with
  | some (.scalar (.string s)) => some s
  | _ => none

def literal? (y : Yaml) : Option Value := if y.hasDistinctKeys then some (.ofYaml y) else none

def value? (p : Parameters) (name : String) : Option Value := (p.lookup name).bind literal?

def values? (p : Parameters) (name : String) : Option (List Value) :=
  match p.lookup name with
  | some (.sequence items) => items.mapM literal?
  | _ => none

end Parameters

/-- The generator of a kind with its parameters; only the start of a sequence may be left out. -/
def generator? (kind : String) (p : Parameters) : Option Generator :=
  match kind with
  | "uuid_v4" => some .uuid
  | "sequential" =>
      if (p.lookup "start").isNone then some (.sequential 0)
      else (p.integer? "start").map .sequential
  | "pattern" => (p.text? "pattern").map .pattern
  | "int_range" => return .integerRange (← p.integer? "min") (← p.integer? "max")
  | "float_range" => return .doubleRange (← p.double? "min") (← p.double? "max")
  | "timestamp_range" => return .timestampRange (← p.text? "start") (← p.text? "end")
  | "weighted_bool" => (p.double? "true_weight").map .weightedBool
  | "one_of" => (p.values? "values").map .oneOf
  | "static" => (p.value? "value").map .constant
  | "null" => some .null
  | _ => none

/-- The parameter that a key names: by its name or by its place among the parameters. -/
def parameterName? (names : List String) : Yaml → Option (Option String)
  | .scalar (.string s) => some (if names.contains s then some s else none)
  | .scalar (.integer n) => if 0 ≤ n then some names[n.toNat]? else none
  | _ => none

/-- The parameters among the members of a mapping.  A kind without parameters does not look at
them. -/
def parameters? (names : List String) (members : List (Yaml × Yaml)) : Option Parameters :=
  if names.isEmpty then some []
  else do
    let named ← members.filterMapM fun (key, value) => do
      return (← parameterName? names key).map fun name => (name, value)
    if (firstRepeated? [] (named.map Prod.fst)).isSome then none else some named

/-- Whether a key is that of a generator's kind. -/
def isKindKey : Yaml → Bool
  | .scalar (.string name) => name == "type"
  | _ => false

/-- A generator is a mapping with its kind under `type`, or a sequence that begins with its
kind. -/
def generator (d : Document) (depth : Nat) (node : Node) : Yaml.Reading Generator := do
  match ← d.follow node with
  | .mapping tag members =>
      if let some (.custom _) := tag then failure
      let keyed ← members.mapM fun (key, member) => do return (← d.value depth key, member)
      let (kinds, others) := keyed.partition fun (key, _) => isKindKey key
      match kinds with
      | [(_, kind)] =>
          let kind := String.ofList (← d.text kind)
          let others ← others.mapM fun (key, member) => do return (key, ← d.value depth member)
          if Yaml.someMemberHasTag others then failure
          let names ← parameterNames kind
          generator? kind (← parameters? names others)
      | _ => failure
  | .sequence tag (kind :: arguments) =>
      if let some (.custom _) := tag then failure
      let kind := String.ofList (← d.text kind)
      let arguments ← arguments.mapM (d.value depth)
      if Yaml.someItemHasTag arguments then failure
      let names ← parameterNames kind
      if names.length < arguments.length then failure
      generator? kind (names.zip arguments)
  | _ => failure

/-! ## Fields and schemas -/

/-- A field, with collections nested at most `depth` deep inside its generator. -/
def field (d : Document) (depth : Nat) (node : Node) : Yaml.Reading Field := do
  let parts ← parts d ["name", "type", "key", "nullable", "generator"] node
  let name ← d.text (← required parts "name")
  let type ← fieldType d (← required parts "type")
  let key ← optional d parts "key" (truth d)
  let nullable ← (parts.lookup "nullable").mapM (truth d)
  let generator ← optional d parts "generator" (generator d depth)
  return ⟨String.ofList name, type, key, nullable.getD false, generator⟩

def ofDocument (d : Document) : Yaml.Reading Schema := do
  let parts ← parts d ["name", "fields"] d.root
  let name ← (parts.lookup "name").mapM d.text
  let nodes ← items d (← required parts "fields")
  let fields ← nodes.mapM (field d (Yaml.depthBound - 4))
  return ⟨String.ofList (name.getD []), fields⟩

/-- The schema of a text.  No two of its fields have the same name. -/
def ofText (text : String) : Except Error Schema :=
  match Yaml.document? text.toList with
  | some (some d) =>
      match (ofDocument d).run 0 with
      | some (schema, _) => schema.validate
      | none => .error .malformed
  | _ => .error .malformed

end Schema

end Reconcile
