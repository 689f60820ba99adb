import Reconcile.AccessFault
import Reconcile.Generator
import Reconcile.Record

/-!
# Schemas

A schema names the fields of a kind of records, in order, with their types.  Some of the fields
form the key, by which records are grouped.
-/

namespace Reconcile

structure Field where
  name : String
  type : FieldType
  /-- whether the field belongs to the key, if that is not left to its type -/
  key : Option Bool
  nullable : Bool
  generator : Option Generator
deriving DecidableEq

/-- A field of which nothing but its name and type is known. -/
def Field.ofType (name : String) (type : FieldType) : Field := ⟨name, type, none, false, none⟩

def Field.isKey (f : Field) : Bool := f.key.getD f.type.isKeyType

structure Schema where
  name : String
  fields : List Field
deriving DecidableEq

namespace Schema

inductive Error where
  | unreadable (fault : AccessFault)
  | malformed
  | fieldNotFound (schema field : String)
  | duplicateField (schema field : String)
deriving DecidableEq

/-- The text of an error; faults of access and of form have none of their own. -/
def Error.message : Error → String
  | unreadable _ => "unreadable schema"
  | malformed => "malformed schema"
  | fieldNotFound schema field => "Field '" ++ field ++ "' not found in schema '" ++ schema ++ "'"
  | duplicateField schema field => "Duplicate field '" ++ field ++ "' in schema '" ++ schema ++ "'"

def length (s : Schema) : Nat := s.fields.length

def field? (s : Schema) (index : Nat) : Option Field := s.fields[index]?

def fieldType? (s : Schema) (index : Nat) : Option FieldType := (s.field? index).map Field.type

/-- The place of the first field of a name. -/
def fieldIndex (s : Schema) (name : String) : Except Error Nat :=
  match s.fields.findIdx? fun f => f.name == name with
  | some index => .ok index
  | none => .error (.fieldNotFound s.name name)

/-- The places of the fields that belong to the key, in order. -/
def keyIndices (s : Schema) : List Nat :=
  s.fields.zipIdx.filterMap fun (f, index) => if f.isKey then some index else none

def fieldNames (s : Schema) : List String := s.fields.map Field.name

/-- A schema with fields of given types, named by their places. -/
def ofTypes (name : String) (types : List FieldType) : Schema :=
  ⟨name, types.zipIdx.map fun (type, index) =>
    .ofType (String.ofList ('f' :: Text.decimal index)) type⟩

/-- The schema that a sample follows.  Of a null field nothing is known; it counts as text. -/
def infer (name : String) (sample : Record) : Schema :=
  ofTypes name (sample.fields.map fun value => value.fieldType?.getD .text)

/-- The first name that an earlier field has already. -/
def firstRepeated? : List String → List String → Option String
  | _, [] => none
  | seen, name :: names =>
      if seen.contains name then some name else firstRepeated? (name :: seen) names

/-- A schema whose field names differ. -/
def validate (s : Schema) : Except Error Schema :=
  match firstRepeated? [] s.fieldNames with
  | some name => .error (.duplicateField s.name name)
  | none => .ok s

theorem firstRepeated?_eq_none_iff {seen names : List String} :
    firstRepeated? seen names = none ↔ names.Nodup ∧ ∀ name ∈ names, name ∉ seen := by
  induction names generalizing seen with
  | nil => simp [firstRepeated?]
  | cons name names ih =>
    by_cases repeated : name ∈ seen
    · simp [firstRepeated?, repeated]
    · simp only [firstRepeated?, List.contains_eq_mem, repeated, decide_false,
        Bool.false_eq_true, if_false, ih, List.nodup_cons, List.mem_cons, not_or,
        forall_eq_or_imp]
      constructor
      · rintro ⟨distinct, fresh⟩
        exact ⟨⟨fun member => (fresh name member).1 rfl, distinct⟩, not_false,
          fun other member => (fresh other member).2⟩
      · rintro ⟨⟨foreign, distinct⟩, -, fresh⟩
        exact ⟨distinct, fun other member =>
          ⟨fun equal => foreign (equal ▸ member), fresh other member⟩⟩

end Schema

end Reconcile
