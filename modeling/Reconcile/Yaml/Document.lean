import Reconcile.Yaml.Node
import Reconcile.Yaml.Scalar

/-!
# Documents as values

A document means a value: a scalar, a sequence or a mapping, perhaps under a tag of its own.
Aliases are followed on the way; how often, and how deep collections nest, is bounded.
-/

namespace Reconcile

inductive Yaml where
  | scalar (s : Yaml.Scalar)
  | sequence (items : List Yaml)
  | mapping (members : List (Yaml × Yaml))
  | tagged (tag : List Char) (value : Yaml)

namespace Yaml

instance : Inhabited Yaml := ⟨.scalar .null⟩

/-- Reading counts how often an alias has been followed. -/
abbrev Reading := StateT Nat Option

/-- How deep collections may nest. -/
def depthBound : Nat := 128

namespace Document

/-- The node that is meant.  Aliases may be followed a hundred times for each node of the
document, so that documents of aliases to aliases end. -/
def follow (d : Document) : Node → Reading Node
  | .alias anchor => do
      let jumps ← get
      if 100 * d.size ≤ jumps then failure
      else
        set (jumps + 1)
        match d.node? anchor with
        | some node => return node
        | none => failure
  | node => return node

/-- The meaning of a scalar.  Tags for standard types are binding, and every other tag but a
custom one makes text. -/
def scalarValue (tag : Option Tag) (style : Style) (text : List Char) : Option Scalar :=
  let plain := if style = .plain then Scalar.ofPlain? text else some (.string (String.ofList text))
  match tag with
  | none => plain
  | some (.custom _) => plain
  | some .bool => (Scalar.bool? text).map .bool
  | some .integer =>
      (Scalar.integer? text).bind fun n => if Scalar.isKept n then some (.integer n) else none
  | some .double => (Scalar.double? text).map .double
  | some .null => if Scalar.isNullName text then some .null else none
  | some .other => some (.string (String.ofList text))

/-- A value under its custom tag. -/
def underTag (tag : Option Tag) (value : Yaml) : Yaml :=
  match tag with
  | some (.custom name) => .tagged name value
  | _ => value

/-- The value of a node in which collections nest at most `depth` deep. -/
def value (d : Document) : Nat → Node → Reading Yaml
  | 0, node => do
      match ← d.follow node with
      | .scalar tag style text => return underTag tag (.scalar (← scalarValue tag style text))
      | _ => failure
  | depth + 1, node => do
      match ← d.follow node with
      | .scalar tag style text => return underTag tag (.scalar (← scalarValue tag style text))
      | .sequence tag items => return underTag tag (.sequence (← items.mapM (d.value depth)))
      | .mapping tag members =>
          let members ← members.mapM fun (key, member) => do
            let key ← d.value depth key
            return (key, ← d.value depth member)
          return underTag tag (.mapping members)
      | .alias _ => failure

/-- The text of a scalar, whatever it would mean. -/
def text (d : Document) (node : Node) : Reading (List Char) := do
  match ← d.follow node with
  | .scalar _ _ text => return text
  | _ => failure

end Document

end Yaml

end Reconcile
