import Reconcile.Yaml.Token

/-!
# Nodes

The tree of a document, before its scalars are given a meaning.  An alias is kept as a node of
its own, by the number of its anchor.
-/

namespace Reconcile

namespace Yaml

/-- The tags that bear on the meaning of a node; all others are the same. -/
inductive Tag where
  | bool
  | integer
  | double
  | null
  /-- a tag of the document's own, by its text without the exclamation mark -/
  | custom (name : List Char)
  | other
deriving DecidableEq

inductive Node where
  | alias (anchor : Nat)
  | scalar (tag : Option Tag) (style : Style) (text : List Char)
  | sequence (tag : Option Tag) (items : List Node)
  | mapping (tag : Option Tag) (members : List (Node × Node))

/-- An empty place where a node could stand. -/
def Node.absent : Node := .scalar none .plain []

/-- A document: its root, the nodes that bear anchors, and how many nodes it has, a collection
counting twice. -/
structure Document where
  root : Node
  anchored : List (Nat × Node)
  size : Nat

def Document.node? (d : Document) (anchor : Nat) : Option Node := d.anchored.lookup anchor

def standardTags : String := "tag:yaml.org,2002:"

/-- The tag of a whole text. -/
def Tag.ofText (text : List Char) : Tag :=
  match text with
  | ['!'] => .custom ['!']
  | '!' :: name => .custom name
  | _ =>
      if text = (standardTags ++ "bool").toList then .bool
      else if text = (standardTags ++ "int").toList then .integer
      else if text = (standardTags ++ "float").toList then .double
      else if text = (standardTags ++ "null").toList then .null
      else .other

/-! ## The grammar -/

/-- Tokens while a document is read from them. -/
structure Parse where
  tokens : List Token
  /-- what the handles of tags stand for -/
  handles : List (List Char × List Char)
  /-- the numbers that the names of anchors have at present -/
  names : List (List Char × Nat)
  /-- the numbers of all anchors so far, the latest first -/
  begun : List Nat
  /-- the nodes of anchors, by how many anchors came before -/
  nodes : List (Nat × Node)
  size : Nat

abbrev Grammar := StateT Parse Option

namespace Grammar

def peek : Grammar (Option Token) := return (← get).tokens.head?

def skip : Grammar Unit := modify fun p => { p with tokens := p.tokens.drop 1 }

def require (condition : Bool) : Grammar Unit := if condition then pure () else failure

def count (n : Nat) : Grammar Unit := modify fun p => { p with size := p.size + n }

/-- A new anchor.  Its number is that of the names in use; later anchors may thus come to have
the number of an earlier one, and then stand for it. -/
def beginAnchor (name : List Char) : Grammar Nat := do
  let p ← get
  let number := p.names.length
  let names := p.names.filter fun (other, _) => other ≠ name
  set { p with names := (name, number) :: names, begun := number :: p.begun }
  return p.begun.length

def anchor? (name : List Char) : Grammar Nat := do
  match (← get).names.lookup name with
  | some number => return number
  | none => failure

def resolve (spelling : TagSpelling) : Grammar (List Char) := do
  if spelling.handle.isEmpty then return spelling.suffix
  match (← get).handles.lookup spelling.handle with
  | some expansion => return expansion ++ spelling.suffix
  | none => failure

/-- The anchor and the tag of a node, in either order. -/
structure Properties where
  anchor : Option (List Char)
  tag : Option TagSpelling

def properties : Grammar Properties := do
  match ← peek with
  | some (.anchor name) =>
      skip
      match ← peek with
      | some (.tag spelling) => skip; return ⟨some name, some spelling⟩
      | _ => return ⟨some name, none⟩
  | some (.tag spelling) =>
      skip
      match ← peek with
      | some (.anchor name) => skip; return ⟨some name, some spelling⟩
      | _ => return ⟨none, some spelling⟩
  | _ => return ⟨none, none⟩

/-- An empty place, which counts as a node. -/
def absent : Grammar Node := do
  count 1
  return .absent

def isValue : Option Token → Bool
  | some .value => true
  | _ => false

/-- Whether nothing stands before the next part of a block mapping. -/
def endsMember : Option Token → Bool
  | some .key | some .value | some .blockEnd => true
  | _ => false

def endsItem : Option Token → Bool
  | some .entry | some .blockEnd => true
  | _ => false

def endsFlowItem : Option Token → Bool
  | some .flowEntry | some .flowSequenceEnd => true
  | _ => false

def endsFlowMember : Option Token → Bool
  | some .flowEntry | some .flowMappingEnd => true
  | _ => false

mutual

/-- A node.  `inBlock` admits block collections, `unindented` a block sequence that is indented
no more than the mapping it stands in. -/
def node : Nat → Bool → Bool → Grammar Node
  | 0, _, _ => failure
  | fuel + 1, inBlock, unindented => do
      match ← peek with
      | some (.alias name) =>
          skip
          count 1
          return .alias (← anchor? name)
      | _ =>
          let properties ← properties
          let tag ← properties.tag.mapM resolve
          let serial ← properties.anchor.mapM beginAnchor
          let node ← content fuel inBlock unindented properties tag
          match serial with
          | some serial => modify fun p => { p with nodes := (serial, node) :: p.nodes }
          | none => pure ()
          return node

/-- A node behind its properties.  The tag of a lone exclamation mark leaves a scalar as it is. -/
def content : Nat → Bool → Bool → Properties → Option (List Char) → Grammar Node
  | 0, _, _, _, _ => failure
  | fuel + 1, inBlock, unindented, properties, text => do
      let tag := text.map Tag.ofText
      match ← peek, inBlock, unindented with
      | some .entry, _, true =>
          count 2
          return .sequence tag (← unindentedItems fuel)
      | some (.scalar style value), _, _ =>
          skip
          count 1
          return .scalar (if text = some ['!'] then none else tag) style value
      | some .flowSequenceStart, _, _ =>
          skip
          count 2
          return .sequence tag (← flowItems fuel true)
      | some .flowMappingStart, _, _ =>
          skip
          count 2
          return .mapping tag (← flowMembers fuel true)
      | some .sequenceStart, true, _ =>
          skip
          count 2
          return .sequence tag (← blockItems fuel)
      | some .mappingStart, true, _ =>
          skip
          count 2
          return .mapping tag (← blockMembers fuel)
      | _, _, _ =>
          require (properties.anchor.isSome || text.isSome)
          count 1
          return .scalar tag .plain []

def blockItems : Nat → Grammar (List Node)
  | 0 => failure
  | fuel + 1 => do
      match ← peek with
      | some .entry =>
          skip
          let item ← if endsItem (← peek) then absent else node fuel true false
          return item :: (← blockItems fuel)
      | some .blockEnd =>
          skip
          return []
      | _ => failure

def unindentedItems : Nat → Grammar (List Node)
  | 0 => failure
  | fuel + 1 => do
      match ← peek with
      | some .entry =>
          skip
          let next ← peek
          let item ← if endsItem next || endsMember next then absent else node fuel true false
          return item :: (← unindentedItems fuel)
      | _ => return []

def blockMembers : Nat → Grammar (List (Node × Node))
  | 0 => failure
  | fuel + 1 => do
      match ← peek with
      | some .key =>
          skip
          let key ← if endsMember (← peek) then absent else node fuel true true
          let value ←
            if isValue (← peek) then do
              skip
              if endsMember (← peek) then absent else node fuel true true
            else absent
          return (key, value) :: (← blockMembers fuel)
      | some .blockEnd =>
          skip
          return []
      | _ => failure

/-- The items of a flow sequence up to its end.  A single pair is a mapping of its own. -/
def flowItems : Nat → Bool → Grammar (List Node)
  | 0, _ => failure
  | fuel + 1, first => do
      match ← peek with
      | some .flowSequenceEnd =>
          skip
          return []
      | next =>
          unless first do
            require (match next with | some .flowEntry => true | _ => false)
            skip
          match ← peek with
          | some .flowSequenceEnd =>
              skip
              return []
          | some .key =>
              skip
              count 2
              let pair ← flowPair fuel
              return .mapping none [pair] :: (← flowItems fuel false)
          | _ =>
              let item ← node fuel false false
              return item :: (← flowItems fuel false)

/-- A single pair in a flow sequence.  Where its key is missing, the token that stands in the
key's place is passed over. -/
def flowPair : Nat → Grammar (Node × Node)
  | 0 => failure
  | fuel + 1 => do
      let next ← peek
      let key ←
        if isValue next || endsFlowItem next then do
          skip
          absent
        else node fuel false false
      let value ←
        if isValue (← peek) then do
          skip
          if endsFlowItem (← peek) then absent else node fuel false false
        else absent
      return (key, value)

def flowMembers : Nat → Bool → Grammar (List (Node × Node))
  | 0, _ => failure
  | fuel + 1, first => do
      match ← peek with
      | some .flowMappingEnd =>
          skip
          return []
      | next =>
          unless first do
            require (match next with | some .flowEntry => true | _ => false)
            skip
          match ← peek with
          | some .flowMappingEnd =>
              skip
              return []
          | some .key =>
              skip
              let next ← peek
              let key ←
                if isValue next || endsFlowMember next then absent else node fuel false false
              let value ←
                if isValue (← peek) then do
                  skip
                  if endsFlowMember (← peek) then absent else node fuel false false
                else absent
              return (key, value) :: (← flowMembers fuel false)
          | _ =>
              let key ← node fuel false false
              let value ← absent
              return (key, value) :: (← flowMembers fuel false)

end

/-! ## Documents -/

def defaultHandles : List (List Char × List Char) :=
  [(['!'], ['!']), (['!', '!'], standardTags.toList)]

/-- Takes in the directives before a document.  There is at most one version, which must be 1.1
or 1.2, and each handle is declared at most once. -/
def directives : Nat → Bool → Grammar Unit
  | 0, _ => failure
  | fuel + 1, versioned => do
      match ← peek with
      | some (.directive (.version major minor)) =>
          require (!versioned && major == 1 && (minor == 1 || minor == 2))
          skip
          directives fuel true
      | some (.directive (.handle name expansion)) =>
          let p ← get
          require (!p.handles.any fun (other, _) => other == name)
          set { p with handles := (name, expansion) :: p.handles }
          skip
          directives fuel versioned
      | _ => modify fun p => { p with handles := p.handles ++ defaultHandles }

def isDocumentBound : Option Token → Bool
  | some (.directive _) | some .documentStart | some .documentEnd | none => true
  | _ => false

def skipDocumentEnds : Nat → Grammar Unit
  | 0 => failure
  | fuel + 1 => do
      match ← peek with
      | some .documentEnd =>
          skip
          skipDocumentEnds fuel
      | _ => pure ()

/-- The first document of a stream, which needs no mark at its start. -/
def firstDocument (fuel : Nat) : Grammar (Option Node) := do
  match ← peek with
  | none => return none
  | some (.directive _) | some .documentStart =>
      directives fuel false
      match ← peek with
      | some .documentStart =>
          skip
          if isDocumentBound (← peek) then return some (← absent)
          else return some (← node fuel true false)
      | _ => failure
  | some _ =>
      directives fuel false
      return some (← node fuel true false)

/-- A stream of one document, or of none at all. -/
def stream (fuel : Nat) : Grammar (Option Node) := do
  let root ← firstDocument fuel
  skipDocumentEnds fuel
  require (← peek).isNone
  return root

end Grammar

/-- The document of a text, unless the text is empty. -/
def document? (text : List Char) : Option (Option Document) := do
  let tokens ← tokens? text
  let fuel := 4 * tokens.length + 4
  let (root, p) ← (Grammar.stream fuel).run ⟨tokens, [], [], [], [], 0⟩
  let anchored := p.begun.zipIdx.filterMap fun (number, after) =>
    (p.nodes.lookup (p.begun.length - 1 - after)).map fun node => (number, node)
  some (root.map fun root => ⟨root, anchored, p.size⟩)

end Yaml

end Reconcile
