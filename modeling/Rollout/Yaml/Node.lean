import Rollout.Table
import Rollout.Yaml.Scalar
import Rollout.Yaml.Token

/-!
# Nodes

The tokens of a document form a tree of scalars, sequences and mappings. A node may be given a name,
by which it can be used again after it, until another node takes the name. A text holds at most one
document; a text without one stands for the null scalar. A document says itself whether the rules of
version 1.1 hold for it.

**Types.** `Node`, `Reading`.

**Operations.** `Node.ofText?`: the tree of a text.
-/

namespace Rollout.Yaml

/-- A node of a document. -/
inductive Node
  | scalar (tag : Tag) (text : String)
  | sequence (tag : Tag) (items : List Node)
  | mapping (tag : Tag) (entries : List (Node × Node))
  deriving Inhabited

/-- The node that stands where nothing is written. -/
def Node.empty : Node := .scalar .null ""

/-- The tokens that are left, the named nodes and what the handles of tags stand for. A named node
whose end is not yet reached is known by its name alone. -/
structure Reading where
  tokens : List Token
  /-- Whether the rules of version 1.2 hold, and not those of 1.1. -/
  modern : Bool := true
  named : Table (List Char) (Option Node) := []
  handles : Table (List Char) (List Char) := []
  deriving Inhabited

/-- A step that reads tokens; it may refuse them. -/
abbrev Reader := StateT Reading Option

namespace Reader

/-- The next token. -/
def peek : Reader (Option Token) := return (← get).tokens.head?

/-- Move over the next token. -/
def skip : Reader Unit := modify fun r => { r with tokens := r.tokens.drop 1 }

/-- Whether the next token is one of some, or there is none. -/
def nextIn (tokens : List Token) : Reader Bool :=
  return match ← peek with
    | some t => tokens.contains t
    | none => true

/-- Whether the next token is the given one. -/
def nextIs (t : Token) : Reader Bool := return (← peek) == some t

/-- What a tag with a handle stands for. -/
def tagName (handle suffix : List Char) : Reader (List Char) := do
  if handle.isEmpty then return suffix
  else
    match Table.get? handle (← get).handles with
    | some leader => return leader ++ suffix
    | none => failure

/-- The name and tag in front of a node. -/
structure Properties where
  anchor : Option (List Char) := none
  tag : Option (List Char) := none

/-- One property, if the next token is one that is not yet known. -/
def property (p : Properties) : Reader Properties := do
  match ← peek with
  | some (.anchor name) =>
    if p.anchor.isSome then return p
    else
      skip
      return { p with anchor := some name }
  | some (.tag handle suffix) =>
    if p.tag.isSome then return p
    else
      skip
      return { p with tag := some (← tagName handle suffix) }
  | _ => return p

/-- The name and tag in front of a node, in either order. -/
def properties : Reader Properties := do property (← property {})

/-- A name is given to the node that starts here. -/
def startNode (p : Properties) : Reader Unit :=
  match p.anchor with
  | none => pure ()
  | some name => modify fun r => { r with named := Table.set name none r.named }

/-- The named node ends here. A node inside it may have taken its name. -/
def endNode (p : Properties) (node : Node) : Reader Node := do
  match p.anchor with
  | none => pure ()
  | some name =>
    if (Table.get? name (← get).named).any Option.isNone then
      modify fun r => { r with named := Table.set name (some node) r.named }
  return node

/-- What a tag in front of a collection says. -/
def Properties.collectionTag (p : Properties) (usual : Tag) : Tag :=
  match p.tag with
  | none | some ['!'] => usual
  | some name => .ofName true (String.ofList name)

/-- A scalar with the tag in front of it. -/
def Properties.scalar (p : Properties) (modern : Bool) (text : String) (plain : Bool) : Node :=
  match p.tag with
  | none => .scalar (if plain then .ofPlain modern text else .text) text
  | some ['!'] => .scalar (.ofPlain modern text) text
  | some name => .scalar (.ofName modern (String.ofList name)) text

mutual

/-- A node. Blocks are allowed where `block` holds, and entries that are not indented where
`inLine` holds. -/
def node (block inLine : Bool) : Nat → Reader Node
  | 0 => failure
  | fuel + 1 => do
    match ← peek with
    | some (.alias name) =>
      skip
      match Table.get? name (← get).named with
      | some (some n) => return n
      | _ => failure
    | _ =>
      let p ← properties
      startNode p
      let made ← content p block inLine fuel
      endNode p made

/-- What follows the name and tag of a node. -/
def content (p : Properties) (block inLine : Bool) : Nat → Reader Node
  | 0 => failure
  | fuel + 1 => do
    match ← peek with
    | some (.scalar text plain) =>
      skip
      return p.scalar (← get).modern (String.ofList text) plain
    | some .flowSequenceStart =>
      skip
      return .sequence (p.collectionTag .sequence) (← flowItems true fuel)
    | some .flowMappingStart =>
      skip
      return .mapping (p.collectionTag .mapping) (← flowEntries true fuel)
    | some .entry =>
      if inLine then return .sequence (p.collectionTag .sequence) (← lineItems fuel)
      else bare p
    | some .sequenceStart =>
      if block then
        skip
        return .sequence (p.collectionTag .sequence) (← blockItems fuel)
      else bare p
    | some .mappingStart =>
      if block then
        skip
        return .mapping (p.collectionTag .mapping) (← blockEntries fuel)
      else bare p
    | _ => bare p
where
  /-- Only a name or a tag may stand for a node that is not written. -/
  bare (p : Properties) : Reader Node := do
    if p.anchor.isSome || p.tag.isSome then return p.scalar (← get).modern "" true else failure

/-- The node at this place, or the empty one if one of some tokens follows. -/
def nodeUnless (ends : List Token) (block inLine : Bool) : Nat → Reader Node
  | 0 => failure
  | fuel + 1 => do
    if ← nextIn ends then return .empty else node block inLine fuel

/-- The entries of a block up to its end. -/
def blockItems : Nat → Reader (List Node)
  | 0 => failure
  | fuel + 1 => do
    match ← peek with
    | some .entry =>
      skip
      let item ← nodeUnless [.entry, .blockEnd] true false fuel
      return item :: (← blockItems fuel)
    | some .blockEnd =>
      skip
      return []
    | _ => failure

/-- The entries that are not indented more than the key before them. -/
def lineItems : Nat → Reader (List Node)
  | 0 => failure
  | fuel + 1 => do
    match ← peek with
    | some .entry =>
      skip
      let item ← nodeUnless [.entry, .key, .value, .blockEnd] true false fuel
      return item :: (← lineItems fuel)
    | _ => return []

/-- The keys and values of a block up to its end. -/
def blockEntries : Nat → Reader (List (Node × Node))
  | 0 => failure
  | fuel + 1 => do
    match ← peek with
    | some .key =>
      skip
      let key ← nodeUnless [.key, .value, .blockEnd] true true fuel
      let value ← valueUnless [.key, .value, .blockEnd] true fuel
      return (key, value) :: (← blockEntries fuel)
    | some .value =>
      if (← get).modern then
        let value ← valueUnless [.key, .value, .blockEnd] true fuel
        return (.empty, value) :: (← blockEntries fuel)
      else failure
    | some .blockEnd =>
      skip
      return []
    | _ => failure

/-- The value after its mark; the empty node if there is no mark or one of some tokens follows. -/
def valueUnless (ends : List Token) (block : Bool) : Nat → Reader Node
  | 0 => failure
  | fuel + 1 => do
    if ← nextIs .value then
      skip
      nodeUnless ends block block fuel
    else return .empty

/-- The items between square brackets, up to the closing one. -/
def flowItems (first : Bool) : Nat → Reader (List Node)
  | 0 => failure
  | fuel + 1 => do
    if ← nextIs .flowSequenceEnd then
      skip
      return []
    else
      if !first then
        if ← nextIs .comma then skip else failure
      match ← peek with
      | some .flowSequenceEnd =>
        skip
        return []
      | some .key =>
        skip
        let pair ← flowPair fuel
        return .mapping .mapping [pair] :: (← flowItems false fuel)
      | _ =>
        let item ← node false false fuel
        return item :: (← flowItems false fuel)

/-- A single key with its value between square brackets. -/
def flowPair : Nat → Reader (Node × Node)
  | 0 => failure
  | fuel + 1 => do
    let key ← nodeUnless [.value, .comma, .flowSequenceEnd] false false fuel
    let value ← valueUnless [.comma, .flowSequenceEnd] false fuel
    return (key, value)

/-- The keys and values between curly brackets, up to the closing one. -/
def flowEntries (first : Bool) : Nat → Reader (List (Node × Node))
  | 0 => failure
  | fuel + 1 => do
    if ← nextIs .flowMappingEnd then
      skip
      return []
    else
      if !first then
        if ← nextIs .comma then skip else failure
      match ← peek with
      | some .flowMappingEnd =>
        skip
        return []
      | some .key =>
        skip
        let key ← nodeUnless [.value, .comma, .flowMappingEnd] false false fuel
        let value ← valueUnless [.comma, .flowMappingEnd] false fuel
        return (key, value) :: (← flowEntries false fuel)
      | some .value =>
        if (← get).modern then
          let value ← valueUnless [.comma, .flowMappingEnd] false fuel
          return (.empty, value) :: (← flowEntries false fuel)
        else failure
      | _ =>
        let key ← node false false fuel
        return (key, .empty) :: (← flowEntries false fuel)

end

/-! ## Documents -/

/-- The directives in front of a document: at most one version, and handles of tags. -/
def directives (versioned : Bool) (handles : Table (List Char) (List Char)) :
    Nat → Reader (Table (List Char) (List Char))
  | 0 => failure
  | fuel + 1 => do
    match ← peek with
    | some (.version major minor) =>
      skip
      if versioned || major != 1 || !(minor == 1 || minor == 2) then failure
      else
        modify fun r => { r with modern := minor == 2 }
        directives true handles fuel
    | some (.tagName handle leader) =>
      skip
      if Table.has handle handles then failure
      else directives versioned (Table.set handle leader handles) fuel
    | some .reserved =>
      skip
      directives versioned handles fuel
    | _ => return handles

/-- The handles that need no directive. -/
def usualHandles : Table (List Char) (List Char) :=
  [(['!'], ['!']), (['!', '!'], Tag.leader.toList)]

def isDirective : Token → Bool
  | .version .. | .tagName .. | .reserved => true
  | _ => false

/-- The content of a document after its start mark. -/
def marked (fuel : Nat) : Reader Node := do
  match ← peek with
  | none | some .documentStart | some .documentEnd => return .empty
  | some t => if isDirective t then return .empty else node true false fuel

/-- The document of a text. -/
def document (fuel : Nat) : Reader Node := do
  match ← peek with
  | none => return .empty
  | some t =>
    let explicit := isDirective t || t == .documentStart
    let own ← directives false [] fuel
    modify fun r =>
      { r with handles := usualHandles.foldl (fun hs e => Table.setNew e.1 e.2 hs) own }
    if explicit then
      if ← nextIs .documentStart then
        skip
        marked fuel
      else failure
    else node true false fuel

end Reader

/-- Whether nothing but marks of the end of a document is left. By the rules of version 1.2, there may
be one of them. -/
def Reading.ended (r : Reading) : Bool :=
  r.tokens.all (· == .documentEnd) && (!r.modern || r.tokens.length ≤ 1)

/-- The tree of a text, if it is one document. -/
def Node.ofText? (text : String) : Option Node := do
  let all ← tokens text.toList
  let (node, rest) ← (Reader.document (4 * all.length + 8)).run { tokens := all }
  if rest.ended then return node else none

end Rollout.Yaml
