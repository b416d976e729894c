import Rollout.Yaml.Text

/-!
# The tokens of a document

The text of a document is split into tokens. Indentation is made visible: a block of entries starts
and ends with tokens of its own. A key is recognised only when the colon after it is met; its token
is then put in front of what has been read since the key may have started.

**Types.** `Token`, `KeyPlace`, `Scan`.

**Operations.** `tokens`.
-/

namespace Rollout.Yaml

/-- A token of a document. -/
inductive Token
  | version (major minor : Nat)
  | tagName (handle leader : List Char)
  /-- A directive without a meaning. -/
  | reserved
  | documentStart
  | documentEnd
  | sequenceStart
  | mappingStart
  | blockEnd
  | flowSequenceStart
  | flowSequenceEnd
  | flowMappingStart
  | flowMappingEnd
  | comma
  | entry
  | key
  | value
  | alias (name : List Char)
  | anchor (name : List Char)
  | tag (handle suffix : List Char)
  | scalar (text : List Char) (plain : Bool)
  deriving DecidableEq, Inhabited

/-- A place at which a key may have started. -/
structure KeyPlace where
  /-- Whether there must be a key. -/
  required : Bool
  /-- The number of tokens before it. -/
  position : Nat
  index : Nat
  line : Nat
  column : Nat
  deriving DecidableEq, Inhabited

/-- What is known while the tokens are read. -/
structure Scan where
  cursor : Cursor
  tokens : Array Token := #[]
  /-- For every open bracket and for the outside, the innermost first: where a key may have
  started. -/
  keys : List (Option KeyPlace) := [none]
  /-- For every open bracket, the innermost first: whether it is a square one. -/
  square : List Bool := []
  /-- Whether the rules of version 1.2 hold, and not those of 1.1. -/
  modern : Bool := true
  indent : Int := -1
  indents : List Int := []
  keyAllowed : Bool := true
  deriving Inhabited

namespace Scan

/-- Whether the place is inside brackets. -/
def inFlow (s : Scan) : Bool := !s.square.isEmpty

/-- Add a token. -/
def push (t : Token) (s : Scan) : Scan := { s with tokens := s.tokens.push t }

/-- Add a token in front of those that follow a position. -/
def insert (position : Nat) (t : Token) (s : Scan) : Scan :=
  { s with tokens := s.tokens.toList.take position ++ t :: s.tokens.toList.drop position |>.toArray }

/-- Start a block at a column, if it is indented more than the current one. -/
def openBlock (column : Nat) (position : Option Nat) (t : Token) (s : Scan) : Scan :=
  if s.inFlow || decide ((column : Int) ≤ s.indent) then s
  else
    let s := { s with indents := s.indent :: s.indents, indent := column }
    match position with
    | some n => s.insert n t
    | none => s.push t

/-- End the blocks that are indented more than a column. -/
def closeBlocks (column : Int) (s : Scan) : Scan :=
  if s.inFlow then s else go s.indents s
where
  /-- End blocks as long as they are indented more. -/
  go : List Int → Scan → Scan
    | [], s => s
    | n :: outer, s =>
      if column < s.indent then go outer { s.push .blockEnd with indent := n, indents := outer }
      else s

/-- Whether a key that started at a place may still end here: on its line, and not too far away. -/
def fresh (s : Scan) (k : KeyPlace) : Bool :=
  k.line == s.cursor.line && decide (s.cursor.index ≤ k.index + 1024)

/-- Whether a key that has started may still end here. -/
def pending (s : Scan) : Bool := s.keys.any fun k => k.any s.fresh

/-- Forget places at which a key can no longer have started; none where there must be one. -/
def dropStale (s : Scan) : Option Scan :=
  if s.keys.any fun k => k.any fun k => !s.fresh k && k.required then none
  else some { s with keys := s.keys.map fun k => k.filter s.fresh }

/-- Forget the innermost place of a key; it may not be one where there must be a key. -/
def dropKey (s : Scan) : Option Scan :=
  match s.keys with
  | some k :: outer => if k.required then none else some { s with keys := none :: outer }
  | _ => some s

/-- A key may start here. -/
def markKey (s : Scan) : Option Scan :=
  if s.keyAllowed then
    s.dropKey.map fun s =>
      let place : KeyPlace :=
        { required := !s.inFlow && s.indent == (s.cursor.column : Int)
          position := s.tokens.size
          index := s.cursor.index
          line := s.cursor.line
          column := s.cursor.column }
      { s with keys := some place :: s.keys.drop 1 }
  else some s

/-- Move to the next token, over spaces, comments and line breaks, and over tabs inside brackets. -/
def toToken : Nat → Scan → Scan
  | 0, s => s
  | fuel + 1, s =>
    match s.cursor.rest with
    | [] => s
    | c :: _ =>
      if c = ' ' ∨ (c = '\t' ∧ s.inFlow) ∨ (c = '\ufeff' ∧ s.cursor.index = 0) then
        toToken fuel { s with cursor := s.cursor.step }
      else if c = '#' then
        let (_, cursor) := s.cursor.span fun x => !isBreak x
        toToken fuel { s with cursor := cursor }
      else if isBreak c then
        toToken fuel { s with
          cursor := s.cursor.step
          keyAllowed := s.keyAllowed || !s.inFlow }
      else s

/-- Move over some characters. -/
def skip (n : Nat) (s : Scan) : Scan := { s with cursor := s.cursor.skip n }

/-- Characters of the handles of tags. -/
def isHandleChar (c : Char) : Bool := c.isAlphanum || c == '_' || c == '-'

/-- Characters of the names of directives. -/
def isDirectiveChar (c : Char) : Bool := isHandleChar c || c == ':' || c == '.'

/-- The rest of a line after a directive must be blank. -/
def endLine (c : Cursor) : Option Cursor :=
  let (_, c) := c.span (· == ' ')
  let c := if c.peek 0 = some '#' then (c.span fun x => !isBreak x).2 else c
  if c.endAt 0 then some c.step else none

/-- The number of a version. -/
def number? (c : Cursor) : Option (Nat × Cursor) :=
  let (digits, c) := c.span Char.isDigit
  if digits.isEmpty then none
  else some (digits.foldl (fun n d => n * 10 + (d.toNat - 48)) 0, c)

def isTagChar (modern : Bool) (c : Char) : Bool :=
  isHandleChar c || ";/?:@&=+$.!~*'()%,[]".toList.contains c || (modern && c == '#')

/-- The bytes and characters that a tag with numbered bytes stands for. -/
def tagBytes : Nat → List Char → Option (List UInt8)
  | 0, _ => some []
  | _, [] => some []
  | fuel + 1, '%' :: a :: b :: rest =>
    match Json.hexValue? a, Json.hexValue? b with
    | some x, some y => (tagBytes fuel rest).map (UInt8.ofNat (x * 16 + y) :: ·)
    | _, _ => none
  | fuel + 1, c :: rest =>
    if c = '%' then none
    else (tagBytes fuel rest).map ((String.singleton c).toUTF8.toList ++ ·)

/-- The text of a tag, which may not be empty. -/
def tagText (modern : Bool) (c : Cursor) : Option (List Char × Cursor) := do
  let (cs, c) := c.span (isTagChar modern)
  if cs.isEmpty then none
  else
    let bytes ← tagBytes (cs.length + 1) cs
    let text ← String.fromUTF8? ⟨bytes.toArray⟩
    return (text.toList, c)

/-- The handle of a tag: one mark before a space, two marks, or a name between marks. -/
def tagHandle (c : Cursor) : Option (List Char × Cursor) :=
  if c.peek 0 != some '!' then none
  else if c.peek 1 = some ' ' then some (['!'], c.step)
  else
    let (name, after) := c.step.span isHandleChar
    if after.peek 0 = some '!' then some ('!' :: name ++ ['!'], after.step) else none

/-- The version and the place after it. -/
def versionValue (c : Cursor) : Option (Token × Cursor) := do
  let (_, c) := c.span (· == ' ')
  let (major, c) ← number? c
  if c.peek 0 != some '.' then none
  else
    let (minor, c) ← number? c.step
    return (.version major minor, c)

/-- What a handle stands for, and the place after it. -/
def tagNameValue (modern : Bool) (c : Cursor) : Option (Token × Cursor) := do
  let (_, c) := c.span (· == ' ')
  let (handle, c) ← tagHandle c
  if c.peek 0 != some ' ' then none
  else
    let (_, c) := c.span (· == ' ')
    let (leader, c) ← tagText modern c
    return (.tagName handle leader, c)

def directive (s : Scan) : Option Scan := do
  let s ← (s.closeBlocks (-1)).dropKey
  let (name, c) := s.cursor.step.span isDirectiveChar
  if name.isEmpty || !c.spaceAt 0 then none
  else
    let (t, c) ← match String.ofList name with
      | "YAML" => versionValue c
      | "TAG" => tagNameValue s.modern c
      | _ => some (.reserved, (c.span fun x => !isBreak x).2)
    let c ← if c.spaceAt 0 then endLine c else none
    return { s.push t with
      cursor := c
      keyAllowed := false
      modern := s.modern && t != .version 1 1 }

/-- The mark of the start or end of a document. -/
def documentMark (t : Token) (s : Scan) : Option Scan :=
  (s.closeBlocks (-1)).dropKey.map fun s => { (s.skip 3).push t with keyAllowed := false }

def openBracket (square : Bool) (t : Token) (s : Scan) : Option Scan :=
  s.markKey.map fun s =>
    { (s.skip 1).push t with
      keys := none :: s.keys
      square := square :: s.square
      keyAllowed := true }

def closeBracket (t : Token) (s : Scan) : Option Scan :=
  s.dropKey.map fun s =>
    { (s.skip 1).push t with
      keys := (match s.keys with | _ :: k :: outer => k :: outer | ks => ks)
      square := s.square.drop 1
      keyAllowed := false }

def commaMark (s : Scan) : Option Scan :=
  s.dropKey.map fun s => { (s.skip 1).push .comma with keyAllowed := true }

/-- The mark of an entry of a block. -/
def entryMark (s : Scan) : Option Scan :=
  if !s.inFlow && !s.keyAllowed then none
  else
    (s.openBlock s.cursor.column none .sequenceStart).dropKey.map fun s =>
      { (s.skip 1).push .entry with keyAllowed := true }

def keyMark (s : Scan) : Option Scan :=
  if !s.inFlow && !s.keyAllowed then none
  else
    (s.openBlock s.cursor.column none .mappingStart).dropKey.map fun s =>
      { (s.skip 1).push .key with keyAllowed := !s.inFlow }

/-- The colon after a key. -/
def valueMark (s : Scan) : Option Scan :=
  match s.keys with
  | some k :: outer =>
    let s := s.insert k.position .key
    let s := s.openBlock k.column (some k.position) .mappingStart
    some { (s.skip 1).push .value with keys := none :: outer, keyAllowed := false }
  | _ =>
    if !s.inFlow && !s.keyAllowed then none
    else
      let s := s.openBlock s.cursor.column none .mappingStart
      some { (s.skip 1).push .value with keyAllowed := !s.inFlow }

/-- Characters of the names of anchors. -/
def isNameChar (c : Char) : Bool :=
  (('!' ≤ c && c ≤ '~') || 0xA0 ≤ c.toNat) && c != '\ufeff' && !isFlowMark c

def anchorName (make : List Char → Token) (s : Scan) : Option Scan := do
  let s ← s.markKey
  let (name, c) := s.cursor.step.span isNameChar
  if name.isEmpty || !(c.blankAt 0 || (c.peek 0).any isFlowMark) then none
  else return { s.push (make name) with cursor := c, keyAllowed := false }

/-- A tag: in full, a single mark, or with a handle. -/
def tagMark (s : Scan) : Option Scan := do
  let s ← s.markKey
  let c := s.cursor
  let (handle, suffix, c) ←
    if c.peek 1 = some '<' then do
      let (text, c) ← tagText s.modern (c.skip 2)
      if c.peek 0 = some '>' then some ([], text, c.step) else none
    else if c.blankAt 1 then some ([], ['!'], c.step)
    else do
      let word := c.step.rest.takeWhile fun x => !(isBreak x || x == ' ')
      let (handle, c) ← if word.contains '!' then tagHandle c else some (['!'], c.step)
      let (text, c) ← tagText s.modern c
      some (handle, text, c)
  if c.spaceAt 0 then return { s.push (.tag handle suffix) with cursor := c, keyAllowed := false }
  else none

/-- A block of lines. -/
def blockScalar (literal : Bool) (s : Scan) : Option Scan := do
  let s ← s.dropKey
  let (text, c) ← blockText literal s.indent s.cursor.step
  return { s.push (.scalar text false) with cursor := c, keyAllowed := true }

def quotedScalar (single : Bool) (s : Scan) : Option Scan := do
  let s ← s.markKey
  let (text, c) ← quotedText single (s.cursor.rest.length + 1) s.cursor.step []
  return { s.push (.scalar text false) with cursor := c, keyAllowed := false }

def plainScalar (s : Scan) : Option Scan := do
  let s ← s.markKey
  let (text, c, broken) :=
    plainText s.modern s.inFlow (s.indent + 1) (s.cursor.rest.length + 1) s.cursor [] {}
  return { s.push (.scalar text true) with cursor := c, keyAllowed := broken }

/-- Characters with which no plain scalar starts, or only under a condition. -/
def isIndicator (c : Char) : Bool :=
  "-?:,[]\x7b\x7d#&*!|>'\"%@".toList.contains c || c.toNat == 96

/-- Whether a colon at this place is a mark of its own. Inside square brackets a blank has to follow
it. Inside curly brackets a blank has to follow it if it comes after another mark and a key may still
end here; `pending` tells this for the place after that mark. -/
def isValueMark (pending : Bool) (s : Scan) : Bool :=
  s.cursor.blankAt 1 ||
    match s.square with
    | [] => false
    | square :: _ => !s.modern || (!square && !(pending && s.tokens.back? == some .value))

/-- Read one token that starts with a character. -/
def token (c : Char) (pending : Bool) (s : Scan) : Option Scan :=
  let spaced := s.cursor.blankAt 1
  if s.cursor.column = 0 ∧ c = '%' then s.directive
  else if s.cursor.hasMark "---" then s.documentMark .documentStart
  else if s.cursor.hasMark "..." then s.documentMark .documentEnd
  else if c = '[' then s.openBracket true .flowSequenceStart
  else if c = '\x7b' then s.openBracket false .flowMappingStart
  else if c = ']' then s.closeBracket .flowSequenceEnd
  else if c = '\x7d' then s.closeBracket .flowMappingEnd
  else if c = ',' then s.commaMark
  else if c = '-' ∧ spaced then s.entryMark
  else if c = '?' ∧ (s.inFlow ∨ spaced) then s.keyMark
  else if c = ':' ∧ s.isValueMark pending then s.valueMark
  else if c = '*' then s.anchorName .alias
  else if c = '&' then s.anchorName .anchor
  else if c = '!' then s.tagMark
  else if c = '|' ∧ !s.inFlow then s.blockScalar true
  else if c = '>' ∧ !s.inFlow then s.blockScalar false
  else if c = '\'' then s.quotedScalar true
  else if c = '"' then s.quotedScalar false
  else if (!isBlank c ∧ !isIndicator c) ∨ (!spaced ∧ (c = '-' ∨ c = '?' ∨ c = ':')) then
    s.plainScalar
  else none

/-- Read tokens up to the end. -/
def all : Nat → Scan → Option Scan
  | 0, s => some s
  | fuel + 1, s =>
    let pending := s.pending
    let s := s.toToken (s.cursor.rest.length + 1)
    match s.dropStale with
    | none => none
    | some s =>
      match s.cursor.rest with
      | [] => (s.closeBlocks (-1)).dropKey
      | c :: _ =>
        match (s.closeBlocks s.cursor.column).token c pending with
        | none => none
        | some s => all fuel s

end Scan

/-- Whether a document may hold a character. -/
def isAllowed (c : Char) : Bool :=
  let n := c.toNat
  n == 0x9 || n == 0xA || n == 0xD || (0x20 ≤ n && n ≤ 0x7E) || n == 0x85 ||
    (0xA0 ≤ n && n ≤ 0xD7FF) || (0xE000 ≤ n && n ≤ 0xFFFD) || 0x10000 ≤ n

def tokens (text : List Char) : Option (List Token) :=
  if text.all isAllowed then
    ((Scan.all (text.length + 1) { cursor := { rest := text } }).map fun s => s.tokens.toList)
  else none

end Rollout.Yaml
