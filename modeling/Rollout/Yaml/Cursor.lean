/-!
# Places in a document

A cursor is a place in the text of a document, with its line and column. Blanks and line breaks
between the words of a scalar are folded: one break becomes a space, further breaks are kept.

**Types.** `Cursor`, `Gap`.

**Operations.** `Cursor.step`, `Cursor.gap`, `Gap.text`.
-/

namespace Rollout.Yaml

/-- Whether a character ends a line. -/
def isBreak (c : Char) : Bool :=
  c == '\n' || c == '\r' || c == '\x85' || c == '\u2028' || c == '\u2029'

/-- Whether a character is a space or a tab. -/
def isBlank (c : Char) : Bool := c == ' ' || c == '\t'

/-- What a line break is read as. -/
def breakChar (c : Char) : Char :=
  if c == '\u2028' || c == '\u2029' then c else '\n'

/-- A place in the text of a document. -/
structure Cursor where
  rest : List Char
  index : Nat := 0
  line : Nat := 0
  column : Nat := 0
  deriving DecidableEq, Inhabited

namespace Cursor

/-- The character at a distance. -/
def peek (c : Cursor) (n : Nat) : Option Char := c.rest[n]?

/-- Whether a line break or the end is found at a distance. -/
def endAt (c : Cursor) (n : Nat) : Bool :=
  match c.peek n with
  | some x => isBreak x
  | none => true

/-- Whether a space, a line break or the end is found at a distance. -/
def spaceAt (c : Cursor) (n : Nat) : Bool := c.endAt n || c.peek n == some ' '

/-- Whether a blank, a line break or the end is found at a distance. -/
def blankAt (c : Cursor) (n : Nat) : Bool :=
  match c.peek n with
  | some x => isBlank x || isBreak x
  | none => true

/-- The place after the next character. The mark of byte order takes no column. -/
def step (c : Cursor) : Cursor :=
  match c.rest with
  | [] => c
  | x :: rest =>
    if isBreak x then ⟨rest, c.index + 1, c.line + 1, 0⟩
    else ⟨rest, c.index + 1, c.line, if x = '\ufeff' then c.column else c.column + 1⟩

/-- The place after some characters. -/
def skip : Nat → Cursor → Cursor
  | 0, c => c
  | n + 1, c => skip n c.step

/-- The place after the characters of a kind, and these characters. -/
def span (p : Char → Bool) (c : Cursor) : List Char × Cursor :=
  let front := c.rest.takeWhile p
  (front, c.skip front.length)

/-- Whether a line starts here with the given mark, followed by a blank or the end. -/
def hasMark (mark : String) (c : Cursor) : Bool :=
  c.column == 0 && mark.toList.isPrefixOf c.rest && c.blankAt mark.length

/-- Whether a document starts or ends here. -/
def atDocumentMark (c : Cursor) : Bool := c.hasMark "---" || c.hasMark "..."

end Cursor

/-- The blanks and line breaks between two words of a scalar. -/
structure Gap where
  /-- Whether a line break has been met. -/
  broken : Bool := false
  blanks : List Char := []
  /-- The first line break. -/
  first : List Char := []
  /-- The other line breaks. -/
  others : List Char := []
  deriving DecidableEq, Inhabited

/-- What a gap is read as. -/
def Gap.text (g : Gap) : List Char :=
  if g.broken then
    if g.first = ['\n'] then (if g.others.isEmpty then [' '] else g.others)
    else g.first ++ g.others
  else g.blanks

/-- The gap at a place and the place after it. Tabs may be a part of it or not. -/
def Cursor.gap (tabs : Bool) : Nat → Cursor → Gap → Cursor × Gap
  | 0, c, g => (c, g)
  | fuel + 1, c, g =>
    match c.rest with
    | [] => (c, g)
    | x :: _ =>
      if x = ' ' ∨ (tabs ∧ x = '\t') then
        Cursor.gap tabs fuel c.step (if g.broken then g else { g with blanks := g.blanks ++ [x] })
      else if isBreak x then
        Cursor.gap tabs fuel c.step
          (if g.broken then { g with others := g.others ++ [breakChar x] }
          else ⟨true, [], [breakChar x], g.others⟩)
      else (c, g)

end Rollout.Yaml
