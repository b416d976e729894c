import Rollout.Json.Reader
import Rollout.Yaml.Cursor

/-!
# The texts of scalars

A scalar is written plainly, in quotes, or as a block of lines. Each reader gives the text of the
scalar and the place after it, or nothing if the scalar is malformed.

**Operations.** `plainText`, `quotedText`, `blockText`.
-/

namespace Rollout.Yaml

/-! ## Plain scalars -/

/-- The characters that end a plain scalar inside brackets. -/
def isFlowMark (c : Char) : Bool := ",[]\x7b\x7d".toList.contains c

/-- Whether a plain scalar goes on with a character. A colon ends it only before a blank. By the
rules of version 1.1, a question mark ends it inside brackets. -/
def isPlainNext (modern flow : Bool) (x : Char) (c : Cursor) : Bool :=
  if x = ':' then !c.blankAt 1
  else if x = '?' then modern || !flow
  else !c.blankAt 0 && !(flow && isFlowMark x)

/-- The rest of a word of a plain scalar. -/
def plainWord (modern flow : Bool) : Nat → Cursor → List Char × Cursor
  | 0, c => ([], c)
  | fuel + 1, c =>
    match c.rest with
    | [] => ([], c)
    | x :: _ =>
      if isPlainNext modern flow x c then
        let (word, after) := plainWord modern flow fuel c.step
        (x :: word, after)
      else ([], c)

/-- A plain scalar: its text, the place after it and the blanks that follow, and whether a line break
is among these. Outside of brackets all its lines must be indented. -/
def plainText (modern flow : Bool) (indent : Int) :
    Nat → Cursor → List Char → Gap → List Char × Cursor × Bool
  | 0, c, done, g => (done, c, g.broken)
  | fuel + 1, c, done, g =>
    if c.atDocumentMark || c.peek 0 == some '#' then (done, c, g.broken)
    else
      match plainWord modern flow (c.rest.length + 1) c with
      | ([], _) => (done, c, g.broken)
      | (word, c) =>
        let done := done ++ g.text ++ word
        let (c, g) := c.gap false (c.rest.length + 1) {}
        if !flow && decide ((c.column : Int) < indent) then (done, c, g.broken)
        else plainText modern flow indent fuel c done g

/-! ## Quoted scalars -/

/-- The characters that a backslash and a letter stand for. -/
def escapedChar? : Char → Option Char
  | '0' => some (Char.ofNat 0)
  | 'a' => some '\x07'
  | 'b' => some '\x08'
  | 't' => some '\t'
  | '\t' => some '\t'
  | 'n' => some '\n'
  | 'v' => some '\x0b'
  | 'f' => some '\x0c'
  | 'r' => some '\r'
  | 'e' => some '\x1b'
  | ' ' => some ' '
  | '"' => some '"'
  | '/' => some '/'
  | '\\' => some '\\'
  | 'N' => some '\x85'
  | '_' => some '\xa0'
  | 'L' => some '\u2028'
  | 'P' => some '\u2029'
  | _ => none

/-- The number of digits after a backslash and a letter. -/
def escapeWidth? : Char → Option Nat
  | 'x' => some 2
  | 'u' => some 4
  | 'U' => some 8
  | _ => none

/-- The number that is written with digits of base sixteen. -/
def hexNumber? (digits : List Char) : Option Nat :=
  (digits.mapM Json.hexValue?).map fun values => values.foldl (fun n d => n * 16 + d) 0

/-- The character whose number has some digits, and how many characters it takes. A number of a high
surrogate goes together with the low one that is written after it. -/
def numberedChar? (width : Nat) (cs : List Char) : Option (Char × Nat) := do
  let n ← if cs.length < width then none else hexNumber? (cs.take width)
  if n.isValidChar then some (Char.ofNat n, width)
  else
    match cs.drop width with
    | '\\' :: 'u' :: more =>
      let (low, _) ← Json.hexUnit? more
      if 0xD800 ≤ n ∧ n < 0xDC00 ∧ 0xDC00 ≤ low ∧ low < 0xE000 then
        some (Char.ofNat (0x10000 + (n - 0xD800) * 0x400 + (low - 0xDC00)), width + 6)
      else none
    | _ => none

/-- A word of a quoted scalar: the text up to a blank, a line break or the closing quote, and whether
it ends with a line break that is not read. -/
def quotedWord (single : Bool) : Nat → Cursor → Option (List Char × Cursor × Bool)
  | 0, c => some ([], c, false)
  | fuel + 1, c =>
    let more (front : List Char) (c : Cursor) : Option (List Char × Cursor × Bool) :=
      (quotedWord single fuel c).map fun r => (front ++ r.1, r.2)
    match c.rest with
    | [] => some ([], c, false)
    | x :: rest =>
      if c.blankAt 0 then some ([], c, false)
      else if single then
        if x = '\'' then
          if rest.head? = some '\'' then more ['\''] (c.skip 2) else some ([], c, false)
        else more [x] c.step
      else if x = '"' then some ([], c, false)
      else if x = '\\' then
        match rest with
        | [] => none
        | y :: digits =>
          if isBreak y then some ([], c.skip 2, true)
          else
            match escapedChar? y, escapeWidth? y with
            | some z, _ => more [z] (c.skip 2)
            | none, some width =>
              match numberedChar? width digits with
              | some (z, taken) => more [z] (c.skip (2 + taken))
              | none => none
            | none, none => none
      else more [x] c.step

/-- The rest of a quoted scalar, and the place after its closing quote. -/
def quotedText (single : Bool) : Nat → Cursor → List Char → Option (List Char × Cursor)
  | 0, _, _ => none
  | fuel + 1, c, done =>
    if c.atDocumentMark then none
    else
      match c.rest with
      | [] => none
      | _ :: _ =>
        match quotedWord single (c.rest.length + 1) c with
        | none => none
        | some (word, c, broken) =>
          let done := done ++ word
          if c.peek 0 = some (if single then '\'' else '"') ∧ !broken then some (done, c.step)
          else
            let (c, g) := c.gap true (c.rest.length + 1) { broken := broken }
            quotedText single fuel c (done ++ g.text)

/-! ## Blocks of lines -/

/-- What happens to the line breaks at the end of a block. -/
inductive Chomp
  | strip
  | clip
  | keep
  deriving DecidableEq, Inhabited

/-- The empty lines in front of a block: the place after them and after the indentation of the next
line, the largest indentation, the indentation of the first of them, and the line breaks. -/
def leadingLines :
    Nat → Cursor → Nat → Option Nat → List Char → Cursor × Nat × Option Nat × List Char
  | 0, c, most, first, breaks => (c, most, first, breaks)
  | fuel + 1, c, most, first, breaks =>
    let (_, c) := c.span (· == ' ')
    let most := max most c.column
    match c.rest with
    | [] => (c, most, first, breaks)
    | x :: _ =>
      if isBreak x then
        leadingLines fuel c.step most (first.orElse fun _ => some c.column)
          (breaks ++ [breakChar x])
      else (c, most, first, breaks)

/-- The empty lines inside or after a block: the place after them and after the indentation of the
next line, and the line breaks. -/
def emptyLines (indent : Nat) : Nat → Cursor → List Char → Cursor × List Char
  | 0, c, breaks => (c, breaks)
  | fuel + 1, c, breaks =>
    let c := c.skip (min (indent - c.column) (c.rest.takeWhile (· == ' ')).length)
    match c.rest with
    | [] => (c, breaks)
    | x :: _ =>
      if isBreak x then emptyLines indent fuel c.step (breaks ++ [breakChar x]) else (c, breaks)

/-- What is known of a block while its lines are read. -/
structure BlockText where
  /-- The text without the last line breaks. -/
  done : List Char := []
  /-- The line break after the last line that is not empty. -/
  first : List Char := []
  /-- The line breaks after that one. -/
  others : List Char := []
  /-- Whether the last line that is not empty starts with a blank. -/
  blank : Bool := false
  deriving DecidableEq, Inhabited

/-- The lines of a block up to the first one that has not its indentation. A block that need not be
indented also ends at the mark of a document. -/
def blockLines (literal top : Bool) (indent : Nat) : Nat → Cursor → BlockText → BlockText × Cursor
  | 0, c, b => (b, c)
  | fuel + 1, c, b =>
    match c.rest with
    | [] => (b, c)
    | x :: _ =>
      if c.column ≠ indent then (b, c)
      else
        let blank := isBlank x
        let joined :=
          if !literal ∧ b.first = ['\n'] ∧ !b.blank ∧ !blank then
            (if b.others.isEmpty then [' '] else [])
          else b.first
        let (line, c) := c.span fun y => !isBreak y
        let first := (c.rest.take 1).map breakChar
        let (c, others) := emptyLines indent (c.rest.length + 1) c.step []
        let b : BlockText := ⟨b.done ++ joined ++ b.others ++ line, first, others, blank⟩
        if top && c.atDocumentMark then (b, c) else blockLines literal top indent fuel c b

/-- The marks after the sign of a block: what happens to its end, and its own indentation. -/
def blockMarks (c : Cursor) : Option (Chomp × Option Nat × Cursor) :=
  let chomp? (c : Cursor) : Option (Chomp × Cursor) :=
    match c.peek 0 with
    | some '+' => some (.keep, c.step)
    | some '-' => some (.strip, c.step)
    | _ => none
  let digit? (c : Cursor) : Option (Option Nat × Cursor) :=
    match c.peek 0 with
    | some d =>
      if d = '0' then none
      else if d.isDigit then some (some (d.toNat - 48), c.step) else some (none, c)
    | none => some (none, c)
  match chomp? c with
  | some (chomp, c) => (digit? c).map fun r => (chomp, r.1, r.2)
  | none =>
    match digit? c with
    | none => none
    | some (n, c) =>
      match n, chomp? c with
      | some _, some (chomp, c) => some (chomp, n, c)
      | _, _ => some (.clip, n, c)

/-- The place after the first line of a block, which may only hold a comment. -/
def afterMarks (c : Cursor) : Option Cursor :=
  if !c.spaceAt 0 then none
  else
    let (_, c) := c.span (· == ' ')
    let c := if c.peek 0 = some '#' then (c.span fun y => !isBreak y).2 else c
    if c.endAt 0 then some c.step else none

/-- A block of lines after its sign. The block must be indented more than what holds it. If its
indentation is not given, its first line tells it; the empty lines in front of that one have to be
less indented, if the first of these is indented at all. -/
def blockText (literal : Bool) (outer : Int) (c : Cursor) : Option (List Char × Cursor) := do
  let (chomp, given, c) ← blockMarks c
  let c ← afterMarks c
  let least := (outer + 1).toNat
  let (indent, c, breaks) ← match given with
    | some n =>
      let indent := max least 1 + n - 1
      let (c, breaks) := emptyLines indent (c.rest.length + 1) c []
      some (indent, c, breaks)
    | none =>
      let (c, most, first, breaks) := leadingLines (c.rest.length + 1) c 0 none []
      if first.any fun n => 0 < n && n < most then none else some (max least most, c, breaks)
  let (b, c) := blockLines literal (given.isNone && least == 0) indent (c.rest.length + 1) c
    { others := breaks }
  return (match chomp with
    | .strip => b.done
    | .clip => b.done ++ b.first
    | .keep => b.done ++ b.first ++ b.others, c)

end Rollout.Yaml
