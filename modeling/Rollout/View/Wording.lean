import Rollout.Table
import Rollout.Number.Binary64
import Rollout.Sorting
import Rollout.Text.LetterCase
import Rollout.Text.Scan

/-!
# Wording of reports

The short texts that reports are made of: status glyphs and words, durations, counts, stage lines,
and messages with their credentials hidden.

**Operations.** `redact`, `durationText`, `countsText`, `stageLine`, `stageStartLine`, and the
status tables.
-/

namespace Rollout.View

/-- The sign in front of a status. -/
def statusGlyph (status : String) : String :=
  match status with
  | "pending" => "⏸"
  | "ready" => "…"
  | "running" => "⠋"
  | "success" | "succeeded" => "✅"
  | "reused" => "♻"
  | "failed" => "❌"
  | "skipped" => "⏭"
  | "partial_failure" | "warning" => "⚠️"
  | _ => "?"

/-- The word for a status; a status without a word of its own is spelled in capitals. -/
def statusWord (status : String) : String :=
  match status with
  | "success" | "succeeded" => "OK"
  | "failed" => "FAIL"
  | "skipped" => "SKIP"
  | "partial_failure" => "PARTIAL"
  | other => Text.upper other

/-- The colour of a status. -/
def statusStyle (status : String) : String :=
  match status with
  | "succeeded" | "success" => "green"
  | "reused" => "cyan"
  | "failed" => "red"
  | "skipped" => "bright_black"
  | "running" => "yellow"
  | "partial_failure" => "orange1"
  | _ => "default"

/-- A number with a set number of places, a minus also in front of a negative zero. -/
def placesText (places : Nat) (x : Binary64) : String :=
  match x.reading with
  | .notANumber => "nan"
  | .infinite negative => if negative then "-inf" else "inf"
  | .finite negative m e =>
    String.ofList ((if negative then ['-'] else []) ++
      Decimal.fixed places (m * Nat.pow 2 e.toNat) (Nat.pow 2 (-e).toNat))

def below (x : Binary64) (n : Nat) : Bool :=
  match x.reading with
  | .notANumber => false
  | .infinite negative => negative
  | .finite negative m e =>
    negative || decide (m * Nat.pow 2 e.toNat < n * Nat.pow 2 (-e).toNat)

/-- A number divided by a thousand. -/
def thousandth (x : Binary64) : Binary64 :=
  match x.reading with
  | .finite negative m e => Binary64.ofRatio negative (m * Nat.pow 2 e.toNat) (1000 * Nat.pow 2 (-e).toNat)
  | _ => x

/-- A duration: whole milliseconds below a second, else seconds with two places below ten seconds
and with one place from there on. -/
def durationText (ms : Binary64) : String :=
  if below ms 1000 then placesText 0 ms ++ "ms"
  else
    let seconds := thousandth ms
    if below seconds 10 then placesText 2 seconds ++ "s" else placesText 1 seconds ++ "s"

/-- Counts in the order of their names. -/
def countsText (counts : Table String Int) : String :=
  if counts.isEmpty then "nothing to do"
  else
    let sorted := Sorting.sort (fun a b => decide (a.1 ≤ b.1)) counts
    " ".intercalate (sorted.map fun c => c.1 ++ "=" ++ toString c.2)

/-- The points between a label and what follows it: up to column 28, but at least two. -/
def padding (label : String) : String :=
  String.ofList (List.replicate (max 2 (28 - label.length)) '.')

/-- The line of a finished stage. -/
def stageLine (index : Int) (label status : String) (ms : Option Binary64) (total : Int) : String :=
  let duration := match ms with | some x => "  " ++ durationText x | none => ""
  "[" ++ toString index ++ "/" ++ toString total ++ "] " ++ label ++ " " ++ padding label ++ " " ++
    statusGlyph status ++ " " ++ statusWord status ++ duration

def stageStartLine (index : Int) (label : String) (total : Int) : String :=
  "[" ++ toString index ++ "/" ++ toString total ++ "] " ++ label ++ " " ++ padding label ++ " START"

/-- The words in front of credentials. -/
def secretWords : List String := ["authorization", "token", "secret", "password", "api_key"]

/-- Whether a character is a small ASCII letter or sign in some letter case. Two letters have a
further form: the long s, and the i with or without its dot; the sign for kelvin counts as k. -/
def sameLetter (letter c : Char) : Bool :=
  c.toLower == letter ||
    (letter == 's' && c.toNat == 0x17F) ||
    (letter == 'k' && c.toNat == 0x212A) ||
    (letter == 'i' && (c.toNat == 0x130 || c.toNat == 0x131))

/-- The rest of a text that starts with a word in any letter case. -/
def afterWord? : List Char → List Char → Option (List Char)
  | [], cs => some cs
  | _ :: _, [] => none
  | l :: ls, c :: cs => if sameLetter l c then afterWord? ls cs else none

/-- The length of a credential with the sign in front of it: blanks, a colon or an equals sign,
blanks, and everything up to the next blank. -/
def credentialLength? (cs : List Char) : Option Nat :=
  let gap := cs.takeWhile Text.isBlank
  match cs.dropWhile Text.isBlank with
  | sign :: rest =>
    if sign = ':' ∨ sign = '=' then
      let gap' := rest.takeWhile Text.isBlank
      match (rest.dropWhile Text.isBlank).takeWhile fun c => !Text.isBlank c with
      | [] => none
      | body => some (gap.length + 1 + gap'.length + body.length)
    else none
  | [] => none

/-- A secret word with its credential: the word as written, and the length beyond its first
character. -/
def findSecret : Text.Finder (List Char) := fun before cs =>
  if (before.map Text.isWordChar).getD false then none
  else
    secretWords.findSome? fun word =>
      match afterWord? word.toList cs with
      | some rest =>
        if (rest.head?.map Text.isWordChar).getD false then none
        else
          (credentialLength? rest).map fun n =>
            (cs.take word.length, word.length + n - 1)
      | none => none

/-- The text with every credential replaced. -/
def redact (s : String) : String :=
  String.ofList (Text.replace findSecret (fun word => word ++ ": <redacted>".toList) s.toList)

end Rollout.View
