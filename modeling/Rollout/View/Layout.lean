import Rollout.Json.Writer
import Rollout.View.Output

/-!
# Plain layout

Shown output as lines of text, for a screen without any skills: the columns of a table are lined up,
a panel is its title with its body set in, and a live view is shown when it stops.

**Operations.** `Block.lines`, `layOut`.
-/

namespace Rollout.View

def Cell.shown : Cell → String
  | .text s => s
  | .styled s _ => s

/-- A text filled up with blanks on the right. -/
def widen (width : Nat) (s : String) : String :=
  s ++ String.ofList (List.replicate (width - s.length) ' ')

def columnWidths (rows : List (List String)) : List Nat :=
  rows.foldl
    (fun widths row =>
      row.mapIdx (fun i s => max s.length (widths.getD i 0)) ++ widths.drop row.length)
    []

/-- Rows with their columns lined up. -/
def lineUp (rows : List (List String)) : List String :=
  let widths := columnWidths rows
  rows.map fun row => "  ".intercalate (row.mapIdx fun i s => widen (widths.getD i 0) s)

namespace Block

mutual

def lines : Block → List String
  | .text s => s.splitOn "\n"
  | .table headers rows => lineUp (headers :: rows.map fun row => row.map Cell.shown)
  | .panel body title => title :: (lines body).map fun l => "  " ++ l
  | .group blocks => allLines blocks

/-- The lines of blocks one below the other. -/
def allLines : List Block → List String
  | [] => []
  | b :: rest => lines b ++ allLines rest

end

end Block

/-- The lines of output; the last view of a live one is kept until it stops. -/
def layOut (view : Option Block) : List Output → List String
  | [] => []
  | .print block :: rest => block.lines ++ layOut view rest
  | .document value :: rest =>
    (match Json.render Json.spaced value with | .ok s => [s] | .error _ => []) ++ layOut view rest
  | .startLive block :: rest | .updateLive block :: rest => layOut (some block) rest
  | .stopLive :: rest => ((view.map Block.lines).getD []) ++ layOut none rest

end Rollout.View
