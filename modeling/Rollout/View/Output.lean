import Rollout.Value

/-!
# Shown output

What is put on the screen: texts, tables, panels with a title, and groups of these; documents for
other programs; and a live view that is started, replaced and stopped.

**Types.** `Cell`, `Block`, `Output`.

**Operations.** `Output.toValue`.
-/

namespace Rollout.View

/-- A cell of a table. -/
inductive Cell
  | text (s : String)
  | styled (text style : String)
  deriving DecidableEq, Inhabited

/-- Something that is shown. -/
inductive Block
  | text (s : String)
  | table (headers : List String) (rows : List (List Cell))
  | panel (body : Block) (title : String)
  | group (blocks : List Block)
  deriving Inhabited

/-- One act of showing. -/
inductive Output
  | print (block : Block)
  | document (value : Value)
  | startLive (view : Block)
  | updateLive (view : Block)
  | stopLive
  deriving Inhabited

def Cell.toValue : Cell → Value
  | .text s => .text s
  | .styled s style => .object [("text", .text s), ("style", .text style)]

namespace Block

mutual

def toValue : Block → Value
  | .text s => .text s
  | .table headers rows =>
    .object [("headers", .texts headers),
      ("rows", .list (rows.map fun row => .list (row.map Cell.toValue)))]
  | .panel body title => .object [("panel", toValue body), ("title", .text title)]
  | .group blocks => .object [("group", .list (toValues blocks))]

def toValues : List Block → List Value
  | [] => []
  | b :: rest => toValue b :: toValues rest

end

end Block

/-- An act of showing as a value. -/
def Output.toValue : Output → Value
  | .print block => .object [("print", block.toValue)]
  | .document value => .object [("json", value)]
  | .startLive view => .object [("live", .text "start"), ("view", view.toValue)]
  | .updateLive view => .object [("live", .text "update"), ("view", view.toValue)]
  | .stopLive => .object [("live", .text "stop")]

def Output.line (s : String) : Output := .print (.text s)

end Rollout.View
