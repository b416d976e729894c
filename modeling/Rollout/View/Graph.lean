import Rollout.View.Failure
import Rollout.View.Renderer

/-!
# Reports of dependency graphs

The resolved dependencies of a stack are reported as a table, line by line, or as one document.

**Operations.** `graphTable`, `graphLines`, `graphDocument`.
-/

namespace Rollout.View

/-- A graph as it was reported. -/
structure ShownGraph where
  stack : String
  order : List String
  edges : List EdgeLine
  references : Int
  deriving DecidableEq, Inhabited

/-- What is known about the graph of a stack. -/
structure GraphBoard where
  graph : Option ShownGraph := none
  failures : List StageFailure := []
  deriving Inhabited

/-- What is known after an event. -/
def GraphBoard.apply (b : GraphBoard) (e : Event) : GraphBoard :=
  match e.body with
  | .graphResolved stack order edges references =>
    { b with graph := some ⟨stack, order, edges, references⟩ }
  | .stageFailed stage _ code message hint =>
    { b with failures := b.failures ++ [⟨e.command, stage, code, message, hint⟩] }
  | _ => b

namespace ShownGraph

/-- What a unit depends on. -/
def needs (g : ShownGraph) (fqn : String) : List String :=
  (g.edges.filter fun e => e.target == fqn).map fun e => e.source ++ " (" ++ e.kind ++ ")"

/-- The rows of units, numbered from a place on. -/
def rows (g : ShownGraph) : Nat → List String → List (List Cell)
  | _, [] => []
  | place, fqn :: rest =>
    let needed := joinLines (g.needs fqn)
    [.text (toString place), .text fqn, .text (if needed = "" then "-" else needed)] ::
      g.rows (place + 1) rest

/-- The graph as a table. -/
def panel (g : ShownGraph) : Block :=
  .panel (.table ["#", "UNIT", "DEPENDS ON"] (g.rows 1 g.order))
    ("Stack " ++ g.stack ++ " (" ++ toString g.order.length ++ " units, " ++
      toString g.references ++ " references)")

end ShownGraph

/-- A dependency in a document. -/
def edgeValue (e : EdgeLine) : Value :=
  .object [("from", .text e.source), ("to", .text e.target), ("kind", .text e.kind)]

/-- The document about the graph of a stack. -/
def GraphBoard.document (b : GraphBoard) (ok : Bool) : Value :=
  .object [
    ("ok", .bool ok),
    ("stack", .ofText? (b.graph.map ShownGraph.stack)),
    ("order", .texts ((b.graph.map ShownGraph.order).getD [])),
    ("edges", .list (((b.graph.map ShownGraph.edges).getD []).map edgeValue)),
    ("errors", .list (b.failures.map fun f =>
      .object [("code", .text f.code), ("message", .text (redact f.message))]))]

/-- A table at the end of the command. -/
def graphTable : Renderer where
  State := GraphBoard
  start := {}
  handle b e :=
    (b.apply e,
      match e.body with
      | .commandStarted project config _ => [header project config]
      | .commandCompleted .. =>
        match b.failures.getLast?, b.graph with
        | some f, _ => [.print f.panel]
        | none, some g => [.print g.panel]
        | none, none => []
      | _ => [])

/-- Units and dependencies line by line. -/
def graphLines : Renderer where
  State := Unit
  start := ()
  handle _ e :=
    ((),
      match e.body with
      | .graphResolved _ order edges _ =>
        order.map Output.line ++
          edges.map fun e => .line (e.source ++ " -> " ++ e.target ++ " [" ++ e.kind ++ "]")
      | .stageFailed _ _ _ message _ => [.line ("Error: " ++ redact message)]
      | _ => [])

/-- One document at the end of the command. -/
def graphDocument : Renderer where
  State := GraphBoard
  start := {}
  handle b e :=
    (b.apply e,
      match e.body with
      | .commandCompleted ok _ => [.document (b.document ok)]
      | _ => [])

end Rollout.View
