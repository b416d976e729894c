import Rollout.Graph.Search

/-!
# Graphs as documents

**Operations.** `Node.toValue`, `Edge.toValue`, `Graph.toValue`, `Graph.edgesAt`.
-/

namespace Rollout

namespace Node

/-- The name and kind of a unit. -/
def fields (n : Node) : List (String × Value) :=
  [("fqn", .text n.fqn), ("kind", .text n.unit.kind.text), ("name", .text n.unit.name)]

/-- A unit with its place in the order of declaration. -/
def toValue (n : Node) : Value := .object (n.fields ++ [("index", .int n.index)])

end Node

namespace Edge

/-- An edge as a mapping. -/
def toValue (e : Edge) : Value :=
  .object [("from", .text e.source), ("to", .text e.target), ("kind", .text e.kind.text)]

/-- An edge as a list. -/
def row (e : Edge) : Value := .texts [e.source, e.target, e.kind.text]

end Edge

namespace Graph

/-- The stack, the units and the edges of a graph. -/
def fields (g : Graph) : List (String × Value) :=
  [("stack", .text g.stackName), ("nodes", .list (g.nodes.map fun n => .object n.fields)),
    ("edges", .list (g.edges.map Edge.toValue))]

def toValue (g : Graph) : Value := .object g.fields

/-- For every unit, the edges that one of its sides has. -/
def edgesAt (g : Graph) (side : String → List Edge) : Value :=
  .object (g.nodes.map fun n => (n.fqn, .list ((side n.fqn).map Edge.row)))

/-- The graph as a document, with an order of its units, a cycle, and the edges at every unit. -/
def overview (order cycle : Value) (g : Graph) : Value :=
  .object (g.fields ++ [("order", order), ("cycle", cycle), ("size", .int g.nodes.length),
    ("incoming", g.edgesAt g.incoming), ("outgoing", g.edgesAt g.outgoing)])

end Graph

/-- A place that holds a reference, with the reference. -/
def Site.row (s : Site) : Value :=
  .texts [s.unit, Path.pointer s.path, s.reference.text]

end Rollout
