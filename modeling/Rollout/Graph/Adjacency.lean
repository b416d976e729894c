import Rollout.Graph.Basic

/-!
# Graphs with lists of neighbours

A graph as it is kept while units and edges are added to it: the units under their names, the edges
under their two ends, and for every unit the names of the units that it depends on and of those that
depend on it. An addition writes to these one after the other, and what it has written stays written
if it breaks off.

**Types.** `Adjacency`, `Adjacency.Fault`.

**Operations.** `Adjacency.addNode`, `Adjacency.addEdge`, and the views `has`, `node?`, `edge?`,
`predecessors`, `successors`, `graph`.
-/

namespace Rollout

/-- The units and edges of a graph, with the neighbours of every unit. -/
structure Adjacency where
  stackName : String
  /-- The stack that the graph was built from. -/
  stack : Option Stack
  nodes : Table String Node
  edges : Table (String × String) Edge
  /-- The units that a unit depends on. -/
  incoming : Table String (List String)
  /-- The units that depend on a unit. -/
  outgoing : Table String (List String)
  /-- The places that hold references. -/
  sites : List Site
  deriving Inhabited

namespace Adjacency

/-- Why an addition breaks off: it is refused, or a unit has no list to write to. -/
inductive Fault
  | refused (fault : GraphFault)
  | unlisted (fqn : String)
  deriving DecidableEq, Inhabited

/-- Nothing but the name of a stack, and the stack if there is one. -/
def empty (stackName : String) (stack : Option Stack) : Adjacency :=
  ⟨stackName, stack, [], [], [], [], []⟩

/-- Whether a qualified name belongs to a unit. -/
def has (a : Adjacency) (fqn : String) : Bool := Table.has fqn a.nodes

/-- The unit with a qualified name. -/
def node? (a : Adjacency) (fqn : String) : Option Node := Table.get? fqn a.nodes

/-- The edge between two units. -/
def edge? (a : Adjacency) (source target : String) : Option Edge :=
  Table.get? (source, target) a.edges

/-- The edges to a unit; none if the unit has no list, or if an edge that it tells of is missing. -/
def predecessors (a : Adjacency) (fqn : String) : Option (List Edge) :=
  (Table.get? fqn a.incoming).bind fun sources => sources.mapM fun source => a.edge? source fqn

/-- The edges from a unit; none if the unit has no list, or if an edge that it tells of is missing. -/
def successors (a : Adjacency) (fqn : String) : Option (List Edge) :=
  (Table.get? fqn a.outgoing).bind fun targets => targets.mapM fun target => a.edge? fqn target

/-- The graph alone, without the lists of neighbours. -/
def graph (a : Adjacency) : Graph :=
  ⟨a.stackName, a.stack, Table.values a.nodes, Table.values a.edges, a.sites⟩

/-- Add a unit at the end of the order of declaration, with no neighbours yet. -/
def addNode (a : Adjacency) (u : UnitDef) : Except Fault Node × Adjacency :=
  let fqn := qualifiedName a.stackName u.kind u.name
  if a.has fqn then (.error (.refused (.duplicateUnit u.kind u.name a.stackName)), a)
  else
    let n : Node := ⟨fqn, u, a.nodes.length⟩
    let a := { a with nodes := Table.set fqn n a.nodes }
    let a := { a with incoming := Table.set fqn [] a.incoming }
    (.ok n, { a with outgoing := Table.set fqn [] a.outgoing })

/-- Write a name at the end of the list of a unit, if there is such a list. -/
def enlist (fqn name : String) (lists : Table String (List String)) :
    Option (Table String (List String)) :=
  (Table.get? fqn lists).map fun names => Table.set fqn (names ++ [name]) lists

/-- Add an edge between two units. An edge that is there stays as it is unless a deployment is asked
for, and not needed yet; a new one is written to the edges first, and then to the lists at both of
its ends. -/
def addEdge (a : Adjacency) (source target : String) (kind : EdgeKind) :
    Except Fault Edge × Adjacency :=
  if !a.has source then (.error (.refused (.unknownUnit source)), a)
  else if !a.has target then (.error (.refused (.unknownUnit target)), a)
  else
    match a.edge? source target with
    | some old =>
      if old.kind = .deploy ∨ kind = .artifact then (.ok old, a)
      else
        let e : Edge := ⟨source, target, .deploy⟩
        (.ok e, { a with edges := Table.set (source, target) e a.edges })
    | none =>
      let e : Edge := ⟨source, target, kind⟩
      let a := { a with edges := Table.set (source, target) e a.edges }
      match enlist source target a.outgoing with
      | none => (.error (.unlisted source), a)
      | some outgoing =>
        let a := { a with outgoing := outgoing }
        match enlist target source a.incoming with
        | none => (.error (.unlisted target), a)
        | some incoming => (.ok e, { a with incoming := incoming })

end Adjacency

end Rollout
