import Rollout.Graph.Basic
import Rollout.Sorting

/-!
# Searches in a graph

**Operations.**
* `Graph.findCycle`: a depth-first search in the order of declaration; the first edge back to a unit
  on the current path closes a cycle;
* `Graph.order`: repeatedly the earliest declared unit whose dependencies are all placed;
* `Graph.descendants`: the units that can be reached from some roots along edges of some kinds.

Each search is bounded by the number of units: a path has no unit twice, an order places one unit a
round, and a descendant is put on the work list once.
-/

namespace Rollout.Graph

/-- The outcome of a depth-first search: a cycle, or the units whose dependents are all visited. -/
inductive Search
  | cycle (walk : List String)
  | finished (units : List String)

/-- Visit a unit that lies on no finished part, with the units on the way to it. -/
def visit (g : Graph) : Nat → List String → List String → String → Search
  | 0, _, finished, _ => .finished finished
  | fuel + 1, before, finished, v =>
    let path := before ++ [v]
    let outcome : Search := (g.targets v).foldl
      (fun (outcome : Search) t =>
        match outcome with
        | .cycle walk => .cycle walk
        | .finished finished =>
          if path.contains t then .cycle (path.dropWhile (· != t) ++ [t])
          else if finished.contains t then .finished finished
          else visit g fuel path finished t)
      (.finished finished)
    match outcome with
    | .cycle walk => .cycle walk
    | .finished finished => .finished (v :: finished)

/-- Visit every unit in the order of declaration. -/
def searchAll (g : Graph) : Search :=
  g.nodes.foldl
    (fun (outcome : Search) n =>
      match outcome with
      | .cycle walk => .cycle walk
      | .finished finished =>
        if finished.contains n.fqn then .finished finished
        else visit g g.nodes.length [] finished n.fqn)
    (.finished [])

/-- A closed walk along edges whose first and last units are the same, if there is one. -/
def findCycle (g : Graph) : Option (List String) :=
  match g.searchAll with
  | .cycle walk => some walk
  | .finished _ => none

/-- The earliest declared unit that is not placed and whose dependencies all are. -/
def next? (g : Graph) (placed : List String) : Option Node :=
  g.nodes.find? fun n => !placed.contains n.fqn && (g.sources n.fqn).all placed.contains

/-- Place units for some rounds. -/
def placeFrom (g : Graph) : Nat → List String → List String
  | 0, placed => placed
  | rounds + 1, placed =>
    match g.next? placed with
    | some n => placeFrom g rounds (placed ++ [n.fqn])
    | none => placed

/-- The units with every dependency before its dependents; of several choices the earliest declared
comes first. -/
def order (g : Graph) : Except GraphFault (List String) :=
  let placed := g.placeFrom g.nodes.length []
  if placed.length = g.nodes.length then .ok placed
  else
    let rest := (g.nodes.map Node.fqn).filter fun fqn => !placed.contains fqn
    .error (.cycle (g.findCycle.getD (Sorting.texts rest)))

/-- Extend what has been seen by what the units on a work list lead to. -/
def reach (g : Graph) (kinds : List EdgeKind) : Nat → List String → List String → List String
  | 0, _, seen => seen
  | _ + 1, [], seen => seen
  | fuel + 1, v :: work, seen =>
    let fresh := ((g.outgoing v).filter fun e =>
      kinds.contains e.kind && !seen.contains e.target).map Edge.target
    reach g kinds fuel (fresh ++ work) (seen ++ fresh)

/-- The units at the ends of paths of one or more edges of the given kinds from a root. A root that
is no unit of the graph is an error. -/
def descendants (g : Graph) (roots : List String) (kinds : List EdgeKind) :
    Except String (List String) :=
  match roots.find? fun r => !g.has r with
  | some r => .error r
  | none => .ok (g.reach kinds (roots.length + g.nodes.length) roots [])

end Rollout.Graph
