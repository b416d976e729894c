import Rollout.Graph.Search

/-!
# Run plans

A run works on pairs of a unit and a phase. The plan says which pairs there are and what each waits
for: a later phase of a unit waits for the unit's previous requested phase; the first phase waits,
for every dependency, for a gate. The gate is the latest requested phase of the other unit up to its
build, if an artifact of a project is needed, and up to its deployment otherwise.

**Operations.** `requestedPhases`, `Graph.gate?`, `Graph.plan`.
-/

namespace Rollout

/-- A phase of a unit. -/
structure Pair where
  /-- The qualified name of the unit. -/
  fqn : String
  phase : Phase
  deriving DecidableEq, Inhabited

/-- Pairs in the order in which they are considered, each with the pairs that it waits for. -/
abbrev Plan := List (Pair × List Pair)

/-- The requested phases in their order, each once. -/
def requestedPhases (phases : List Phase) : List Phase := Phase.all.filter phases.contains

namespace Graph

/-- The pair of a dependency that the first phase of a dependent waits for. -/
def gate? (g : Graph) (requested : List Phase) (e : Edge) : Option Pair :=
  match g.node? e.source with
  | none => none
  | some n =>
    let last : Phase :=
      if e.kind = .artifact ∧ n.unit.kind = .project then .build else .deploy
    ((requested.filter fun p => p.appliesTo n.unit.kind && p.index ≤ last.index).getLast?).map
      fun p => ⟨e.source, p⟩

/-- The pairs that the first phase of a unit waits for. -/
def gates (g : Graph) (requested : List Phase) (fqn : String) : List Pair :=
  (g.incoming fqn).filterMap (g.gate? requested)

/-- The pairs of one unit, the first of which waits for the given pairs. -/
def unitPlan (fqn : String) : List Pair → List Phase → Plan
  | _, [] => []
  | waits, p :: rest => (⟨fqn, p⟩, waits) :: unitPlan fqn [⟨fqn, p⟩] rest

/-- The pairs of the requested phases along an order of the units. -/
def planAlong (g : Graph) (requested : List Phase) : List String → Plan
  | [] => []
  | fqn :: rest =>
    (match g.node? fqn with
      | some n =>
        unitPlan fqn (g.gates requested fqn) (requested.filter fun p => p.appliesTo n.unit.kind)
      | none => []) ++ planAlong g requested rest

def plan (g : Graph) (requested : List Phase) : Except GraphFault Plan :=
  (g.order).map (g.planAlong requested)

end Graph

end Rollout
