import Rollout.Graph.Search
import Rollout.Reference.InitStep

/-!
# The graph of a stack

A unit depends on the units that it names and on those that its inputs and values refer to. A graph
is built only if every unit fits its schema, names are unique, everything named exists, and nothing
depends on itself.

**Operations.** `UnitDef.check`, `Graph.ofStack`.
-/

namespace Rollout

/-- The unit fits its schema: it has a name, one way of being built, one chart if it is deployed,
and the inputs that its init steps use. -/
def UnitDef.check (u : UnitDef) : Except SchemaFault Unit := do
  if u.name = "" then throw (.missingName u.kind)
  let _ ← u.buildSpec
  u.checkDeploy
  match (u.initSteps.flatMap InitStep.names).find? fun token => !Table.has token u.inputs with
  | some token => throw (.unknownInput u.name token)
  | none => return ()

namespace Graph

/-- Add the units of a list, each after its check. -/
def addUnits (g : Graph) : List UnitDef → Except GraphFault Graph
  | [] => .ok g
  | u :: rest =>
    match u.check with
    | .error fault => .error (.schema fault)
    | .ok () =>
      match g.addNode u with
      | .error fault => .error fault
      | .ok (g, _) => g.addUnits rest

/-- The unit that an explicit dependency of a unit names. -/
def resolveDep (g : Graph) (fqn : String) (dep : Option UnitKind × String) :
    Except GraphFault String :=
  match dep with
  | (some kind, name) =>
    let target := qualifiedName g.stackName kind name
    if g.has target then .ok target else .error (.unknownDep fqn (some kind) name)
  | (none, name) =>
    match (UnitKind.all.map fun k => qualifiedName g.stackName k name).filter g.has with
    | [] => .error (.unknownDep fqn none name)
    | [target] => .ok target
    | _ => .error (.ambiguousDep fqn name)

/-- Add the edges of the explicit dependencies of a unit. -/
def addDeps (g : Graph) (fqn : String) : List (Option UnitKind × String) → Except GraphFault Graph
  | [] => .ok g
  | dep :: rest =>
    match g.resolveDep fqn dep with
    | .error fault => .error fault
    | .ok source =>
      match g.addEdge source fqn .artifact with
      | .error fault => .error fault
      | .ok (g, _) => g.addDeps fqn rest

/-- Add the edges and sites of the references of a unit. -/
def addReferences (g : Graph) (fqn : String) : List (Path × Reference) → Except GraphFault Graph
  | [] => .ok g
  | (path, r) :: rest =>
    let source := r.target g.stackName
    if !g.has source then .error (.unknownReference fqn r.kind r.unit (Path.pointer path))
    else
      match g.addEdge source fqn .deploy with
      | .error fault => .error fault
      | .ok (g, _) =>
        addReferences { g with sites := g.sites ++ [⟨fqn, path, r⟩] } fqn rest

/-- The references of a unit, inputs before values. -/
def unitReferences (u : UnitDef) : List (Path × Reference) :=
  (Value.object u.inputs).references ["inputs"] ++ (Value.object u.values).references ["values"]

/-- Add the edges of every node of a list. -/
def connect (g : Graph) : List Node → Except GraphFault Graph
  | [] => .ok g
  | n :: rest =>
    match g.addDeps n.fqn n.unit.deps.explicit with
    | .error fault => .error fault
    | .ok g =>
      match g.addReferences n.fqn (unitReferences n.unit) with
      | .error fault => .error fault
      | .ok g => g.connect rest

/-- The dependency graph of a stack. -/
def ofStack (s : Stack) : Except GraphFault Graph :=
  match ({ empty s.normalizedName with stack := some s }).addUnits s.units with
  | .error fault => .error fault
  | .ok g =>
    match g.connect g.nodes with
    | .error fault => .error fault
    | .ok g =>
      match g.findCycle with
      | some walk => .error (.cycle walk)
      | none => .ok g

end Graph

end Rollout
