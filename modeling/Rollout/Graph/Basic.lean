import Rollout.Failure
import Rollout.Stack.Basic

/-!
# Dependency graphs

Units under their qualified names, with edges from a dependency to what depends on it. There is at
most one edge between two units in each direction. An edge is of the kind `deploy` when the
dependent needs outputs of the deployed dependency, and `artifact` otherwise; asking for both gives
`deploy`.

**Operations.** `Graph.addNode`, `Graph.addEdge`, and the views `node?`, `edge?`, `incoming`,
`outgoing`, `sources`, `targets`.

A refused operation returns no graph, so the old one stays as it was.
-/

namespace Rollout

/-- What a dependency needs: the artifact of the other unit, or its deployment. -/
inductive EdgeKind
  | artifact
  | deploy
  deriving DecidableEq, Inhabited

namespace EdgeKind

def all : List EdgeKind := [.artifact, .deploy]

def text : EdgeKind → String
  | .artifact => "artifact"
  | .deploy => "deploy"

def ofText? (s : String) : Option EdgeKind := all.find? fun k => k.text == s

/-- The kind of an edge that was asked for twice. -/
def join : EdgeKind → EdgeKind → EdgeKind
  | .artifact, .artifact => .artifact
  | _, _ => .deploy

end EdgeKind

/-- A dependency: the target depends on the source. -/
structure Edge where
  source : String
  target : String
  kind : EdgeKind
  deriving DecidableEq, Inhabited

/-- A unit in a graph. -/
structure Node where
  /-- The qualified name. -/
  fqn : String
  unit : UnitDef
  /-- The place in the order of declaration. -/
  index : Nat
  deriving Inhabited

/-- A dependency graph. -/
structure Graph where
  stackName : String
  /-- The stack that the graph was built from. -/
  stack : Option Stack
  nodes : List Node
  edges : List Edge
  /-- The places that hold references. -/
  sites : List Site
  deriving Inhabited

/-- Why a graph cannot be built or asked. -/
inductive GraphFault
  | schema (fault : SchemaFault)
  | duplicateUnit (kind : UnitKind) (name stack : String)
  | unknownUnit (fqn : String)
  | unknownDep (fqn : String) (kind : Option UnitKind) (name : String)
  | ambiguousDep (fqn name : String)
  | unknownReference (fqn : String) (kind : UnitKind) (name pointer : String)
  | cycle (walk : List String)
  deriving DecidableEq, Inhabited

namespace GraphFault

def kind : GraphFault → FailureKind
  | .schema _ => .schema
  | .duplicateUnit .. | .ambiguousDep .. => .duplicateName
  | .unknownUnit _ | .unknownDep .. | .unknownReference .. => .unknownUnit
  | .cycle _ => .dependencyCycle

def message : GraphFault → String
  | .schema fault => fault.message
  | .duplicateUnit kind name stack =>
    "Duplicate " ++ kind.text ++ " name '" ++ name ++ "' in stack '" ++ stack ++ "'."
  | .unknownUnit fqn => "Unknown unit: " ++ fqn
  | .unknownDep fqn (some kind) name =>
    fqn ++ " depends on unknown " ++ kind.text ++ " '" ++ name ++ "'."
  | .unknownDep fqn none name => fqn ++ " depends on unknown unit '" ++ name ++ "'."
  | .ambiguousDep fqn name =>
    fqn ++ " depends on '" ++ name ++ "', which names both a service and a project."
  | .unknownReference fqn kind name pointer =>
    fqn ++ " references unknown " ++ kind.text ++ " '" ++ name ++ "' at " ++ pointer
  | .cycle walk => cycleMessage walk

def failure (f : GraphFault) : Failure := ⟨f.kind, f.message⟩

end GraphFault

namespace Graph

/-- The graph of a stack name, without units. -/
def empty (stackName : String) : Graph := ⟨stackName, none, [], [], []⟩

/-- The node with a qualified name. -/
def node? (g : Graph) (fqn : String) : Option Node := g.nodes.find? fun n => n.fqn == fqn

/-- Whether a qualified name belongs to a node. -/
def has (g : Graph) (fqn : String) : Bool := (g.node? fqn).isSome

/-- The edge between two units. -/
def edge? (g : Graph) (source target : String) : Option Edge :=
  g.edges.find? fun e => e.source == source && e.target == target

/-- The edges to a unit, in the order in which they were first added. -/
def incoming (g : Graph) (fqn : String) : List Edge := g.edges.filter fun e => e.target == fqn

/-- The edges from a unit, in the order in which they were first added. -/
def outgoing (g : Graph) (fqn : String) : List Edge := g.edges.filter fun e => e.source == fqn

/-- The units that a unit depends on. -/
def sources (g : Graph) (fqn : String) : List String := (g.incoming fqn).map Edge.source

/-- The units that depend on a unit. -/
def targets (g : Graph) (fqn : String) : List String := (g.outgoing fqn).map Edge.target

/-- Add a unit at the end of the order of declaration. -/
def addNode (g : Graph) (u : UnitDef) : Except GraphFault (Graph × Node) :=
  let fqn := qualifiedName g.stackName u.kind u.name
  if g.has fqn then .error (.duplicateUnit u.kind u.name g.stackName)
  else
    let n : Node := ⟨fqn, u, g.nodes.length⟩
    .ok ({ g with nodes := g.nodes ++ [n] }, n)

/-- Put an edge in the place of the edge between the same units, or at the end. -/
def putEdge (e : Edge) : List Edge → List Edge
  | [] => [e]
  | x :: rest =>
    if x.source == e.source && x.target == e.target then e :: rest else x :: putEdge e rest

/-- Add an edge between two units of the graph, or raise the kind of the edge that is there. -/
def addEdge (g : Graph) (source target : String) (kind : EdgeKind) :
    Except GraphFault (Graph × Edge) :=
  if !g.has source then .error (.unknownUnit source)
  else if !g.has target then .error (.unknownUnit target)
  else
    let joined :=
      match g.edge? source target with
      | some old => old.kind.join kind
      | none => kind
    let e : Edge := ⟨source, target, joined⟩
    .ok ({ g with edges := putEdge e g.edges }, e)

end Graph

end Rollout
