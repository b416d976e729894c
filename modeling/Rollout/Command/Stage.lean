import Rollout.Stack.Kind

/-!
# Commands and their stages

Every command works on a stack through a fixed sequence of stages. The commands that run phases
differ in which phases they request.
-/

namespace Rollout

/-- What the user asks for. -/
inductive Command
  | init
  | build
  | deploy
  | redeploy
  | graph
  deriving DecidableEq, Inhabited

/-- A part of the work of a command. -/
inductive Stage
  | loadConfig
  | resolveGraph
  | loadBuildstate
  | planRedeploy
  | loadExecutors
  | runPhases
  | saveBuildstate
  deriving DecidableEq, Inhabited

namespace Stage

def id : Stage → String
  | .loadConfig => "load_config"
  | .resolveGraph => "resolve_graph"
  | .loadBuildstate => "load_buildstate"
  | .planRedeploy => "plan_redeploy"
  | .loadExecutors => "load_executors"
  | .runPhases => "run_phases"
  | .saveBuildstate => "save_buildstate"

def label : Stage → String
  | .loadConfig => "Load stack"
  | .resolveGraph => "Resolve dependency graph"
  | .loadBuildstate => "Load buildstate"
  | .planRedeploy => "Plan affected units"
  | .loadExecutors => "Load executors"
  | .runPhases => "Run phases"
  | .saveBuildstate => "Save buildstate"

end Stage

namespace Command

def all : List Command := [.init, .build, .deploy, .redeploy, .graph]

def text : Command → String
  | .init => "init"
  | .build => "build"
  | .deploy => "deploy"
  | .redeploy => "redeploy"
  | .graph => "graph"

def ofText? (s : String) : Option Command := all.find? fun c => c.text == s

/-- The phases that a command requests; showing the graph requests none. -/
def phases : Command → List Phase
  | .init => [.init]
  | .build => [.init, .build]
  | .deploy => [.init, .build, .deploy]
  | .redeploy => [.build, .deploy]
  | .graph => []

/-- The stages of a command, in order. -/
def stages : Command → List Stage
  | .init | .build | .deploy =>
    [.loadConfig, .resolveGraph, .loadBuildstate, .loadExecutors, .runPhases, .saveBuildstate]
  | .redeploy =>
    [.loadConfig, .resolveGraph, .loadBuildstate, .planRedeploy, .loadExecutors, .runPhases,
      .saveBuildstate]
  | .graph => [.loadConfig, .resolveGraph]

end Command

/-- The stages of a command as identifiers and labels; an unknown command has none. -/
def stageRows (command : String) : List (String × String) :=
  match Command.ofText? command with
  | some c => c.stages.map fun s => (s.id, s.label)
  | none => []

/-- The label of a row; an identifier without a row is its own label. -/
def rowLabel (id : String) (rows : List (String × String)) : String :=
  match rows.find? fun r => r.1 == id with
  | some r => r.2
  | none => id

/-- The place of a row, counted from one; zero if there is none. -/
def rowIndex (id : String) (rows : List (String × String)) : Nat :=
  match rows.findIdx? fun r => r.1 == id with
  | some i => i + 1
  | none => 0

def stageLabel (command id : String) : String := rowLabel id (stageRows command)

end Rollout
