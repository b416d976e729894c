import Rollout.Command.Course
import Rollout.Executor.BuiltIn
import Rollout.Graph.OfStack
import Rollout.Run.Redeploy
import Rollout.Stack.File

/-!
# Commands

What the commands do with a project: they load its stack, resolve the dependencies, and show them or
run phases over them. A command that runs phases keeps the state of the stack in the project.

**Types.** `Job`.

**Operations.** `Job.run`: the course of a command.
-/

namespace Rollout

/-- A command with what it is to work on. -/
structure Job where
  command : Command
  /-- The project directory. -/
  project : FilePath
  /-- The stack file, seen from the project directory. -/
  config : FilePath
  /-- The number of workers, as it was given. -/
  maxWorkers : Value := .int 4
  /-- The changed paths of a redeployment. -/
  changed : List String := []
  /-- Executors in place of those that the stack configures. -/
  executors : Option Executors := none
  debug : Bool := false
  /-- The time that is written into saved states. -/
  stamp : String

namespace Job

def name (j : Job) : String := j.command.text

def event (j : Job) (body : EventBody) : Event := .of j.name body

/-- The place of the stack file. -/
def configPath (j : Job) : FilePath := StackFile.path j.project j.config

/-- Where the states of the project are kept. -/
def store (j : Job) : Store := ⟨some j.project, j.stamp⟩

def redeploys (j : Job) : Bool := j.command == .redeploy

/-- What the command is asked for. -/
def options (j : Job) : Value :=
  if j.command = .graph then .map []
  else .object [("phases", .texts (j.command.phases.map Phase.text)),
    ("max_workers", j.maxWorkers),
    ("changed_paths", if j.redeploys then .texts j.changed else .null)]

/-! ## Stages -/

def loadStack (j : Job) (files : Files) : Except Trouble (Stack × List Event) :=
  match StackFile.load j.project j.config files with
  | .ok s => .ok (s, [])
  | .error f => .error (.failure f.failure)

/-- The last place of a reference of every unit. -/
def lastSites (g : Graph) : Value :=
  .object (Table.ofEntries (g.sites.map fun s => (s.unit, Value.text (Path.pointer s.path))))

/-- Resolve the dependencies of a stack. -/
def resolveGraph (j : Job) (s : Stack) : Except Trouble (Graph × List Event) :=
  match Graph.ofStack s with
  | .error f => .error (.failure f.failure)
  | .ok g =>
    match g.order with
    | .error f => .error (.failure f.failure)
    | .ok order =>
      let edges := g.edges.map fun e => ⟨e.source, e.target, e.kind.text⟩
      let resolved := j.event (.graphResolved g.stackName order edges g.sites.length)
      let sites := j.event (.debug "Reference sites" (some (lastSites g)))
      .ok (g, resolved :: if j.debug then [sites] else [])

/-- Load the stored state of a stack. -/
def loadBuildstate (j : Job) (s : Stack) (files : Files) :
    Except Trouble (Buildstate × List Event) :=
  match j.store.load s.normalizedName files, j.store.path s.normalizedName with
  | .error f, _ | _, .error f => .error (RunFault.store f).trouble
  | .ok b, .ok path =>
    .ok (b, [j.event (.buildstateLoaded (some path) b.units.length b.releaseName)])

/-- Find out what the changed paths affect. -/
def planRedeploy (j : Job) (s : Stack) (g : Graph) : Except Trouble (Forced × List Event) :=
  let forced := g.redeployForce (g.touched j.project j.changed (some s.watcher.paths))
  match g.order with
  | .error f => .error (.failure f.failure)
  | .ok order =>
    .ok (forced, [j.event (.redeployPlanned j.changed (order.filter forced.deploy.contains))])

/-- Make the executors that a stack configures. -/
def makeExecutors (j : Job) (s : Stack) : Except Trouble (Executors × List Event) :=
  match loadExecutors s.executors with
  | .ok found => .ok (found.map fun (p, b) => (p, b.executor j.project), [])
  | .error (.executor f) => .error (.failure f.failure)
  | .error (.noPhase name) =>
    .error (.crash ⟨.wrongValue, Text.quote name ++ " is not a valid Phase"⟩)

/-- The event about units whose state is dropped. -/
def pruned (j : Job) (removed : List String) : List Event :=
  if removed.isEmpty then []
  else
    [j.event (.warning "buildstate_pruned"
      ("Dropped buildstate for removed units: " ++ ", ".intercalate removed) none)]

/-- Save the state of a stack, without units that are no longer part of it. -/
def saveBuildstate (j : Job) (s : Stack) (g : Graph) (b : Buildstate) (files : Files) :
    Except Trouble (Unit × List Event) × Files :=
  let (removed, b) := b.prune (g.nodes.map Node.fqn)
  let saved := j.store.save s.normalizedName b files
  (match saved.path with
    | .error f => .error (RunFault.store f).trouble
    | .ok path =>
      .ok ((), j.pruned removed ++ [j.event (.buildstateSaved path saved.state.units.length)]),
    saved.files)

/-! ## The phases -/

/-- What the phases of a command are run over. -/
structure Prepared where
  stack : Stack
  graph : Graph
  state : Buildstate
  forced : Phase → List String
  executors : Executors

/-- The release name that a redeployment goes on with. -/
def previous (j : Job) (b : Buildstate) : Option String :=
  if j.redeploys then b.releaseName else none

/-- The event about a release name that nobody has given. -/
def generated (j : Job) (p : Prepared) (release : String) : List Event :=
  if (nonEmpty? p.stack.releaseName).isNone && (j.previous p.state).isNone &&
      j.command.phases.contains .deploy then
    [j.event (.warning "release_generated"
      ("No release_name set; using generated release '" ++ release ++ "'.")
      (some "Pin release_name in the stack file to make repeated deploys incremental."))]
  else []

/-- How the phases are run. -/
def runOptions (j : Job) (p : Prepared) (release : String) : RunOptions :=
  { releaseName := some release, maxWorkers := j.maxWorkers, forced := p.forced, command := j.name,
    directory := some j.project }

/-- The course after a fault in the phases. -/
def faulted (j : Job) (fault : RunFault) (ms : Rat) (files : Files) (chance : Chance) : Course :=
  match fault.trouble with
  | .failure f =>
    (Course.done j.name 2 files chance).after [stageFailed j.name Stage.runPhases.id ms f]
  | .crash c => .crashed c files chance

/-- The course after the phases. -/
def finish (j : Job) (p : Prepared) (report : Report) (b : Buildstate) (files : Files)
    (chance : Chance) : Course :=
  let (saved, files) := j.saveBuildstate p.stack p.graph b files
  Course.throughStage j.name .saveBuildstate saved files chance fun () =>
    .done j.name (if report.status = .succeeded then 0 else 1) files chance

/-- The course from the phases on. -/
def carryOut (j : Job) (p : Prepared) (release : String) (files : Files) (chance : Chance) :
    Course :=
  match Scheduler.create p.graph p.executors j.store (some p.state) files
      (j.runOptions p release) chance with
  | .error fault => j.faulted fault 0 files chance
  | .ok (s, chance) =>
    let r := s.run j.command.phases files
    Course.after r.events <| Course.calling r.contexts <|
      match r.report with
      | .error fault => j.faulted fault r.elapsedMs r.files chance
      | .ok report =>
        (j.finish p report r.scheduler.buildstate r.files chance).after
          [stageCompleted j.name Stage.runPhases.id r.elapsedMs report.status.text]

/-- The course from the choice of a release name on. -/
def release (j : Job) (p : Prepared) (files : Files) (chance : Chance) : Course :=
  let (release, chance) := p.stack.releaseFor (j.previous p.state) chance
  (j.carryOut p release files chance).after
    (j.generated p release ++ [stageStarted j.name Stage.runPhases.id])

/-- The course from the executors on. -/
def equip (j : Job) (s : Stack) (g : Graph) (b : Buildstate) (forced : Phase → List String)
    (files : Files) (chance : Chance) : Course :=
  match j.executors with
  | some executors => j.release ⟨s, g, b, forced, executors⟩ files chance
  | none =>
    Course.throughStage j.name .loadExecutors (j.makeExecutors s) files chance fun executors =>
      j.release ⟨s, g, b, forced, executors⟩ files chance

/-- The course of a redeployment that affects nothing. -/
def idle (j : Job) (files : Files) (chance : Chance) : Course :=
  (Course.done j.name 0 files chance).after
    [j.event (.runFinished RunStatus.succeeded.text [] 0)]

/-- The course of a command that runs phases, from the resolved graph on. -/
def phases (j : Job) (s : Stack) (g : Graph) (files : Files) (chance : Chance) : Course :=
  Course.throughStage j.name .loadBuildstate (j.loadBuildstate s files) files chance fun b =>
    if j.redeploys then
      Course.throughStage j.name .planRedeploy (j.planRedeploy s g) files chance fun forced =>
        if forced.deploy.isEmpty then j.idle files chance
        else j.equip s g b forced.units files chance
    else j.equip s g b (fun _ => []) files chance

/-- The course of a command. -/
def run (j : Job) (files : Files) (chance : Chance) : Course :=
  Course.after [j.event (.commandStarted (some j.project) (some j.configPath) (some j.options))] <|
    Course.throughStage j.name .loadConfig (j.loadStack files) files chance fun s =>
      Course.throughStage j.name .resolveGraph (j.resolveGraph s) files chance fun g =>
        if j.command = .graph then .done j.name 0 files chance
        else j.phases s g files chance

end Job

end Rollout
