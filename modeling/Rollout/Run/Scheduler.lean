import Rollout.Run.Step

/-!
# Runs

A scheduler runs phases over a graph, any number of times. From one run to the next it keeps the
build state, the recorded outputs and the fingerprints.

Input: a graph, executors, a store and options. Result: a report, the journal of the run, and the
scheduler and the files after the run; or the fault that ended the run early, with what was reported
until then.

**Types.** `RunOptions`, `Scheduler`, `RunResult`.

**Operations.** `Scheduler.create`, `Scheduler.run`.
-/

namespace Rollout

/-- How a run is carried out. -/
structure RunOptions where
  releaseName : Option String := none
  /-- The number of workers, as it was given. -/
  maxWorkers : Value := .int 4
  forced : Phase → List String := fun _ => []
  command : String := "run"
  /-- The project directory, which executors are told. -/
  directory : Option FilePath := none

/-- The number of workers, which must be a positive integer. -/
def workerCount (v : Value) : Except ExecutorFault Nat :=
  match v with
  | .int i => if 1 ≤ i then .ok i.toNat else .error (.badWorkers v)
  | .bool true => .ok 1
  | _ => .error (.badWorkers v)

/-- Something that runs phases over a graph. -/
structure Scheduler where
  graph : Graph
  executors : Executors
  store : Store
  command : String
  releaseName : String
  maxWorkers : Nat
  shownWorkers : Value
  forced : Phase → List String
  resolver : Resolver
  fingerprints : Table Pair String
  buildstate : Buildstate
  directory : Option FilePath := none

/-- What a run leads to. -/
structure RunResult where
  report : Except RunFault Report
  journal : List Entry
  /-- The contexts that executors were handed, in order. -/
  contexts : List UnitContext
  scheduler : Scheduler
  files : Files
  /-- The time that the run has taken. -/
  elapsedMs : Rat := 0

namespace Scheduler

/-- The release name of a run: given, else that of the stack, else a previous or fresh one. -/
def chooseRelease (g : Graph) (given previous : Option String) (chance : Chance) :
    String × Chance :=
  match given, g.stack with
  | some name, _ => (name, chance)
  | none, some s => s.releaseFor previous chance
  | none, none =>
    match nonEmpty? previous with
    | some name => (name, chance)
    | none => chance.releaseName

/-- The given build state, else the stored one. -/
def knownState (g : Graph) (store : Store) (given : Option Buildstate) (files : Files) :
    Except StoreFault Buildstate :=
  match given with
  | some b => .ok b
  | none => store.load g.stackName files

/-- A scheduler over a graph. Without a given build state, the stored one is loaded. -/
def create (g : Graph) (executors : Executors) (store : Store) (state : Option Buildstate)
    (files : Files) (options : RunOptions) (chance : Chance) :
    Except RunFault (Scheduler × Chance) :=
  match workerCount options.maxWorkers with
  | .error fault => .error (.executor fault)
  | .ok workers =>
    match knownState g store state files with
    | .error fault => .error (.store fault)
    | .ok b =>
      let previous := if options.command = "redeploy" then b.releaseName else none
      let (release, chance) := chooseRelease g options.releaseName previous chance
      .ok ({
        graph := g
        executors := executors
        store := store
        command := options.command
        releaseName := release
        maxWorkers := workers
        shownWorkers := options.maxWorkers
        forced := options.forced
        resolver := Resolver.start g
        fingerprints := []
        buildstate := b
        directory := options.directory }, chance)

/-- What stays the same while the scheduler works on a plan. -/
def setup (s : Scheduler) (plan : Plan) : Setup :=
  { graph := s.graph
    plan := plan
    executors := s.executors
    store := s.store
    releaseName := s.releaseName
    maxWorkers := s.maxWorkers
    forced := s.forced
    directory := s.directory }

/-- The state in which a run of a plan begins. -/
def initial (s : Scheduler) (plan : Plan) (phases : List Phase) (files : Files) : RunState :=
  let pairs := plan.map Prod.fst
  let state : RunState :=
    { promoted := (plan.filter fun e => e.2.isEmpty).map Prod.fst
      outcomes := pairs.map fun p => (p, {})
      fingerprints := s.fingerprints
      resolver := s.resolver
      buildstate := { s.buildstate with releaseName := some s.releaseName }
      files := files }
  state.report (.planned phases pairs s.releaseName s.shownWorkers)

/-- Every pair is considered once, started at most once, and its call returns at most once and runs
out of time at most once. -/
def stepLimit (plan : Plan) : Nat := 4 * plan.length + 1

/-- The scheduler with what a run has left. -/
def keep (s : Scheduler) (state : RunState) : Scheduler :=
  { s with
    resolver := state.resolver
    fingerprints := state.fingerprints
    buildstate := state.buildstate }

/-- The report of a run that has ended. -/
def reportOf (s : Scheduler) (phases : List Phase) (state : RunState) : Report :=
  { phases := phases
    releaseName := s.releaseName
    pairs := state.outcomes
    durationMs := state.now * 1000 }

/-- What a run leads to from the state in which it begins. -/
def carryOut (s : Scheduler) (plan : Plan) (phases : List Phase) (first : RunState) :
    RunResult :=
  match first.run (s.setup plan) (stepLimit plan) with
  | .error ⟨fault, state⟩ =>
    ⟨.error fault, state.journal, state.contexts, s.keep state, state.files, state.now * 1000⟩
  | .ok state =>
    let report := s.reportOf phases state
    let state := state.report (.finished report.status report.counts report.durationMs)
    ⟨.ok report, state.journal, state.contexts, s.keep state, state.files, report.durationMs⟩

/-- Run phases over the graph. -/
def run (s : Scheduler) (phases : List Phase) (files : Files) : RunResult :=
  let requested := requestedPhases phases
  let failed (fault : RunFault) : RunResult := ⟨.error fault, [], [], s, files, 0⟩
  match checkExecutors s.executors s.graph requested with
  | .error fault => failed (.executor fault)
  | .ok () =>
    match s.graph.plan requested with
    | .error fault => failed (.graph fault)
    | .ok plan => s.carryOut plan requested (s.initial plan requested files)

end Scheduler

namespace RunResult

def events (r : RunResult) : List Event :=
  r.journal.map fun e => Event.of r.scheduler.command e.progress.body

end RunResult

end Rollout
