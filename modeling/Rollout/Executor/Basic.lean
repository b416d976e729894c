import Rollout.Files.Tree
import Rollout.Graph.Basic
import Rollout.Stack.Basic
import Rollout.Failure
import Rollout.Text.Literal

/-!
# Executors

The work of a phase on a unit is done by an executor. It is handed a context that describes the
unit, takes some time, may change files, and gives an answer. What it leaves of the inputs and
values of its context is part of its reply.

**Types.** `UnitContext`, `Answer`, `Reply`, `Executor`, `ExecutorFault`.

**Operations.** `UnitContext.toValue`, `Answer.result`, `timeoutSeconds`, `checkExecutors`.
-/

namespace Rollout

/-- What an executor is told about a unit. -/
structure UnitContext where
  fqn : String
  name : String
  kind : UnitKind
  phase : Phase
  stackName : String
  namespaceName : String
  releaseName : String
  config : Value
  displayName : String := ""
  build : Option BuildSpec := none
  initSteps : List String := []
  /-- The project directory, if the run is given one. -/
  directory : Option FilePath := none
  deriving Inhabited

namespace UnitContext

/-- What is built, with the name of the image and whether it is pushed. -/
def buildValue (c : UnitContext) : Value :=
  match c.build with
  | none => .null
  | some spec =>
    .object (spec.fields ++
      match spec with
      | .docker tag registry _ _ =>
        let shown := if c.displayName = "" then c.name else c.displayName
        [("push", .bool (BuildSpec.pushes registry)),
          ("image", .text (BuildSpec.imageLabel tag registry shown))]
      | .script _ => [])

def toValue (c : UnitContext) : Value :=
  .object [
    ("fqn", .text c.fqn),
    ("name", .text c.name),
    ("kind", .text c.kind.text),
    ("phase", .text c.phase.text),
    ("stack", .text c.stackName),
    ("namespace", .text c.namespaceName),
    ("release_name", .text c.releaseName),
    ("display_name", .text c.displayName),
    ("config", c.config),
    ("build", c.buildValue),
    ("init_steps", .texts c.initSteps)]

def inputs (c : UnitContext) : Value := (c.config.get? "inputs").getD .null

def values (c : UnitContext) : Value := (c.config.get? "values").getD .null

end UnitContext

/-- What an executor answers. -/
inductive Answer
  | succeeded (outputs : Option Entries)
  | failed (cause : Option String)
  /-- Something that is no result. -/
  | foreign (kind : String)
  /-- An exception of a class, with its text. -/
  | raised (className text : String)
  deriving Inhabited

/-- The outputs, or the cause of the failure. -/
def Answer.result : Answer → Except String (Option Entries)
  | .succeeded outputs => .ok outputs
  | .failed none => .error "executor reported failure"
  | .failed (some cause) => .error (if cause = "" then "executor reported failure" else cause)
  | .foreign kind => .error ("executor returned " ++ kind ++ ", expected ExecutorResult")
  | .raised className text => .error (className ++ ": " ++ text)

/-- The answer of an executor with what the call did. -/
structure Reply where
  answer : Answer
  /-- The time that the call took. -/
  seconds : Rat := 0
  /-- What the executor left of the inputs and values of its context. -/
  inputs : Value
  values : Value
  files : Files
  deriving Inhabited

/-- An answer that took no time and changed nothing. -/
def Reply.plain (c : UnitContext) (files : Files) (answer : Answer) : Reply :=
  { answer := answer, inputs := c.inputs, values := c.values, files := files }

/-- Something that does the work of a phase. -/
structure Executor where
  /-- The seconds that a call may take; null for any time. -/
  timeout : Value := .null
  /-- The work; missing if the executor cannot run. -/
  run : Option (UnitContext → Files → Reply)

/-- Executors by the phases that they work for. -/
abbrev Executors := Table Phase Executor

/-- The seconds that a timeout stands for; none if there is no limit. -/
def timeoutSeconds : Value → Option Rat
  | .int i => if i = 0 then none else some i
  | .bool b => if b then some 1 else none
  | .float x =>
    match x.toRat? with
    | some q => if q = 0 then none else some q
    | none => none
  | _ => none

/-- Whether a timeout may be given to an executor. -/
def allowedTimeout : Value → Bool
  | .null => true
  | .int i => decide (0 < i)
  | .bool b => b
  | .float x =>
    match x.toRat? with
    | some q => decide (0 < q)
    | none => x != Binary64.infinity true
  | _ => false

/-- What is wrong with the executors of a run. -/
inductive ExecutorFault
  | missing (phase : Phase) (units : Nat)
  | notRunnable (phase : Phase)
  | badTimeout (phase : Phase) (found : Value)
  | badWorkers (found : Value)
  | unknownType (phase : Phase) (type : String)
  | badOptions (phase : Phase) (type reason : String)
  deriving Inhabited

namespace ExecutorFault

def message : ExecutorFault → String
  | .missing p units =>
    "No executor configured for the " ++ p.text ++ " phase (" ++ toString units ++
      " unit(s) need it)."
  | .notRunnable p => "The " ++ p.text ++ " executor has no run() method."
  | .badTimeout p found =>
    "The " ++ p.text ++ " executor timeout must be a positive number, got " ++ found.literal ++ "."
  | .badWorkers found => "max_workers must be a positive integer, got " ++ found.literal ++ "."
  | .unknownType p type => p.text ++ ": Unknown executor type: " ++ type
  | .badOptions p type reason =>
    p.text ++ ": invalid options for executor '" ++ type ++ "': " ++ reason

def failure (f : ExecutorFault) : Failure := ⟨.executorConfig, f.message⟩

end ExecutorFault

/-- Check the executor of one phase of a run over a graph. -/
def checkExecutor (executors : Executors) (g : Graph) (p : Phase) : Except ExecutorFault Unit :=
  let units := (g.nodes.filter fun n => p.appliesTo n.unit.kind).length
  if units = 0 then .ok ()
  else
    match Table.get? p executors with
    | none => .error (.missing p units)
    | some e =>
      if e.run.isNone then .error (.notRunnable p)
      else if allowedTimeout e.timeout then .ok ()
      else .error (.badTimeout p e.timeout)

/-- Check that every phase of a run that some unit has can be carried out. -/
def checkExecutors (executors : Executors) (g : Graph) : List Phase → Except ExecutorFault Unit
  | [] => .ok ()
  | p :: rest =>
    match checkExecutor executors g p with
    | .ok () => checkExecutors executors g rest
    | .error fault => .error fault

end Rollout
