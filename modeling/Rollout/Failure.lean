/-!
# Failures

The kinds of failure that end a stage of a command, with the code under which each is reported and
the hint that goes with it. What went wrong in detail is known where it goes wrong; here only the
kind and the message are kept. A crash is no failure of a stage: it ends the whole command.
-/

namespace Rollout

/-- The kind of a failure. -/
inductive FailureKind
  | general
  | config
  | schema
  | duplicateName
  | unknownUnit
  | dependencyCycle
  | unresolvedReference
  | missingOutput
  | duplicateOutput
  | executorConfig
  | buildstate
  deriving DecidableEq, Inhabited

/-- The kinds of failures, the general one first. -/
def FailureKind.all : List FailureKind :=
  [.general, .config, .schema, .duplicateName, .unknownUnit, .dependencyCycle,
    .unresolvedReference, .missingOutput, .duplicateOutput, .executorConfig, .buildstate]

/-- The code under which failures of a kind are reported. -/
def FailureKind.code : FailureKind → String
  | .general => "stack_error"
  | .config => "config_error"
  | .schema => "schema_error"
  | .duplicateName => "duplicate_name"
  | .unknownUnit => "unknown_unit"
  | .dependencyCycle => "dependency_cycle"
  | .unresolvedReference => "unresolved_reference"
  | .missingOutput => "missing_output"
  | .duplicateOutput => "duplicate_output"
  | .executorConfig => "executor_config"
  | .buildstate => "buildstate_error"

/-- What the user can do about a failure. -/
def FailureKind.hint? : FailureKind → Option String
  | .dependencyCycle => some "Remove a dependency or reference along the cycle."
  | .executorConfig => some "Check the executors section of the stack file."
  | .buildstate => some "Delete the buildstate file to start from a clean state."
  | .unresolvedReference | .missingOutput =>
    some "A unit was deployed before its referenced outputs existed; please report this."
  | _ => none

/-- A failure as it is reported. -/
structure Failure where
  kind : FailureKind
  message : String
  deriving DecidableEq, Inhabited

/-- The message of a dependency cycle. -/
def cycleMessage (cycle : List String) : String :=
  "Dependency cycle detected: " ++ " -> ".intercalate cycle

/-- The kind of a crash. -/
inductive CrashKind
  | wrongType
  | wrongValue
  | missingKey
  | fileExists
  | fileMissing
  | notFolder
  | isFolder
  | badText
  | tooDeep
  deriving DecidableEq, Inhabited

/-- Something that ends the whole command. -/
structure Crash where
  kind : CrashKind
  message : String
  deriving DecidableEq, Inhabited

/-- What can keep a stage of a command from its end. -/
inductive Trouble
  | failure (f : Failure)
  | crash (c : Crash)
  deriving DecidableEq, Inhabited

end Rollout
