import Rollout.Buildstate.Store
import Rollout.Executor.Basic
import Rollout.Reference.InitStep
import Rollout.Reference.Resolver

/-!
# What ends a run early

A run ends early when its structure or its executors are wrong, when its state cannot be loaded or
saved, or when a value of a configuration has no text. Some of these faults are failures to report;
the others end the whole command.

**Types.** `RunFault`.

**Operations.** `RunFault.failure?`, `RunFault.crash`, `RunFault.trouble`.
-/

namespace Rollout

/-- Why a run ends early. -/
inductive RunFault
  | graph (fault : GraphFault)
  | executor (fault : ExecutorFault)
  | store (fault : StoreFault)
  | resolve (fault : ResolveFault)
  | initStep (fault : InitStep.Fault)
  | noText (fault : Json.Fault)
  deriving Inhabited

/-- The text about a document that is not read because of its size. -/
def Json.ReadError.text : Json.ReadError → String
  | .malformed => "malformed"
  | .tooDeep => "maximum recursion depth exceeded while decoding a JSON object from a unicode string"
  | .tooLong digits =>
    "Exceeds the limit (4300 digits) for integer string conversion: value has " ++
      toString digits ++ " digits; use sys.set_int_max_str_digits() to increase the limit"

/-- The kind of crash that a refusal of the file system is. -/
def FileFault.crashKind : FileFault → CrashKind
  | .missing _ => .fileMissing
  | .present _ => .fileExists
  | .notFolder _ => .notFolder
  | .isFolder _ => .isFolder
  | .badText _ => .badText

namespace RunFault

/-- The failure to report, if there is one. -/
def failure? : RunFault → Option Failure
  | .graph f => some f.failure
  | .executor f => some f.failure
  | .store f => f.failure?
  | .resolve f => f.failure?
  | .initStep _ | .noText _ => none

/-- The crash that a fault is if it is no failure to report. -/
def crash : RunFault → Crash
  | .store (.refused reason) => ⟨reason.crashKind, reason.message⟩
  | .store (.excessive .tooDeep) => ⟨.tooDeep, Json.ReadError.tooDeep.text⟩
  | .store (.excessive reason) => ⟨.wrongValue, reason.text⟩
  | .store (.noText fault) => ⟨.wrongType, fault.message⟩
  | .store .tooNested => ⟨.wrongValue, "Circular reference detected (depth exceeded)"⟩
  | .store .tooLong =>
    ⟨.wrongValue, "Exceeds the limit (4300 digits) for integer string conversion; " ++
      "use sys.set_int_max_str_digits() to increase the limit"⟩
  | .resolve (.unlistable message) => ⟨.wrongType, message⟩
  | .initStep (.missing name) => ⟨.missingKey, Text.quote name⟩
  | .initStep (.unwritable fault) => ⟨.wrongType, fault.message⟩
  | .noText fault => ⟨.wrongType, fault.message⟩
  | _ => ⟨.wrongType, ""⟩

/-- What a fault means for a stage. -/
def trouble (f : RunFault) : Trouble :=
  match f.failure? with
  | some failure => .failure failure
  | none => .crash f.crash

end RunFault

end Rollout
