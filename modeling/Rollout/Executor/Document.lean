import Rollout.Executor.Basic
import Rollout.Value.Parts

/-!
# Contexts from documents

The context of an executor can be given as a document; what it leaves out is filled in from the
deployment of a service.

**Types.** `ContextFault`.

**Operations.** `UnitContext.ofValue`.
-/

namespace Rollout

/-- What a document says wrongly about a context. -/
inductive ContextFault
  | noKind (name : String)
  | noPhase (name : String)
  deriving DecidableEq, Inhabited

/-- The way of building that a mapping describes: a script by its path, or an image. -/
def BuildSpec.ofValue? : Value → Option BuildSpec
  | .map entries =>
    let v : Value := .map entries
    match v.get? "path" with
    | some path => some (.script path.asText)
    | none =>
      some (.docker (v.part "tag").asText (v.part "registry").asText
        (v.partOr "dockerfile" (.text "Dockerfile")).asText (v.part "context").asText?)
  | _ => none

/-- The context that a document describes. -/
def UnitContext.ofValue (v : Value) : Except ContextFault UnitContext :=
  let text (key usual : String) : String := (v.partOr key (.text usual)).asText
  match UnitKind.ofText? (text "kind" "service"), Phase.ofText? (text "phase" "deploy") with
  | none, _ => .error (.noKind (text "kind" "service"))
  | _, none => .error (.noPhase (text "phase" "deploy"))
  | some kind, some phase =>
    .ok {
      fqn := text "fqn" "demo.service.api"
      name := text "name" "api"
      kind := kind
      phase := phase
      stackName := text "stack_name" "demo"
      namespaceName := text "namespace" "demo"
      releaseName := text "release_name" "rel"
      config := v.partOr "config" (.object [("inputs", .map [])])
      displayName := text "display_name" ""
      build := BuildSpec.ofValue? (v.part "build")
      initSteps := (v.part "init_steps").asTexts }

end Rollout
