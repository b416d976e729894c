import Rollout.Executor.Basic
import Rollout.Executor.Mapping

/-!
# Rehearsals

A run can be rehearsed with executors that do nothing but answer as a document prescribes. The
document says for every unit how long a call takes, whether the call tampers with its context, and
what it answers: an exception, something that is no result, a failure, or outputs.

**Operations.** `Rehearsal.answer`, `Rehearsal.executor`, `Rehearsal.executors`.
-/

namespace Rollout.Rehearsal

/-- The prescribed answer. -/
def answer (task : Value) : Answer :=
  match task.part "raise" with
  | .list [.text cls, .text text] =>
    .raised cls (if cls == "KeyError" then Text.quote text else text)
  | _ =>
    match task.get? "return", task.get? "fail", task.part "outputs" with
    | some x, _, _ => .foreign x.kindName
    | none, some cause, _ => .failed cause.asText?
    | none, none, .null => .succeeded none
    | none, none, x =>
      match mappingOf x with
      | .ok entries => .succeeded (some entries)
      | .error e => .raised e.className e.text

/-- What is prescribed for a unit. -/
def task (script : Value) (unit : String) : Value :=
  ((script.part "units").get? unit).getD (script.partOr "default" (.map []))

/-- The reply to a call. -/
def reply (script : Value) (c : UnitContext) (files : Files) : Reply :=
  let task := task script c.name
  let tampers := (task.part "mutate").truthy
  { answer := answer task
    seconds := (task.part "duration").asRat
    inputs := match c.inputs with
      | .map es => if tampers then .map (Entries.set "mutated" (.bool true) es) else .map es
      | x => x
    values := if tampers then .map [] else c.values
    files := files }

/-- The executor that follows a script. -/
def executor (script : Value) : Executor :=
  ⟨if (script.part "no_timeout_attr").truthy then .null else script.part "timeout_s",
    if (script.part "no_run").truthy then none else some (reply script)⟩

/-- The executors of scripts by phase, or of one script for all phases. A name that is no phase is
returned. -/
def executors (v : Value) : Except String Executors :=
  match v.get? "all" with
  | some script => .ok (Phase.all.map fun p => (p, executor script))
  | none =>
    v.asTable.mapM fun (name, script) =>
      match Phase.ofText? name with
      | some p => .ok (p, executor script)
      | none => .error name

end Rollout.Rehearsal
