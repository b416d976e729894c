import Rollout.Command.Stage
import Rollout.Run.Report

/-!
# Overview of phases and commands

**Operations.** `Phase.overview`, `Command.overview`: the constants of the library as a document.
-/

namespace Rollout

/-- A phase with its place, its flag and the units that have it. -/
def Phase.overview (p : Phase) : Value :=
  .object [("phase", .text p.text), ("index", .int p.index), ("flag", .text p.doneFlag),
    ("applies", .object (UnitKind.all.map fun k => (k.text, .bool (p.appliesTo k))))]

/-- Phases, kinds of units, commands, their stages, and the states of pairs. -/
def Command.overview : Value :=
  let rows (c : Command) : List (String × String) := stageRows c.text
  .object [
    ("phases", .list (Phase.all.map Phase.overview)),
    ("plural", .object (UnitKind.all.map fun k => (k.text, .text k.plural))),
    ("commands", .object ((Command.all.filter fun c => !c.phases.isEmpty).map fun c =>
      (c.text, .texts (c.phases.map Phase.text)))),
    ("stages", .object (Command.all.map fun c =>
      (c.text, .list ((rows c).map fun r => .texts [r.1, r.2])))),
    ("labels", .object (Command.all.map fun c =>
      (c.text, .object ((rows c).map fun r => (r.1, .text r.2))))),
    ("terminal", .object (PairStatus.all.map fun p => (p.text, .bool p.terminal)))]

end Rollout
