import Rollout.Graph.Affected
import Rollout.Run.Scheduler
import Rollout.Command.Stage

/-!
# Redeploying what changed

Changed paths touch units; touched units are built and deployed again, and everything deployed on
top of them is deployed again. When no unit is touched, nothing is run, and the report is empty.

**Operations.** `Forced.units`, `Scheduler.redeploy`.
-/

namespace Rollout

/-- The units whose phase is carried out again. -/
def Forced.units (f : Forced) : Phase → List String
  | .init => []
  | .build => f.build
  | .deploy => f.deploy

/-- The phases that are carried out again. -/
def redeployPhases : List Phase := Command.redeploy.phases

/-- The paths below which changes count. -/
def Graph.watchRoots (g : Graph) : Option (List String) := g.stack.map fun s => s.watcher.paths

/-- The report of a run that had nothing to do, and nothing else. -/
def Scheduler.idle (s : Scheduler) (files : Files) : RunResult :=
  ⟨.ok ⟨redeployPhases, s.releaseName, [], 0⟩, [], [], s, files, 0⟩

/-- Build and deploy again what changed paths affect. -/
def Scheduler.redeploy (g : Graph) (executors : Executors) (directory : FilePath)
    (changed : List String) (store : Store) (state : Option Buildstate) (files : Files)
    (options : RunOptions) (chance : Chance) : Except RunFault (RunResult × Chance) :=
  let forced := g.redeployForce (g.touched directory changed g.watchRoots)
  let options := { options with
    forced := forced.units
    command := "redeploy"
    directory := some directory }
  (Scheduler.create g executors store state files options chance).map fun (s, chance) =>
    if forced.deploy.isEmpty then (s.idle files, chance)
    else (s.run redeployPhases files, chance)

end Rollout
