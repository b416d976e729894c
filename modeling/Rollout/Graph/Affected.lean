import Rollout.Files.FilePath
import Rollout.Graph.Search

/-!
# Affected units

A unit is touched by a changed path that lies in one of the paths that it watches: its docker
context and dockerfile, its build script, and the paths it names. Touched units are built and
deployed again, and so is everything deployed on top of them.

**Operations.** `UnitDef.watched`, `Graph.touched`, `Graph.redeployForce`, `Graph.affected`.
-/

namespace Rollout

/-- The paths whose change invalidates what was built or deployed of a unit. A docker build without
a context takes the name of the unit for one. -/
def UnitDef.watched (directory : FilePath) (u : UnitDef) : List FilePath :=
  let built : List FilePath :=
    match u.buildSpec with
    | .ok (some (.docker _ _ dockerfile context)) =>
      let context := FilePath.ofText (match context with
        | some c => if c = "" then u.displayName else c
        | none => u.displayName)
      [context, context.join (FilePath.ofText dockerfile)]
    | .ok (some (.script path)) => [FilePath.ofText path]
    | _ => []
  (built ++ u.watchPaths.map FilePath.ofText).map directory.within

/-- The units to be worked on again whatever is stored about them, for the build and for the
deployment. -/
structure Forced where
  build : List String
  deploy : List String
  deriving Inhabited

namespace Graph

/-- The units that changed paths touch, in the order of declaration. Paths outside the watch roots
do not count. -/
def touched (g : Graph) (directory : FilePath) (changed : List String)
    (roots : Option (List String)) : List String :=
  let changed := changed.map fun p => directory.within (FilePath.ofText p)
  let changed :=
    match roots with
    | none => changed
    | some roots =>
      let roots := roots.map fun r => directory.within (FilePath.ofText r)
      changed.filter fun p => roots.any fun r => r.contains p
  (g.nodes.filter fun n =>
    (n.unit.watched directory).any fun w => changed.any fun p => w.contains p).map Node.fqn

/-- What touched units make necessary: their own build and deployment, and the deployment of
everything that needs their deployment. -/
def redeployForce (g : Graph) (touched : List String) : Forced :=
  let below := match g.descendants touched [.deploy] with | .ok units => units | .error _ => []
  ⟨touched, touched ++ below.filter fun fqn => !touched.contains fqn⟩

/-- The units that changed paths affect. -/
def affected (g : Graph) (directory : FilePath) (changed : List String)
    (roots : Option (List String)) : List String :=
  (g.redeployForce (g.touched directory changed roots)).deploy

end Graph

end Rollout
