import Rollout.Stack.Release

/-!
# Summaries of stacks

A stack with everything that follows from it, as a value: names in their normal forms, the namespace
and host of every unit, the way it is built, and the configuration that its fingerprint covers.

**Operations.** `UnitDef.summary`, `Stack.summary`.
-/

namespace Rollout

/-- The way a unit is built, as a summary shows it. -/
def BuildSpec.summary (shown : String) : BuildSpec → Value
  | .script path => .object [("script", .text path)]
  | .docker tag registry dockerfile context =>
    .object [
      ("docker", .object [("tag", .text tag), ("registry", .text registry),
        ("dockerfile", .text dockerfile), ("context", .ofText? context)]),
      ("push", .bool (BuildSpec.pushes registry)),
      ("image", .text (BuildSpec.imageLabel tag registry shown))]

/-- A unit of a stack. A fault of the unit is shown by the given function. -/
def UnitDef.summary (fault : SchemaFault → Value) (s : Stack) (u : UnitDef) : Value :=
  let release := (nonEmpty? s.releaseName).getD "rel"
  .object [
    ("name", .text u.name),
    ("kind", .text u.kind.text),
    ("source", .ofText? u.source),
    ("deps", .list (u.deps.explicit.map fun (kind, name) =>
      .list [.ofText? (kind.map UnitKind.text), .text name])),
    ("build_spec", match u.buildSpec with
      | .ok none => .null
      | .ok (some spec) => spec.summary u.displayName
      | .error f => fault f),
    ("deploy_check", match u.checkDeploy with
      | .ok () => .null
      | .error f => fault f),
    ("display", .text u.displayName),
    ("display_kebab", .text u.kebabName),
    ("namespace", .text (s.namespaceFor u)),
    ("host", .text (serviceHost release u (s.namespaceFor u))),
    ("snapshot", u.snapshot),
    ("watch_paths", .texts u.watchPaths)]

/-- A stack. A fault of a unit is shown by the given function. -/
def Stack.summary (fault : SchemaFault → Value) (s : Stack) : Value :=
  .object [
    ("name", .text s.name),
    ("normalized", .text s.normalizedName),
    ("version", .text s.version),
    ("release_name", .ofText? s.releaseName),
    ("namespace", .ofText? s.namespaceName),
    ("watcher", .object [("paths", .texts s.watcher.paths),
      ("interval_ms", .int s.watcher.intervalMs), ("patch", .bool s.watcher.patch)]),
    ("executors", .list (s.executors.map fun (phase, e) =>
      .list [.text phase, .text e.type, .object e.options])),
    ("units", .list (s.units.map (UnitDef.summary fault s)))]

end Rollout
