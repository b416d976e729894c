import Rollout.Reference.Basic
import Rollout.Text.LetterCase

/-!
# Stacks

A stack is a named collection of units, services first and then projects, with the executors of the
phases and what to watch for changes.

**Types.** `UnitDef`, `Stack`, and the blocks they hold; `BuildSpec`, the way a project is built.

**Operations.**
* `UnitDef.buildSpec`: the single way of building that a build block describes;
* `UnitDef.checkDeploy`: a deploy block names exactly one chart;
* `UnitDef.displayName`, `UnitDef.snapshot`: what other programs see of a unit;
* `normalizeName`: the name of a stack as part of other names.
-/

namespace Rollout

/-- A raw build block. -/
structure BuildBlock where
  tag : Option String
  registry : Option String
  dockerfile : Option String
  context : Option String
  scriptPath : Option String
  deriving Inhabited

/-- A chart in a chart repository. -/
structure ChartRef where
  repository : String
  chart : String
  version : String
  deriving Inhabited

/-- A raw deploy block. -/
structure DeployBlock where
  chart : Option ChartRef
  customChart : Option String
  infrastructure : Option (Table String Value)
  deriving Inhabited

/-- Explicit dependencies of a unit: plain names, or names by kind. -/
inductive Deps
  | names (units : List String)
  | byKind (services projects : List String)
  deriving Inhabited

/-- A unit as authored. -/
structure UnitDef where
  name : String
  kind : UnitKind
  source : Option String
  inputs : Table String Value
  values : Table String Value
  deps : Deps
  build : Option BuildBlock
  deploy : Option DeployBlock
  namespaceName : Option String
  initSteps : List String
  watchPaths : List String
  deriving Inhabited

/-- The executor of a phase: its type and the options it is made with. -/
structure ExecutorConfig where
  type : String
  options : Table String Value
  deriving Inhabited

/-- Where to look for changes, and how often. -/
structure Watcher where
  paths : List String
  intervalMs : Int
  patch : Bool
  deriving Inhabited

/-- The watcher of a stack that does not describe one. -/
def Watcher.default : Watcher := ⟨["./"], 3000, true⟩

/-- A stack. -/
structure Stack where
  name : String
  version : String
  releaseName : Option String
  namespaceName : Option String
  watcher : Watcher
  executors : Table String ExecutorConfig
  services : List UnitDef
  projects : List UnitDef
  deriving Inhabited

/-- A character of a name in its normal form. -/
def normalChar (c : Char) : List Char :=
  if c = '-' ∨ c = '.' ∨ c = ' ' then ['_'] else if c = '/' then [] else [c]

/-- The normal form of a stack name: small letters, low lines for hyphens, points and blanks, no
slashes. -/
def normalizeName (name : String) : String :=
  String.ofList ((Text.lower name).toList.flatMap normalChar)

/-- The text with every occurrence of a character replaced. -/
def swapChar (old new : Char) (s : String) : String :=
  String.ofList (s.toList.map fun c => if c = old then new else c)

/-- Why a unit does not fit its schema. -/
inductive SchemaFault
  | missingName (kind : UnitKind)
  | serviceBuilds (unit : String)
  | noBuild (unit : String)
  | mixedBuild (unit : String) (keys : List String)
  | emptyScript (unit : String)
  | halfDocker (unit : String)
  | twoCharts (unit : String)
  | noChart (unit : String)
  | unknownInput (unit token : String)
  deriving DecidableEq, Inhabited

def SchemaFault.message : SchemaFault → String
  | .missingName kind => "A " ++ kind.text ++ " is missing its name."
  | .serviceBuilds u => "Service '" ++ u ++ "' cannot define a build block."
  | .noBuild u =>
    "Project '" ++ u ++ "' must define a build with either tag/registry or script_path."
  | .mixedBuild u keys =>
    "Project '" ++ u ++ "' defines both a docker build (" ++ ", ".intercalate keys ++
      ") and script_path; they are mutually exclusive."
  | .emptyScript u => "Project '" ++ u ++ "' has an empty script_path."
  | .halfDocker u =>
    "Project '" ++ u ++ "' must define either both tag and registry, or script_path."
  | .twoCharts u => "Unit '" ++ u ++ "' defines both chart and custom_chart; choose one."
  | .noChart u => "Unit '" ++ u ++ "' deploy block needs chart or custom_chart."
  | .unknownInput u token =>
    "Unit '" ++ u ++ "' init step uses self.inputs." ++ token ++ " but defines no such input."

/-- The way a project is built. -/
inductive BuildSpec
  | docker (tag registry dockerfile : String) (context : Option String)
  | script (path : String)
  deriving DecidableEq, Inhabited

namespace BuildSpec

/-- Whether an image of a registry is pushed to it. -/
def pushes (registry : String) : Bool := !(registry == "" || registry == "local")

/-- The name of the image that a docker build makes. -/
def imageLabel (tag registry display : String) : String :=
  if pushes registry then registry ++ "/" ++ display ++ ":" ++ tag else display ++ ":" ++ tag

/-- The fields of a build, as executors see them. -/
def fields : BuildSpec → List (String × Value)
  | .docker tag registry dockerfile context =>
    [("tag", .text tag), ("registry", .text registry), ("dockerfile", .text dockerfile),
      ("context", Value.ofText? context)]
  | .script path => [("path", .text path)]

end BuildSpec

/-- The entries of a record that are not missing. -/
def presentFields (fields : List (String × Option Value)) : List (String × Value) :=
  fields.filterMap fun (k, v) => v.map fun v => (k, v)

namespace BuildBlock

def dockerKeys (b : BuildBlock) : List String :=
  (presentFields
    [("tag", b.tag.map .text), ("registry", b.registry.map .text),
      ("dockerfile", b.dockerfile.map .text), ("context", b.context.map .text)]).map Prod.fst

/-- The block without its missing fields. -/
def toValue (b : BuildBlock) : Value :=
  .object (presentFields
    [("tag", b.tag.map .text), ("registry", b.registry.map .text),
      ("dockerfile", b.dockerfile.map .text), ("context", b.context.map .text),
      ("script_path", b.scriptPath.map .text)])

end BuildBlock

/-- The block without its missing fields. -/
def DeployBlock.toValue (d : DeployBlock) : Value :=
  .object (presentFields
    [("chart", d.chart.map fun c => .object
        [("repository", .text c.repository), ("chart", .text c.chart),
          ("version", .text c.version)]),
      ("custom_chart", d.customChart.map .text),
      ("iac", d.infrastructure.map Value.object)])

/-- Explicit dependencies, with the kind where the author gave it. -/
def Deps.explicit : Deps → List (Option UnitKind × String)
  | .names units => units.map fun n => (none, n)
  | .byKind services projects =>
    services.map (fun n => (some .service, n)) ++ projects.map fun n => (some .project, n)

namespace UnitDef

/-- The way the unit is built: services are not built, and projects are built from exactly one of a
docker image and a script. -/
def buildSpec (u : UnitDef) : Except SchemaFault (Option BuildSpec) :=
  match u.kind, u.build with
  | .service, some _ => .error (.serviceBuilds u.name)
  | .service, none => .ok none
  | .project, none => .error (.noBuild u.name)
  | .project, some b =>
    match b.scriptPath with
    | some script =>
      if !b.dockerKeys.isEmpty then .error (.mixedBuild u.name b.dockerKeys)
      else if script = "" then .error (.emptyScript u.name)
      else .ok (some (.script script))
    | none =>
      match b.tag, b.registry with
      | some tag, some registry =>
        let dockerfile :=
          match b.dockerfile with
          | some d => if d = "" then "Dockerfile" else d
          | none => "Dockerfile"
        .ok (some (.docker tag registry dockerfile b.context))
      | _, _ => .error (.halfDocker u.name)

/-- A deploy block names exactly one chart. -/
def checkDeploy (u : UnitDef) : Except SchemaFault Unit :=
  match u.deploy with
  | none => .ok ()
  | some d =>
    match d.chart, d.customChart with
    | some _, some _ => .error (.twoCharts u.name)
    | none, none => .error (.noChart u.name)
    | _, _ => .ok ()

/-- The input called `name`, if it is a text and not empty, and the name of the unit otherwise. -/
def baseName (u : UnitDef) : String :=
  match Table.get? "name" u.inputs with
  | some (.text s) => if s = "" then u.name else s
  | _ => u.name

/-- The name with low lines. -/
def displayName (u : UnitDef) : String := swapChar '-' '_' u.baseName

/-- The name with hyphens. -/
def kebabName (u : UnitDef) : String := swapChar '_' '-' u.baseName

/-- The configuration of the unit with the given inputs and values in place of its own. -/
def configWith (u : UnitDef) (inputs values : Value) : List (String × Value) :=
  [("source", Value.ofText? u.source),
    ("inputs", inputs),
    ("values", values),
    ("build", match u.build with | some b => b.toValue | none => .null),
    ("deploy", match u.deploy with | some d => d.toValue | none => .null),
    ("namespace", Value.ofText? u.namespaceName),
    ("init_steps", Value.texts u.initSteps)]

/-- The configuration of the unit as authored. -/
def snapshot (u : UnitDef) : Value :=
  .object (u.configWith (.object u.inputs) (.object u.values))

end UnitDef

namespace Stack

/-- The name of the stack as part of other names. -/
def normalizedName (s : Stack) : String := normalizeName s.name

def units (s : Stack) : List UnitDef := s.services ++ s.projects

/-- The namespace of a unit: its own, else that of the stack, else the name of the stack. -/
def namespaceFor (s : Stack) (u : UnitDef) : String :=
  match u.namespaceName, s.namespaceName with
  | some n, m =>
    if n ≠ "" then n
    else
      match m with
      | some m => if m ≠ "" then m else swapChar '_' '-' s.normalizedName
      | none => swapChar '_' '-' s.normalizedName
  | none, some m => if m ≠ "" then m else swapChar '_' '-' s.normalizedName
  | none, none => swapChar '_' '-' s.normalizedName

end Stack

/-- The host name under which a deployed unit answers. -/
def serviceHost (release : String) (u : UnitDef) (namespaceName : String) : String :=
  release ++ "-" ++ u.kebabName ++ "." ++ namespaceName ++ ".svc.cluster.local"

end Rollout
