import Rollout.Schema.Check
import Rollout.Stack.Basic

/-!
# Stack documents

Reading a stack from a document. A section (services, projects) is either a mapping from names to
bodies or a list of bodies. The kind of a unit is that of its section; in a mapping its name is the
key, whatever the body says.

**Types.** `Body`, `Section`, `Draft`: a document whose sections have been told apart. A body may be
a unit that has been read before.

**Operations.** `Draft.ofValue?`, `Draft.read`, `Stack.ofValue`.
-/

namespace Rollout

/-- The body of a unit: a document, or a unit that has been read. -/
inductive Body
  | raw (v : Value)
  | finished (u : UnitDef)
  deriving Inhabited

/-- A section of a stack document. -/
inductive Section
  | mapping (entries : List (Key × Body))
  | sequence (items : List Body)
  | other (v : Value)
  deriving Inhabited

/-- A stack document with its two sections told apart from its other entries. -/
structure Draft where
  fields : Entries
  services : Option Section
  projects : Option Section
  deriving Inhabited

/-- A body with its kind, and with its name where the section gives one. -/
inductive Draft.Entry
  | raw (fields : Entries)
  | finished (u : UnitDef)

namespace Section

/-- A section that holds documents only. -/
def ofValue : Value → Section
  | .map entries => .mapping (entries.map fun e => (e.1, .raw e.2))
  | .list items => .sequence (items.map .raw)
  | v => .other v

end Section

namespace Draft

/-- The draft of a mapping. -/
def ofValue? : Value → Option Draft
  | .map entries =>
    let isSection (k : Key) : Bool := UnitKind.all.any fun kind => k.same kind.plural
    some ⟨entries.filter fun e => !isSection e.1,
      (Entries.get? UnitKind.service.plural entries).map Section.ofValue,
      (Entries.get? UnitKind.project.plural entries).map Section.ofValue⟩
  | _ => none

/-- A key as the value of an entry. -/
def nameValue : Key → Value
  | .null => .null
  | .bool b => .bool b
  | .int i => .int i
  | .float x => .float x
  | .text s => .text s
  | .date d => .date d
  | .timestamp t => .timestamp t
  | .tuple _ => .list []

/-- The entry of a section for a body, under a key if the section is a mapping. A null key gives no
name. -/
def entry (kind : UnitKind) (key : Key) : Body → Except Complaint Entry
  | .finished u =>
    .ok (.finished
      { u with
        kind := kind
        name := match key with | .text s => s | _ => u.name })
  | .raw v =>
    let named (fields : Entries) : Entries :=
      let fields := Entries.set "kind" (.text kind.text) fields
      match key with
      | .null => fields
      | key => Entries.set "name" (nameValue key) fields
    match v with
    | .null => .ok (.raw (named []))
    | .map fields => .ok (.raw (named fields))
    | _ => .error (.rule ("Unit '" ++ key.display ++ "' must be a mapping."))

/-- The entries of a section; `none` for a missing one, a value for one of neither shape. -/
inductive Expanded
  | missing
  | null
  | entries (items : List Entry)

/-- The entries of a section. -/
def expand (kind : UnitKind) : Option Section → Except Complaint Expanded
  | none => .ok .missing
  | some (.other .null) => .ok .null
  | some (.other _) => .error (.rule (kind.plural ++ " must be a mapping or a list of units."))
  | some (.mapping entries) => do
    let items ← entries.mapM fun e => entry kind e.1 e.2
    return .entries items
  | some (.sequence bodies) => do
    let items ← bodies.mapM fun b => entry kind .null b
    return .entries items

/-- A raw build block. -/
def buildBlock : Value → Check BuildBlock :=
  Check.record "BuildConfig" fun r =>
    (BuildBlock.mk
      <$> Check.field ["tag"] none (Check.optional Check.text) r
      <*> Check.field ["registry"] none (Check.optional Check.text) r
      <*> Check.field ["dockerfile"] none (Check.optional Check.text) r
      <*> Check.field ["context"] none (Check.optional Check.text) r
      <*> Check.field ["script_path", "build_script"] none (Check.optional Check.text) r)
    |>.withIssues (Check.unknownKeys
      [["tag"], ["registry"], ["dockerfile"], ["context"], ["script_path", "build_script"]] r)

/-- A chart of a repository. -/
def chartRef : Value → Check ChartRef :=
  Check.record "ChartRef" fun r =>
    (ChartRef.mk
      <$> Check.required ["repository"] Check.text r
      <*> Check.required ["chart"] Check.text r
      <*> Check.required ["version"] Check.text r)
    |>.withIssues (Check.unknownKeys [["repository"], ["chart"], ["version"]] r)

/-- A raw deploy block. -/
def deployBlock : Value → Check DeployBlock :=
  Check.record "DeploySpec" fun r =>
    (DeployBlock.mk
      <$> Check.field ["chart"] none (Check.optional chartRef) r
      <*> Check.field ["custom_chart"] none (Check.optional Check.text) r
      <*> Check.field ["iac"] none (Check.optional (Check.dict Check.any)) r)
    |>.withIssues (Check.unknownKeys [["chart"], ["custom_chart"], ["iac"]] r)

/-- Dependencies by kind. -/
def depsByKind : Value → Check Deps :=
  Check.record "UnitDeps" fun r =>
    (Deps.byKind
      <$> Check.field ["services"] [] (Check.list Check.text) r
      <*> Check.field ["projects"] [] (Check.list Check.text) r)
    |>.withIssues (Check.unknownKeys [["services"], ["projects"]] r)

/-- Dependencies in either form; the issues of both are reported if neither fits. -/
def deps (v : Value) : Check Deps :=
  match Check.list Check.text v, depsByKind v with
  | .ok units, _ => .ok (.names units)
  | .bad _, .ok d => .ok d
  | .bad first, .bad second =>
    .bad ((Check.inside "list[str]" (.bad first : Check Deps)).issues ++
      (Check.inside "UnitDeps" (.bad second : Check Deps)).issues)

def kind : Value → Check UnitKind
  | .text s =>
    match UnitKind.ofText? s with
    | some k => .ok k
    | none => .fail .notKind
  | _ => .fail .notKind

/-- The names of the fields of a unit. -/
def unitFields : List (List String) :=
  [["name"], ["kind"], ["source", "service", "project"], ["inputs"], ["values"], ["deps"],
    ["build"], ["deploy"], ["namespace"], ["init_steps"], ["watch_paths"]]

/-- A unit from the entries of its body. -/
def unitOfFields (r : Entries) : Check UnitDef :=
  (UnitDef.mk
    <$> Check.required ["name"] Check.text r
    <*> Check.required ["kind"] kind r
    <*> Check.field ["source", "service", "project"] none (Check.optional Check.text) r
    <*> Check.field ["inputs"] [] (Check.dict Check.any) r
    <*> Check.field ["values"] [] (Check.dict Check.any) r
    <*> Check.field ["deps"] (.names []) deps r
    <*> Check.field ["build"] none (Check.optional buildBlock) r
    <*> Check.field ["deploy"] none (Check.optional deployBlock) r
    <*> Check.field ["namespace"] none (Check.optional Check.text) r
    <*> Check.field ["init_steps"] [] (Check.list Check.text) r
    <*> Check.field ["watch_paths"] [] (Check.list Check.text) r)
  |>.withIssues (Check.unknownKeys unitFields r)

/-- A unit from its body, kind and name included. -/
def unitDef : Value → Check UnitDef := Check.record "UnitDefinition" unitOfFields

def section? (k : UnitKind) : Expanded → Check (List UnitDef)
  | .missing => .ok []
  | .null => Check.inside k.plural (.fail .notList)
  | .entries items =>
    Check.inside k.plural (Check.all (items.zipIdx.map fun (e, i) =>
      Check.inside (.int i)
        (match e with
          | .raw fields => unitOfFields fields
          | .finished u => .ok u)))

/-- The executor of a phase. -/
def executorConfig : Value → Check ExecutorConfig :=
  Check.record "ExecutorConfig" fun r =>
    (ExecutorConfig.mk
      <$> Check.required ["type"] Check.text r
      <*> Check.field ["with", "with_"] [] (Check.dict Check.any) r)
    |>.withIssues (Check.unknownKeys [["type"], ["with", "with_"]] r)

def watcher : Value → Check Watcher :=
  Check.record "WatcherConfig" fun r =>
    (Watcher.mk
      <$> Check.field ["paths"] ["./"] (Check.list Check.text) r
      <*> Check.field ["interval_ms", "interval"] 3000 Check.int r
      <*> Check.field ["patch"] true Check.bool r)
    |>.withIssues (Check.unknownKeys [["paths"], ["interval_ms", "interval"], ["patch"]] r)

/-- The names of the fields of a stack other than its sections. -/
def stackFields : List (List String) :=
  [["name"], ["version"], ["release_name", "release"], ["namespace"], ["watcher"], ["executors"]]

/-- The rules about a stack as a whole: its name is not empty, and executors are for phases. -/
def checkStack (s : Stack) : Check Stack :=
  if s.normalizedName = "" then .fail (.rule "Stack name must not be empty.")
  else
    let unknown := (Table.keys s.executors).filter fun p => (Phase.ofText? p).isNone
    if unknown.isEmpty then .ok s
    else .fail (.rule ("Unknown executor phases: " ++ ", ".intercalate (Sorting.texts unknown)))

/-- The stack of a draft, or the issues found. Sections of neither shape and bodies that are no
mappings are reported alone. -/
def read (d : Draft) : Check Stack :=
  match expand .service d.services with
  | .error complaint => .fail complaint
  | .ok services =>
    match expand .project d.projects with
    | .error complaint => .fail complaint
    | .ok projects =>
      let r := d.fields
      ((Stack.mk
        <$> Check.required ["name"] Check.text r
        <*> Check.field ["version"] "v1" Check.text r
        <*> Check.field ["release_name", "release"] none (Check.optional Check.text) r
        <*> Check.field ["namespace"] none (Check.optional Check.text) r
        <*> Check.field ["watcher"] Watcher.default watcher r
        <*> Check.field ["executors"] [] (Check.dict executorConfig) r
        <*> section? .service services
        <*> section? .project projects)
      |>.withIssues (Check.unknownKeys stackFields r)).andThen checkStack

end Draft

/-- The stack that a document describes, or the issues found. -/
def Stack.ofValue (v : Value) : Check Stack :=
  match Draft.ofValue? v with
  | some d => d.read
  | none => .fail (.notRecord "Stack")

end Rollout
