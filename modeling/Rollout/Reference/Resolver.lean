import Rollout.Graph.Basic

/-!
# Resolving references

During a run the outputs of deployed units are recorded, each unit once. The configuration of a unit
is resolved by writing the recorded output at every site of the unit; escaped references lose their
mark, and what is written is not looked at again.

**Types.** `Resolver`, `Resolved`.

**Operations.** `Resolver.record`, `Resolver.outputs?`, `Resolver.resolve`.
-/

namespace Rollout

/-- The units of a graph with the outputs that have been recorded. -/
structure Resolver where
  graph : Graph
  recorded : Table String Entries
  deriving Inhabited

/-- A configuration in which references have been replaced. -/
structure Resolved where
  fqn : String
  inputs : Value
  values : Value
  /-- What was written, by the pointer of its site. -/
  substitutions : Table String Value
  deriving Inhabited

/-- The resolved inputs and values as one value. -/
def Resolved.toValue (r : Resolved) : Value :=
  .object [("inputs", r.inputs), ("values", r.values)]

/-- Why outputs cannot be recorded or references not be resolved. -/
inductive ResolveFault
  | unknownUnit (fqn : String)
  | duplicate (fqn : String)
  | notRecorded (site : Site) (target : String)
  | missingOutput (site : Site) (target : String) (available : List String)
  /-- The field is missing, and the names of the outputs that there are cannot be listed. -/
  | unlistable (message : String)
  /-- The document has no place for the output. -/
  | unplaced (site : Site) (fault : Value.PathFault)
  deriving Inhabited

namespace ResolveFault

/-- The failure to report; there is none for outputs that cannot be listed or written. -/
def failure? : ResolveFault → Option Failure
  | .unknownUnit fqn => some ⟨.unknownUnit, "Unknown unit: " ++ fqn⟩
  | .duplicate fqn =>
    some ⟨.duplicateOutput, "Outputs for " ++ fqn ++ " were already recorded in this run."⟩
  | .notRecorded site target =>
    some ⟨.unresolvedReference, site.unit ++ " needs " ++ site.reference.text ++ " but " ++ target ++
      " has not recorded outputs."⟩
  | .missingOutput site target available =>
    some ⟨.missingOutput, site.unit ++ " needs " ++ site.reference.text ++ " but " ++ target ++
      " has no output '" ++ site.reference.field ++ "' (available: " ++
      (if available.isEmpty then "none" else ", ".intercalate available) ++ ")."⟩
  | .unlistable _ | .unplaced .. => none

end ResolveFault

/-- Keys in their order, if they have one. -/
def sortedKeys (entries : Entries) : Except Json.Fault (List Key) :=
  (Json.sortEntries entries).map fun es => es.map Prod.fst

/-- Keys as texts, or a message about the first that is none. -/
def keyTexts (position : Nat) : List Key → Except String (List String)
  | [] => .ok []
  | .text s :: rest => (keyTexts (position + 1) rest).map (s :: ·)
  | k :: _ =>
    .error ("sequence item " ++ toString position ++ ": expected str instance, " ++ k.kindName ++
      " found")

/-- The names of outputs in their order. -/
def outputNames (outputs : Entries) : Except String (List String) :=
  match sortedKeys outputs with
  | .error fault => .error fault.message
  | .ok keys => keyTexts 0 keys

namespace Resolver

/-- A resolver without recorded outputs. -/
def start (g : Graph) : Resolver := ⟨g, []⟩

def outputs? (r : Resolver) (fqn : String) : Option Entries := Table.get? fqn r.recorded

/-- Record the outputs of a unit of the graph that has none yet. -/
def record (r : Resolver) (fqn : String) (outputs : Entries) : Except ResolveFault Resolver :=
  if !r.graph.has fqn then .error (.unknownUnit fqn)
  else if (r.outputs? fqn).isSome then .error (.duplicate fqn)
  else .ok { r with recorded := Table.set fqn outputs r.recorded }

/-- The sites of a unit, in order. -/
def sitesOf (r : Resolver) (fqn : String) : List Site :=
  r.graph.sites.filter fun s => s.unit == fqn

/-- The output that a site refers to. -/
def lookup (r : Resolver) (site : Site) : Except ResolveFault Value :=
  let target := site.reference.target r.graph.stackName
  match r.outputs? target with
  | none => .error (.notRecorded site target)
  | some outputs =>
    match Entries.get? site.reference.field outputs with
    | some v => .ok v
    | none =>
      match outputNames outputs with
      | .ok names => .error (.missingOutput site target names)
      | .error message => .error (.unlistable message)

/-- Write the outputs at the sites of a list, in order. -/
def fill (r : Resolver) (doc : Value) (done : Table String Value) :
    List Site → Except ResolveFault (Value × Table String Value)
  | [] => .ok (doc, done)
  | site :: rest =>
    match r.lookup site with
    | .error fault => .error fault
    | .ok v =>
      match doc.setAt site.path v with
      | .error fault => .error (.unplaced site fault)
      | .ok changed => r.fill changed (Table.set (Path.pointer site.path) v done) rest

/-- The configuration of a unit with every reference replaced by the recorded output. -/
def resolve (r : Resolver) (fqn : String) : Except ResolveFault Resolved :=
  match r.graph.node? fqn with
  | none => .error (.unknownUnit fqn)
  | some n =>
    let doc : Value := .object
      [("inputs", (Value.object n.unit.inputs).mapLeaves Value.unescape),
        ("values", (Value.object n.unit.values).mapLeaves Value.unescape)]
    match r.fill doc [] (r.sitesOf fqn) with
    | .error fault => .error fault
    | .ok (doc, substitutions) =>
      .ok ⟨fqn, (doc.get? "inputs").getD .null, (doc.get? "values").getD .null, substitutions⟩

end Resolver

end Rollout
