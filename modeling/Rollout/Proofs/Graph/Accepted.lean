import Rollout.Proofs.Graph.Connected
import Rollout.Proofs.Graph.Cycle
import Rollout.Proofs.Graph.Kept
import Rollout.Proofs.Reference.Leaves
import Rollout.Proofs.Stack.Parsed

/-!
# Which stacks have a graph, and which one

A stack has a graph exactly if every unit fits its schema, no two units of a kind share a name,
everything that a unit names or refers to is a unit of the stack, names without a kind belong to one
kind only, and no unit needs itself, directly or through others. What the graph consists of is said
in terms of the stack, too: its units, what they name, and the texts in their inputs and values.

**Types.** `UnitDef.Fits`, `Stack.Accepted`, `Graph.Depicts`.

**Results.**
* `UnitDef.check_eq_ok_iff`: when a unit fits its schema;
* `Graph.ofStack_spec`: which stacks have a graph, and what it is.
-/

namespace Rollout

open Rollout.Graph

/-! ### Units -/

/-- A build block describes exactly one way of building: a script and nothing of an image, or an
image with a tag and a registry. -/
def BuildBlock.OneWay (b : BuildBlock) : Prop :=
  (∃ script, b.scriptPath = some script ∧ script ≠ "" ∧
    b.tag = none ∧ b.registry = none ∧ b.dockerfile = none ∧ b.context = none) ∨
  (b.scriptPath = none ∧ b.tag.isSome ∧ b.registry.isSome)

namespace UnitDef

/-- What the schema of units asks for. -/
structure Fits (u : UnitDef) : Prop where
  named : u.name ≠ ""
  service : u.kind = .service → u.build = none
  project : u.kind = .project → ∃ b, u.build = some b ∧ b.OneWay
  chart : ∀ d, u.deploy = some d → (d.chart.isSome ↔ d.customChart = none)
  inputs : ∀ step ∈ u.initSteps, ∀ token ∈ InitStep.names step, Table.has token u.inputs = true

theorem exists_buildSpec_iff {u : UnitDef} :
    (∃ spec, u.buildSpec = .ok spec) ↔
      (u.kind = .service → u.build = none) ∧
        (u.kind = .project → ∃ b, u.build = some b ∧ b.OneWay) := by
  unfold buildSpec
  cases u.kind with
  | service => cases u.build <;> simp
  | project =>
    cases u.build with
    | none => simp
    | some b =>
      obtain ⟨tag, registry, dockerfile, context, script⟩ := b
      cases script with
      | none => cases tag <;> cases registry <;> simp [BuildBlock.OneWay]
      | some script =>
        by_cases hs : script = ""
        · cases tag <;> cases registry <;> cases dockerfile <;> cases context <;>
            simp [BuildBlock.OneWay, BuildBlock.dockerKeys, presentFields, hs]
        · cases tag <;> cases registry <;> cases dockerfile <;> cases context <;>
            simp [BuildBlock.OneWay, BuildBlock.dockerKeys, presentFields, hs]

theorem checkDeploy_eq_ok_iff {u : UnitDef} :
    u.checkDeploy = .ok () ↔
      ∀ d, u.deploy = some d → (d.chart.isSome ↔ d.customChart = none) := by
  unfold checkDeploy
  cases u.deploy with
  | none => simp
  | some d => cases hc : d.chart <;> cases hcc : d.customChart <;> simp [hc, hcc]

/-- **A unit passes its check** exactly if it fits its schema. -/
theorem check_eq_ok_iff {u : UnitDef} : u.check = .ok () ↔ u.Fits := by
  have hinputs : (u.initSteps.flatMap InitStep.names).find?
      (fun token => !Table.has token u.inputs) = none ↔
        ∀ step ∈ u.initSteps, ∀ token ∈ InitStep.names step, Table.has token u.inputs = true := by
    simp only [List.find?_eq_none, List.mem_flatMap, Bool.not_eq_true', Bool.not_eq_false,
      forall_exists_index, and_imp]
    exact ⟨fun h step hs token ht => h token step hs ht, fun h token step hs ht => h step hs token ht⟩
  have hcheck : u.check = .ok () ↔ u.name ≠ "" ∧ (∃ spec, u.buildSpec = .ok spec) ∧
      u.checkDeploy = .ok () ∧ (u.initSteps.flatMap InitStep.names).find?
        (fun token => !Table.has token u.inputs) = none := by
    unfold check
    by_cases hname : u.name = ""
    · simp [hname, throw, throwThe, MonadExceptOf.throw, bind, Except.bind]
    · cases u.buildSpec with
      | error fault => simp [hname, bind, Except.bind]
      | ok spec =>
        cases u.checkDeploy with
        | error fault => simp [hname, bind, Except.bind]
        | ok _ =>
          cases (u.initSteps.flatMap InitStep.names).find? fun token => !Table.has token u.inputs
          · simp [hname, bind, Except.bind, pure, Except.pure]
          · simp [hname, bind, Except.bind, throw, throwThe, MonadExceptOf.throw]
  rw [hcheck, exists_buildSpec_iff, checkDeploy_eq_ok_iff, hinputs]
  exact ⟨fun ⟨h₁, ⟨h₂, h₃⟩, h₄, h₅⟩ => ⟨h₁, h₂, h₃, h₄, h₅⟩,
    fun h => ⟨h.named, ⟨h.service, h.project⟩, h.chart, h.inputs⟩⟩

/-- An explicit dependency names a unit, and says its kind if it says one. -/
def Answers (v : UnitDef) (dep : Option UnitKind × String) : Prop :=
  v.name = dep.2 ∧ ∀ kind, dep.1 = some kind → v.kind = kind

/-- A unit names another one among its dependencies. -/
def DependsOn (u v : UnitDef) : Prop := ∃ dep ∈ u.deps.explicit, v.Answers dep

/-- Some text in the inputs or values of a unit is a reference to another one. -/
def RefersTo (u v : UnitDef) : Prop :=
  ∃ r : Reference, Value.Mentions r u.document ∧ r.kind = v.kind ∧ r.unit = v.name

end UnitDef

namespace Stack

variable {s : Stack}

/-- The name of a unit of the stack across stacks. -/
def unitName (s : Stack) (u : UnitDef) : String := qualifiedName s.normalizedName u.kind u.name

/-- A unit of the stack needs another one, because it names it or refers to it. -/
def Needs (s : Stack) (u v : UnitDef) : Prop :=
  u ∈ s.units ∧ v ∈ s.units ∧ (u.DependsOn v ∨ u.RefersTo v)

/-- What is asked of a stack that is to have a graph. -/
structure Accepted (s : Stack) : Prop where
  fits : ∀ u ∈ s.units, u.Fits
  names : s.units.Pairwise fun u v => u.kind = v.kind → u.name ≠ v.name
  dependencies : ∀ u ∈ s.units, ∀ dep ∈ u.deps.explicit, ∃ v ∈ s.units, v.Answers dep
  references : ∀ u ∈ s.units, ∀ r, Value.Mentions r u.document →
    ∃ v ∈ s.units, r.kind = v.kind ∧ r.unit = v.name
  plain : ∀ u ∈ s.units, ∀ name, (none, name) ∈ u.deps.explicit →
    ∀ v ∈ s.units, ∀ w ∈ s.units, v.name = name → w.name = name → v.kind = w.kind
  acyclic : ∀ u, ¬Relation.TransGen s.Needs u u

/-- Of two sites the first one comes first: its unit is declared earlier, or it stands before the
other one in the inputs and values of one unit. -/
def SiteBefore (s : Stack) (a b : Site) : Prop :=
  ∃ (i j : Nat) (u v : UnitDef), s.units[i]? = some u ∧ s.units[j]? = some v ∧
    a.unit = s.unitName u ∧ b.unit = s.unitName v ∧
      (i < j ∨ i = j ∧ u.document.Before a.path b.path)

end Stack

/-- What the graph of a stack consists of. -/
structure Graph.Depicts (g : Graph) (s : Stack) : Prop where
  /-- One node for every unit, services first, each with its place. -/
  nodes : g.nodes = (s.services ++ s.projects).mapIdx fun i u => ⟨s.unitName u, u, i⟩
  /-- An edge for every unit that another one names or refers to. -/
  edges : ∀ source target, (∃ e ∈ g.edges, e.source = source ∧ e.target = target) ↔
    ∃ a ∈ s.units, ∃ b ∈ s.units, s.unitName a = source ∧ s.unitName b = target ∧
      (b.DependsOn a ∨ b.RefersTo a)
  /-- One edge at most between two units in one direction. -/
  simple : (g.edges.map fun e => (e.source, e.target)).Nodup
  kinds : ∀ e ∈ g.edges, ∀ a ∈ s.units, ∀ b ∈ s.units,
    s.unitName a = e.source → s.unitName b = e.target →
      (e.kind = .deploy ∧ b.RefersTo a) ∨ (e.kind = .artifact ∧ ¬b.RefersTo a)
  /-- A site for every text in the inputs and values that is a reference. -/
  sites : ∀ site, site ∈ g.sites ↔ ∃ u ∈ s.units, site.unit = s.unitName u ∧
    ∃ text, u.document.TextAt site.path text ∧ Reference.parse? text = some site.reference
  ordered : g.sites.Pairwise s.SiteBefore
  once : s.Parsed → g.sites.Nodup

namespace Stack

variable {s : Stack}

/-! ### The units of the graph -/

/-- The graph with the units of the stack, before they are connected. -/
def unconnected (s : Stack) : Graph :=
  { Graph.empty s.normalizedName with
    stack := some s, nodes := nodesFrom s.normalizedName 0 s.units }

theorem nodes_unconnected (s : Stack) :
    s.unconnected.nodes = s.units.mapIdx fun i u => ⟨s.unitName u, u, i⟩ := by
  simp [unconnected, nodesFrom, unitName]

theorem mem_nodes {n : Node} (h : n ∈ s.unconnected.nodes) :
    n.unit ∈ s.units ∧ n.fqn = s.unitName n.unit := by
  rw [nodes_unconnected] at h
  obtain ⟨i, hi, rfl⟩ := List.mem_mapIdx.mp h
  exact ⟨List.getElem_mem _, rfl⟩

theorem exists_node {u : UnitDef} (h : u ∈ s.units) :
    ∃ n ∈ s.unconnected.nodes, n.unit = u ∧ n.fqn = s.unitName u := by
  obtain ⟨i, hi, rfl⟩ := List.getElem_of_mem h
  exact ⟨_, List.mem_mapIdx.mpr ⟨i, hi, rfl⟩, rfl, rfl⟩

theorem has_iff {fqn : String} :
    s.unconnected.has fqn = true ↔ ∃ u ∈ s.units, s.unitName u = fqn := by
  rw [has_iff_mem_names, List.mem_map]
  constructor
  · rintro ⟨n, hn, rfl⟩
    exact ⟨n.unit, (mem_nodes hn).1, (mem_nodes hn).2.symm⟩
  · rintro ⟨u, hu, rfl⟩
    obtain ⟨n, hn, -, hname⟩ := exists_node hu
    exact ⟨n, hn, hname⟩

theorem has_qualifiedName_iff {kind : UnitKind} {name : String} :
    s.unconnected.has (qualifiedName s.normalizedName kind name) = true ↔
      ∃ u ∈ s.units, u.kind = kind ∧ u.name = name := by
  simp only [has_iff, unitName, qualifiedName_inj]

/-- The units of a stack become nodes if each fits its schema and no two of a kind share a name. -/
theorem addUnits_iff {g : Graph} :
    ({ Graph.empty s.normalizedName with stack := some s }).addUnits s.units = .ok g ↔
      (∀ u ∈ s.units, u.Fits) ∧
      (s.units.Pairwise fun u v => u.kind = v.kind → u.name ≠ v.name) ∧ g = s.unconnected := by
  simp only [addUnits_eq_ok_iff, UnitDef.check_eq_ok_iff, ne_eq, qualifiedName_inj, not_and]
  have hnew (fqn : String) : (({ Graph.empty s.normalizedName with stack := some s } : Graph)).has
      fqn = false := rfl
  simp only [hnew, implies_true, true_and]
  rfl

/-- A unit that answers a dependency with a kind has the name that the dependency stands for. -/
theorem answers_some_iff {v : UnitDef} {kind : UnitKind} {name : String} :
    v.Answers (some kind, name) ↔
      s.unitName v = qualifiedName s.normalizedName kind name := by
  simp [UnitDef.Answers, unitName, qualifiedName_inj, and_comm]

theorem answers_none_iff {v : UnitDef} {name : String} :
    v.Answers (none, name) ↔ s.unitName v = qualifiedName s.normalizedName .service name ∨
      s.unitName v = qualifiedName s.normalizedName .project name := by
  simp only [UnitDef.Answers, unitName, qualifiedName_inj]
  cases v.kind <;> simp

/-- A dependency is resolved to the unit that it names, if these are of one kind only. -/
theorem resolveDep_eq_ok_iff {fqn source : String} {dep : Option UnitKind × String} :
    s.unconnected.resolveDep fqn dep = .ok source ↔
      (∃ v ∈ s.units, v.Answers dep) ∧ ∀ v ∈ s.units, v.Answers dep → s.unitName v = source := by
  obtain ⟨kind, name⟩ := dep
  have hstack : s.unconnected.stackName = s.normalizedName := rfl
  cases kind with
  | some kind =>
    simp only [resolveDep, hstack, answers_some_iff (s := s), ← has_iff]
    by_cases h : s.unconnected.has (qualifiedName s.normalizedName kind name) = true
    · obtain ⟨u, hu, hname⟩ := has_iff.mp h
      simp only [h, if_true, Except.ok.injEq, true_and]
      refine ⟨fun heq v _ hv => hv.trans heq, fun hall => ?_⟩
      rw [← hname]
      exact hall u hu hname
    · simp [h]
  | none =>
    have hexists : (∃ v ∈ s.units, v.Answers (none, name)) ↔
        s.unconnected.has (qualifiedName s.normalizedName .service name) = true ∨
          s.unconnected.has (qualifiedName s.normalizedName .project name) = true := by
      simp only [answers_none_iff (s := s), has_iff]
      grind
    simp only [resolveDep, hstack, UnitKind.all, List.map_cons, List.map_nil, hexists]
    simp only [answers_none_iff (s := s)]
    have hdiffer : qualifiedName s.normalizedName .service name ≠
        qualifiedName s.normalizedName .project name := by simp [qualifiedName_inj]
    have hhas (kind : UnitKind) : s.unconnected.has (qualifiedName s.normalizedName kind name) = true ↔
        ∃ u ∈ s.units, s.unitName u = qualifiedName s.normalizedName kind name := has_iff
    have hservice := hhas .service
    have hproject := hhas .project
    cases hs : s.unconnected.has (qualifiedName s.normalizedName .service name) <;>
      cases hp : s.unconnected.has (qualifiedName s.normalizedName .project name) <;>
      simp only [List.filter_cons, List.filter_nil, hs, hp] at hservice hproject ⊢ <;>
      grind

/-- A dependency can be resolved if it names units, and units of one kind only. -/
theorem exists_resolveDep_iff {fqn : String} {dep : Option UnitKind × String} :
    (∃ source, s.unconnected.resolveDep fqn dep = .ok source) ↔
      (∃ v ∈ s.units, v.Answers dep) ∧
        ∀ v ∈ s.units, ∀ w ∈ s.units, v.Answers dep → w.Answers dep → v.kind = w.kind := by
  simp only [resolveDep_eq_ok_iff]
  constructor
  · rintro ⟨source, hexists, hall⟩
    refine ⟨hexists, fun v hv w hw hva hwa => ?_⟩
    have heq := (hall v hv hva).trans (hall w hw hwa).symm
    exact (qualifiedName_inj.mp heq).1
  · rintro ⟨⟨v, hv, hva⟩, hall⟩
    refine ⟨s.unitName v, ⟨v, hv, hva⟩, fun w hw hwa => ?_⟩
    rw [unitName, unitName, hall w hw v hv hwa hva, hwa.1, hva.1]

/-- The nodes of a stack can be connected if what its units name and refer to is there. -/
theorem connectable_iff :
    (∀ n ∈ s.unconnected.nodes, s.unconnected.Connectable n) ↔
      (∀ u ∈ s.units, ∀ dep ∈ u.deps.explicit, ∃ v ∈ s.units, v.Answers dep) ∧
      (∀ u ∈ s.units, ∀ r, Value.Mentions r u.document →
        ∃ v ∈ s.units, r.kind = v.kind ∧ r.unit = v.name) ∧
      (∀ u ∈ s.units, ∀ name, (none, name) ∈ u.deps.explicit →
        ∀ v ∈ s.units, ∀ w ∈ s.units, v.name = name → w.name = name → v.kind = w.kind) := by
  have htarget (r : Reference) : s.unconnected.has (r.target s.unconnected.stackName) = true ↔
      ∃ v ∈ s.units, r.kind = v.kind ∧ r.unit = v.name := by
    rw [Reference.target, show s.unconnected.stackName = s.normalizedName from rfl,
      has_qualifiedName_iff]
    simp only [eq_comm]
  constructor
  · intro h
    refine ⟨fun u hu dep hdep => ?_, fun u hu r hr => ?_, fun u hu name hdep v hv w hw hvn hwn => ?_⟩
    · obtain ⟨n, hn, rfl, -⟩ := exists_node hu
      exact (exists_resolveDep_iff.mp ((h n hn).1 dep hdep)).1
    · obtain ⟨n, hn, rfl, -⟩ := exists_node hu
      obtain ⟨e, he, rfl⟩ := UnitDef.mentions_document.mp hr
      exact (htarget e.2).mp ((h n hn).2 e he)
    · obtain ⟨n, hn, rfl, -⟩ := exists_node hu
      exact (exists_resolveDep_iff.mp ((h n hn).1 _ hdep)).2 v hv w hw ⟨hvn, by simp⟩ ⟨hwn, by simp⟩
  · rintro ⟨hdeps, hrefs, hone⟩ n hn
    obtain ⟨hu, -⟩ := mem_nodes hn
    refine ⟨fun dep hdep => exists_resolveDep_iff.mpr ⟨hdeps n.unit hu dep hdep, ?_⟩, fun r hr => ?_⟩
    · intro v hv w hw hva hwa
      obtain ⟨kind, name⟩ := dep
      cases kind with
      | none => exact hone n.unit hu name hdep v hv w hw hva.1 hwa.1
      | some kind => exact (hva.2 kind rfl).trans (hwa.2 kind rfl).symm
    · exact (htarget r.2).mpr (hrefs n.unit hu r.2 (UnitDef.mentions_document.mpr ⟨r, hr, rfl⟩))

/-! ### The edges of the graph -/

/-- A node asks for an edge from each unit that it names or refers to. -/
theorem asks_iff {n : Node} (hn : s.unconnected.Connectable n) {source : String} :
    s.unconnected.Asks n source ↔
      ∃ v ∈ s.units, s.unitName v = source ∧ (n.unit.DependsOn v ∨ n.unit.RefersTo v) := by
  constructor
  · rintro (⟨dep, hdep, hsource⟩ | ⟨r, hr, rfl⟩)
    · obtain ⟨⟨v, hv, hva⟩, hall⟩ := resolveDep_eq_ok_iff.mp hsource
      exact ⟨v, hv, hall v hv hva, Or.inl ⟨dep, hdep, hva⟩⟩
    · obtain ⟨v, hv, hname⟩ := has_iff.mp (hn.2 r hr)
      obtain ⟨hkind, hunit⟩ := qualifiedName_inj.mp hname
      have hmentions := UnitDef.mentions_document.mpr ⟨r, hr, rfl⟩
      exact ⟨v, hv, hname, Or.inr ⟨r.2, hmentions, hkind.symm, hunit.symm⟩⟩
  · rintro ⟨v, hv, rfl, ⟨dep, hdep, hva⟩ | ⟨r, hr, hkind, hunit⟩⟩
    · obtain ⟨source, hsource⟩ := hn.1 dep hdep
      refine Or.inl ⟨dep, hdep, ?_⟩
      rw [hsource, (resolveDep_eq_ok_iff.mp hsource).2 v hv hva]
    · obtain ⟨e, he, rfl⟩ := UnitDef.mentions_document.mp hr
      refine Or.inr ⟨e, he, ?_⟩
      rw [Reference.target, hkind, hunit]
      rfl

/-- Edges run to the units of the stack from those that they need. -/
theorem joins_iff {g : Graph} (h : s.unconnected.connect s.unconnected.nodes = .ok g)
    {source target : String} :
    g.Joins EdgeKind.all source target ↔
      ∃ u v, s.unitName v = source ∧ s.unitName u = target ∧ s.Needs u v := by
  have hconnectable := (exists_connect_iff fun n hn => has_of_mem hn).mp ⟨g, h⟩
  rw [(connects_connect h).joins, joins_all]
  constructor
  · rintro (⟨e, he, -⟩ | ⟨n, hn, rfl, hasks⟩)
    · cases he
    · obtain ⟨hu, hname⟩ := mem_nodes hn
      obtain ⟨v, hv, hsource, hneeds⟩ := (asks_iff (hconnectable n hn)).mp hasks
      exact ⟨n.unit, v, hsource, hname.symm, hu, hv, hneeds⟩
  · rintro ⟨u, v, hsource, rfl, hu, hv, hneeds⟩
    obtain ⟨n, hn, rfl, hname⟩ := exists_node hu
    exact Or.inr ⟨n, hn, hname, (asks_iff (hconnectable n hn)).mpr ⟨v, hv, hsource, hneeds⟩⟩

/-- No two units of a kind share a name: no two units share a qualified name. -/
theorem nodup_unitNames (hn : s.units.Pairwise fun u v => u.kind = v.kind → u.name ≠ v.name) :
    (s.units.map s.unitName).Nodup := by
  refine List.pairwise_map.mpr (hn.imp fun {u v} huv heq => ?_)
  obtain ⟨hkind, hname⟩ := qualifiedName_inj.mp heq
  exact huv hkind hname

/-- A path of edges leads to a unit from one that it needs, directly or through others. -/
theorem needs_of_reaches {g : Graph} (h : s.unconnected.connect s.unconnected.nodes = .ok g)
    (hn : (s.units.map s.unitName).Nodup) {source target : String}
    (hpath : g.Reaches EdgeKind.all source target) :
    ∃ u ∈ s.units, ∃ v ∈ s.units, s.unitName v = source ∧ s.unitName u = target ∧
      Relation.TransGen s.Needs u v := by
  induction hpath with
  | single hedge =>
    obtain ⟨u, v, hv, hu, hneeds⟩ := (joins_iff h).mp hedge
    exact ⟨u, hneeds.1, v, hneeds.2.1, hv, hu, .single hneeds⟩
  | tail _ hedge ih =>
    obtain ⟨u, hu, v, hv, hsource, hmiddle, hpath⟩ := ih
    obtain ⟨u', v', hmiddle', htarget, hneeds⟩ := (joins_iff h).mp hedge
    have hsame : v' = u :=
      List.inj_on_of_nodup_map hn hneeds.2.1 hu (hmiddle'.trans hmiddle.symm)
    subst hsame
    exact ⟨u', hneeds.1, v, hv, hsource, htarget, .head hneeds hpath⟩

/-- A path of edges leads to a unit from each one that it needs. -/
theorem reaches_of_needs {g : Graph} (h : s.unconnected.connect s.unconnected.nodes = .ok g)
    {u v : UnitDef} (hpath : Relation.TransGen s.Needs u v) :
    g.Reaches EdgeKind.all (s.unitName v) (s.unitName u) := by
  have hedge {u v : UnitDef} (hneeds : s.Needs u v) :
      g.Joins EdgeKind.all (s.unitName v) (s.unitName u) :=
    (joins_iff h).mpr ⟨u, v, rfl, rfl, hneeds⟩
  induction hpath with
  | single hneeds => exact .single (hedge hneeds)
  | tail _ hneeds ih => exact .head (hedge hneeds) ih

/-- The graph has no cycle exactly if no unit needs itself. -/
theorem acyclic_iff {g : Graph} (h : s.unconnected.connect s.unconnected.nodes = .ok g)
    (hn : (s.units.map s.unitName).Nodup) :
    g.Acyclic ↔ ∀ u, ¬Relation.TransGen s.Needs u u := by
  constructor
  · intro hacyclic u hpath
    exact hacyclic (s.unitName u) (reaches_of_needs h hpath)
  · intro hacyclic name hpath
    obtain ⟨u, hu, v, hv, hsource, htarget, hneeds⟩ := needs_of_reaches h hn hpath
    obtain rfl := List.inj_on_of_nodup_map hn hu hv (htarget.trans hsource.symm)
    exact hacyclic u hneeds

end Stack

namespace Graph

variable {s : Stack} {g : Graph}

/-- The steps in which a graph is made. -/
theorem ofStack_eq_ok_iff :
    ofStack s = .ok g ↔
      (∀ u ∈ s.units, u.Fits) ∧
      (s.units.Pairwise fun u v => u.kind = v.kind → u.name ≠ v.name) ∧
      s.unconnected.connect s.unconnected.nodes = .ok g ∧ g.findCycle = none := by
  unfold ofStack
  constructor
  · intro h
    split at h
    · cases h
    rename_i g₁ hunits
    obtain ⟨hfits, hnames, rfl⟩ := Stack.addUnits_iff.mp hunits
    split at h
    · cases h
    rename_i g₂ hconnect
    split at h
    · cases h
    rename_i hcycle
    rw [← Except.ok.inj h]
    exact ⟨hfits, hnames, hconnect, hcycle⟩
  · rintro ⟨hfits, hnames, hconnect, hcycle⟩
    rw [Stack.addUnits_iff.mpr ⟨hfits, hnames, rfl⟩]
    dsimp only
    rw [hconnect]
    dsimp only
    rw [hcycle]

/-- **A stack has a graph** exactly if it is accepted. -/
theorem exists_ofStack_iff : (∃ g, ofStack s = .ok g) ↔ s.Accepted := by
  have hknown {g : Graph} (h : s.unconnected.connect s.unconnected.nodes = .ok g) :
      g.EndsKnown := (grows_connect h).1.ends fun e he => (List.not_mem_nil he).elim
  have hconnect := exists_connect_iff (g := s.unconnected) fun n hn => has_of_mem hn
  constructor
  · rintro ⟨g, h⟩
    obtain ⟨hfits, hnames, hg, hcycle⟩ := ofStack_eq_ok_iff.mp h
    obtain ⟨hdeps, hrefs, hone⟩ := Stack.connectable_iff.mp (hconnect.mp ⟨g, hg⟩)
    have hacyclic := (findCycle_eq_none_iff (hknown hg)).mp hcycle
    exact ⟨hfits, hnames, hdeps, hrefs, hone,
      (Stack.acyclic_iff hg (Stack.nodup_unitNames hnames)).mp hacyclic⟩
  · intro h
    obtain ⟨g, hg⟩ :=
      hconnect.mpr (Stack.connectable_iff.mpr ⟨h.dependencies, h.references, h.plain⟩)
    have hacyclic := (Stack.acyclic_iff hg (Stack.nodup_unitNames h.names)).mpr h.acyclic
    exact ⟨g, ofStack_eq_ok_iff.mpr
      ⟨h.fits, h.names, hg, (findCycle_eq_none_iff (hknown hg)).mpr hacyclic⟩⟩

/-! ### What the graph consists of -/

/-- The references of a unit are the texts in its inputs and values that are references. -/
theorem mem_unitReferences {u : UnitDef} {path : Path} {r : Reference} :
    (path, r) ∈ unitReferences u ↔
      ∃ text, u.document.TextAt path text ∧ Reference.parse? text = some r := by
  rw [← UnitDef.references_document, Value.mem_references]
  constructor
  · rintro ⟨q, text, rfl, htext, hparse⟩
    exact ⟨text, htext, hparse⟩
  · rintro ⟨text, htext, hparse⟩
    exact ⟨path, text, rfl, htext, hparse⟩

/-- The references of a unit are listed in document order, inputs before values. -/
theorem unitReferences_ordered (u : UnitDef) :
    (unitReferences u).Pairwise fun a b => u.document.Before a.1 b.1 := by
  rw [← UnitDef.references_document, Value.references, List.pairwise_filterMap]
  refine (Value.leaves_ordered u.document []).imp fun {a b} hab x hx y hy => ?_
  obtain ⟨p, q, hp, hq, hpq⟩ := hab
  obtain ⟨r, -, rfl⟩ := Option.map_eq_some_iff.mp hx
  obtain ⟨r', -, rfl⟩ := Option.map_eq_some_iff.mp hy
  simpa [hp, hq] using hpq

/-- A unit refers to another one as in the graph. -/
theorem refersTo_iff (h : ofStack s = .ok g) {a b : UnitDef} (hb : b ∈ s.units) :
    b.RefersTo a ↔ g.DeployEdge (s.unitName a) (s.unitName b) := by
  obtain ⟨-, hnames, hconnect, -⟩ := ofStack_eq_ok_iff.mp h
  have hnodes : g.nodes = s.unconnected.nodes := (grows_connect hconnect).1.nodes
  have hstack := stackName_ofStack h
  rw [deployEdge_iff h]
  constructor
  · rintro ⟨r, hr, hkind, hunit⟩
    obtain ⟨n, hn, rfl, hname⟩ := Stack.exists_node hb
    obtain ⟨e, he, rfl⟩ := UnitDef.mentions_document.mp hr
    rw [← hnodes] at hn
    refine ⟨n, ?_, e, he, ?_⟩
    · rw [← hname]
      exact node?_of_mem (built_ofStack h).names hn
    · rw [Reference.target, hkind, hunit, hstack]
      rfl
  · rintro ⟨n, hn, e, he, htarget⟩
    obtain ⟨hmem, hname⟩ := mem_of_node? hn
    rw [hnodes] at hmem
    obtain ⟨hu, hfqn⟩ := Stack.mem_nodes hmem
    obtain rfl := List.inj_on_of_nodup_map (Stack.nodup_unitNames hnames) hu hb
      (hfqn.symm.trans hname)
    rw [hstack] at htarget
    obtain ⟨hkind, hunit⟩ := qualifiedName_inj.mp htarget
    exact ⟨e.2, UnitDef.mentions_document.mpr ⟨e, he, rfl⟩, hkind, hunit⟩

/-- An edge is of the kind `deploy` exactly if the dependent refers to the other unit. -/
theorem kind_of_mem (h : ofStack s = .ok g) {e : Edge} (he : e ∈ g.edges) {a b : UnitDef}
    (hb : b ∈ s.units) (hsource : s.unitName a = e.source) (htarget : s.unitName b = e.target) :
    (e.kind = .deploy ∧ b.RefersTo a) ∨ (e.kind = .artifact ∧ ¬b.RefersTo a) := by
  rw [refersTo_iff h hb]
  cases hkind : e.kind with
  | deploy => exact Or.inl ⟨rfl, e, he, hsource.symm, htarget.symm, hkind⟩
  | artifact =>
    refine Or.inr ⟨rfl, ?_⟩
    rintro ⟨e', he', hsource', htarget', hkind'⟩
    have hsame : e' = e := List.inj_on_of_nodup_map (simple_ofStack h) he' he
      (Prod.ext (hsource'.trans hsource) (htarget'.trans htarget))
    rw [hsame, hkind] at hkind'
    cases hkind'

/-- The sites of a node come before those of later nodes, and among each other in document order. -/
theorem sites_ordered (s : Stack) :
    (s.unconnected.nodes.flatMap nodeSites).Pairwise s.SiteBefore := by
  rw [Stack.nodes_unconnected, List.pairwise_flatMap]
  constructor
  · intro n hn
    obtain ⟨i, hi, rfl⟩ := List.mem_mapIdx.mp hn
    refine List.pairwise_map.mpr ((unitReferences_ordered _).imp fun {a b} hab => ?_)
    exact ⟨i, i, s.units[i], s.units[i], List.getElem?_eq_getElem hi, List.getElem?_eq_getElem hi,
      rfl, rfl, Or.inr ⟨rfl, hab⟩⟩
  · refine List.pairwise_iff_getElem.mpr fun i j hi hj hij a ha b hb => ?_
    rw [List.length_mapIdx] at hi hj
    rw [List.getElem_mapIdx] at ha hb
    obtain ⟨r, -, rfl⟩ := List.mem_map.mp ha
    obtain ⟨r', -, rfl⟩ := List.mem_map.mp hb
    exact ⟨i, j, s.units[i], s.units[j], List.getElem?_eq_getElem hi, List.getElem?_eq_getElem hj,
      rfl, rfl, Or.inl hij⟩

/-- No site comes before itself. -/
theorem ne_of_siteBefore (hn : (s.units.map s.unitName).Nodup) (hs : s.Parsed) {a b : Site}
    (h : s.SiteBefore a b) : a ≠ b := by
  rintro rfl
  obtain ⟨i, j, u, v, hi, hj, hu, hv, hbefore⟩ := h
  rcases hbefore with hlt | ⟨-, hbefore⟩
  · have hsame : (s.units.map s.unitName)[i]? = (s.units.map s.unitName)[j]? := by
      rw [List.getElem?_map, List.getElem?_map, hi, hj, Option.map_some, Option.map_some, ← hu, hv]
    have hlength : j < (s.units.map s.unitName).length := by
      rw [List.length_map]
      exact (List.getElem?_eq_some_iff.mp hj).1
    exact List.nodup_iff_getElem?_ne_getElem?.mp hn i j hlt hlength hsame
  · exact hbefore.ne (hs.unambiguous u (List.mem_of_getElem? hi)) rfl

/-- **The graph of a stack** consists of what the stack says. -/
theorem depicts_ofStack (h : ofStack s = .ok g) : g.Depicts s := by
  obtain ⟨-, hnames, hconnect, -⟩ := ofStack_eq_ok_iff.mp h
  have hunits := Stack.nodup_unitNames hnames
  have hnodes : g.nodes = s.unconnected.nodes := (grows_connect hconnect).1.nodes
  have hsites : g.sites = s.unconnected.nodes.flatMap nodeSites := by
    rw [(built_ofStack h).sites, hnodes]
  have hordered : g.sites.Pairwise s.SiteBefore := hsites ▸ sites_ordered s
  refine
    { nodes := hnodes.trans (Stack.nodes_unconnected s)
      edges := fun source target => ?_
      simple := simple_ofStack h
      kinds := fun e he a _ b hb hsource htarget => kind_of_mem h he hb hsource htarget
      sites := fun site => ?_
      ordered := hordered
      once := fun hs => hordered.imp fun hab => ne_of_siteBefore hunits hs hab }
  · rw [← joins_all, Stack.joins_iff hconnect]
    constructor
    · rintro ⟨u, v, hv, hu, hmu, hmv, hneeds⟩
      exact ⟨v, hmv, u, hmu, hv, hu, hneeds⟩
    · rintro ⟨v, hmv, u, hmu, hv, hu, hneeds⟩
      exact ⟨u, v, hv, hu, hmu, hmv, hneeds⟩
  · rw [hsites, List.mem_flatMap]
    constructor
    · rintro ⟨n, hn, hsite⟩
      obtain ⟨hu, hname⟩ := Stack.mem_nodes hn
      obtain ⟨r, hr, rfl⟩ := List.mem_map.mp hsite
      exact ⟨n.unit, hu, hname, mem_unitReferences.mp hr⟩
    · rintro ⟨u, hu, hname, htext⟩
      obtain ⟨n, hn, rfl, hfqn⟩ := Stack.exists_node hu
      refine ⟨n, hn, List.mem_map.mpr ⟨_, mem_unitReferences.mpr htext, ?_⟩⟩
      rw [hfqn, ← hname]

/-- **The graph of a stack.** A stack has a graph exactly if it is accepted; and the graph then
consists of the units of the stack, what they name, and what they refer to. -/
theorem ofStack_spec (s : Stack) :
    ((∃ g, ofStack s = .ok g) ↔ s.Accepted) ∧ ∀ g, ofStack s = .ok g → g.Depicts s :=
  ⟨exists_ofStack_iff, fun _ h => depicts_ofStack h⟩

end Graph

end Rollout
