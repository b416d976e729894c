import Rollout.Graph.OfStack
import Rollout.Proofs.Graph.Built
import Rollout.Proofs.Reference.Path
import Rollout.Reference.Resolver

/-!
# Resolving the references of a unit

The configuration of a unit is resolved as soon as the units that it refers to have recorded outputs
whose names are texts: either all its references are replaced by outputs, which never fails, or an
output is missing. What is resolved is the configuration with all references replaced at once.

**Types.** `Entries.Named`, `UnitDef.IsJson`, `Resolver.Provided`, `Resolver.Misses`,
`Resolver.IsResolved`.

**Operations.** `UnitDef.document`, `Resolver.output`.

**Results.**
* `Resolver.resolve_cases`: a unit is resolved to its configuration with all references replaced, or
  an output is not found;
* `Resolver.resolve_of_provided`: a unit is resolved, or an output is missing;
* `Resolver.resolve_spec`: for JSON data, what is resolved has text keys.
-/

namespace Rollout

/-- The names of the entries are texts. -/
def Entries.Named (entries : Entries) : Prop := ∀ e ∈ entries, ∃ s, e.1 = Key.text s

theorem Value.Keyed.named {entries : Entries} (h : (Value.map entries).Keyed) : entries.Named :=
  fun e he => (Value.keyed_map.mp h e he).1

/-- The configuration of the unit is a JSON document. -/
def UnitDef.IsJson (u : UnitDef) : Prop := u.snapshot.IsJson

namespace UnitDef

variable {u : UnitDef}

/-- The inputs and values of a unit, as references are looked for in them. -/
def document (u : UnitDef) : Value :=
  .object [("inputs", .object u.inputs), ("values", .object u.values)]

theorem references_document (u : UnitDef) :
    u.document.references [] = Graph.unitReferences u := by
  simp only [document, Value.object, List.map_cons, List.map_nil, Value.references, Value.leaves,
    Value.entryLeaves, List.nil_append, List.append_nil, List.filterMap_append]
  rfl

/-- The inputs and values of a unit have the properties of its configuration. -/
theorem hereditary_document {P : Value → Prop} {K : List Key → Prop} (h : Value.Hereditary P K)
    (hu : P u.snapshot) : P u.document := by
  rw [snapshot, h.object] at hu
  rw [document, h.object]
  refine List.forall_mem_cons.mpr ⟨hu ("inputs", .object u.inputs) (by simp [configWith]), ?_⟩
  exact List.forall_mem_singleton.mpr (hu ("values", .object u.values) (by simp [configWith]))

theorem IsJson.inputs (h : u.IsJson) : (Value.object u.inputs).IsJson := by
  have hmem : ((.text "inputs", .object u.inputs) : Key × Value) ∈
      (u.configWith (.object u.inputs) (.object u.values)).map fun e => (Key.text e.1, e.2) := by
    simp [configWith]
  exact ⟨(Value.isPlain_map.mp h.plain _ hmem).2, (Value.distinct_map.mp h.distinct).2 _ hmem⟩

theorem IsJson.values (h : u.IsJson) : (Value.object u.values).IsJson := by
  have hmem : ((.text "values", .object u.values) : Key × Value) ∈
      (u.configWith (.object u.inputs) (.object u.values)).map fun e => (Key.text e.1, e.2) := by
    simp [configWith]
  exact ⟨(Value.isPlain_map.mp h.plain _ hmem).2, (Value.distinct_map.mp h.distinct).2 _ hmem⟩

/-- The configuration of a unit names no entry twice if its inputs and its values do not. -/
theorem unambiguous_document (hi : (Value.object u.inputs).Unambiguous)
    (hv : (Value.object u.values).Unambiguous) : u.document.Unambiguous := by
  refine Value.unambiguous_map.mpr ⟨?_, ?_⟩
  · simp [Key.same_text]
  · intro e he
    simp only [List.map_cons, List.map_nil, List.mem_cons, List.not_mem_nil, or_false] at he
    rcases he with rfl | rfl
    · exact hi
    · exact hv

theorem IsJson.unambiguous (h : u.IsJson) : u.document.Unambiguous :=
  unambiguous_document (h.inputs.distinct.unambiguous h.inputs.plain.keyed)
    (h.values.distinct.unambiguous h.values.plain.keyed)

/-- The paths to references lead into the inputs or into the values. -/
theorem path_ne_nil {r : Path × Reference} (hr : r ∈ Graph.unitReferences u) : r.1 ≠ [] := by
  have hpart {v : Value} {path : Path} (hm : r ∈ v.references path) :
      ∃ q, r.1 = path ++ q := by
    obtain ⟨⟨p, s⟩, hleaf, hparse⟩ := List.mem_filterMap.mp hm
    obtain ⟨reference, -, rfl⟩ := Option.map_eq_some_iff.mp hparse
    exact Value.prefix_of_leaf hleaf
  rcases List.mem_append.mp hr with hm | hm
  · obtain ⟨q, hq⟩ := hpart hm
    simp [hq]
  · obtain ⟨q, hq⟩ := hpart hm
    simp [hq]

end UnitDef

/-! ### Outputs -/

/-- Text keys can be listed in their order. -/
theorem exists_sortedKeys {outputs : Entries} (h : outputs.Named) :
    ∃ keys, sortedKeys outputs = .ok keys ∧ ∀ k ∈ keys, ∃ s, k = .text s := by
  refine ⟨_, by rw [sortedKeys, Json.sortEntries_text h]; rfl, ?_⟩
  intro k hk
  obtain ⟨e, he, rfl⟩ := List.mem_map.mp hk
  exact h e (Sorting.mem_sort.mp he)

/-- Outputs with text keys have names. -/
theorem exists_outputNames {outputs : Entries} (h : outputs.Named) :
    ∃ names, outputNames outputs = .ok names := by
  have htexts (keys : List Key) (hkeys : ∀ k ∈ keys, ∃ s, k = .text s) (position : Nat) :
      ∃ names, keyTexts position keys = .ok names := by
    induction keys generalizing position with
    | nil => exact ⟨[], rfl⟩
    | cons k rest ih =>
      obtain ⟨s, rfl⟩ := hkeys k List.mem_cons_self
      obtain ⟨names, hn⟩ := ih (fun k hk => hkeys k (List.mem_cons_of_mem _ hk)) (position + 1)
      exact ⟨s :: names, by rw [keyTexts, hn]; rfl⟩
  obtain ⟨keys, hk, hkeys⟩ := exists_sortedKeys h
  obtain ⟨names, hn⟩ := htexts keys hkeys 0
  exact ⟨names, by rw [outputNames, hk]; exact hn⟩

namespace Resolver

variable {r : Resolver} {stack : Stack} {fqn : String} {n : Node}

/-- The output that a reference refers to, if there is one. -/
def output? (r : Resolver) (reference : Reference) : Option Value :=
  (r.outputs? (reference.target r.graph.stackName)).bind (Entries.get? reference.field)

/-- The output that a reference refers to. -/
def output (r : Resolver) (reference : Reference) : Value := (r.output? reference).getD .null

/-- The unit that a site refers to has recorded outputs whose names are texts. -/
def Provided (r : Resolver) (site : Site) : Prop :=
  ∃ outputs, r.outputs? (site.reference.target r.graph.stackName) = some outputs ∧ outputs.Named

/-- What is looked up is the output that the reference refers to. -/
theorem lookup_eq_ok_iff {site : Site} {v : Value} :
    r.lookup site = .ok v ↔ r.output? site.reference = some v := by
  simp only [lookup, output?]
  cases r.outputs? (site.reference.target r.graph.stackName) with
  | none => simp
  | some outputs =>
    simp only [Option.bind_some]
    cases Entries.get? site.reference.field outputs with
    | some w => simp
    | none =>
      cases outputNames outputs <;> simp

/-- An output of a unit whose outputs have names is missing if it is not found. -/
theorem missing_of_lookup {site : Site} (h : r.Provided site) {fault : ResolveFault}
    (hfault : r.lookup site = .error fault) :
    ∃ target available, fault = .missingOutput site target available := by
  obtain ⟨outputs, ho, hk⟩ := h
  obtain ⟨names, hn⟩ := exists_outputNames hk
  simp only [lookup, ho, hn] at hfault
  cases hget : Entries.get? site.reference.field outputs with
  | some v =>
    rw [hget] at hfault
    cases hfault
  | none =>
    rw [hget, Except.error.injEq] at hfault
    exact ⟨_, names, hfault.symm⟩

/-- The document with the outputs written that its sites refer to. -/
def written (r : Resolver) (doc : Value) (sites : List Site) : Except Value.PathFault Value :=
  sites.foldlM (fun doc site => doc.put site.path (r.output site.reference)) doc

/-- For the sites of a list outputs are found until one is not, for the reason that is given. -/
def Misses (r : Resolver) (sites : List Site) (fault : ResolveFault) : Prop :=
  ∃ before site after, sites = before ++ site :: after ∧
    (∀ a ∈ before, ∃ v, r.output? a.reference = some v) ∧ r.lookup site = .error fault

/-- What is missing is missing at one of the sites. -/
theorem Misses.exists_site {sites : List Site} {fault : ResolveFault} (h : r.Misses sites fault) :
    ∃ site ∈ sites, r.lookup site = .error fault := by
  obtain ⟨before, site, after, rfl, -, hlookup⟩ := h
  exact ⟨site, by simp, hlookup⟩

/-- Sites are filled by writing outputs, one after the other, until one is not found. -/
theorem fill_cases {doc last : Value} (done : Table String Value) {sites : List Site}
    (hpaths : ∀ a ∈ sites, a.path ≠ []) (hwritten : r.written doc sites = .ok last) :
    (∃ done', r.fill doc done sites = .ok (last, done') ∧
        ∀ a ∈ sites, ∃ v, r.output? a.reference = some v) ∨
      ∃ fault, r.Misses sites fault ∧ r.fill doc done sites = .error fault := by
  induction sites generalizing doc done with
  | nil =>
    obtain rfl := Except.ok.inj hwritten
    exact Or.inl ⟨done, rfl, by simp⟩
  | cons site rest ih =>
    rw [fill]
    cases hv : r.lookup site with
    | error fault => exact Or.inr ⟨fault, ⟨[], site, rest, rfl, by simp, hv⟩, rfl⟩
    | ok v =>
      have hsome := lookup_eq_ok_iff.mp hv
      have houtput : r.output site.reference = v := by rw [output, hsome]; rfl
      rw [written, List.foldlM_cons, Value.put_of_ne (hpaths site List.mem_cons_self),
        houtput] at hwritten
      cases hset : doc.setAt site.path v with
      | error fault =>
        rw [hset] at hwritten
        cases hwritten
      | ok changed =>
        rw [hset] at hwritten
        rcases ih (Table.set (Path.pointer site.path) v done)
          (fun a ha => hpaths a (List.mem_cons_of_mem _ ha)) hwritten with
          ⟨done', hfill, hall⟩ | ⟨fault, ⟨before, a, after, rfl, hbefore, ha⟩, hfill⟩
        · exact Or.inl ⟨done', by simp only [hset, hfill],
            List.forall_mem_cons.mpr ⟨⟨v, hsome⟩, hall⟩⟩
        · exact Or.inr ⟨fault, ⟨site :: before, a, after, rfl,
            List.forall_mem_cons.mpr ⟨⟨v, hsome⟩, hbefore⟩, ha⟩, by simp only [hset, hfill]⟩

/-- The sites of a unit of a built graph are its references, in order. -/
theorem sitesOf_eq (hg : r.graph.Built stack) (hn : r.graph.node? fqn = some n) :
    r.sitesOf fqn = (Graph.unitReferences n.unit).map fun e => ⟨fqn, e.1, e.2⟩ := by
  obtain ⟨hmem, rfl⟩ := Graph.mem_of_node? hn
  have hothers (nodes : List Node) (hnot : n.fqn ∉ nodes.map Node.fqn) :
      (nodes.flatMap Graph.nodeSites).filter (fun s => s.unit == n.fqn) = [] := by
    rw [List.filter_eq_nil_iff]
    intro site hsite
    obtain ⟨m, hm, hs⟩ := List.mem_flatMap.mp hsite
    obtain ⟨e, -, rfl⟩ := List.mem_map.mp hs
    have hne : m.fqn ≠ n.fqn := fun heq => hnot (heq ▸ List.mem_map_of_mem hm)
    simpa using hne
  have hown : (Graph.nodeSites n).filter (fun s => s.unit == n.fqn) = Graph.nodeSites n := by
    rw [List.filter_eq_self]
    intro site hs
    obtain ⟨e, -, rfl⟩ := List.mem_map.mp hs
    simp
  obtain ⟨before, after, hsplit⟩ := List.append_of_mem hmem
  have hnames := hg.names
  rw [hsplit, List.map_append, List.map_cons, List.nodup_append] at hnames
  obtain ⟨-, hafter, hdisjoint⟩ := hnames
  rw [sitesOf, hg.sites, hsplit, List.flatMap_append, List.flatMap_cons, List.filter_append,
    List.filter_append, hothers before, hothers after, hown, List.nil_append, List.append_nil]
  · rfl
  · exact (List.nodup_cons.mp hafter).1
  · exact fun hm => hdisjoint _ hm _ List.mem_cons_self rfl

/-- All references of a unit are written into its configuration. -/
theorem written_sitesOf (hg : r.graph.Built stack) (hn : r.graph.node? fqn = some n)
    (hu : n.unit.document.Unambiguous) :
    r.written (n.unit.document.mapLeaves Value.unescape) (r.sitesOf fqn) =
      .ok (n.unit.document.mapLeaves (Value.replace r.output)) := by
  rw [written, sitesOf_eq hg hn, List.foldlM_map, ← UnitDef.references_document]
  exact Value.put_references hu r.output

/-- The configuration of a unit with every reference replaced. -/
structure IsResolved (r : Resolver) (u : UnitDef) (resolved : Resolved) : Prop where
  inputs : resolved.inputs = (Value.object u.inputs).mapLeaves (Value.replace r.output)
  values : resolved.values = (Value.object u.values).mapLeaves (Value.replace r.output)

/-- What is resolved is the document of the unit with every reference replaced. -/
theorem IsResolved.toValue {u : UnitDef} {resolved : Resolved} (h : r.IsResolved u resolved) :
    resolved.toValue = u.document.mapLeaves (Value.replace r.output) := by
  rw [Resolved.toValue, h.inputs, h.values]
  rfl

/-- **The configuration of a unit** is resolved by replacing all its references at once, unless an
output is not found; the first one that is not found is reported. -/
theorem resolve_cases (hg : r.graph.Built stack) (hn : r.graph.node? fqn = some n)
    (hu : n.unit.document.Unambiguous) :
    (∃ resolved, r.resolve fqn = .ok resolved ∧ r.IsResolved n.unit resolved ∧
        ∀ site ∈ r.sitesOf fqn, ∃ v, r.output? site.reference = some v) ∨
      ∃ fault, r.Misses (r.sitesOf fqn) fault ∧ r.resolve fqn = .error fault := by
  have hstart : (.object [("inputs", (Value.object n.unit.inputs).mapLeaves Value.unescape),
      ("values", (Value.object n.unit.values).mapLeaves Value.unescape)] : Value) =
      n.unit.document.mapLeaves Value.unescape := rfl
  have hpaths : ∀ a ∈ r.sitesOf fqn, a.path ≠ [] := by
    intro a ha
    rw [sitesOf_eq hg hn] at ha
    obtain ⟨e, he, rfl⟩ := List.mem_map.mp ha
    exact UnitDef.path_ne_nil he
  rcases fill_cases [] hpaths (written_sitesOf hg hn hu) with
    ⟨done, hfill, hall⟩ | ⟨fault, hmisses, hfill⟩
  · exact Or.inl ⟨_, by simp only [resolve, hn, hstart, hfill]; rfl, ⟨rfl, rfl⟩, hall⟩
  · exact Or.inr ⟨fault, hmisses, by simp only [resolve, hn, hstart, hfill]⟩

/-- A unit is resolved once all units that it refers to have recorded outputs whose names are texts,
unless one of these misses the field. -/
theorem resolve_of_provided (hg : r.graph.Built stack) (hn : r.graph.node? fqn = some n)
    (hu : n.unit.document.Unambiguous) (hprovided : ∀ site ∈ r.sitesOf fqn, r.Provided site) :
    (∃ resolved, r.resolve fqn = .ok resolved) ∨
      ∃ site target available, r.resolve fqn = .error (.missingOutput site target available) := by
  rcases resolve_cases hg hn hu with ⟨resolved, hok, -⟩ | ⟨fault, hmisses, herror⟩
  · exact Or.inl ⟨resolved, hok⟩
  · obtain ⟨site, hsite, hfault⟩ := hmisses.exists_site
    obtain ⟨target, available, rfl⟩ := missing_of_lookup (hprovided site hsite) hfault
    exact Or.inr ⟨site, target, available, herror⟩

/-- Outputs that are referred to have the properties of what has been recorded. -/
theorem output_of_recorded {P : Value → Prop} (hnull : P .null)
    (h : ∀ fqn outputs, r.outputs? fqn = some outputs → ∀ e ∈ outputs, P e.2)
    (reference : Reference) : P (r.output reference) := by
  rw [output, output?]
  cases ho : r.outputs? (reference.target r.graph.stackName) with
  | none => exact hnull
  | some outputs =>
    rw [Option.bind_some]
    cases hv : Entries.get? reference.field outputs with
    | none => exact hnull
    | some v =>
      obtain ⟨e, he, rfl⟩ := Entries.exists_mem_of_get? hv
      exact h _ _ ho e he

/-- **The configuration of a unit** of JSON data is resolved to one with text keys, if the recorded
outputs have text keys. -/
theorem resolve_spec (hg : r.graph.Built stack) (hn : r.graph.node? fqn = some n)
    (hu : n.unit.IsJson) (hprovided : ∀ site ∈ r.sitesOf fqn, r.Provided site)
    (hk : ∀ fqn outputs, r.outputs? fqn = some outputs → (Value.map outputs).Keyed) :
    (∃ resolved, r.resolve fqn = .ok resolved ∧ resolved.toValue.Keyed) ∨
      ∃ site target available, r.resolve fqn = .error (.missingOutput site target available) := by
  rcases resolve_cases hg hn hu.unambiguous with ⟨resolved, hok, hresolved, -⟩ |
    ⟨fault, hmisses, herror⟩
  · refine Or.inl ⟨resolved, hok, ?_⟩
    rw [hresolved.toValue]
    exact Value.hereditary_keyed.replaced (output_of_recorded Value.hereditary_keyed.null
        fun fqn outputs ho e he => (Value.keyed_map.mp (hk fqn outputs ho) e he).2)
      (UnitDef.hereditary_document Value.hereditary_keyed hu.plain.keyed)
  · obtain ⟨site, hsite, hfault⟩ := hmisses.exists_site
    obtain ⟨target, available, rfl⟩ := missing_of_lookup (hprovided site hsite) hfault
    exact Or.inr ⟨site, target, available, herror⟩

end Resolver

end Rollout
