import Rollout.Proofs.Graph.Edges
import Rollout.Proofs.Json.Alike
import Rollout.Proofs.Reference.Resolver

/-!
# Units that two graphs have in common

A unit of one graph is kept in another one if that has a unit of the same name, with a configuration
that differs in the order of entries at most. If the graphs belong to stacks of one name, then a kept
unit needs the same deployments in both.

**Types.** `Graph.Kept`, `Graph.Changed`.

**Results.**
* `UnitDef.alike_document`, `UnitDef.namespaceName_of_alike`: the parts of configurations that are
  alike;
* `Graph.Kept.deployEdge_iff`: kept units need the same deployments;
* `Graph.Kept.providers_perm`: the units that a kept unit needs, up to their order;
* `Resolver.resolve_sameText`: units that are alike are resolved to what has the same text.
-/

namespace Rollout

open Rollout.Graph

namespace UnitDef

variable {u u' : UnitDef}

/-- Configurations that are alike have parts that are alike. -/
theorem alike_part (h : u.snapshot.Alike u'.snapshot) (name : String) {v v' : Value}
    (hv : (u.configWith (.object u.inputs) (.object u.values)).find? (·.1 == name) =
      some (name, v))
    (hv' : (u'.configWith (.object u'.inputs) (.object u'.values)).find? (·.1 == name) =
      some (name, v')) : v.Alike v' := by
  have hget (entries : List (String × Value)) {w : Value}
      (hw : entries.find? (·.1 == name) = some (name, w)) :
      Entries.get? (.text name) (entries.map fun e => (Key.text e.1, e.2)) = some w := by
    induction entries with
    | nil => cases hw
    | cons e rest ih =>
      rw [List.find?_cons] at hw
      rw [List.map_cons, Entries.get?, Key.same_text]
      by_cases hname : e.1 = name
      · simp only [hname, beq_self_eq_true, Option.some.injEq] at hw
        simp [hw]
      · have hne : (e.1 == name) = false := by simpa using hname
        simp only [hne] at hw
        rw [if_neg (by simpa using Ne.symm hname)]
        exact ih hw
  have htext : ∀ e ∈ (u.configWith (.object u.inputs) (.object u.values)).map
      fun e => (Key.text e.1, e.2), ∃ s, e.1 = .text s := by
    intro e he
    obtain ⟨x, -, rfl⟩ := List.mem_map.mp he
    exact ⟨x.1, rfl⟩
  obtain ⟨w, hw, halike⟩ := Value.Alike.get? h htext (hget _ hv)
  rw [hget _ hv', Option.some.injEq] at hw
  rwa [hw]

theorem alike_inputs (h : u.snapshot.Alike u'.snapshot) :
    (Value.object u.inputs).Alike (.object u'.inputs) :=
  alike_part h "inputs" rfl rfl

theorem alike_values (h : u.snapshot.Alike u'.snapshot) :
    (Value.object u.values).Alike (.object u'.values) :=
  alike_part h "values" rfl rfl

theorem namespaceName_of_alike (h : u.snapshot.Alike u'.snapshot) :
    u.namespaceName = u'.namespaceName := by
  have hpart : (Value.ofText? u.namespaceName).Alike (.ofText? u'.namespaceName) :=
    alike_part h "namespace" rfl rfl
  have hcanonical (name : Option String) :
      (Value.ofText? name).canonical = .ofText? name := by cases name <;> rfl
  rw [Value.Alike, hcanonical, hcanonical] at hpart
  cases hu : u.namespaceName <;> cases hu' : u'.namespaceName <;>
    simp_all [Value.ofText?]

theorem alike_document (h : u.snapshot.Alike u'.snapshot) : u.document.Alike u'.document :=
  Value.alike_map (.cons ⟨rfl, alike_inputs h⟩ (.cons ⟨rfl, alike_values h⟩ .nil))

/-- A unit refers to what its document mentions. -/
theorem mentions_document {r : Reference} :
    Value.Mentions r u.document ↔ ∃ e ∈ unitReferences u, e.2 = r := by
  rw [← references_document]
  exact Value.mentions_iff

end UnitDef

namespace Graph

variable {g g' : Graph} {fqn : String}

/-- A unit of a graph is a unit of another one, too, with a configuration that is alike. -/
def Kept (g g' : Graph) (fqn : String) : Prop :=
  ∃ n n', g.node? fqn = some n ∧ g'.node? fqn = some n' ∧ n.unit.snapshot.Alike n'.unit.snapshot

theorem Kept.symm (h : g.Kept g' fqn) : g'.Kept g fqn := by
  obtain ⟨n, n', hn, hn', ha⟩ := h
  exact ⟨n', n, hn', hn, ha.symm⟩

/-- A unit refers to the units that the other version of it refers to. -/
theorem Kept.refers (h : g.Kept g' fqn) (hname : g.stackName = g'.stackName) {source : String}
    (hr : g.Refers fqn source) : g'.Refers fqn source := by
  obtain ⟨n, n', hn, hn', ha⟩ := h
  obtain ⟨m, hm, r, hmem, rfl⟩ := hr
  obtain rfl : n = m := Option.some.inj (hn.symm.trans hm)
  have hmentions : Value.Mentions r.2 n'.unit.document := by
    rw [← Value.mentions_canonical, ← UnitDef.alike_document ha, Value.mentions_canonical]
    exact UnitDef.mentions_document.mpr ⟨r, hmem, rfl⟩
  obtain ⟨r', hmem', heq⟩ := UnitDef.mentions_document.mp hmentions
  exact ⟨n', hn', r', hmem', by rw [heq, hname]⟩

/-- **Kept units** need the same deployments. -/
theorem Kept.deployEdge_iff {stack stack' : Stack} (hg : ofStack stack = .ok g)
    (hg' : ofStack stack' = .ok g') (hname : g.stackName = g'.stackName) (h : g.Kept g' fqn)
    {source : String} : g.DeployEdge source fqn ↔ g'.DeployEdge source fqn := by
  rw [Graph.deployEdge_iff hg, Graph.deployEdge_iff hg']
  exact ⟨h.refers hname, h.symm.refers hname.symm⟩

/-- Units of one name are of one kind, which is a part of the name. -/
theorem kind_eq_of_node? {stack stack' : Stack} (hg : ofStack stack = .ok g)
    (hg' : ofStack stack' = .ok g') (hname : g.stackName = g'.stackName) {n n' : Node}
    (hn : g.node? fqn = some n) (hn' : g'.node? fqn = some n') : n.unit.kind = n'.unit.kind := by
  obtain ⟨hmem, hfqn⟩ := mem_of_node? hn
  obtain ⟨hmem', hfqn'⟩ := mem_of_node? hn'
  rw [← hfqn', fqn_of_mem hg hmem, fqn_of_mem hg' hmem', hname] at hfqn
  exact (qualifiedName_inj.mp hfqn).1

/-- A unit of a graph is new compared with another graph, or has another configuration. -/
def Changed (g g' : Graph) (fqn : String) : Prop :=
  ∃ n', g'.node? fqn = some n' ∧ ∀ n, g.node? fqn = some n → ¬n.unit.snapshot.Alike n'.unit.snapshot

theorem changed_iff {n' : Node} (hn' : g'.node? fqn = some n') :
    g.Changed g' fqn ↔ ¬g.Kept g' fqn := by
  constructor
  · rintro ⟨m', hm', hchanged⟩ ⟨n, m, hn, hm, halike⟩
    obtain rfl : m' = m := Option.some.inj (hm'.symm.trans hm)
    exact hchanged n hn halike
  · intro hnot
    exact ⟨n', hn', fun n hn halike => hnot ⟨n, n', hn, hn', halike⟩⟩

/-- The edges over which a unit needs the deployment of others. -/
def providers (g : Graph) (fqn : String) : List Edge :=
  (g.incoming fqn).filter fun e => e.kind = .deploy

theorem mem_providers {source : String} :
    source ∈ (g.providers fqn).map Edge.source ↔ g.DeployEdge source fqn := by
  simp only [providers, incoming, List.mem_map, List.mem_filter, beq_iff_eq, decide_eq_true_eq,
    DeployEdge]
  constructor
  · rintro ⟨e, ⟨⟨he, ht⟩, hk⟩, rfl⟩
    exact ⟨e, he, rfl, ht, hk⟩
  · rintro ⟨e, he, rfl, ht, hk⟩
    exact ⟨e, ⟨⟨he, ht⟩, hk⟩, rfl⟩

theorem nodup_providers (hg : g.Simple) (fqn : String) :
    ((g.providers fqn).map Edge.source).Nodup :=
  (hg.nodup_sources fqn).sublist (List.filter_sublist.map _)

/-- **The units that a kept unit needs** are the same, up to their order. -/
theorem Kept.providers_perm {stack stack' : Stack} (hg : ofStack stack = .ok g)
    (hg' : ofStack stack' = .ok g') (hname : g.stackName = g'.stackName) (h : g.Kept g' fqn) :
    ((g.providers fqn).map Edge.source).Perm ((g'.providers fqn).map Edge.source) := by
  rw [List.perm_ext_iff_of_nodup (nodup_providers (simple_ofStack hg) fqn)
    (nodup_providers (simple_ofStack hg') fqn)]
  intro source
  rw [mem_providers, mem_providers, h.deployEdge_iff hg hg' hname]

end Graph

/-! ### Resolving -/

namespace Resolver

variable {r r' : Resolver} {stack stack' : Stack} {fqn : String} {n n' : Node}

/-- **Units that are alike** are resolved to what has the same text, if all outputs that one refers to
are found for the other one, with the same texts. -/
theorem resolve_sameText (hg : r.graph.Built stack) (hg' : r'.graph.Built stack')
    (hn : r.graph.node? fqn = some n) (hn' : r'.graph.node? fqn = some n')
    (hu : n.unit.document.Unambiguous) (hu' : n'.unit.document.Unambiguous)
    (halike : n.unit.snapshot.Alike n'.unit.snapshot)
    (hfound : ∀ reference, Value.Mentions reference n.unit.document → ∀ v,
      r.output? reference = some v → ∃ w, r'.output? reference = some w ∧ v.SameText w)
    {first : Resolved} (hfirst : r.resolve fqn = .ok first) :
    ∃ second, r'.resolve fqn = .ok second ∧ first.toValue.SameText second.toValue := by
  rcases resolve_cases hg hn hu with ⟨resolved, hok, hresolved, hall⟩ | ⟨fault, -, hfault⟩
  swap
  · rw [hfault] at hfirst
    cases hfirst
  rw [hok] at hfirst
  obtain rfl := Except.ok.inj hfirst
  have hdocument := UnitDef.alike_document halike
  have hmentions (reference : Reference) :
      Value.Mentions reference n.unit.document ↔ Value.Mentions reference n'.unit.document := by
    rw [← Value.mentions_canonical, hdocument, Value.mentions_canonical]
  -- every output that the unit refers to has been found, and is found again
  have hboth : ∀ reference, Value.Mentions reference n.unit.document →
      ∃ v w, r.output? reference = some v ∧ r'.output? reference = some w ∧ v.SameText w := by
    intro reference hm
    obtain ⟨e, hmem, rfl⟩ := UnitDef.mentions_document.mp hm
    obtain ⟨v, hv⟩ := hall ⟨fqn, e.1, e.2⟩ (by
      rw [sitesOf_eq hg hn]
      exact List.mem_map_of_mem (f := fun e : Path × Reference => (⟨fqn, e.1, e.2⟩ : Site)) hmem)
    obtain ⟨w, hw, hvw⟩ := hfound e.2 hm v hv
    exact ⟨v, w, hv, hw, hvw⟩
  rcases resolve_cases hg' hn' hu' with ⟨second, hsecond, hresolved', -⟩ |
    ⟨fault, hmisses, -⟩
  · refine ⟨second, hsecond, ?_⟩
    rw [hresolved.toValue, hresolved'.toValue]
    -- the same outputs are put into the other document, and then the other outputs
    have hsame := (hdocument.replaced fun reference _ =>
      Value.Alike.refl (r.output reference)).sameText
    refine hsame.trans (Value.sameText_replaced fun reference hm => ?_)
    obtain ⟨v, w, hv, hw, hvw⟩ := hboth reference ((hmentions reference).mpr hm)
    rw [output, output, hv, hw]
    exact hvw
  · obtain ⟨site, hsite, hlookup⟩ := hmisses.exists_site
    rw [sitesOf_eq hg' hn'] at hsite
    obtain ⟨e, hmem, rfl⟩ := List.mem_map.mp hsite
    obtain ⟨v, w, -, hw, -⟩ :=
      hboth e.2 ((hmentions e.2).mpr (UnitDef.mentions_document.mpr ⟨e, hmem, rfl⟩))
    have hok : r'.lookup ⟨fqn, e.1, e.2⟩ = .ok w := lookup_eq_ok_iff.mpr hw
    rw [hok] at hlookup
    cases hlookup

end Resolver

end Rollout
