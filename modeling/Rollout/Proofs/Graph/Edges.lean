import Rollout.Proofs.Graph.Built

/-!
# The edges of the graph of a stack

Between two units there is at most one edge in each direction. A unit needs the deployment of
another one only if its configuration refers to that one: asking for an artifact, too, adds no such
need.

**Types.** `Graph.Simple`, `Graph.Joins`, `Graph.Refers`.

**Results.**
* `Simple.nodup_targets`, `Simple.nodup_sources`: the units at the other ends of the edges at a unit;
* `simple_ofStack`: no two edges run between the same units;
* `deployEdge_iff`: the deployments that a unit needs are those that it refers to.
-/

namespace Rollout.Graph

/-- At most one edge runs from a unit to another one. -/
def Simple (g : Graph) : Prop := (g.edges.map fun e => (e.source, e.target)).Nodup

/-- The edges from one unit differ in their targets. -/
theorem Simple.nodup_targets {g : Graph} (h : g.Simple) (fqn : String) : (g.targets fqn).Nodup := by
  have hends : ((g.outgoing fqn).map fun e => (e.source, e.target)).Nodup :=
    h.sublist (List.filter_sublist.map _)
  have hsource : (g.outgoing fqn).map (fun e => (e.source, e.target)) =
      (g.targets fqn).map fun t => (fqn, t) := by
    rw [targets, List.map_map]
    refine List.map_congr_left fun e he => ?_
    have hs : e.source = fqn := by simpa using (List.mem_filter.mp he).2
    rw [hs]
    rfl
  rw [hsource] at hends
  exact hends.of_map _

/-- The edges to one unit differ in their sources. -/
theorem Simple.nodup_sources {g : Graph} (h : g.Simple) (fqn : String) : (g.sources fqn).Nodup := by
  have hends : ((g.incoming fqn).map fun e => (e.source, e.target)).Nodup :=
    h.sublist (List.filter_sublist.map _)
  have htarget : (g.incoming fqn).map (fun e => (e.source, e.target)) =
      (g.sources fqn).map fun s => (s, fqn) := by
    rw [sources, List.map_map]
    refine List.map_congr_left fun e he => ?_
    have ht : e.target = fqn := by simpa using (List.mem_filter.mp he).2
    rw [ht]
    rfl
  rw [htarget] at hends
  exact hends.of_map _

/-- An edge of one of the kinds leads from a unit to another one. -/
def Joins (g : Graph) (kinds : List EdgeKind) (source target : String) : Prop :=
  ∃ e ∈ g.edges, e.source = source ∧ e.target = target ∧ e.kind ∈ kinds

theorem joins_deploy {g : Graph} {source target : String} :
    g.Joins [.deploy] source target ↔ g.DeployEdge source target := by
  simp [Joins, DeployEdge]

/-- Edges are of one of the two kinds. -/
theorem joins_all {g : Graph} {source target : String} :
    g.Joins EdgeKind.all source target ↔
      ∃ e ∈ g.edges, e.source = source ∧ e.target = target := by
  have hkind (k : EdgeKind) : k ∈ EdgeKind.all := by cases k <;> simp [EdgeKind.all]
  simp [Joins, hkind]

/-- The configuration of a unit refers to another unit. -/
def Refers (g : Graph) (target source : String) : Prop :=
  ∃ n, g.node? target = some n ∧ ∃ r ∈ unitReferences n.unit, r.2.target g.stackName = source

/-- What is added to a graph: single edges, and needs for deployments of a certain form. -/
structure Adds (g g' : Graph) (need : String → String → Prop) : Prop where
  simple : g.Simple → g'.Simple
  needs : ∀ source target, g'.DeployEdge source target →
    g.DeployEdge source target ∨ need source target

theorem Adds.refl (g : Graph) (need : String → String → Prop) : g.Adds g need :=
  ⟨id, fun _ _ => Or.inl⟩

theorem Adds.trans {g₁ g₂ g₃ : Graph} {need need' more : String → String → Prop}
    (h : g₁.Adds g₂ need) (h' : g₂.Adds g₃ need') (hn : ∀ a b, need a b → more a b)
    (hn' : ∀ a b, need' a b → more a b) : g₁.Adds g₃ more := by
  refine ⟨fun hs => h'.simple (h.simple hs), fun a b hd => ?_⟩
  rcases h'.needs a b hd with hd | hneed
  · exact (h.needs a b hd).imp_right (hn a b)
  · exact Or.inr (hn' a b hneed)

theorem ends_putEdge (e : Edge) (edges : List Edge) :
    (putEdge e edges).map (fun x => (x.source, x.target)) =
      if (e.source, e.target) ∈ edges.map (fun x => (x.source, x.target)) then
        edges.map fun x => (x.source, x.target)
      else edges.map (fun x => (x.source, x.target)) ++ [(e.source, e.target)] := by
  induction edges with
  | nil => rfl
  | cons y rest ih =>
    unfold putEdge
    by_cases hy : (y.source == e.source && y.target == e.target) = true
    · obtain ⟨hs, ht⟩ : y.source = e.source ∧ y.target = e.target := by simpa using hy
      rw [if_pos hy, List.map_cons, List.map_cons, hs, ht, if_pos List.mem_cons_self]
    · have hne : (e.source, e.target) ≠ (y.source, y.target) := by
        rintro heq
        obtain ⟨hs, ht⟩ := Prod.mk.inj heq
        exact hy (by simp [hs, ht])
      simp only [if_neg hy, List.map_cons, ih, List.mem_cons, or_iff_right hne]
      split <;> rfl

/-- An edge that is put into a list takes the place of the one between the same units. -/
theorem nodup_putEdge (e : Edge) {edges : List Edge}
    (h : (edges.map fun x => (x.source, x.target)).Nodup) :
    ((putEdge e edges).map fun x => (x.source, x.target)).Nodup := by
  rw [ends_putEdge]
  split
  · exact h
  · rename_i hnew
    rw [List.nodup_append]
    refine ⟨h, by simp, fun a ha b hb hab => ?_⟩
    rw [List.mem_singleton] at hb
    exact hnew (hb ▸ hab ▸ ha)

theorem adds_addEdge {g g' : Graph} {source target : String} {kind : EdgeKind} {e : Edge}
    (h : g.addEdge source target kind = .ok (g', e)) :
    g.Adds g' fun a b => kind = .deploy ∧ a = source ∧ b = target := by
  unfold addEdge at h
  split at h
  · cases h
  split at h
  · cases h
  rw [Except.ok.injEq, Prod.mk.injEq] at h
  obtain ⟨rfl, rfl⟩ := h
  refine ⟨nodup_putEdge _, ?_⟩
  · rintro a b ⟨x, hx, rfl, rfl, hkind⟩
    rcases mem_putEdge hx with rfl | hx
    · cases hold : g.edge? source target with
      | none =>
        simp only [hold] at hkind
        exact Or.inr ⟨hkind, rfl, rfl⟩
      | some old =>
        simp only [hold] at hkind
        have hends : old.source = source ∧ old.target = target := by
          simpa using List.find?_some hold
        cases hk : kind with
        | deploy => exact Or.inr ⟨rfl, rfl, rfl⟩
        | artifact =>
          refine Or.inl ⟨old, List.mem_of_find?_eq_some hold, hends.1, hends.2, ?_⟩
          rw [hk] at hkind
          cases hold' : old.kind with
          | deploy => rfl
          | artifact =>
            rw [hold'] at hkind
            cases hkind
    · exact Or.inl ⟨x, hx, rfl, rfl, hkind⟩

theorem adds_addDeps {fqn : String} {deps : List (Option UnitKind × String)} {g g' : Graph}
    (h : g.addDeps fqn deps = .ok g') : g.Adds g' fun _ _ => False := by
  induction deps generalizing g with
  | nil =>
    rw [addDeps, Except.ok.injEq] at h
    subst h
    exact Adds.refl g _
  | cons dep rest ih =>
    unfold addDeps at h
    split at h
    · cases h
    split at h
    · cases h
    · rename_i hadd
      refine (adds_addEdge hadd).trans (ih h) ?_ fun _ _ => id
      rintro a b ⟨hkind, -⟩
      cases hkind

theorem adds_addReferences {fqn : String} {refs : List (Path × Reference)} {g g' : Graph}
    (h : g.addReferences fqn refs = .ok g') :
    g.Adds g' fun a b => b = fqn ∧ ∃ r ∈ refs, r.2.target g.stackName = a := by
  induction refs generalizing g with
  | nil =>
    rw [addReferences, Except.ok.injEq] at h
    subst h
    exact Adds.refl g _
  | cons r rest ih =>
    unfold addReferences at h
    dsimp only at h
    split at h
    · cases h
    split at h
    · cases h
    · rename_i g₁ e hadd
      have hname : g₁.stackName = g.stackName := (grows_addEdge hadd).1.stackName
      have hsited : g₁.Adds { g₁ with sites := g₁.sites ++ [⟨fqn, r.1, r.2⟩] } fun _ _ => False :=
        ⟨id, fun _ _ => Or.inl⟩
      refine (adds_addEdge hadd).trans (hsited.trans (ih h) (fun _ _ => False.elim)
        fun _ _ => id) ?_ ?_
      · rintro a b ⟨-, rfl, rfl⟩
        exact ⟨rfl, r, List.mem_cons_self, rfl⟩
      · rintro a b ⟨rfl, x, hx, hsource⟩
        refine ⟨rfl, x, List.mem_cons_of_mem _ hx, ?_⟩
        rw [← hname]
        exact hsource

theorem adds_connect {nodes : List Node} {g g' : Graph} (h : g.connect nodes = .ok g') :
    g.Adds g' fun a b => ∃ n ∈ nodes, n.fqn = b ∧
      ∃ r ∈ unitReferences n.unit, r.2.target g.stackName = a := by
  induction nodes generalizing g with
  | nil =>
    rw [connect, Except.ok.injEq] at h
    subst h
    exact Adds.refl g _
  | cons n rest ih =>
    unfold connect at h
    split at h
    · cases h
    split at h
    · cases h
    · rename_i g₁ hdeps _ g₂ hrefs
      have hname₁ : g₁.stackName = g.stackName := (grows_addDeps hdeps).1.stackName
      have hname₂ : g₂.stackName = g₁.stackName := (grows_addReferences hrefs).1.stackName
      refine (adds_addDeps hdeps).trans ((adds_addReferences hrefs).trans (ih h) ?_ ?_)
        (fun _ _ => False.elim) fun _ _ => id
      · rintro a b ⟨rfl, r, hr, hsource⟩
        refine ⟨n, List.mem_cons_self, rfl, r, hr, ?_⟩
        rw [← hname₁]
        exact hsource
      · rintro a b ⟨m, hm, hb, r, hr, hsource⟩
        refine ⟨m, List.mem_cons_of_mem _ hm, hb, r, hr, ?_⟩
        rw [← hname₁, ← hname₂]
        exact hsource

/-- The edges of the graph of a stack are those that connecting its units adds. -/
theorem adds_ofStack {s : Stack} {g : Graph} (h : Graph.ofStack s = .ok g) :
    g.Simple ∧ ∀ source target, g.DeployEdge source target → ∃ n ∈ g.nodes, n.fqn = target ∧
      ∃ r ∈ unitReferences n.unit, r.2.target g.stackName = source := by
  unfold ofStack at h
  split at h
  · cases h
  rename_i g₁ hunits
  split at h
  · cases h
  rename_i g₂ hconnect
  split at h
  · cases h
  rw [Except.ok.injEq] at h
  subst h
  obtain ⟨-, -, hedges, -⟩ := nodes_addUnits hunits (by simp [empty]) (by simp [empty])
  obtain ⟨hgrows, -⟩ := grows_connect hconnect
  have hnone : g₁.edges = [] := hedges
  refine ⟨(adds_connect hconnect).simple (by simp [Simple, hnone]), fun a b hd => ?_⟩
  rcases (adds_connect hconnect).needs a b hd with ⟨e, he, -⟩ | hneed
  · rw [hnone] at he
    cases he
  · rw [hgrows.nodes, hgrows.stackName]
    exact hneed

/-- **At most one edge** runs between two units of a stack in each direction. -/
theorem simple_ofStack {s : Stack} {g : Graph} (h : Graph.ofStack s = .ok g) : g.Simple :=
  (adds_ofStack h).1

/-- **A unit needs the deployments** that its configuration refers to, and no others. -/
theorem deployEdge_iff {s : Stack} {g : Graph} (h : Graph.ofStack s = .ok g)
    {source target : String} : g.DeployEdge source target ↔ g.Refers target source := by
  have hbuilt := built_ofStack h
  constructor
  · intro hd
    obtain ⟨n, hn, rfl, hr⟩ := (adds_ofStack h).2 source target hd
    exact ⟨n, node?_of_mem hbuilt.names hn, hr⟩
  · rintro ⟨n, hn, r, hr, rfl⟩
    obtain ⟨hm, rfl⟩ := mem_of_node? hn
    exact hbuilt.needed n hm r hr

end Rollout.Graph
