import Mathlib.Data.List.Nodup
import Rollout.Graph.OfStack

/-!
# What holds of the graph of a stack

A graph that is built from a stack has one node for each unit, all under different names; its edges
run between its nodes; its sites are the references of its units, unit by unit; and behind every
site there is an edge of the kind `deploy`.

**Types.** `Graph.Built`.

**Results.** `Graph.built_ofStack`: every graph that `Graph.ofStack` returns is built in this sense.

Units are added first, then edges and sites. Adding edges and sites keeps the nodes, so the proof
follows the two rounds and carries `Graph.Grows` through the second one.
-/

namespace Rollout

/-- In one stack, the name of a unit across stacks tells its kind and its name. -/
theorem qualifiedName_inj {stack : String} {kind kind' : UnitKind} {name name' : String} :
    qualifiedName stack kind name = qualifiedName stack kind' name' ↔
      kind = kind' ∧ name = name' := by
  refine ⟨fun h => ?_, by rintro ⟨rfl, rfl⟩; rfl⟩
  have hlist := congrArg String.toList h
  simp only [qualifiedName, String.toList_append, List.append_assoc] at hlist
  have hrest := List.append_cancel_left (List.append_cancel_left hlist)
  have hkind : kind = kind' := by
    cases kind <;> cases kind'
    · rfl
    · exact absurd (List.cons.inj hrest).1 (by decide)
    · exact absurd (List.cons.inj hrest).1 (by decide)
    · rfl
  subst hkind
  exact ⟨rfl, String.toList_inj.mp (List.append_cancel_left (List.append_cancel_left hrest))⟩

namespace Graph

/-- One unit needs the deployment of another one. -/
def DeployEdge (g : Graph) (source target : String) : Prop :=
  ∃ e ∈ g.edges, e.source = source ∧ e.target = target ∧ e.kind = .deploy

/-- Both ends of every edge are nodes. -/
def EndsKnown (g : Graph) : Prop :=
  ∀ e ∈ g.edges, g.has e.source = true ∧ g.has e.target = true

/-- The sites of a unit of the graph. -/
def nodeSites (n : Node) : List Site :=
  (unitReferences n.unit).map fun r => ⟨n.fqn, r.1, r.2⟩

/-- What holds of a graph that was built from a stack. -/
structure Built (g : Graph) (s : Stack) : Prop where
  stack : g.stack = some s
  units : g.nodes.map Node.unit = s.units
  names : (g.nodes.map Node.fqn).Nodup
  checked : ∀ n ∈ g.nodes, n.unit.check = .ok ()
  ends : g.EndsKnown
  sites : g.sites = g.nodes.flatMap nodeSites
  needed : ∀ n ∈ g.nodes, ∀ r ∈ unitReferences n.unit,
    g.DeployEdge (r.2.target g.stackName) n.fqn
  acyclic : g.findCycle = none

/-- The graph has the nodes of an earlier one, and at least its needs for deployments. -/
structure Grows (g g' : Graph) : Prop where
  stackName : g'.stackName = g.stackName
  stack : g'.stack = g.stack
  nodes : g'.nodes = g.nodes
  ends : g.EndsKnown → g'.EndsKnown
  needs : ∀ source target, g.DeployEdge source target → g'.DeployEdge source target

theorem Grows.refl (g : Graph) : g.Grows g :=
  ⟨rfl, rfl, rfl, id, fun _ _ h => h⟩

theorem Grows.trans {g₁ g₂ g₃ : Graph} (h₁ : g₁.Grows g₂) (h₂ : g₂.Grows g₃) : g₁.Grows g₃ :=
  ⟨h₂.stackName.trans h₁.stackName, h₂.stack.trans h₁.stack, h₂.nodes.trans h₁.nodes,
    fun h => h₂.ends (h₁.ends h), fun a b h => h₂.needs a b (h₁.needs a b h)⟩

/-- A node of the graph is known under its name. -/
theorem has_of_mem {g : Graph} {n : Node} (h : n ∈ g.nodes) : g.has n.fqn = true := by
  rw [has, node?, List.find?_isSome]
  exact ⟨n, h, by simp⟩

/-- A known name is the name of a node. -/
theorem exists_node?_of_has {g : Graph} {fqn : String} (h : g.has fqn = true) :
    ∃ n, g.node? fqn = some n := by
  rw [has] at h
  exact Option.isSome_iff_exists.mp h

/-- What is found under a name is a node of that name. -/
theorem mem_of_node? {g : Graph} {fqn : String} {n : Node} (h : g.node? fqn = some n) :
    n ∈ g.nodes ∧ n.fqn = fqn := by
  refine ⟨List.mem_of_find?_eq_some h, ?_⟩
  simpa using List.find?_some h

/-- With different names, every node is found under its own. -/
theorem node?_of_mem {g : Graph} (hn : (g.nodes.map Node.fqn).Nodup) {n : Node}
    (h : n ∈ g.nodes) : g.node? n.fqn = some n := by
  obtain ⟨m, hm⟩ := exists_node?_of_has (has_of_mem h)
  obtain ⟨hmem, hname⟩ := mem_of_node? hm
  rw [hm, List.inj_on_of_nodup_map hn hmem h hname]

/-! ### Edges -/

/-- What stands in the list after an edge has been put into it. -/
theorem mem_putEdge {e x : Edge} {edges : List Edge} (h : x ∈ putEdge e edges) :
    x = e ∨ x ∈ edges := by
  induction edges with
  | nil => simpa [putEdge] using h
  | cons y rest ih =>
    unfold putEdge at h
    split at h
    · rcases List.mem_cons.mp h with rfl | h
      · exact Or.inl rfl
      · exact Or.inr (List.mem_cons_of_mem _ h)
    · rcases List.mem_cons.mp h with rfl | h
      · exact Or.inr List.mem_cons_self
      · exact (ih h).imp_right (List.mem_cons_of_mem _)

/-- The edge that is put into a list stands in it. -/
theorem mem_putEdge_self (e : Edge) (edges : List Edge) : e ∈ putEdge e edges := by
  induction edges with
  | nil => simp [putEdge]
  | cons y rest ih =>
    unfold putEdge
    split
    · exact List.mem_cons_self
    · exact List.mem_cons_of_mem _ ih

/-- An edge stays in the list unless an edge between the same units takes its place. -/
theorem mem_putEdge_of_mem {e x : Edge} {edges : List Edge} (h : x ∈ edges) :
    x ∈ putEdge e edges ∨
      (x.source = e.source ∧ x.target = e.target ∧
        edges.find? (fun y => y.source == e.source && y.target == e.target) = some x) := by
  induction edges with
  | nil => cases h
  | cons y rest ih =>
    unfold putEdge
    by_cases hy : (y.source == e.source && y.target == e.target) = true
    · rw [if_pos hy]
      rcases List.mem_cons.mp h with rfl | h
      · have hs : x.source = e.source ∧ x.target = e.target := by simpa using hy
        exact Or.inr ⟨hs.1, hs.2, by simp [hs.1, hs.2]⟩
      · exact Or.inl (List.mem_cons_of_mem _ h)
    · rw [if_neg hy]
      rcases List.mem_cons.mp h with rfl | h
      · exact Or.inl List.mem_cons_self
      · rcases ih h with hr | ⟨hs, ht, hf⟩
        · exact Or.inl (List.mem_cons_of_mem _ hr)
        · exact Or.inr ⟨hs, ht, by rw [List.find?_cons, Bool.eq_false_iff.mpr hy]; exact hf⟩

theorem grows_addEdge {g g' : Graph} {source target : String} {kind : EdgeKind} {e : Edge}
    (h : g.addEdge source target kind = .ok (g', e)) :
    g.Grows g' ∧ g'.sites = g.sites ∧ (kind = .deploy → g'.DeployEdge source target) := by
  unfold addEdge at h
  split at h
  · cases h
  rename_i hs
  split at h
  · cases h
  rename_i ht
  rw [Except.ok.injEq, Prod.mk.injEq] at h
  obtain ⟨rfl, rfl⟩ := h
  refine ⟨⟨rfl, rfl, rfl, ?_, ?_⟩, rfl, ?_⟩
  · intro hends x hx
    rcases mem_putEdge hx with rfl | hx
    · have hknown : g.has source = true ∧ g.has target = true := by simpa using And.intro hs ht
      exact hknown
    · exact hends x hx
  · rintro a b ⟨x, hx, hxs, hxt, hxk⟩
    rcases mem_putEdge_of_mem hx with hx | ⟨hes, het, hfind⟩
    · exact ⟨x, hx, hxs, hxt, hxk⟩
    · refine ⟨_, mem_putEdge_self _ _, hes.symm.trans hxs, het.symm.trans hxt, ?_⟩
      have hold : g.edge? source target = some x := hfind
      simp only [hold, hxk]
      cases kind <;> rfl
  · rintro rfl
    refine ⟨_, mem_putEdge_self _ _, rfl, rfl, ?_⟩
    cases g.edge? source target with
    | none => rfl
    | some old => cases hk : old.kind <;> simp [hk, EdgeKind.join]

/-- Adding explicit dependencies grows the graph and adds no sites. -/
theorem grows_addDeps {fqn : String} {deps : List (Option UnitKind × String)} {g g' : Graph}
    (h : g.addDeps fqn deps = .ok g') : g.Grows g' ∧ g'.sites = g.sites := by
  induction deps generalizing g with
  | nil =>
    rw [addDeps, Except.ok.injEq] at h
    subst h
    exact ⟨Grows.refl g, rfl⟩
  | cons dep rest ih =>
    unfold addDeps at h
    split at h
    · cases h
    split at h
    · cases h
    · rename_i hadd
      obtain ⟨hg, hs, -⟩ := grows_addEdge hadd
      obtain ⟨hg', hs'⟩ := ih h
      exact ⟨hg.trans hg', hs'.trans hs⟩

/-- Adding references grows the graph, adds their sites, and leaves an edge behind each. -/
theorem grows_addReferences {fqn : String} {refs : List (Path × Reference)} {g g' : Graph}
    (h : g.addReferences fqn refs = .ok g') :
    g.Grows g' ∧ g'.sites = g.sites ++ refs.map (fun r => ⟨fqn, r.1, r.2⟩) ∧
      ∀ r ∈ refs, g'.DeployEdge (r.2.target g.stackName) fqn := by
  induction refs generalizing g with
  | nil =>
    rw [addReferences, Except.ok.injEq] at h
    subst h
    exact ⟨Grows.refl g, by simp, by simp⟩
  | cons r rest ih =>
    unfold addReferences at h
    dsimp only at h
    split at h
    · cases h
    split at h
    · cases h
    · rename_i g₁ e hadd
      obtain ⟨hg, hs, hd⟩ := grows_addEdge hadd
      obtain ⟨hg', hs', hd'⟩ := ih h
      have hsited : Grows g₁ { g₁ with sites := g₁.sites ++ [⟨fqn, r.1, r.2⟩] } :=
        ⟨rfl, rfl, rfl, id, fun _ _ h => h⟩
      refine ⟨hg.trans (hsited.trans hg'), by simp [hs', hs], ?_⟩
      intro x hx
      rcases List.mem_cons.mp hx with rfl | hx
      · exact hg'.needs _ _ (hsited.needs _ _ (hd rfl))
      · have := hd' x hx
        rwa [show g₁.stackName = g.stackName from hg.stackName] at this

/-- The second round of building: nodes are connected one after the other. -/
theorem grows_connect {nodes : List Node} {g g' : Graph} (h : g.connect nodes = .ok g') :
    g.Grows g' ∧ g'.sites = g.sites ++ nodes.flatMap nodeSites ∧
      ∀ n ∈ nodes, ∀ r ∈ unitReferences n.unit, g'.DeployEdge (r.2.target g.stackName) n.fqn := by
  induction nodes generalizing g with
  | nil =>
    rw [connect, Except.ok.injEq] at h
    subst h
    exact ⟨Grows.refl g, by simp, by simp⟩
  | cons n rest ih =>
    unfold connect at h
    split at h
    · cases h
    split at h
    · cases h
    · rename_i g₁ hdeps _ g₂ hrefs
      obtain ⟨hg₁, hs₁⟩ := grows_addDeps hdeps
      obtain ⟨hg₂, hs₂, hd₂⟩ := grows_addReferences hrefs
      obtain ⟨hg₃, hs₃, hd₃⟩ := ih h
      refine ⟨hg₁.trans (hg₂.trans hg₃), ?_, ?_⟩
      · simp [hs₃, hs₂, hs₁, nodeSites]
      · intro m hm r hr
        rcases List.mem_cons.mp hm with rfl | hm
        · rw [← hg₁.stackName]
          exact hg₃.needs _ _ (hd₂ r hr)
        · rw [← hg₁.stackName, ← hg₂.stackName]
          exact hd₃ m hm r hr

/-! ### Units -/

/-- The first round of building: checked units under different names, and nothing else. -/
theorem nodes_addUnits {units : List UnitDef} {g g' : Graph} (h : g.addUnits units = .ok g')
    (hn : (g.nodes.map Node.fqn).Nodup) (hc : ∀ n ∈ g.nodes, n.unit.check = .ok ()) :
    g'.stackName = g.stackName ∧ g'.stack = g.stack ∧ g'.edges = g.edges ∧ g'.sites = g.sites ∧
      g'.nodes.map Node.unit = g.nodes.map Node.unit ++ units ∧
      (g'.nodes.map Node.fqn).Nodup ∧ ∀ n ∈ g'.nodes, n.unit.check = .ok () := by
  induction units generalizing g with
  | nil =>
    rw [addUnits, Except.ok.injEq] at h
    subst h
    exact ⟨rfl, rfl, rfl, rfl, by simp, hn, hc⟩
  | cons u rest ih =>
    unfold addUnits at h
    split at h
    · cases h
    rename_i hu
    split at h
    · cases h
    rename_i g₁ n hadd
    unfold addNode at hadd
    dsimp only at hadd
    split at hadd
    · cases hadd
    rename_i hnew
    rw [Except.ok.injEq, Prod.mk.injEq] at hadd
    obtain ⟨rfl, rfl⟩ := hadd
    have hfresh : qualifiedName g.stackName u.kind u.name ∉ g.nodes.map Node.fqn := by
      intro hm
      obtain ⟨m, hm, hname⟩ := List.mem_map.mp hm
      exact hnew (by rw [← hname]; exact has_of_mem hm)
    obtain ⟨h1, h2, h3, h4, h5, h6, h7⟩ := ih h
      (by
        rw [List.map_append, List.map_singleton, ← List.concat_eq_append]
        exact hn.concat hfresh)
      (by
        intro m hm
        rcases List.mem_append.mp hm with hm | hm
        · exact hc m hm
        · rw [List.mem_singleton.mp hm]
          exact hu)
    exact ⟨h1, h2, h3, h4, by simpa using h5, h6, h7⟩

/-- Units are added under their qualified names. -/
theorem named_addUnits {units : List UnitDef} {g g' : Graph} (h : g.addUnits units = .ok g')
    (hn : ∀ n ∈ g.nodes, n.fqn = qualifiedName g.stackName n.unit.kind n.unit.name) :
    ∀ n ∈ g'.nodes, n.fqn = qualifiedName g'.stackName n.unit.kind n.unit.name := by
  induction units generalizing g with
  | nil =>
    rw [addUnits, Except.ok.injEq] at h
    subst h
    exact hn
  | cons u rest ih =>
    unfold addUnits at h
    split at h
    · cases h
    split at h
    · cases h
    rename_i g₁ n hadd
    unfold addNode at hadd
    dsimp only at hadd
    split at hadd
    · cases hadd
    rw [Except.ok.injEq, Prod.mk.injEq] at hadd
    obtain ⟨rfl, rfl⟩ := hadd
    refine ih h fun m hm => ?_
    rcases List.mem_append.mp hm with hm | hm
    · exact hn m hm
    · rw [List.mem_singleton.mp hm]

/-- The nodes of the graph of a stack have the qualified names of their units. -/
theorem fqn_of_mem {s : Stack} {g : Graph} (h : ofStack s = .ok g) {n : Node} (hn : n ∈ g.nodes) :
    n.fqn = qualifiedName g.stackName n.unit.kind n.unit.name := by
  unfold ofStack at h
  split at h
  · cases h
  rename_i g₁ hunits
  split at h
  · cases h
  rename_i g₂ hconnect
  split at h
  · cases h
  rw [Except.ok.injEq] at h
  subst h
  obtain ⟨hg, -, -⟩ := grows_connect hconnect
  rw [hg.nodes] at hn
  rw [hg.stackName]
  exact named_addUnits hunits (by simp [empty]) n hn

/-- The graph of a stack has its normal name. -/
theorem stackName_ofStack {s : Stack} {g : Graph} (h : ofStack s = .ok g) :
    g.stackName = s.normalizedName := by
  unfold ofStack at h
  split at h
  · cases h
  rename_i g₁ hunits
  split at h
  · cases h
  rename_i g₂ hconnect
  split at h
  · cases h
  rw [Except.ok.injEq] at h
  subst h
  obtain ⟨hg, -, -⟩ := grows_connect hconnect
  obtain ⟨hname, -⟩ := nodes_addUnits hunits (by simp [empty]) (by simp [empty])
  rw [hg.stackName, hname]
  rfl

/-- **Every graph of a stack is built.** -/
theorem built_ofStack {s : Stack} {g : Graph} (h : Graph.ofStack s = .ok g) : g.Built s := by
  unfold ofStack at h
  split at h
  · cases h
  rename_i g₁ hunits
  split at h
  · cases h
  rename_i g₂ hconnect
  split at h
  · cases h
  rename_i hcycle
  rw [Except.ok.injEq] at h
  subst h
  obtain ⟨-, hstack, hedges, hsites, hu, hn, hc⟩ :=
    nodes_addUnits hunits (by simp [empty]) (by simp [empty])
  obtain ⟨hg, hs, hd⟩ := grows_connect hconnect
  refine ⟨?_, ?_, ?_, ?_, ?_, ?_, ?_, hcycle⟩
  · rw [hg.stack, hstack]
  · rw [hg.nodes, hu]
    simp [empty]
  · rw [hg.nodes]
    exact hn
  · rw [hg.nodes]
    exact hc
  · refine hg.ends ?_
    intro e he
    rw [hedges] at he
    cases he
  · rw [hs, hsites, hg.nodes]
    simp [empty]
  · intro n hm r hr
    rw [hg.stackName]
    rw [hg.nodes] at hm
    exact hd n hm r hr

end Graph

end Rollout
