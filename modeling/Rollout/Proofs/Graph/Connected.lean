import Rollout.Proofs.Graph.Reach

/-!
# When a graph can be connected

Units can be added when each passes its check and no name is taken; units can be connected when every
explicit dependency is resolved and every reference leads to a unit. Which names a dependency is
resolved to depends on the units only, so the order in which edges are added does not matter, and an
edge leads from one unit to another exactly if one of the two asked for it.

**Types.** `Graph.Connects`, `Graph.Asks`, `Graph.Connectable`.

**Results.**
* `addUnits_eq_ok_iff`: when units can be added, and the nodes they become;
* `exists_connect_iff`: when nodes can be connected;
* `connects_connect`: the edges between nodes that have been connected.
-/

namespace Rollout.Graph

variable {g g' : Graph}

/-! ### Units -/

/-- The nodes that units become behind some other ones. -/
def nodesFrom (stackName : String) (index : Nat) (units : List UnitDef) : List Node :=
  units.mapIdx fun i u => ⟨qualifiedName stackName u.kind u.name, u, index + i⟩

theorem nodesFrom_cons (stackName : String) (index : Nat) (u : UnitDef) (rest : List UnitDef) :
    nodesFrom stackName index (u :: rest) =
      ⟨qualifiedName stackName u.kind u.name, u, index⟩ ::
        nodesFrom stackName (index + 1) rest := by
  simp only [nodesFrom, List.mapIdx_cons, Nat.add_zero, List.cons.injEq, true_and]
  congr 1
  funext i v
  simp only [Node.mk.injEq, true_and]
  omega

/-- A name is known after a unit has been added if it was known or is the name of the unit. -/
theorem has_append (nodes : List Node) (n : Node) (fqn : String) :
    { g with nodes := nodes ++ [n] }.has fqn =
      ({ g with nodes := nodes }.has fqn || n.fqn == fqn) := by
  rw [has, has, node?, node?, List.find?_append, List.find?_singleton, Option.isSome_or]
  cases n.fqn == fqn <;> rfl

/-- **Units can be added** if every one passes its check and the names are new and different. -/
theorem addUnits_eq_ok_iff {units : List UnitDef} :
    g.addUnits units = .ok g' ↔
      (∀ u ∈ units, u.check = .ok ()) ∧
      units.Pairwise (fun u v => qualifiedName g.stackName u.kind u.name ≠
        qualifiedName g.stackName v.kind v.name) ∧
      (∀ u ∈ units, g.has (qualifiedName g.stackName u.kind u.name) = false) ∧
      g' = { g with nodes := g.nodes ++ nodesFrom g.stackName g.nodes.length units } := by
  induction units generalizing g with
  | nil =>
    rw [addUnits, Except.ok.injEq]
    constructor
    · rintro rfl
      simp [nodesFrom]
    · rintro ⟨-, -, -, rfl⟩
      simp [nodesFrom]
  | cons u rest ih =>
    unfold addUnits addNode
    cases hu : u.check with
    | error fault => simp [hu]
    | ok _ =>
      by_cases hhas : g.has (qualifiedName g.stackName u.kind u.name) = true
      · simp [hhas]
      · have hnew : g.has (qualifiedName g.stackName u.kind u.name) = false := by simpa using hhas
        simp only [hnew, Bool.false_eq_true, if_false, ih, has_append, List.length_append,
          List.length_singleton, nodesFrom_cons, List.append_assoc, List.singleton_append,
          List.pairwise_cons, List.forall_mem_cons, hu, true_and, Bool.or_eq_false_iff,
          beq_eq_false_iff_ne, forall_and]
        constructor
        · rintro ⟨hc, hp, ⟨hold, hother⟩, rfl⟩
          exact ⟨hc, ⟨fun v hv => hother v hv, hp⟩, hold, rfl⟩
        · rintro ⟨hc, ⟨hother, hp⟩, hold, rfl⟩
          exact ⟨hc, hp, ⟨hold, hother⟩, rfl⟩

/-! ### Edges -/

/-- An edge can be added between two units of the graph. -/
theorem exists_addEdge {source target : String} (hs : g.has source = true)
    (ht : g.has target = true) (kind : EdgeKind) :
    ∃ g' e, g.addEdge source target kind = .ok (g', e) := by
  simp [addEdge, hs, ht]

theorem joins_iff_mem_ends {source target : String} :
    g.Joins EdgeKind.all source target ↔
      (source, target) ∈ g.edges.map fun e => (e.source, e.target) := by
  simp only [joins_all, List.mem_map, Prod.mk.injEq]

/-- A graph with the units of another one, and with more edges, which lead from one unit to another
where it is said. -/
structure Connects (g g' : Graph) (asked : String → String → Prop) : Prop where
  stackName : g'.stackName = g.stackName
  nodes : g'.nodes = g.nodes
  joins : ∀ source target, g'.Joins EdgeKind.all source target ↔
    g.Joins EdgeKind.all source target ∨ asked source target

theorem Connects.refl (g : Graph) : g.Connects g fun _ _ => False :=
  ⟨rfl, rfl, fun _ _ => (iff_of_eq (or_false _)).symm⟩

theorem Connects.trans {g₁ g₂ g₃ : Graph} {asked asked' : String → String → Prop}
    (h : g₁.Connects g₂ asked) (h' : g₂.Connects g₃ asked') :
    g₁.Connects g₃ fun a b => asked a b ∨ asked' a b :=
  ⟨h'.stackName.trans h.stackName, h'.nodes.trans h.nodes, fun a b => by
    rw [h'.joins, h.joins, or_assoc]⟩

theorem Connects.congr {asked asked' : String → String → Prop} (h : g.Connects g' asked)
    (ha : ∀ a b, asked a b ↔ asked' a b) : g.Connects g' asked' :=
  ⟨h.stackName, h.nodes, fun a b => by rw [h.joins, ha]⟩

/-- The units are known by the same names. -/
theorem Connects.has {asked : String → String → Prop} (h : g.Connects g' asked) (fqn : String) :
    g'.has fqn = g.has fqn := by
  rw [Graph.has, Graph.has, node?, node?, h.nodes]

/-- Dependencies are resolved to the same units. -/
theorem Connects.resolveDep {asked : String → String → Prop} (h : g.Connects g' asked)
    (fqn : String) (dep : Option UnitKind × String) :
    g'.resolveDep fqn dep = g.resolveDep fqn dep := by
  have hhas : g'.has = g.has := funext h.has
  unfold Graph.resolveDep
  rw [h.stackName, hhas]

theorem connects_addEdge {source target : String} {kind : EdgeKind} {e : Edge}
    (h : g.addEdge source target kind = .ok (g', e)) :
    g.Connects g' fun a b => a = source ∧ b = target := by
  unfold addEdge at h
  split at h
  · cases h
  split at h
  · cases h
  rw [Except.ok.injEq, Prod.mk.injEq] at h
  obtain ⟨rfl, rfl⟩ := h
  refine ⟨rfl, rfl, fun a b => ?_⟩
  rw [joins_iff_mem_ends, joins_iff_mem_ends, ends_putEdge]
  dsimp only
  split
  · rename_i hmem
    refine ⟨Or.inl, ?_⟩
    rintro (hab | ⟨rfl, rfl⟩)
    · exact hab
    · exact hmem
  · rw [List.mem_append, List.mem_singleton, Prod.mk.injEq]

/-- A node asks for an edge from a unit: a dependency is resolved to it, or a reference leads to
it. -/
def Asks (g : Graph) (n : Node) (source : String) : Prop :=
  (∃ dep ∈ n.unit.deps.explicit, g.resolveDep n.fqn dep = .ok source) ∨
    ∃ r ∈ unitReferences n.unit, r.2.target g.stackName = source

theorem connects_addDeps {fqn : String} {deps : List (Option UnitKind × String)}
    (h : g.addDeps fqn deps = .ok g') :
    g.Connects g' fun a b => b = fqn ∧ ∃ dep ∈ deps, g.resolveDep fqn dep = .ok a := by
  induction deps generalizing g with
  | nil =>
    rw [addDeps, Except.ok.injEq] at h
    subst h
    exact (Connects.refl g).congr (by simp)
  | cons dep rest ih =>
    unfold addDeps at h
    split at h
    · cases h
    rename_i source hsource
    split at h
    · cases h
    rename_i g₁ e hadd
    have hedge := connects_addEdge hadd
    refine (hedge.trans (ih h)).congr fun a b => ?_
    simp only [hedge.resolveDep, List.exists_mem_cons_iff, hsource, Except.ok.injEq]
    grind

theorem connects_addReferences {fqn : String} {refs : List (Path × Reference)}
    (h : g.addReferences fqn refs = .ok g') :
    g.Connects g' fun a b => b = fqn ∧ ∃ r ∈ refs, r.2.target g.stackName = a := by
  induction refs generalizing g with
  | nil =>
    rw [addReferences, Except.ok.injEq] at h
    subst h
    exact (Connects.refl g).congr (by simp)
  | cons r rest ih =>
    unfold addReferences at h
    dsimp only at h
    split at h
    · cases h
    split at h
    · cases h
    rename_i g₁ e hadd
    have hedge := connects_addEdge hadd
    have hsited : g₁.Connects { g₁ with sites := g₁.sites ++ [⟨fqn, r.1, r.2⟩] } fun _ _ => False :=
      ⟨rfl, rfl, (Connects.refl g₁).joins⟩
    refine ((hedge.trans hsited).trans (ih h)).congr fun a b => ?_
    simp only [hedge.stackName, List.exists_mem_cons_iff]
    grind

/-- **Nodes that have been connected**: there is an edge where one of them asked for it. -/
theorem connects_connect {nodes : List Node} (h : g.connect nodes = .ok g') :
    g.Connects g' fun a b => ∃ n ∈ nodes, n.fqn = b ∧ g.Asks n a := by
  induction nodes generalizing g with
  | nil =>
    rw [connect, Except.ok.injEq] at h
    subst h
    exact (Connects.refl g).congr (by simp)
  | cons n rest ih =>
    unfold connect at h
    split at h
    · cases h
    rename_i g₁ hdeps
    split at h
    · cases h
    rename_i g₂ hrefs
    have hd := connects_addDeps hdeps
    have hr := connects_addReferences hrefs
    have hboth := hd.trans hr
    refine (hboth.trans (ih h)).congr fun a b => ?_
    simp only [Asks, hboth.resolveDep, hd.stackName, hr.stackName, List.exists_mem_cons_iff]
    grind

/-! ### When connecting succeeds -/

/-- A dependency is resolved to a unit of the graph. -/
theorem has_resolveDep {fqn source : String} {dep : Option UnitKind × String}
    (h : g.resolveDep fqn dep = .ok source) : g.has source = true := by
  obtain ⟨kind, name⟩ := dep
  cases kind with
  | some kind =>
    unfold resolveDep at h
    dsimp only at h
    split at h
    · rename_i hhas
      rw [Except.ok.injEq] at h
      rw [← h, hhas]
    · cases h
  | none =>
    unfold resolveDep at h
    dsimp only at h
    split at h
    · cases h
    · rename_i target heq
      rw [Except.ok.injEq] at h
      have hmem := heq ▸ List.mem_singleton_self target
      rw [← h]
      exact (List.mem_filter.mp hmem).2
    · cases h

theorem exists_addDeps_iff {fqn : String} (hk : g.has fqn = true)
    (deps : List (Option UnitKind × String)) :
    (∃ g', g.addDeps fqn deps = .ok g') ↔
      ∀ dep ∈ deps, ∃ source, g.resolveDep fqn dep = .ok source := by
  induction deps generalizing g with
  | nil => simp [addDeps]
  | cons dep rest ih =>
    unfold addDeps
    cases hsource : g.resolveDep fqn dep with
    | error fault => simp [hsource]
    | ok source =>
      obtain ⟨g₁, e, hadd⟩ := exists_addEdge (has_resolveDep hsource) hk .artifact
      have hedge := connects_addEdge hadd
      simp only [hadd, ih (by rw [hedge.has, hk]), hedge.resolveDep, List.forall_mem_cons, hsource,
        Except.ok.injEq, exists_eq', true_and]

theorem exists_addReferences_iff {fqn : String} (hk : g.has fqn = true)
    (refs : List (Path × Reference)) :
    (∃ g', g.addReferences fqn refs = .ok g') ↔
      ∀ r ∈ refs, g.has (r.2.target g.stackName) = true := by
  induction refs generalizing g with
  | nil => simp [addReferences]
  | cons r rest ih =>
    unfold addReferences
    by_cases hsource : g.has (r.2.target g.stackName) = true
    · obtain ⟨g₁, e, hadd⟩ := exists_addEdge hsource hk .deploy
      have hedge := connects_addEdge hadd
      have hsited : g₁.Connects { g₁ with sites := g₁.sites ++ [⟨fqn, r.1, r.2⟩] }
          fun _ _ => False := ⟨rfl, rfl, (Connects.refl g₁).joins⟩
      have hboth := hedge.trans hsited
      have hrest := ih (by rw [hboth.has, hk])
      simp only [hboth.has] at hrest
      simpa only [hsource, hadd, Bool.not_true, Bool.false_eq_true, if_false, List.forall_mem_cons,
        true_and, hedge.stackName] using hrest
    · simp [hsource]

/-- Every explicit dependency of the node is resolved, and every reference leads to a unit. -/
def Connectable (g : Graph) (n : Node) : Prop :=
  (∀ dep ∈ n.unit.deps.explicit, ∃ source, g.resolveDep n.fqn dep = .ok source) ∧
    ∀ r ∈ unitReferences n.unit, g.has (r.2.target g.stackName) = true

theorem Connects.connectable {asked : String → String → Prop} (h : g.Connects g' asked) (n : Node) :
    g'.Connectable n ↔ g.Connectable n := by
  simp only [Connectable, h.resolveDep, h.has, h.stackName]

/-- **Nodes can be connected** if each of them can be. -/
theorem exists_connect_iff {nodes : List Node} (hk : ∀ n ∈ nodes, g.has n.fqn = true) :
    (∃ g', g.connect nodes = .ok g') ↔ ∀ n ∈ nodes, g.Connectable n := by
  induction nodes generalizing g with
  | nil => simp [connect]
  | cons n rest ih =>
    obtain ⟨hn, hrest⟩ := List.forall_mem_cons.mp hk
    have hdeps_iff := exists_addDeps_iff hn n.unit.deps.explicit
    unfold connect
    cases hdeps : g.addDeps n.fqn n.unit.deps.explicit with
    | error fault =>
      simp only [hdeps, reduceCtorEq, exists_false, false_iff] at hdeps_iff ⊢
      exact fun hall => hdeps_iff (hall n List.mem_cons_self).1
    | ok g₁ =>
      have hd := connects_addDeps hdeps
      have hrefs_iff := exists_addReferences_iff
        (show g₁.has n.fqn = true by rw [hd.has, hn]) (unitReferences n.unit)
      have hresolved := hdeps_iff.mp ⟨g₁, hdeps⟩
      simp only [hd.has, hd.stackName] at hrefs_iff
      cases hrefs : g₁.addReferences n.fqn (unitReferences n.unit) with
      | error fault =>
        simp only [hrefs, reduceCtorEq, exists_false, false_iff] at hrefs_iff ⊢
        exact fun hall => hrefs_iff (hall n List.mem_cons_self).2
      | ok g₂ =>
        have hboth := hd.trans (connects_addReferences hrefs)
        have hfirst : g.Connectable n := ⟨hresolved, hrefs_iff.mp ⟨g₂, hrefs⟩⟩
        have hall := ih (g := g₂) fun m hm => by rw [hboth.has, hrest m hm]
        simp only [hboth.connectable] at hall
        simp only [hrefs, hall, List.forall_mem_cons, hfirst, true_and]

end Rollout.Graph
