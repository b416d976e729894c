import Mathlib.Data.List.Perm.Subperm
import Rollout.Graph.Search
import Rollout.Proofs.Graph.Built

/-!
# Orders of a graph

A search that finds no cycle leaves behind a list of all units in which every unit comes before the
units that depend on it. Such a list is enough for the placing of units never to get stuck, so a
graph without a cycle always has an order; and an order that is returned places every unit once,
behind everything that it depends on.

**Types.** `Graph.Closed`, `Graph.Picked`, `Graph.Placed`.

**Results.**
* `closed_of_findCycle`: what the search leaves behind;
* `exists_order`: a graph without a cycle has an order;
* `placed_order`, `mem_order`: what an order says.
-/

namespace Rollout.Graph

variable {g : Graph}

/-- Behind every unit of the list stand all units that depend on it. -/
def Closed (g : Graph) : List String → Prop
  | [] => True
  | v :: rest => (∀ t ∈ g.targets v, t ∈ rest) ∧ Closed g rest

/-- The units that depend on a unit of a closed list stand in it, too. -/
theorem Closed.mem_of_target {units : List String} (h : g.Closed units) {v t : String}
    (hv : v ∈ units) (ht : t ∈ g.targets v) : t ∈ units := by
  induction units with
  | nil => cases hv
  | cons x rest ih =>
    rcases List.mem_cons.mp hv with rfl | hv
    · exact List.mem_cons_of_mem _ (h.1 t ht)
    · exact List.mem_cons_of_mem _ (ih h.2 hv)

theorem mem_targets {v t : String} : t ∈ g.targets v ↔ v ∈ g.sources t := by
  simp only [targets, sources, outgoing, incoming, List.mem_map, List.mem_filter, beq_iff_eq]
  constructor
  · rintro ⟨e, ⟨he, hs⟩, ht⟩
    exact ⟨e, ⟨he, ht⟩, hs⟩
  · rintro ⟨e, ⟨he, ht⟩, hs⟩
    exact ⟨e, ⟨he, hs⟩, ht⟩

/-- The units that a search goes over from one unit are nodes. -/
theorem has_of_mem_targets (hends : g.EndsKnown) {v t : String} (h : t ∈ g.targets v) :
    g.has t = true := by
  obtain ⟨e, he, rfl⟩ := List.mem_map.mp h
  exact (hends e (List.mem_filter.mp he).1).2

theorem has_of_mem_sources (hends : g.EndsKnown) {v t : String} (h : t ∈ g.sources v) :
    g.has t = true := by
  obtain ⟨e, he, rfl⟩ := List.mem_map.mp h
  exact (hends e (List.mem_filter.mp he).1).1

theorem has_iff_mem_names {fqn : String} : g.has fqn = true ↔ fqn ∈ g.nodes.map Node.fqn := by
  constructor
  · intro h
    obtain ⟨n, hn⟩ := exists_node?_of_has h
    obtain ⟨hm, rfl⟩ := mem_of_node? hn
    exact List.mem_map_of_mem hm
  · intro h
    obtain ⟨n, hn, rfl⟩ := List.mem_map.mp h
    exact has_of_mem hn

/-- Units that have been picked from a graph, none of them twice. -/
structure Picked (g : Graph) (units : List String) : Prop where
  nodup : units.Nodup
  known : ∀ u ∈ units, g.has u = true

namespace Picked

variable {units : List String} {u : String}

theorem singleton (h : g.has u = true) : g.Picked [u] :=
  ⟨List.nodup_singleton u, List.forall_mem_singleton.mpr h⟩

theorem snoc (h : g.Picked units) (hnew : u ∉ units) (hu : g.has u = true) :
    g.Picked (units ++ [u]) := by
  refine ⟨?_, List.forall_mem_append.mpr ⟨h.known, List.forall_mem_singleton.mpr hu⟩⟩
  rw [← List.concat_eq_append]
  exact h.nodup.concat hnew

theorem subperm (h : g.Picked units) : units.Subperm (g.nodes.map Node.fqn) :=
  List.subperm_of_subset h.nodup fun u hu => has_iff_mem_names.mp (h.known u hu)

/-- There are no more of them than the graph has. -/
theorem length_le (h : g.Picked units) : units.length ≤ g.nodes.length := by
  simpa using h.subperm.length_le

end Picked

/-! ### The search for a cycle -/

/-- What a search hands on to the next unit: the first cycle ends it. -/
def Search.andThen (f : List String → String → Search) (outcome : Search) (t : String) : Search :=
  match outcome with
  | .cycle walk => .cycle walk
  | .finished units => f units t

/-- A cycle that has been found is kept. -/
theorem foldl_cycle (f : List String → String → Search) (walk todo : List String) :
    todo.foldl (Search.andThen f) (.cycle walk) = .cycle walk := by
  induction todo with
  | nil => rfl
  | cons _ _ ih => exact ih

/-- A search over some units that ends without a cycle has gone over every one of them. -/
theorem foldl_finished {f : List String → String → Search} {P : List String → Prop}
    {todo units out : List String}
    (hf : ∀ t ∈ todo, ∀ units out, P units → f units t = .finished out →
      P out ∧ units ⊆ out ∧ t ∈ out)
    (hP : P units) (h : todo.foldl (Search.andThen f) (.finished units) = .finished out) :
    P out ∧ units ⊆ out ∧ ∀ t ∈ todo, t ∈ out := by
  induction todo generalizing units with
  | nil =>
    rw [List.foldl_nil, Search.finished.injEq] at h
    subst h
    exact ⟨hP, List.Subset.refl _, by simp⟩
  | cons t rest ih =>
    rw [List.foldl_cons] at h
    cases hstep : f units t with
    | cycle walk =>
      rw [show Search.andThen f (.finished units) t = .cycle walk from hstep, foldl_cycle] at h
      cases h
    | finished next =>
      rw [show Search.andThen f (.finished units) t = .finished next from hstep] at h
      obtain ⟨hnext, hsub, hmem⟩ := hf t List.mem_cons_self units next hP hstep
      obtain ⟨hout, hsub', hall⟩ :=
        ih (fun x hx => hf x (List.mem_cons_of_mem _ hx)) hnext h
      refine ⟨hout, List.Subset.trans hsub hsub', ?_⟩
      intro x hx
      rcases List.mem_cons.mp hx with rfl | hx
      · exact hsub' hmem
      · exact hall x hx

/-- The search that goes on to one unit from a path. -/
def searchFrom (g : Graph) (fuel : Nat) (path units : List String) (t : String) : Search :=
  if path.contains t then .cycle (path.dropWhile (· != t) ++ [t])
  else if units.contains t then .finished units
  else visit g fuel path units t

theorem visit_succ (fuel : Nat) (before units : List String) (v : String) :
    g.visit (fuel + 1) before units v =
      match (g.targets v).foldl (Search.andThen (g.searchFrom fuel (before ++ [v])))
        (.finished units) with
      | .cycle walk => .cycle walk
      | .finished units => .finished (v :: units) := by
  rw [visit]
  rfl

/-- A visit that ends without a cycle leaves a closed list, with the visited unit in it.

The fuel is never used up: a path has no unit twice, and there are as many steps as units. -/
theorem closed_visit (hends : g.EndsKnown) {fuel : Nat} {before units out : List String}
    {v : String} (hpath : g.Picked (before ++ [v]))
    (hfuel : g.nodes.length ≤ fuel + before.length) (hc : g.Closed units)
    (h : g.visit fuel before units v = .finished out) :
    g.Closed out ∧ units ⊆ out ∧ v ∈ out := by
  induction fuel generalizing before units out v with
  | zero =>
    have hlen := hpath.length_le
    rw [List.length_append, List.length_singleton] at hlen
    omega
  | succ fuel ih =>
    rw [visit_succ] at h
    have hstep : ∀ t ∈ g.targets v, ∀ l next, g.Closed l →
        g.searchFrom fuel (before ++ [v]) l t = .finished next →
        g.Closed next ∧ l ⊆ next ∧ t ∈ next := by
      intro t ht l next hl hnext
      unfold searchFrom at hnext
      split at hnext
      · cases hnext
      rename_i hnew
      split at hnext
      · rename_i hin
        rw [Search.finished.injEq] at hnext
        subst hnext
        exact ⟨hl, List.Subset.refl _, by simpa using hin⟩
      · have hfresh : t ∉ before ++ [v] := by simpa using hnew
        refine ih (hpath.snoc hfresh (has_of_mem_targets hends ht)) ?_ hl hnext
        rw [List.length_append, List.length_singleton]
        omega
    cases hfold : (g.targets v).foldl (Search.andThen (g.searchFrom fuel (before ++ [v])))
        (.finished units) with
    | cycle walk =>
      rw [hfold] at h
      cases h
    | finished next =>
      rw [hfold, Search.finished.injEq] at h
      subst h
      obtain ⟨hnext, hsub, hall⟩ := foldl_finished hstep hc hfold
      exact ⟨⟨hall, hnext⟩, fun u hu => List.mem_cons_of_mem _ (hsub hu), List.mem_cons_self⟩

theorem searchAll_eq (g : Graph) :
    g.searchAll =
      (g.nodes.map Node.fqn).foldl (Search.andThen fun units t =>
        if units.contains t then .finished units else g.visit g.nodes.length [] units t)
        (.finished []) := by
  rw [searchAll, List.foldl_map]
  rfl

/-- A search that finds no cycle leaves a closed list of all units. -/
theorem closed_of_findCycle (hends : g.EndsKnown) (h : g.findCycle = none) :
    ∃ units, g.Closed units ∧ ∀ n ∈ g.nodes, n.fqn ∈ units := by
  cases hs : g.searchAll with
  | cycle walk =>
    rw [findCycle, hs] at h
    cases h
  | finished units =>
    rw [searchAll_eq] at hs
    have hstep : ∀ t ∈ g.nodes.map Node.fqn, ∀ l next, g.Closed l →
        (if l.contains t then Search.finished l else g.visit g.nodes.length [] l t) =
          .finished next → g.Closed next ∧ l ⊆ next ∧ t ∈ next := by
      intro t ht l next hl hnext
      split at hnext
      · rename_i hin
        rw [Search.finished.injEq] at hnext
        subst hnext
        exact ⟨hl, List.Subset.refl _, by simpa using hin⟩
      · exact closed_visit hends (.singleton (has_iff_mem_names.mpr ht)) (Nat.le_refl _) hl hnext
    obtain ⟨hc, -, hmem⟩ := foldl_finished hstep (show g.Closed [] from trivial) hs
    exact ⟨units, hc, fun n hn => hmem _ (List.mem_map_of_mem hn)⟩

/-! ### Placing units -/

/-- With a closed list of all units, the placing of units is stuck only when all are placed.

The induction goes through the closed list from its end: what stands behind a unit depends on it or
is placed, so nothing that the unit depends on can be missing. -/
theorem placed_of_stuck (hends : g.EndsKnown) {placed : List String} (hstuck : g.next? placed = none)
    {units : List String} (hc : g.Closed units)
    (hrest : ∀ n ∈ g.nodes, n.fqn ∉ units → n.fqn ∈ placed) :
    ∀ n ∈ g.nodes, n.fqn ∈ placed := by
  induction units with
  | nil => exact fun n hn => hrest n hn (by simp)
  | cons x rest ih =>
    refine ih hc.2 ?_
    intro n hn hnot
    by_cases hx : n.fqn = x
    · have hsources : ∀ s ∈ g.sources n.fqn, s ∈ placed := by
        intro s hs
        obtain ⟨m, hm, hms⟩ :=
          List.mem_map.mp (has_iff_mem_names.mp (has_of_mem_sources hends hs))
        have ht : n.fqn ∈ g.targets s := mem_targets.mpr hs
        rw [← hms]
        refine hrest m hm ?_
        intro hin
        rw [hms] at hin
        rcases List.mem_cons.mp hin with rfl | hin
        · exact hnot (hc.1 _ ht)
        · exact hnot (hc.2.mem_of_target hin ht)
      have hnone := List.find?_eq_none.mp hstuck n hn
      simp only [Bool.and_eq_true, Bool.not_eq_true', List.contains_eq_mem, decide_eq_false_iff_not,
        List.all_eq_true, decide_eq_true_eq, not_and, Classical.not_forall] at hnone
      by_contra hplaced
      obtain ⟨s, hs, hsn⟩ := hnone hplaced
      exact hsn (hsources s hs)
    · exact hrest n hn (by simp [hx, hnot])

/-- Units that are placed without repetition, each behind all that it depends on. -/
structure Placed (g : Graph) (units : List String) : Prop where
  nodup : units.Nodup
  known : ∀ u ∈ units, g.has u = true
  sources : ∀ u ∈ units, ∀ s ∈ g.sources u, s ∈ units ∧ units.idxOf s < units.idxOf u

theorem Placed.picked {units : List String} (h : g.Placed units) : g.Picked units :=
  ⟨h.nodup, h.known⟩

theorem placed_nil (g : Graph) : g.Placed [] := ⟨List.nodup_nil, by simp, by simp⟩

theorem Placed.snoc {placed : List String} (h : g.Placed placed) {n : Node}
    (hn : g.next? placed = some n) : g.Placed (placed ++ [n.fqn]) := by
  have htest := List.find?_some hn
  simp only [Bool.and_eq_true, Bool.not_eq_true', List.contains_eq_mem, decide_eq_false_iff_not,
    List.all_eq_true, decide_eq_true_eq] at htest
  obtain ⟨hnew, hready⟩ := htest
  have hpicked := h.picked.snoc hnew (has_of_mem (List.mem_of_find?_eq_some hn))
  refine ⟨hpicked.nodup, hpicked.known, ?_⟩
  intro u hu s hs
  rcases List.mem_append.mp hu with hu | hu
  · obtain ⟨hmem, hlt⟩ := h.sources u hu s hs
    refine ⟨List.mem_append_left _ hmem, ?_⟩
    rwa [List.idxOf_append_of_mem hmem, List.idxOf_append_of_mem hu]
  · rw [List.mem_singleton.mp hu] at hs ⊢
    have hmem := hready s hs
    refine ⟨List.mem_append_left _ hmem, ?_⟩
    rw [List.idxOf_append_of_mem hmem, List.idxOf_append_of_notMem hnew]
    have := List.idxOf_lt_length_iff.mpr hmem
    omega

/-- Placing goes on as long as it is not stuck, one unit a round. -/
theorem placed_placeFrom (rounds : Nat) {placed : List String} (h : g.Placed placed) :
    g.Placed (g.placeFrom rounds placed) ∧
      ((g.placeFrom rounds placed).length = rounds + placed.length ∨
        g.next? (g.placeFrom rounds placed) = none) := by
  induction rounds generalizing placed with
  | zero => exact ⟨h, Or.inl (by simp [placeFrom])⟩
  | succ rounds ih =>
    rw [placeFrom]
    cases hn : g.next? placed with
    | none => exact ⟨h, Or.inr hn⟩
    | some n =>
      obtain ⟨hp, hl⟩ := ih (h.snoc hn)
      refine ⟨hp, hl.imp_left ?_⟩
      intro hlen
      simp only [hlen, List.length_append, List.length_singleton]
      omega

/-- An order places every unit once, behind all that it depends on. -/
theorem placed_order {names : List String} (h : g.order = .ok names) : g.Placed names := by
  have hp := (placed_placeFrom g.nodes.length (placed_nil g)).1
  unfold order at h
  dsimp only at h
  split at h
  · rw [Except.ok.injEq] at h
    rw [← h]
    exact hp
  · cases h

/-- An order has exactly the names of the units. -/
theorem mem_order {names : List String} (h : g.order = .ok names) {fqn : String} :
    fqn ∈ names ↔ g.has fqn = true := by
  have hp := placed_order h
  refine ⟨hp.known fqn, ?_⟩
  intro hk
  have hlen : names.length = g.nodes.length := by
    unfold order at h
    dsimp only at h
    split at h
    · rename_i hl
      rw [Except.ok.injEq] at h
      rw [← h, hl]
    · cases h
  have hperm : names.Perm (g.nodes.map Node.fqn) :=
    hp.picked.subperm.perm_of_length_le (by simp [hlen])
  exact hperm.mem_iff.mpr (has_iff_mem_names.mp hk)

/-- **A graph without a cycle has an order.** -/
theorem exists_order (hends : g.EndsKnown) (hnames : (g.nodes.map Node.fqn).Nodup)
    (hcycle : g.findCycle = none) : ∃ names, g.order = .ok names := by
  obtain ⟨units, hc, hall⟩ := closed_of_findCycle hends hcycle
  obtain ⟨hp, hend⟩ := placed_placeFrom g.nodes.length (placed_nil g)
  have hlen : (g.placeFrom g.nodes.length []).length = g.nodes.length := by
    rcases hend with hlen | hstuck
    · simpa using hlen
    · have hplaced := placed_of_stuck hends hstuck hc fun n hn hnot => absurd (hall n hn) hnot
      have hle : (g.nodes.map Node.fqn).length ≤ (g.placeFrom g.nodes.length []).length := by
        refine (List.subperm_of_subset hnames ?_).length_le
        intro u hu
        obtain ⟨n, hn, rfl⟩ := List.mem_map.mp hu
        exact hplaced n hn
      have hge := hp.picked.length_le
      rw [List.length_map] at hle
      omega
  exact ⟨g.placeFrom g.nodes.length [], by simp [order, hlen]⟩

end Rollout.Graph
