import Rollout.Proofs.Graph.Connected
import Rollout.Proofs.Graph.Cycle

/-!
# The earliest order of a graph

A graph grows from nothing by adding units and edges. Whatever is added, in whatever order, and
whatever of it is refused: names stay different, edges run between units, and units are numbered as
they were declared. Of such a graph either the search finds a closed walk, or the units can be put
into rows in which every edge leads on. The order is one of these rows, and no other one is earlier
where the two first differ.

The last point is an induction along another row. As long as both rows agree, the next unit of the
other row has all its dependencies placed; the order takes the earliest unit of which this is true,
so where the rows part, the order has the earlier unit.

**Types.** `Graph.Change`, `Graph.Consistent`, `Graph.Sorts`, `Graph.Ahead`.

**Results.**
* `consistent_assemble`: what holds of every graph that grows in this way;
* `placeFrom_earliest`: placing goes along any row, or is ahead of it;
* `assembled_order_spec`: what the order and the search for a cycle return.
-/

namespace Rollout.Graph

variable {g : Graph}

/-! ### Graphs that grow from nothing -/

/-- Something to be added to a graph. -/
inductive Change
  | node (u : UnitDef)
  | edge (source target : String) (kind : EdgeKind)

/-- The graph after an addition. What is refused leaves the graph as it was. -/
def extend (g : Graph) : Change → Graph
  | .node u =>
    match g.addNode u with
    | .ok (grown, _) => grown
    | .error _ => g
  | .edge source target kind =>
    match g.addEdge source target kind with
    | .ok (grown, _) => grown
    | .error _ => g

/-- The graph that grows from nothing by some additions. -/
def assemble (stackName : String) (stack : Option Stack) (changes : List Change) : Graph :=
  changes.foldl extend { empty stackName with stack := stack }

/-- What holds of a graph however it has grown. -/
structure Consistent (g : Graph) : Prop where
  names : (g.nodes.map Node.fqn).Nodup
  ends : g.EndsKnown
  indices : g.nodes.map Node.index = List.range g.nodes.length

theorem consistent_empty (stackName : String) (stack : Option Stack) :
    { empty stackName with stack := stack }.Consistent :=
  ⟨List.nodup_nil, by simp [EndsKnown, empty], rfl⟩

theorem Consistent.addNode {g' : Graph} {n : Node} {u : UnitDef} (h : g.Consistent)
    (hadd : g.addNode u = .ok (g', n)) : g'.Consistent := by
  unfold Graph.addNode at hadd
  dsimp only at hadd
  split at hadd
  · cases hadd
  rename_i hnew
  rw [Except.ok.injEq, Prod.mk.injEq] at hadd
  obtain ⟨rfl, -⟩ := hadd
  have hfresh : qualifiedName g.stackName u.kind u.name ∉ g.nodes.map Node.fqn :=
    fun hmem => hnew (has_iff_mem_names.mpr hmem)
  refine ⟨?_, ?_, ?_⟩
  · rw [List.map_append, List.map_singleton, ← List.concat_eq_append]
    exact h.names.concat hfresh
  · intro e he
    obtain ⟨hs, ht⟩ := h.ends e he
    simp only [has_append]
    rw [show g.has e.source = true from hs, show g.has e.target = true from ht]
    exact ⟨rfl, rfl⟩
  · simp only [List.map_append, List.map_singleton, h.indices, List.length_append,
      List.length_singleton, List.range_succ]

theorem Consistent.addEdge {g' : Graph} {e : Edge} {source target : String} {kind : EdgeKind}
    (h : g.Consistent) (hadd : g.addEdge source target kind = .ok (g', e)) : g'.Consistent := by
  obtain ⟨hgrows, -, -⟩ := grows_addEdge hadd
  refine ⟨?_, hgrows.ends h.ends, ?_⟩
  · rw [hgrows.nodes]
    exact h.names
  · rw [hgrows.nodes]
    exact h.indices

theorem Consistent.extend (h : g.Consistent) (c : Change) : (g.extend c).Consistent := by
  cases c with
  | node u =>
    rw [Graph.extend]
    split
    · rename_i hadd
      exact h.addNode hadd
    · exact h
  | edge source target kind =>
    rw [Graph.extend]
    split
    · rename_i hadd
      exact h.addEdge hadd
    · exact h

/-- **However a graph has grown**, names are different, edges run between units, and units are
numbered as they were declared. -/
theorem consistent_assemble (stackName : String) (stack : Option Stack) (changes : List Change) :
    (assemble stackName stack changes).Consistent := by
  have hrun : ∀ g : Graph, g.Consistent → (changes.foldl Graph.extend g).Consistent := by
    induction changes with
    | nil => exact fun g h => h
    | cons c rest ih => exact fun g h => ih (g.extend c) (h.extend c)
  exact hrun _ (consistent_empty stackName stack)

/-! ### Rows in which every edge leads on -/

/-- All units in a row in which every edge leads on. -/
structure Sorts (g : Graph) (row : List Node) : Prop where
  perm : row.Perm g.nodes
  edges : ∀ e ∈ g.edges,
    (row.map Node.fqn).idxOf e.source < (row.map Node.fqn).idxOf e.target

/-- One row is another one, or has the unit that was declared earlier where the two first differ. -/
def Ahead (row other : List Node) : Prop :=
  row = other ∨ List.Lex (· < ·) (row.map Node.index) (other.map Node.index)

theorem Ahead.cons {row other : List Node} (n : Node) (h : Ahead row other) :
    Ahead (n :: row) (n :: other) :=
  h.imp (congrArg (n :: ·)) List.Lex.cons

/-- Nodes are told by their names. -/
theorem filterMap_node? (hn : (g.nodes.map Node.fqn).Nodup) {row : List Node}
    (h : ∀ n ∈ row, n ∈ g.nodes) : (row.map Node.fqn).filterMap g.node? = row := by
  induction row with
  | nil => rfl
  | cons n rest ih =>
    rw [List.map_cons, List.filterMap_cons_some (node?_of_mem hn (h n List.mem_cons_self)),
      ih fun m hm => h m (List.mem_cons_of_mem _ hm)]

/-- An order is a row of all units in which every edge leads on. -/
theorem Consistent.sorts_of_order (h : g.Consistent) {names : List String}
    (horder : g.order = .ok names) : ∃ row, names = row.map Node.fqn ∧ g.Sorts row := by
  have hplaced := placed_order horder
  have hperm : names.Perm (g.nodes.map Node.fqn) :=
    (List.perm_ext_iff_of_nodup hplaced.nodup h.names).mpr fun fqn =>
      (mem_order horder).trans has_iff_mem_names
  have hrow : (names.filterMap g.node?).Perm g.nodes := by
    have := hperm.filterMap g.node?
    rwa [filterMap_node? h.names fun _ hn => hn] at this
  have hnames : (names.filterMap g.node?).map Node.fqn = names := by
    rw [List.map_filterMap]
    conv_rhs => rw [← List.filterMap_some (l := names)]
    refine List.filterMap_congr fun fqn hfqn => ?_
    obtain ⟨n, hn⟩ := exists_node?_of_has (hplaced.known fqn hfqn)
    rw [hn, Option.map_some, (mem_of_node? hn).2]
  refine ⟨names.filterMap g.node?, hnames.symm, hrow, fun e he => ?_⟩
  rw [hnames]
  have htarget : e.target ∈ names := (mem_order horder).mpr (h.ends e he).2
  have hsource : e.source ∈ g.sources e.target :=
    List.mem_map_of_mem (List.mem_filter.mpr ⟨he, by simp⟩)
  exact (hplaced.sources e.target htarget e.source hsource).2

/-- With all units in such a row there is no cycle. -/
theorem Sorts.acyclic {row : List Node} (h : g.Sorts row) : g.Acyclic := by
  have hforward : ∀ v t, g.Reaches EdgeKind.all v t →
      (row.map Node.fqn).idxOf v < (row.map Node.fqn).idxOf t := by
    intro v t hpath
    induction hpath with
    | single hedge =>
      obtain ⟨e, he, rfl, rfl, -⟩ := hedge
      exact h.edges e he
    | tail _ hedge ih =>
      obtain ⟨e, he, rfl, rfl, -⟩ := hedge
      exact ih.trans (h.edges e he)
  exact fun v hpath => (hforward v v hpath).false

/-- Where a row goes on, the next unit is not placed and all that it depends on is. -/
theorem Sorts.ready (hnames : (g.nodes.map Node.fqn).Nodup) {done other : List Node} {m : Node}
    (h : g.Sorts (done ++ m :: other)) :
    m ∈ g.nodes ∧ m.fqn ∉ done.map Node.fqn ∧ ∀ s ∈ g.sources m.fqn, s ∈ done.map Node.fqn := by
  have hm : m ∈ g.nodes := h.perm.mem_iff.mp (by simp)
  have hnodup : ((done ++ m :: other).map Node.fqn).Nodup :=
    (h.perm.map Node.fqn).nodup_iff.mpr hnames
  have hnew : m.fqn ∉ done.map Node.fqn := by
    rw [List.map_append, List.map_cons] at hnodup
    exact fun hmem => (List.nodup_append.mp hnodup).2.2 _ hmem _ List.mem_cons_self rfl
  refine ⟨hm, hnew, fun s hs => ?_⟩
  obtain ⟨e, he, rfl⟩ := List.mem_map.mp hs
  obtain ⟨hedge, htarget⟩ := List.mem_filter.mp he
  have hlt := h.edges e hedge
  rw [beq_iff_eq.mp htarget, List.map_append, List.idxOf_append_of_notMem hnew, List.map_cons,
    List.idxOf_cons_self, Nat.add_zero] at hlt
  by_contra hmissing
  rw [List.idxOf_append_of_notMem hmissing] at hlt
  omega

/-! ### The order is the earliest row -/

/-- The unit that is placed next is declared no later than any other one that could be placed. -/
theorem Consistent.next?_le (h : g.Consistent) {placed : List String} {n m : Node}
    (hn : g.next? placed = some n) (hm : m ∈ g.nodes) (hnew : m.fqn ∉ placed)
    (hready : ∀ s ∈ g.sources m.fqn, s ∈ placed) : n.index ≤ m.index := by
  have hsorted : g.nodes.Pairwise fun a b => a.index < b.index := by
    rw [← List.pairwise_map, h.indices]
    exact List.pairwise_lt_range
  obtain ⟨-, before, behind, hnodes, hskipped⟩ := List.find?_eq_some_iff_append.mp hn
  rw [hnodes] at hm hsorted
  rcases List.mem_append.mp hm with hm | hm
  · have hunfit : ¬∀ s ∈ g.sources m.fqn, s ∈ placed := by simpa [hnew] using hskipped m hm
    exact absurd hready hunfit
  · rcases List.mem_cons.mp hm with rfl | hm
    · exact Nat.le_refl _
    · exact Nat.le_of_lt ((List.pairwise_cons.mp (List.pairwise_append.mp hsorted).2.1).1 m hm)

/-- A unit that could be placed keeps the placing from being stuck. -/
theorem exists_next? {placed : List String} {m : Node} (hm : m ∈ g.nodes) (hnew : m.fqn ∉ placed)
    (hready : ∀ s ∈ g.sources m.fqn, s ∈ placed) : ∃ n, g.next? placed = some n := by
  refine Option.isSome_iff_exists.mp (List.find?_isSome.mpr ⟨m, hm, ?_⟩)
  simpa [hnew] using hready

/-- Placing goes on with units of the graph. -/
theorem exists_row_placeFrom (rounds : Nat) (placed : List String) :
    ∃ row : List Node, (∀ n ∈ row, n ∈ g.nodes) ∧
      g.placeFrom rounds placed = placed ++ row.map Node.fqn := by
  induction rounds generalizing placed with
  | zero => exact ⟨[], by simp, by simp [placeFrom]⟩
  | succ rounds ih =>
    rw [placeFrom]
    cases hn : g.next? placed with
    | none => exact ⟨[], by simp, by simp⟩
    | some n =>
      obtain ⟨row, hrow, hplace⟩ := ih (placed ++ [n.fqn])
      refine ⟨n :: row, ?_, by simp [hplace]⟩
      exact List.forall_mem_cons.mpr ⟨List.mem_of_find?_eq_some hn, hrow⟩

/-- **Placing goes along any row or is ahead of it.** From where the two agree, the units that are
placed are declared no later, where they first differ, than those of the row. -/
theorem Consistent.placeFrom_earliest (h : g.Consistent) {done other : List Node}
    (hother : g.Sorts (done ++ other)) :
    ∃ row : List Node, (∀ n ∈ row, n ∈ g.nodes) ∧
      g.placeFrom other.length (done.map Node.fqn) = (done ++ row).map Node.fqn ∧
      Ahead row other := by
  induction other generalizing done with
  | nil => exact ⟨[], by simp, by simp [placeFrom], Or.inl rfl⟩
  | cons m other ih =>
    obtain ⟨hm, hnew, hready⟩ := hother.ready h.names
    obtain ⟨n, hn⟩ := exists_next? hm hnew hready
    have hmem : n ∈ g.nodes := List.mem_of_find?_eq_some hn
    have hle : n.index ≤ m.index := h.next?_le hn hm hnew hready
    have hplace : g.placeFrom (m :: other).length (done.map Node.fqn) =
        g.placeFrom other.length ((done ++ [n]).map Node.fqn) := by
      rw [List.length_cons, placeFrom, hn, List.map_append, List.map_singleton]
    rcases Nat.lt_or_eq_of_le hle with hlt | heq
    · obtain ⟨row, hrow, hrest⟩ :=
        exists_row_placeFrom (g := g) other.length ((done ++ [n]).map Node.fqn)
      refine ⟨n :: row, List.forall_mem_cons.mpr ⟨hmem, hrow⟩, ?_, ?_⟩
      · rw [hplace, hrest]
        simp
      · exact Or.inr (List.Lex.rel hlt)
    · have hsame : n = m := by
        have hindices : (g.nodes.map Node.index).Nodup := by
          rw [h.indices]
          exact List.nodup_range
        exact List.inj_on_of_nodup_map hindices hmem hm heq
      subst hsame
      have hnext : g.Sorts ((done ++ [n]) ++ other) := by simpa using hother
      obtain ⟨row, hrow, hrest, hahead⟩ := ih hnext
      refine ⟨n :: row, List.forall_mem_cons.mpr ⟨hmem, hrow⟩, ?_, hahead.cons n⟩
      rw [hplace, hrest]
      simp

/-- An order is the earliest of all rows in which every edge leads on. -/
theorem Consistent.earliest (h : g.Consistent) {row other : List Node}
    (horder : g.order = .ok (row.map Node.fqn)) (hrow : g.Sorts row) (hother : g.Sorts other) :
    Ahead row other := by
  have hstart : g.Sorts ([] ++ other) := by simpa using hother
  obtain ⟨found, hfound, hplace, hahead⟩ := h.placeFrom_earliest hstart
  have hnames : row.map Node.fqn = found.map Node.fqn := by
    rw [hother.perm.length_eq] at hplace
    unfold order at horder
    dsimp only at horder
    split at horder
    · rw [Except.ok.injEq] at horder
      rw [← horder]
      exact hplace
    · cases horder
  have hsame : row = found := by
    rw [← filterMap_node? h.names fun n hn => hrow.perm.mem_iff.mp hn, hnames,
      filterMap_node? h.names hfound]
  rw [hsame]
  exact hahead

/-- Where the search finds a walk, the order is refused with it. -/
theorem Consistent.order_of_findCycle (h : g.Consistent) {walk : List String}
    (hfound : g.findCycle = some walk) : g.order = .error (.cycle walk) := by
  cases horder : g.order with
  | ok names =>
    obtain ⟨row, -, hrow⟩ := h.sorts_of_order horder
    rw [(findCycle_eq_none_iff h.ends).mpr hrow.acyclic] at hfound
    cases hfound
  | error fault =>
    unfold order at horder
    dsimp only at horder
    split at horder
    · cases horder
    · rw [← horder, hfound, Option.getD_some]

/-- **Orders and cycles.** However a graph has grown, its units are numbered as they were declared.
Without a cycle the search finds nothing, and the order is a row of all units in which every edge
leads on: of all such rows the one with the smallest numbers, compared unit by unit. With a cycle the
search finds a closed walk along edges, and the order is refused with that walk. -/
theorem assembled_order_spec (stackName : String) (stack : Option Stack) (changes : List Change) :
    (assemble stackName stack changes).nodes.map Node.index =
        List.range (assemble stackName stack changes).nodes.length ∧
      ((assemble stackName stack changes).Acyclic →
        (assemble stackName stack changes).findCycle = none ∧
        ∃ row, (assemble stackName stack changes).order = .ok (row.map Node.fqn) ∧
          (assemble stackName stack changes).Sorts row ∧
          ∀ other, (assemble stackName stack changes).Sorts other → Ahead row other) ∧
      (¬(assemble stackName stack changes).Acyclic →
        ∃ walk, (assemble stackName stack changes).findCycle = some walk ∧
          (assemble stackName stack changes).ClosedWalk walk ∧
          (assemble stackName stack changes).order = .error (.cycle walk)) := by
  have h := consistent_assemble stackName stack changes
  refine ⟨h.indices, fun hacyclic => ?_, fun hcyclic => ?_⟩
  · have hnone := (findCycle_eq_none_iff h.ends).mpr hacyclic
    obtain ⟨names, horder⟩ := exists_order h.ends h.names hnone
    obtain ⟨row, rfl, hrow⟩ := h.sorts_of_order horder
    exact ⟨hnone, row, horder, hrow, fun other hother => h.earliest horder hrow hother⟩
  · rw [← findCycle_eq_none_iff h.ends] at hcyclic
    obtain ⟨walk, hfound⟩ := Option.ne_none_iff_exists'.mp hcyclic
    exact ⟨walk, hfound, closedWalk_of_findCycle hfound, h.order_of_findCycle hfound⟩

-- a unit goes before what needs it, even if it is declared later
example :
    (assemble "shop" none [.node { (default : UnitDef) with name := "web" },
      .node { (default : UnitDef) with name := "db" },
      .edge "shop.service.db" "shop.service.web" .deploy]).order =
        .ok ["shop.service.db", "shop.service.web"] := by rfl

-- a unit that needs itself is a cycle
example :
    (assemble "shop" none [.node { (default : UnitDef) with name := "db" },
      .edge "shop.service.db" "shop.service.db" .deploy]).order =
        .error (.cycle ["shop.service.db", "shop.service.db"]) := by rfl

end Rollout.Graph
