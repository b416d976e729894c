import Rollout.Graph.Adjacency
import Rollout.Proofs.Graph.Descendants
import Rollout.Proofs.Table

/-!
# Lists of neighbours

Units and edges are added to a graph one after the other, and some of the additions are refused. What
is kept of the graph says one thing four times: the units and the pairs of units with an edge between
them say it all, and the lists of neighbours are read off them. So every list can be written to when
an edge is added, an addition breaks off only before it has written anything, and what is kept is the
graph that grows by the same additions.

**Types.** `Adjacency.Coherent`, `Adjacency.Added`, `Adjacency.Asked`, `Adjacency.Recorded`.

**Results.**
* `addNode_eq`, `addEdge_eq`: what one addition does;
* `Coherent.apply`, `Recorded.apply`, `Coherent.graph_apply`: what one addition keeps;
* `kept_replay`, `replay_spec`: what holds after any additions.
-/

namespace Rollout

namespace Adjacency

variable {a : Adjacency}

open Rollout.Graph (Change)

/-! ### What is kept -/

/-- The other ends of the pairs that have a unit at one of their two ends. -/
def neighboursOf (own other : String × String → String) (pairs : List (String × String))
    (fqn : String) : List String :=
  (pairs.filter fun p => own p == fqn).map other

/-- The units that pairs lead from to a unit. -/
abbrev sourcesOf : List (String × String) → String → List String :=
  neighboursOf Prod.snd Prod.fst

/-- The units that pairs lead to from a unit. -/
abbrev targetsOf : List (String × String) → String → List String :=
  neighboursOf Prod.fst Prod.snd

/-- What is kept says one thing four times: the units and the pairs with an edge between them say it
all, and the lists of neighbours repeat it in the same order. -/
structure Coherent (a : Adjacency) : Prop where
  units : (Table.keys a.nodes).Nodup
  named : ∀ x ∈ a.nodes, x.1 = x.2.fqn ∧
    x.2.fqn = qualifiedName a.stackName x.2.unit.kind x.2.unit.name
  indices : (Table.values a.nodes).map Node.index = List.range a.nodes.length
  single : (Table.keys a.edges).Nodup
  ended : ∀ x ∈ a.edges, x.1 = (x.2.source, x.2.target)
  known : ∀ p ∈ Table.keys a.edges, p.1 ∈ Table.keys a.nodes ∧ p.2 ∈ Table.keys a.nodes
  incoming : a.incoming = (Table.keys a.nodes).map fun t => (t, sourcesOf (Table.keys a.edges) t)
  outgoing : a.outgoing = (Table.keys a.nodes).map fun s => (s, targetsOf (Table.keys a.edges) s)

theorem coherent_empty (stackName : String) (stack : Option Stack) :
    (empty stackName stack).Coherent :=
  ⟨List.nodup_nil, by simp [empty], rfl, List.nodup_nil, by simp [empty],
    by simp [empty, Table.keys], rfl, rfl⟩

theorem has_iff {fqn : String} : a.has fqn = true ↔ fqn ∈ Table.keys a.nodes := Table.has_iff

theorem Coherent.ends_of_edge? (h : a.Coherent) {source target : String} {e : Edge}
    (he : a.edge? source target = some e) : e.source = source ∧ e.target = target := by
  have hends := h.ended _ (Table.mem_of_get? he)
  exact ⟨(congrArg Prod.fst hends).symm, (congrArg Prod.snd hends).symm⟩

/-! ### Adding a unit -/

/-- The unit that is to be added. -/
def newNode (a : Adjacency) (u : UnitDef) : Node :=
  ⟨qualifiedName a.stackName u.kind u.name, u, a.nodes.length⟩

/-- What is kept with one more unit. -/
def withNode (a : Adjacency) (n : Node) : Adjacency :=
  { a with
    nodes := a.nodes ++ [(n.fqn, n)]
    incoming := a.incoming ++ [(n.fqn, [])]
    outgoing := a.outgoing ++ [(n.fqn, [])] }

/-- **Adding a unit** is refused if its name is taken, and else puts it at the end of everything. -/
theorem addNode_eq (h : a.Coherent) (u : UnitDef) : a.addNode u =
    if a.has (a.newNode u).fqn then
      (.error (.refused (.duplicateUnit u.kind u.name a.stackName)), a)
    else (.ok (a.newNode u), a.withNode (a.newNode u)) := by
  unfold addNode
  dsimp only
  by_cases hnew : a.has (qualifiedName a.stackName u.kind u.name) = true
  · rw [if_pos hnew, if_pos (show a.has (a.newNode u).fqn = true from hnew)]
  · rw [if_neg hnew, if_neg (show ¬a.has (a.newNode u).fqn = true from hnew)]
    have hkeys : qualifiedName a.stackName u.kind u.name ∉ Table.keys a.nodes := mt has_iff.mpr hnew
    have hin : qualifiedName a.stackName u.kind u.name ∉ Table.keys a.incoming := by
      rwa [h.incoming, Table.keys_map_keys]
    have hout : qualifiedName a.stackName u.kind u.name ∉ Table.keys a.outgoing := by
      rwa [h.outgoing, Table.keys_map_keys]
    rw [Table.set_of_not_mem hkeys, Table.set_of_not_mem hin, Table.set_of_not_mem hout]
    rfl

theorem neighboursOf_eq_nil {own other : String × String → String} {pairs : List (String × String)}
    {fqn : String} (h : ∀ p ∈ pairs, own p ≠ fqn) : neighboursOf own other pairs fqn = [] := by
  rw [neighboursOf, List.filter_eq_nil_iff.mpr (by simpa using h), List.map_nil]

/-- A unit with a new name keeps things in order: no edge knows it. -/
theorem Coherent.withNode (h : a.Coherent) {u : UnitDef}
    (hnew : (a.newNode u).fqn ∉ Table.keys a.nodes) : (a.withNode (a.newNode u)).Coherent := by
  have hkeys : Table.keys (a.withNode (a.newNode u)).nodes =
      Table.keys a.nodes ++ [(a.newNode u).fqn] := by
    rw [Adjacency.withNode, Table.keys, List.map_append]
    rfl
  refine ⟨?_, ?_, ?_, h.single, h.ended, ?_, ?_, ?_⟩
  · rw [hkeys, ← List.concat_eq_append]
    exact h.units.concat hnew
  · intro x hx
    rcases List.mem_append.mp hx with hx | hx
    · exact h.named x hx
    · rw [List.mem_singleton.mp hx]
      exact ⟨rfl, rfl⟩
  · rw [Adjacency.withNode, Table.values, List.map_append, List.map_append, ← Table.values,
      h.indices, List.length_append, List.length_singleton, List.range_succ]
    rfl
  · intro p hp
    obtain ⟨hs, ht⟩ := h.known p hp
    rw [hkeys]
    exact ⟨List.mem_append_left _ hs, List.mem_append_left _ ht⟩
  · have hnone : sourcesOf (Table.keys a.edges) (a.newNode u).fqn = [] :=
      neighboursOf_eq_nil fun p hp heq => hnew (heq ▸ (h.known p hp).2)
    rw [hkeys, List.map_append, List.map_singleton]
    change a.incoming ++ [_] = _
    rw [h.incoming, ← hnone]
    rfl
  · have hnone : targetsOf (Table.keys a.edges) (a.newNode u).fqn = [] :=
      neighboursOf_eq_nil fun p hp heq => hnew (heq ▸ (h.known p hp).1)
    rw [hkeys, List.map_append, List.map_singleton]
    change a.outgoing ++ [_] = _
    rw [h.outgoing, ← hnone]
    rfl

/-! ### Adding an edge -/

/-- The edge that an addition leads to: its kind is raised by the edge that is there. -/
def newEdge (a : Adjacency) (source target : String) (kind : EdgeKind) : Edge :=
  ⟨source, target, (a.edge? source target).elim kind fun old => old.kind.join kind⟩

/-- What is kept with an edge, and with lists of neighbours that tell of it. -/
def withEdge (a : Adjacency) (e : Edge) : Adjacency :=
  { a with
    edges := Table.set (e.source, e.target) e a.edges
    incoming := (Table.keys a.nodes).map fun t =>
      (t, sourcesOf (Table.keys (Table.set (e.source, e.target) e a.edges)) t)
    outgoing := (Table.keys a.nodes).map fun s =>
      (s, targetsOf (Table.keys (Table.set (e.source, e.target) e a.edges)) s) }

/-- Where there is an edge already, the lists of neighbours tell of it. -/
theorem withEdge_of_mem (h : a.Coherent) {e : Edge}
    (hmem : (e.source, e.target) ∈ Table.keys a.edges) :
    a.withEdge e = { a with edges := Table.set (e.source, e.target) e a.edges } := by
  have hkeys : Table.keys (Table.set (e.source, e.target) e a.edges) = Table.keys a.edges := by
    rw [Table.keys_set, if_pos hmem]
  rw [withEdge, hkeys, ← h.incoming, ← h.outgoing]

/-- Writing a name into the list of a unit that has one. -/
theorem enlist_tabulated {names : List String} (hn : names.Nodup) {fqn : String} (h : fqn ∈ names)
    (name : String) (f : String → List String) :
    enlist fqn name (names.map fun k => (k, f k)) =
      some (names.map fun k => (k, if k = fqn then f k ++ [name] else f k)) := by
  rw [enlist, Table.get?_map_keys, if_pos h, Option.map_some, Table.set_map_keys hn h]
  congr 1
  refine List.map_congr_left fun k _ => ?_
  split
  · rename_i hk
    rw [hk]
  · rfl

theorem neighboursOf_concat (own other : String × String → String)
    (pairs : List (String × String)) (p : String × String) (fqn : String) :
    neighboursOf own other (pairs ++ [p]) fqn =
      if fqn = own p then neighboursOf own other pairs fqn ++ [other p]
      else neighboursOf own other pairs fqn := by
  rw [neighboursOf, List.filter_append, List.map_append, ← neighboursOf]
  split
  · rename_i heq
    simp [heq]
  · rename_i hne
    simp [Ne.symm hne]

/-- Where there is no edge yet, both lists can be written to, and tell of it then. -/
theorem enlist_of_not_mem (h : a.Coherent) {e : Edge} (hs : e.source ∈ Table.keys a.nodes)
    (ht : e.target ∈ Table.keys a.nodes) (hnew : (e.source, e.target) ∉ Table.keys a.edges) :
    enlist e.source e.target a.outgoing = some (a.withEdge e).outgoing ∧
      enlist e.target e.source a.incoming = some (a.withEdge e).incoming := by
  have hkeys : Table.keys (Table.set (e.source, e.target) e a.edges) =
      Table.keys a.edges ++ [(e.source, e.target)] := by rw [Table.keys_set, if_neg hnew]
  constructor
  · rw [h.outgoing, enlist_tabulated h.units hs]
    simp only [withEdge, hkeys, neighboursOf_concat]
  · rw [h.incoming, enlist_tabulated h.units ht]
    simp only [withEdge, hkeys, neighboursOf_concat]

/-- **Adding an edge** is refused if one of its ends is unknown. Else the edge is there afterwards,
for a deployment if one is needed or asked for, and the lists of neighbours tell of it. -/
theorem addEdge_eq (h : a.Coherent) (source target : String) (kind : EdgeKind) :
    a.addEdge source target kind =
      if a.has source then
        if a.has target then
          (.ok (a.newEdge source target kind), a.withEdge (a.newEdge source target kind))
        else (.error (.refused (.unknownUnit target)), a)
      else (.error (.refused (.unknownUnit source)), a) := by
  unfold addEdge
  by_cases hs : a.has source = true
  swap
  · simp [hs]
  by_cases ht : a.has target = true
  swap
  · simp [hs, ht]
  simp only [hs, ht, Bool.not_true, Bool.false_eq_true, if_false, if_true]
  cases hold : a.edge? source target with
  | some old =>
    obtain ⟨rfl, rfl⟩ := h.ends_of_edge? hold
    have hmem : (old.source, old.target) ∈ Table.keys a.edges :=
      List.mem_map_of_mem (Table.mem_of_get? hold)
    by_cases hkeep : old.kind = .deploy ∨ kind = .artifact
    · have hsame : a.newEdge old.source old.target kind = old := by
        have hkind : old.kind.join kind = old.kind := by
          rcases hkeep with hkind | hkind <;> rw [hkind]
          · cases kind <;> rfl
          · cases old.kind <;> rfl
        rw [newEdge, hold, Option.elim_some, hkind]
      simp only [if_pos hkeep, hsame, withEdge_of_mem h hmem]
      rw [Table.set_of_get? hold]
    · have hraised : a.newEdge old.source old.target kind =
          ⟨old.source, old.target, .deploy⟩ := by
        have hkind : old.kind.join kind = .deploy := by
          rw [not_or] at hkeep
          cases kind
          · exact absurd rfl hkeep.2
          · cases old.kind <;> rfl
        rw [newEdge, hold, Option.elim_some, hkind]
      simp only [if_neg hkeep, hraised]
      rw [withEdge_of_mem (e := ⟨old.source, old.target, .deploy⟩) h hmem]
  | none =>
    have hnew : (source, target) ∉ Table.keys a.edges := Table.get?_eq_none_iff.mp hold
    have hedge : a.newEdge source target kind = ⟨source, target, kind⟩ := by
      rw [newEdge, hold, Option.elim_none]
    obtain ⟨hout, hin⟩ := enlist_of_not_mem (e := ⟨source, target, kind⟩) h (has_iff.mp hs)
      (has_iff.mp ht) hnew
    simp only [hout, hin, hedge]
    rfl

/-- An edge between known units keeps things in order. -/
theorem Coherent.withEdge (h : a.Coherent) {e : Edge} (hs : e.source ∈ Table.keys a.nodes)
    (ht : e.target ∈ Table.keys a.nodes) : (a.withEdge e).Coherent := by
  refine ⟨h.units, h.named, h.indices, Table.nodup_keys_set h.single, ?_, ?_, rfl, rfl⟩
  · intro x hx
    rcases Table.mem_of_mem_set hx with rfl | hx
    · rfl
    · exact h.ended x hx
  · intro p hp
    rcases Table.mem_keys_set.mp hp with rfl | hp
    · exact ⟨hs, ht⟩
    · exact h.known p hp

/-! ### The graph that is kept -/

theorem Coherent.node?_graph (h : a.Coherent) (fqn : String) : a.graph.node? fqn = a.node? fqn := by
  refine Table.find?_values fun x hx => ?_
  rw [(h.named x hx).1]
  rfl

theorem Coherent.has_graph (h : a.Coherent) (fqn : String) : a.graph.has fqn = a.has fqn := by
  rw [Graph.has, h.node?_graph]
  rfl

theorem Coherent.edge?_graph (h : a.Coherent) (source target : String) :
    a.graph.edge? source target = a.edge? source target := by
  refine Table.find?_values fun x hx => ?_
  rw [h.ended x hx, Bool.eq_iff_iff]
  simp

/-- An edge that is put into the graph is written under its ends. -/
theorem putEdge_values (e : Edge) {edges : Table (String × String) Edge}
    (h : ∀ x ∈ edges, x.1 = (x.2.source, x.2.target)) :
    Graph.putEdge e (Table.values edges) =
      Table.values (Table.set (e.source, e.target) e edges) := by
  induction edges with
  | nil => rfl
  | cons x rest ih =>
    have hrest := ih fun y hy => h y (List.mem_cons_of_mem _ hy)
    have hx : (x.2.source == e.source && x.2.target == e.target) =
        decide (x.1 = (e.source, e.target)) := by
      rw [h x List.mem_cons_self, Bool.eq_iff_iff]
      simp
    rw [Table.values, List.map_cons, Graph.putEdge, Table.set, hx]
    by_cases hk : x.1 = (e.source, e.target)
    · simp [hk, Table.values]
    · simp only [hk, decide_false, Bool.false_eq_true, if_false, Table.values, List.map_cons]
      rw [← Table.values, ← Table.values, hrest]

/-- Reading the edges behind names of neighbours. -/
theorem Coherent.mapM_edges (h : a.Coherent) {p : String × String → Bool}
    {name : String × String → String} {read : String → Option Edge}
    (hread : ∀ q, p q = true → read (name q) = a.edge? q.1 q.2) :
    (((Table.keys a.edges).filter p).map name).mapM read =
      some ((Table.values a.edges).filter fun e => p (e.source, e.target)) := by
  have hentry : ∀ x ∈ a.edges, Table.get? x.1 a.edges = some x.2 := fun x hx =>
    (Table.get?_eq_some_iff h.single).mpr hx
  have hended := h.ended
  unfold edge? at hread
  generalize a.edges = edges at hread hentry hended ⊢
  suffices hall : ∀ rest : Table (String × String) Edge, (∀ x ∈ rest, x ∈ edges) →
      (((Table.keys rest).filter p).map name).mapM read =
        some ((Table.values rest).filter fun e => p (e.source, e.target)) from
    hall edges fun _ hx => hx
  intro rest hrest
  induction rest with
  | nil => rfl
  | cons x rest ih =>
    have hx := hrest x List.mem_cons_self
    have ih := ih fun y hy => hrest y (List.mem_cons_of_mem _ hy)
    rw [Table.keys, Table.values, List.map_cons, List.map_cons, ← Table.keys, ← Table.values,
      List.filter_cons, List.filter_cons, ← hended x hx]
    cases hp : p x.1 with
    | false => exact ih
    | true =>
      rw [if_pos rfl, if_pos rfl, List.map_cons, List.mapM_cons, hread _ hp, hentry x hx, ih]
      rfl

/-- Reading the edges behind the neighbours of a unit. -/
theorem Coherent.read_neighbours (h : a.Coherent) {own other : String × String → String}
    {fqn : String} {read : String → Option Edge}
    (hread : ∀ q, own q = fqn → read (other q) = a.edge? q.1 q.2) :
    ((Table.get? fqn ((Table.keys a.nodes).map fun k =>
        (k, neighboursOf own other (Table.keys a.edges) k))).bind fun names => names.mapM read) =
      if a.has fqn then
        some ((Table.values a.edges).filter fun e => own (e.source, e.target) == fqn)
      else none := by
  rw [Table.get?_map_keys]
  by_cases hf : fqn ∈ Table.keys a.nodes
  · rw [if_pos hf, if_pos (has_iff.mpr hf), Option.bind_some]
    exact h.mapM_edges fun q hq => hread q (beq_iff_eq.mp hq)
  · rw [if_neg hf, if_neg (mt has_iff.mp hf), Option.bind_none]

/-- **The edges to a unit** are read off its list. -/
theorem Coherent.predecessors_eq (h : a.Coherent) (fqn : String) : a.predecessors fqn =
    if a.has fqn then some (a.graph.incoming fqn) else none := by
  rw [predecessors, h.incoming]
  exact h.read_neighbours fun q hq => by rw [← hq]

/-- **The edges from a unit** are read off its list. -/
theorem Coherent.successors_eq (h : a.Coherent) (fqn : String) : a.successors fqn =
    if a.has fqn then some (a.graph.outgoing fqn) else none := by
  rw [successors, h.outgoing]
  exact h.read_neighbours fun q hq => by rw [← hq]

theorem graph_withNode (n : Node) :
    (a.withNode n).graph = { a.graph with nodes := a.graph.nodes ++ [n] } := by
  simp [graph, withNode, Table.values]

theorem Coherent.graph_withEdge (h : a.Coherent) (e : Edge) :
    (a.withEdge e).graph = { a.graph with edges := Graph.putEdge e a.graph.edges } :=
  congrArg (fun edges => { a.graph with edges := edges }) (putEdge_values e h.ended).symm

/-- A unit that is added to the graph. -/
theorem Coherent.extend_node (h : a.Coherent) (u : UnitDef) : a.graph.extend (.node u) =
    if a.has (a.newNode u).fqn then a.graph else (a.withNode (a.newNode u)).graph := by
  rw [Graph.extend, Graph.addNode]
  dsimp only
  rw [show qualifiedName a.graph.stackName u.kind u.name = (a.newNode u).fqn from rfl, h.has_graph]
  by_cases hnew : a.has (a.newNode u).fqn = true
  · rw [if_pos hnew, if_pos hnew]
  · rw [if_neg hnew, if_neg hnew, graph_withNode]
    simp [newNode, graph, Table.values]

/-- An edge that is added to the graph. -/
theorem Coherent.extend_edge (h : a.Coherent) (source target : String) (kind : EdgeKind) :
    a.graph.extend (.edge source target kind) =
      if a.has source then
        if a.has target then (a.withEdge (a.newEdge source target kind)).graph else a.graph
      else a.graph := by
  rw [Graph.extend, Graph.addEdge]
  dsimp only
  rw [h.has_graph, h.has_graph, h.edge?_graph, h.graph_withEdge]
  by_cases hs : a.has source = true
  swap
  · simp [hs]
  by_cases ht : a.has target = true
  swap
  · simp [hs, ht]
  simp only [hs, ht, Bool.not_true, Bool.false_eq_true, if_false, if_true]
  unfold newEdge
  cases a.edge? source target <;> rfl

/-! ### One addition -/

/-- What an addition is answered with. -/
inductive Added
  | node (n : Node)
  | edge (e : Edge)

/-- Make an addition. -/
def apply (a : Adjacency) : Change → Except Fault Added × Adjacency
  | .node u => ((a.addNode u).1.map Added.node, (a.addNode u).2)
  | .edge source target kind =>
    ((a.addEdge source target kind).1.map Added.edge, (a.addEdge source target kind).2)

/-- An addition is refused before anything is written, or it is made. The graph grows by it in the
same way. -/
theorem apply_cases (h : a.Coherent) (c : Change) :
    (∃ fault, a.apply c = (.error (.refused fault), a) ∧ a.graph.extend c = a.graph) ∨
    (∃ u, c = .node u ∧ (a.newNode u).fqn ∉ Table.keys a.nodes ∧
      a.apply c = (.ok (.node (a.newNode u)), a.withNode (a.newNode u)) ∧
      a.graph.extend c = (a.withNode (a.newNode u)).graph) ∨
    ∃ source target kind, c = .edge source target kind ∧ source ∈ Table.keys a.nodes ∧
      target ∈ Table.keys a.nodes ∧
      a.apply c = (.ok (.edge (a.newEdge source target kind)),
        a.withEdge (a.newEdge source target kind)) ∧
      a.graph.extend c = (a.withEdge (a.newEdge source target kind)).graph := by
  cases c with
  | node u =>
    rw [apply, addNode_eq h, h.extend_node]
    by_cases hnew : a.has (a.newNode u).fqn = true
    · rw [if_pos hnew, if_pos hnew]
      exact Or.inl ⟨_, rfl, rfl⟩
    · rw [if_neg hnew, if_neg hnew]
      exact Or.inr (Or.inl ⟨u, rfl, mt has_iff.mpr hnew, rfl, rfl⟩)
  | edge source target kind =>
    rw [apply, addEdge_eq h, h.extend_edge]
    by_cases hs : a.has source = true
    swap
    · rw [if_neg hs, if_neg hs]
      exact Or.inl ⟨_, rfl, rfl⟩
    rw [if_pos hs, if_pos hs]
    by_cases ht : a.has target = true
    swap
    · rw [if_neg ht, if_neg ht]
      exact Or.inl ⟨_, rfl, rfl⟩
    rw [if_pos ht, if_pos ht]
    exact Or.inr (Or.inr ⟨source, target, kind, rfl, has_iff.mp hs, has_iff.mp ht, rfl, rfl⟩)

/-- **One addition** keeps things in order. -/
theorem Coherent.apply (h : a.Coherent) (c : Change) : (a.apply c).2.Coherent := by
  obtain ⟨fault, hc, -⟩ | ⟨u, -, hnew, hc, -⟩ | ⟨source, target, kind, -, hs, ht, hc, -⟩ :=
    apply_cases h c <;> rw [hc]
  · exact h
  · exact h.withNode hnew
  · exact h.withEdge hs ht

/-- **The graph grows by the same addition.** -/
theorem Coherent.graph_apply (h : a.Coherent) (c : Change) :
    (a.apply c).2.graph = a.graph.extend c := by
  obtain ⟨fault, hc, hg⟩ | ⟨u, -, -, hc, hg⟩ | ⟨source, target, kind, -, -, -, hc, hg⟩ :=
    apply_cases h c <;> rw [hc, hg]

/-- An addition that breaks off has been refused, and has written nothing. -/
theorem Coherent.eq_of_error (h : a.Coherent) {c : Change} {fault : Fault}
    (hfault : (a.apply c).1 = .error fault) :
    (∃ reason, fault = .refused reason) ∧ (a.apply c).2 = a := by
  obtain ⟨reason, hc, -⟩ | ⟨u, -, -, hc, -⟩ | ⟨source, target, kind, -, -, -, hc, -⟩ :=
    apply_cases h c <;> rw [hc] at hfault ⊢
  · exact ⟨⟨reason, (Except.error.inj hfault).symm⟩, rfl⟩
  · cases hfault
  · cases hfault

/-! ### What has been asked for -/

/-- Additions, each with its answer. -/
abbrev Log := List (Change × Except Fault Added)

/-- An edge of a kind has been asked for between two units, and the addition was made. -/
def Asked (log : Log) (source target : String) (kind : EdgeKind) : Prop :=
  ∃ e, (Change.edge source target kind, .ok (Added.edge e)) ∈ log

/-- The unit that an addition has added. -/
def addedNode? : Except Fault Added → Option Node
  | .ok (.node n) => some n
  | _ => none

/-- What is kept tells what has been asked for. -/
structure Recorded (log : Log) (a : Adjacency) : Prop where
  nodes : Table.values a.nodes = log.filterMap fun x => addedNode? x.2
  pairs : ∀ source target, (source, target) ∈ Table.keys a.edges ↔
    ∃ kind, Asked log source target kind
  kinds : ∀ source target e, a.edge? source target = some e →
    (e.kind = .deploy ↔ Asked log source target .deploy)

theorem asked_concat {log : Log} {c : Change} {answer : Except Fault Added}
    {source target : String} {kind : EdgeKind} :
    Asked (log ++ [(c, answer)]) source target kind ↔ Asked log source target kind ∨
      c = .edge source target kind ∧ ∃ e, answer = .ok (.edge e) := by
  simp only [Asked, List.mem_append, List.mem_singleton, Prod.mk.injEq, exists_or, exists_and_left]
  refine or_congr Iff.rfl (and_congr eq_comm ?_)
  exact exists_congr fun e => eq_comm

theorem join_eq_deploy_iff {k k' : EdgeKind} : k.join k' = .deploy ↔ k = .deploy ∨ k' = .deploy := by
  cases k <;> cases k' <;> simp [EdgeKind.join]

/-- An addition of an edge raises what has been asked for by that edge alone. -/
theorem Recorded.withEdge {log : Log} (h : Recorded log a) (source target : String)
    (kind : EdgeKind) :
    Recorded (log ++ [(.edge source target kind, .ok (.edge (a.newEdge source target kind)))])
      (a.withEdge (a.newEdge source target kind)) := by
  have hasked (s t : String) (k : EdgeKind) :
      Asked (log ++ [(.edge source target kind, .ok (.edge (a.newEdge source target kind)))]) s t k ↔
        Asked log s t k ∨ s = source ∧ t = target ∧ k = kind := by
    rw [asked_concat]
    refine or_congr Iff.rfl ⟨?_, ?_⟩
    · rintro ⟨heq, -⟩
      cases heq
      exact ⟨rfl, rfl, rfl⟩
    · rintro ⟨rfl, rfl, rfl⟩
      exact ⟨rfl, _, rfl⟩
  refine ⟨?_, fun s t => ?_, fun s t e he => ?_⟩
  · rw [List.filterMap_append, ← h.nodes]
    exact (List.append_nil _).symm
  · change (s, t) ∈ Table.keys (Table.set (source, target) _ a.edges) ↔ _
    simp only [Table.mem_keys_set, Prod.mk.injEq, h.pairs, hasked, exists_or]
    rw [or_comm]
    refine or_congr Iff.rfl ⟨?_, ?_⟩
    · rintro ⟨hs, ht⟩
      exact ⟨kind, hs, ht, rfl⟩
    · rintro ⟨k, hs, ht, -⟩
      exact ⟨hs, ht⟩
  · change Table.get? (s, t) (Table.set (source, target) _ a.edges) = some e at he
    rw [hasked]
    by_cases hends : (s, t) = (source, target)
    · obtain ⟨rfl, rfl⟩ := Prod.mk.inj hends
      rw [Table.get?_set_self, Option.some.injEq] at he
      rw [← he, newEdge]
      cases hold : a.edge? s t with
      | none =>
        have hnever : ¬Asked log s t .deploy := fun hask =>
          Table.get?_eq_none_iff.mp hold ((h.pairs s t).mpr ⟨_, hask⟩)
        simp [hnever, eq_comm]
      | some old =>
        rw [Option.elim_some, join_eq_deploy_iff, h.kinds s t old hold]
        simp [eq_comm]
    · rw [Table.get?_set_of_ne hends] at he
      rw [h.kinds s t e he]
      refine (or_iff_left ?_).symm
      rintro ⟨rfl, rfl, -⟩
      exact hends rfl

/-- What is no addition of an edge asks for none. -/
theorem asked_concat_of_ne {log : Log} {c : Change} {answer : Except Fault Added}
    (h : ∀ e, answer ≠ .ok (.edge e)) {source target : String} {kind : EdgeKind} :
    Asked (log ++ [(c, answer)]) source target kind ↔ Asked log source target kind := by
  rw [asked_concat]
  refine or_iff_left ?_
  rintro ⟨-, e, he⟩
  exact h e he

/-- **One addition** is recorded. -/
theorem Recorded.apply {log : Log} (h : Recorded log a) (hc : a.Coherent) (c : Change) :
    Recorded (log ++ [(c, (a.apply c).1)]) (a.apply c).2 := by
  obtain ⟨fault, heq, -⟩ | ⟨u, rfl, -, heq, -⟩ | ⟨source, target, kind, rfl, -, -, heq, -⟩ :=
    apply_cases hc c <;> rw [heq]
  · refine ⟨?_, fun s t => ?_, fun s t e he => ?_⟩
    · rw [List.filterMap_append, ← h.nodes]
      exact (List.append_nil _).symm
    · have hasked (k : EdgeKind) :
          Asked (log ++ [(c, .error (.refused fault))]) s t k ↔ Asked log s t k :=
        asked_concat_of_ne (by simp)
      simp only [hasked]
      exact h.pairs s t
    · rw [asked_concat_of_ne (by simp)]
      exact h.kinds s t e he
  · refine ⟨?_, fun s t => ?_, fun s t e he => ?_⟩
    · rw [List.filterMap_append, ← h.nodes, Adjacency.withNode, Table.values, List.map_append]
      rfl
    · have hasked (k : EdgeKind) :
          Asked (log ++ [(.node u, .ok (.node (a.newNode u)))]) s t k ↔ Asked log s t k :=
        asked_concat_of_ne (by simp)
      simp only [hasked]
      exact h.pairs s t
    · rw [asked_concat_of_ne (by simp)]
      exact h.kinds s t e he
  · exact h.withEdge source target kind

/-! ### Pairs that lists tell of -/

/-- The pairs that the lists of predecessors tell of. -/
def incomingPairs (a : Adjacency) : List (String × String) :=
  a.incoming.flatMap fun x => x.2.map fun source => (source, x.1)

/-- The pairs that the lists of successors tell of. -/
def outgoingPairs (a : Adjacency) : List (String × String) :=
  a.outgoing.flatMap fun x => x.2.map fun target => (x.1, target)

/-- Pairs can be gathered by one of their ends. -/
theorem perm_gathered {names : List String} (hn : names.Nodup) {pairs : List (String × String)}
    {own other : String × String → String} (pair : String → String → String × String)
    (hpair : ∀ p, pair (own p) (other p) = p) (h : ∀ p ∈ pairs, own p ∈ names) :
    ((names.map fun k => (k, neighboursOf own other pairs k)).flatMap fun x =>
      x.2.map (pair x.1)).Perm pairs := by
  have hperm : (pairs.filterMap some).Perm (names.flatMap fun k =>
      (pairs.filter fun p => some (own p) = some k).filterMap some) :=
    Table.perm_flatMap_filter hn fun p hp _ => ⟨own p, h p hp, rfl⟩
  simp only [List.filterMap_some, Option.some.injEq] at hperm
  refine List.Perm.trans (List.Perm.of_eq ?_) hperm.symm
  rw [List.flatMap_map]
  refine List.flatMap_congr fun k _ => ?_
  rw [neighboursOf, List.map_map]
  refine (List.map_congr_left fun p hp => ?_).trans (List.map_id _)
  rw [Function.comp_apply, ← beq_iff_eq.mp (List.mem_filter.mp hp).2]
  exact hpair p

theorem Coherent.incomingPairs_perm (h : a.Coherent) :
    a.incomingPairs.Perm (Table.keys a.edges) := by
  rw [incomingPairs, h.incoming]
  exact perm_gathered h.units (fun target source => (source, target)) (fun _ => rfl)
    fun p hp => (h.known p hp).2

theorem Coherent.outgoingPairs_perm (h : a.Coherent) :
    a.outgoingPairs.Perm (Table.keys a.edges) := by
  rw [outgoingPairs, h.outgoing]
  exact perm_gathered h.units (fun source target => (source, target)) (fun _ => rfl)
    fun p hp => (h.known p hp).1

/-! ### Any additions -/

/-- Make additions one after the other, whatever becomes of them, and write down the answers. -/
def replay (a : Adjacency) (changes : List Change) : Log × Adjacency :=
  changes.foldl (fun kept c => (kept.1 ++ [(c, (kept.2.apply c).1)], (kept.2.apply c).2)) ([], a)

theorem replay_concat (changes : List Change) (c : Change) : a.replay (changes ++ [c]) =
    ((a.replay changes).1 ++ [(c, ((a.replay changes).2.apply c).1)],
      ((a.replay changes).2.apply c).2) := by
  rw [replay, List.foldl_append]
  rfl

/-- Any additions keep things in order, are recorded, and let the graph grow in the same way. -/
theorem kept_replay (stackName : String) (stack : Option Stack) (changes : List Change) :
    ((empty stackName stack).replay changes).2.Coherent ∧
      Recorded ((empty stackName stack).replay changes).1
        ((empty stackName stack).replay changes).2 ∧
      ((empty stackName stack).replay changes).1.map Prod.fst = changes ∧
      ((empty stackName stack).replay changes).2.graph =
        Graph.assemble stackName stack changes := by
  induction changes using List.reverseRecOn with
  | nil =>
    refine ⟨coherent_empty stackName stack, ⟨rfl, ?_, ?_⟩, rfl, rfl⟩
    · intro s t
      simp [replay, empty, Asked, Table.keys]
    · intro s t e he
      cases he
  | append_singleton changes c ih =>
    obtain ⟨hcoherent, hrecorded, hcalls, hgraph⟩ := ih
    rw [replay_concat]
    refine ⟨hcoherent.apply c, hrecorded.apply hcoherent c, ?_, ?_⟩
    · rw [List.map_append, hcalls]
      rfl
    · rw [hcoherent.graph_apply, hgraph, Graph.assemble, Graph.assemble, List.foldl_append]
      rfl

/-- **What is kept of a graph**, after any additions of units and edges, those that are refused
included. The units are those that were added, in that order and numbered in it, each under its
qualified name. Every unit has its two lists of neighbours. The edges, the lists of predecessors and
the lists of successors tell of the same pairs of units, each of them once. These are the pairs that
an edge was added between, and the edge is one for a deployment exactly if a deployment was asked for
by one of these additions. An addition that breaks off has been refused, and leaves everything as it
was. What is kept is the graph that grows by the same additions, and the edges at a unit are read off
its lists. -/
theorem replay_spec (stackName : String) (stack : Option Stack) (changes : List Change) :
    ∃ log a, (empty stackName stack).replay changes = (log, a) ∧ log.map Prod.fst = changes ∧
      (Table.values a.nodes = log.filterMap (fun x => addedNode? x.2) ∧
        (Table.values a.nodes).map Node.index = List.range a.nodes.length ∧
        (Table.keys a.nodes).Nodup ∧
        ∀ x ∈ a.nodes, x.1 = x.2.fqn ∧
          x.2.fqn = qualifiedName a.stackName x.2.unit.kind x.2.unit.name) ∧
      (Table.keys a.incoming = Table.keys a.nodes ∧ Table.keys a.outgoing = Table.keys a.nodes) ∧
      ((Table.keys a.edges).Nodup ∧ a.incomingPairs.Perm (Table.keys a.edges) ∧
        a.outgoingPairs.Perm (Table.keys a.edges) ∧
        ∀ x ∈ a.edges, x.1 = (x.2.source, x.2.target) ∧ a.has x.2.source = true ∧
          a.has x.2.target = true) ∧
      (∀ source target, ((source, target) ∈ Table.keys a.edges ↔
          ∃ kind, Asked log source target kind) ∧
        ∀ e, a.edge? source target = some e →
          (e.kind = .deploy ↔ Asked log source target .deploy)) ∧
      (∀ c fault, (a.apply c).1 = .error fault →
        (∃ reason, fault = .refused reason) ∧ (a.apply c).2 = a) ∧
      a.graph = Graph.assemble stackName stack changes ∧
      ∀ fqn, a.predecessors fqn = (if a.has fqn then
          some ((Graph.assemble stackName stack changes).incoming fqn) else none) ∧
        a.successors fqn = (if a.has fqn then
          some ((Graph.assemble stackName stack changes).outgoing fqn) else none) := by
  obtain ⟨h, hrecorded, hcalls, hgraph⟩ := kept_replay stackName stack changes
  generalize (empty stackName stack).replay changes = kept at *
  obtain ⟨log, a⟩ := kept
  refine ⟨log, a, rfl, hcalls, ⟨hrecorded.nodes, h.indices, h.units, h.named⟩, ⟨?_, ?_⟩,
    ⟨h.single, h.incomingPairs_perm, h.outgoingPairs_perm, ?_⟩,
    fun s t => ⟨hrecorded.pairs s t, hrecorded.kinds s t⟩, fun c fault => h.eq_of_error, hgraph, ?_⟩
  · rw [h.incoming, Table.keys_map_keys]
  · rw [h.outgoing, Table.keys_map_keys]
  · intro x hx
    have hends := h.ended x hx
    obtain ⟨hs, ht⟩ := h.known x.1 (List.mem_map_of_mem hx)
    rw [hends] at hs ht
    exact ⟨hends, has_iff.mpr hs, has_iff.mpr ht⟩
  · intro fqn
    rw [← hgraph]
    exact ⟨h.predecessors_eq fqn, h.successors_eq fqn⟩

-- a deployment that is asked for first stays needed, and what is refused changes nothing
example :
    let kept := ((empty "shop" none).replay [.node { (default : UnitDef) with name := "db" },
      .node { (default : UnitDef) with name := "web" },
      .edge "shop.service.db" "shop.service.web" .deploy,
      .edge "shop.service.db" "shop.service.cache" .artifact,
      .edge "shop.service.db" "shop.service.web" .artifact]).2
    kept.successors "shop.service.db" = some [⟨"shop.service.db", "shop.service.web", .deploy⟩] ∧
      kept.incoming = [("shop.service.db", []), ("shop.service.web", ["shop.service.db"])] := by
  exact ⟨rfl, rfl⟩

end Adjacency

end Rollout
