import Mathlib.Data.List.Induction
import Mathlib.Logic.Relation
import Mathlib.Order.WellFounded
import Rollout.Proofs.Graph.Order
import Rollout.Proofs.Table
import Rollout.Run.Step

/-!
# What plans say

The pairs of a plan are the units with the requested phases that they have, each once. A pair waits
for pairs of the plan only, and never for itself, not even in a roundabout way. Directly or
indirectly it waits for all earlier requested phases of its unit and for the gates of all edges to
its unit: only the first phase of a unit waits for the gates, and the later phases follow it.

**Types.** `Setup.Behind`.

**Results.**
* `mem_keys_plan`, `nodup_keys_plan`: the pairs of a plan;
* `gate?_eq_some_iff`: the gate of an edge;
* `waits_subset`, `wellFounded_waits`: what pairs wait for;
* `behind_earlier`, `behind_gate`: what pairs wait for indirectly.
-/

namespace Rollout

/-! ### Requested phases -/

/-- Requested phases come in their order. -/
theorem sorted_requestedPhases (phases : List Phase) :
    (requestedPhases phases).Pairwise fun p q => p.index < q.index := by
  refine List.Pairwise.filter _ ?_
  simp [Phase.all, Phase.index]

@[simp] theorem mem_requestedPhases {phases : List Phase} {p : Phase} :
    p ∈ requestedPhases phases ↔ p ∈ phases := by
  cases p <;> simp [requestedPhases, Phase.all]

/-- The last of phases in their order is the latest one. -/
theorem getLast?_eq_some_iff {phases : List Phase}
    (h : phases.Pairwise fun p q => p.index < q.index) {p : Phase} :
    phases.getLast? = some p ↔ p ∈ phases ∧ ∀ q ∈ phases, q.index ≤ p.index := by
  rcases List.eq_nil_or_concat phases with rfl | ⟨before, last, rfl⟩
  · simp
  · rw [List.concat_eq_append, List.pairwise_append] at h
    have hlt : ∀ q ∈ before, q.index < last.index := fun q hq => h.2.2 q hq last (by simp)
    rw [List.concat_eq_append, List.getLast?_concat, Option.some.injEq]
    constructor
    · rintro rfl
      refine ⟨by simp, ?_⟩
      intro q hq
      rcases List.mem_append.mp hq with hq | hq
      · exact Nat.le_of_lt (hlt q hq)
      · rw [List.mem_singleton.mp hq]
    · rintro ⟨hp, hle⟩
      rcases List.mem_append.mp hp with hp | hp
      · have h1 := hlt p hp
        have h2 := hle last (by simp)
        omega
      · exact (List.mem_singleton.mp hp).symm

namespace Graph

variable {g : Graph} {requested : List Phase} {plan : Plan}

/-! ### Entries of a plan -/

/-- The requested phases that a unit has. -/
def phasesOf (requested : List Phase) (n : Node) : List Phase :=
  requested.filter fun p => p.appliesTo n.unit.kind

theorem keys_unitPlan (fqn : String) (waits : List Pair) (phases : List Phase) :
    (unitPlan fqn waits phases).map Prod.fst = phases.map fun p => ⟨fqn, p⟩ := by
  induction phases generalizing waits with
  | nil => rfl
  | cons p rest ih => simp [unitPlan, ih]

/-- A phase waits for the phase before it, and the first one for the given pairs. -/
theorem mem_unitPlan {fqn : String} {waits : List Pair} {phases : List Phase}
    {e : Pair × List Pair} :
    e ∈ unitPlan fqn waits phases ↔ ∃ before p after, phases = before ++ p :: after ∧
      e = (⟨fqn, p⟩, (before.getLast?.map fun q => [⟨fqn, q⟩]).getD waits) := by
  induction phases generalizing waits with
  | nil => simp [unitPlan]
  | cons first rest ih =>
    rw [unitPlan, List.mem_cons, ih]
    constructor
    · rintro (rfl | ⟨before, p, after, rfl, rfl⟩)
      · exact ⟨[], first, rest, rfl, rfl⟩
      · refine ⟨first :: before, p, after, rfl, ?_⟩
        cases before with
        | nil => rfl
        | cons q before => simp [List.getLast?_cons]
    · rintro ⟨before, p, after, hsplit, rfl⟩
      cases before with
      | nil =>
        obtain ⟨rfl, -⟩ := List.cons.inj hsplit
        exact Or.inl rfl
      | cons q before =>
        obtain ⟨rfl, rfl⟩ := List.cons.inj hsplit
        refine Or.inr ⟨before, p, after, rfl, ?_⟩
        cases before with
        | nil => rfl
        | cons r before => simp [List.getLast?_cons]

/-- The entries of a plan come from the units along the order. -/
theorem mem_planAlong {names : List String} {e : Pair × List Pair} :
    e ∈ g.planAlong requested names ↔ ∃ fqn ∈ names, ∃ n, g.node? fqn = some n ∧
      e ∈ unitPlan fqn (g.gates requested fqn) (phasesOf requested n) := by
  induction names with
  | nil => simp [planAlong]
  | cons name rest ih =>
    rw [planAlong, List.mem_append, ih]
    constructor
    · rintro (h | ⟨fqn, hf, n, hn, he⟩)
      · cases hn : g.node? name with
        | none => simp [hn] at h
        | some n => exact ⟨name, List.mem_cons_self, n, hn, by simpa [hn, phasesOf] using h⟩
      · exact ⟨fqn, List.mem_cons_of_mem _ hf, n, hn, he⟩
    · rintro ⟨fqn, hf, n, hn, he⟩
      rcases List.mem_cons.mp hf with rfl | hf
      · exact Or.inl (by simpa [hn, phasesOf] using he)
      · exact Or.inr ⟨fqn, hf, n, hn, he⟩

/-- A plan follows an order. -/
theorem exists_order_of_plan (h : g.plan requested = .ok plan) :
    ∃ names, g.order = .ok names ∧ plan = g.planAlong requested names := by
  unfold Graph.plan at h
  cases ho : g.order with
  | error fault => simp [ho, Except.map] at h
  | ok names =>
    rw [ho, Except.map, Except.ok.injEq] at h
    exact ⟨names, rfl, h.symm⟩

/-- The entry of a pair, from the phases of its unit. -/
theorem mem_plan (h : g.plan requested = .ok plan) {p : Pair} {waits : List Pair} :
    (p, waits) ∈ plan ↔ ∃ n, g.node? p.fqn = some n ∧ ∃ before after,
      phasesOf requested n = before ++ p.phase :: after ∧
      waits = (before.getLast?.map fun q => [⟨p.fqn, q⟩]).getD (g.gates requested p.fqn) := by
  obtain ⟨names, ho, rfl⟩ := exists_order_of_plan h
  rw [mem_planAlong]
  constructor
  · rintro ⟨fqn, -, n, hn, he⟩
    obtain ⟨before, q, after, hq, he⟩ := mem_unitPlan.mp he
    obtain ⟨rfl, rfl⟩ := Prod.mk.inj he
    exact ⟨n, hn, before, after, hq, rfl⟩
  · rintro ⟨n, hn, before, after, hp, rfl⟩
    obtain ⟨hm, hname⟩ := mem_of_node? hn
    refine ⟨p.fqn, ?_, n, hn, mem_unitPlan.mpr ⟨before, p.phase, after, hp, rfl⟩⟩
    rw [mem_order ho, ← hname]
    exact has_of_mem hm

/-- **The pairs of a plan** are the units with the requested phases that they have. -/
theorem mem_keys_plan (h : g.plan requested = .ok plan) {p : Pair} :
    p ∈ Table.keys plan ↔
      ∃ n, g.node? p.fqn = some n ∧ p.phase ∈ requested ∧ p.phase.appliesTo n.unit.kind = true := by
  constructor
  · intro hp
    obtain ⟨e, he, rfl⟩ := List.mem_map.mp hp
    obtain ⟨n, hn, before, after, hph, -⟩ := (mem_plan h).mp he
    have hmem : e.1.phase ∈ phasesOf requested n := by rw [hph]; simp
    exact ⟨n, hn, List.mem_filter.mp hmem⟩
  · rintro ⟨n, hn, hr, ha⟩
    have hmem : p.phase ∈ phasesOf requested n := List.mem_filter.mpr ⟨hr, ha⟩
    obtain ⟨before, after, hsplit⟩ := List.append_of_mem hmem
    exact List.mem_map.mpr ⟨_, (mem_plan h).mpr ⟨n, hn, before, after, hsplit, rfl⟩, rfl⟩

/-- No pair stands in a plan twice. -/
theorem nodup_keys_plan (hr : requested.Pairwise fun p q => p.index < q.index)
    (h : g.plan requested = .ok plan) : (Table.keys plan).Nodup := by
  have hnodup : requested.Nodup := hr.imp fun {p q} hlt (heq : p = q) => by
    rw [heq] at hlt
    exact Nat.lt_irrefl _ hlt
  obtain ⟨names, ho, rfl⟩ := exists_order_of_plan h
  have hn := (placed_order ho).nodup
  clear ho h
  induction names with
  | nil => simp [planAlong, Table.keys]
  | cons name rest ih =>
    obtain ⟨hname, hrest⟩ := List.nodup_cons.mp hn
    rw [planAlong, Table.keys, List.map_append, List.nodup_append]
    refine ⟨?_, ih hrest, ?_⟩
    · cases g.node? name with
      | none => simp
      | some n =>
        rw [keys_unitPlan]
        refine (hnodup.filter _).map ?_
        intro p q hpq
        exact (Pair.mk.inj hpq).2
    · intro a ha b hb hab
      obtain ⟨e, he, rfl⟩ := List.mem_map.mp hb
      obtain ⟨fqn, hf, n, -, he⟩ := mem_planAlong.mp he
      obtain ⟨before, p, after, -, rfl⟩ := mem_unitPlan.mp he
      cases hnode : g.node? name with
      | none => simp [hnode] at ha
      | some m =>
        simp only [hnode, keys_unitPlan, List.mem_map] at ha
        obtain ⟨q, -, rfl⟩ := ha
        exact hname ((Pair.mk.inj hab).1 ▸ hf)

/-- The last phase of a dependency that an edge asks for: the build of a project whose artifact is
needed, and the deployment otherwise. -/
def lastPhase (e : Edge) (n : Node) : Phase :=
  if e.kind = .artifact ∧ n.unit.kind = .project then .build else .deploy

/-- **The gate of an edge** is the latest requested phase of its source that the edge asks for. -/
theorem gate?_eq_some_iff (hr : requested.Pairwise fun p q => p.index < q.index) {e : Edge}
    {w : Pair} : g.gate? requested e = some w ↔ ∃ n, g.node? e.source = some n ∧
      w.fqn = e.source ∧ (w.phase ∈ requested ∧ w.phase.appliesTo n.unit.kind = true ∧
        w.phase.index ≤ (lastPhase e n).index) ∧
      ∀ q ∈ requested, q.appliesTo n.unit.kind = true → q.index ≤ (lastPhase e n).index →
        q.index ≤ w.phase.index := by
  unfold gate?
  cases hn : g.node? e.source with
  | none => simp
  | some n =>
    have hlast := getLast?_eq_some_iff (p := w.phase) (hr.filter fun p =>
      p.appliesTo n.unit.kind && decide (p.index ≤ (lastPhase e n).index))
    simp only [List.mem_filter, Bool.and_eq_true, decide_eq_true_eq] at hlast
    constructor
    · intro h
      obtain ⟨p, hp, rfl⟩ := Option.map_eq_some_iff.mp h
      obtain ⟨hm, hle⟩ := hlast.mp hp
      exact ⟨n, rfl, rfl, hm, fun q hq ha hi => hle q ⟨hq, ha, hi⟩⟩
    · rintro ⟨m, hm, hname, hw, hle⟩
      obtain rfl : n = m := Option.some.inj hm
      have hp := hlast.mpr ⟨hw, fun q hq => hle q hq.1 hq.2.1 hq.2.2⟩
      refine Option.map_eq_some_iff.mpr ⟨w.phase, hp, ?_⟩
      rw [← hname]

/-- The gate of a need for a deployment is the deployment itself, if it is requested. -/
theorem gate?_of_deploy (hr : requested.Pairwise fun p q => p.index < q.index)
    (hd : Phase.deploy ∈ requested) {e : Edge} (hk : e.kind = .deploy)
    (hs : g.has e.source = true) : g.gate? requested e = some ⟨e.source, .deploy⟩ := by
  obtain ⟨n, hn⟩ := exists_node?_of_has hs
  have hlast : lastPhase e n = .deploy := by simp [lastPhase, hk]
  refine (gate?_eq_some_iff hr).mpr ⟨n, hn, rfl, ⟨hd, rfl, by rw [hlast]⟩, ?_⟩
  intro q _ _ hle
  rwa [hlast] at hle

/-- The pairs that a pair of the plan waits for are pairs of the plan. -/
theorem waits_subset (hr : requested.Pairwise fun p q => p.index < q.index)
    (h : g.plan requested = .ok plan) {p : Pair} {waits : List Pair} (he : (p, waits) ∈ plan) :
    ∀ w ∈ waits, w ∈ Table.keys plan := by
  intro w hw
  rw [mem_keys_plan h]
  obtain ⟨n, hn, before, after, hp, hwaits⟩ := (mem_plan h).mp he
  rw [hwaits] at hw
  cases hb : before.getLast? with
  | none =>
    rw [hb, Option.map_none, Option.getD_none] at hw
    obtain ⟨edge, -, hgate⟩ := List.mem_filterMap.mp hw
    obtain ⟨m, hm, hname, ⟨hreq, ha, -⟩, -⟩ := (gate?_eq_some_iff hr).mp hgate
    exact ⟨m, hname ▸ hm, hreq, ha⟩
  | some q =>
    rw [hb, Option.map_some, Option.getD_some, List.mem_singleton] at hw
    subst hw
    have hq : q ∈ phasesOf requested n := by
      rw [hp]
      exact List.mem_append_left _ (List.mem_of_getLast? hb)
    exact ⟨n, hn, List.mem_filter.mp hq⟩

/-- The place of a pair along an order of the units. -/
def place (names : List String) (p : Pair) : Nat := 3 * names.idxOf p.fqn + p.phase.index

/-- A pair waits for earlier pairs only: for an earlier phase of its own unit, or for units that
come before its own. -/
theorem place_lt_of_mem_waits (hr : requested.Pairwise fun p q => p.index < q.index)
    {names : List String} (ho : g.order = .ok names) (h : g.plan requested = .ok plan)
    {p : Pair} {waits : List Pair} (he : (p, waits) ∈ plan) {w : Pair} (hw : w ∈ waits) :
    place names w < place names p := by
  obtain ⟨n, hn, before, after, hp, hwaits⟩ := (mem_plan h).mp he
  have hindex (p : Phase) : p.index ≤ 2 := by cases p <;> simp [Phase.index]
  rw [hwaits] at hw
  cases hb : before.getLast? with
  | none =>
    rw [hb, Option.map_none, Option.getD_none] at hw
    obtain ⟨edge, hedge, hgate⟩ := List.mem_filterMap.mp hw
    obtain ⟨-, -, hname, -⟩ := (gate?_eq_some_iff hr).mp hgate
    have hs : edge.source ∈ g.sources p.fqn := List.mem_map_of_mem hedge
    obtain ⟨hm, hnm⟩ := mem_of_node? hn
    have hmem : p.fqn ∈ names := by
      rw [mem_order ho, ← hnm]
      exact has_of_mem hm
    obtain ⟨-, hlt⟩ := (placed_order ho).sources _ hmem _ hs
    have := hindex w.phase
    simp only [place, hname]
    omega
  | some q =>
    rw [hb, Option.map_some, Option.getD_some, List.mem_singleton] at hw
    subst hw
    have hsorted : (phasesOf requested n).Pairwise fun p q => p.index < q.index := hr.filter _
    rw [hp, List.pairwise_append] at hsorted
    have := hsorted.2.2 q (List.mem_of_getLast? hb) p.phase List.mem_cons_self
    simp only [place]
    omega

end Graph

namespace Setup

variable {c : Setup} {requested : List Phase}

/-- A pair waits for another one, directly or indirectly. -/
def Behind (c : Setup) : Pair → Pair → Prop := Relation.TransGen fun w p => w ∈ c.waits p

theorem waits_of_mem (hn : (Table.keys c.plan).Nodup) {p : Pair} {ws : List Pair}
    (he : (p, ws) ∈ c.plan) : c.waits p = ws := by
  rw [waits, (Table.get?_eq_some_iff hn).mpr he, Option.getD_some]

theorem mem_plan_of_waits {w p : Pair} (h : w ∈ c.waits p) : (p, c.waits p) ∈ c.plan := by
  unfold waits at h ⊢
  cases hg : Table.get? p c.plan with
  | none => simp [hg] at h
  | some ws => exact Table.mem_of_get? hg

/-- Waiting is well-founded: no pair waits for itself, not even in a roundabout way. -/
theorem wellFounded_waits (hr : requested.Pairwise fun p q => p.index < q.index)
    (h : c.graph.plan requested = .ok c.plan) : WellFounded fun w p => w ∈ c.waits p := by
  obtain ⟨names, ho, -⟩ := Graph.exists_order_of_plan h
  refine Subrelation.wf ?_ (measure (Graph.place names)).wf
  intro w p hw
  exact Graph.place_lt_of_mem_waits hr ho h (mem_plan_of_waits hw) hw

/-- A pair waits for all earlier requested phases of its unit, and through the first of them for
what the first one waits for. -/
theorem behind_of_split (hn : (Table.keys c.plan).Nodup) (h : c.graph.plan requested = .ok c.plan)
    {fqn : String} {n : Node} (hnode : c.graph.node? fqn = some n) {before after : List Phase}
    {p : Phase} (hp : Graph.phasesOf requested n = before ++ p :: after) :
    (∀ q ∈ before, c.Behind ⟨fqn, q⟩ ⟨fqn, p⟩) ∧
      ∀ w ∈ c.graph.gates requested fqn, c.Behind w ⟨fqn, p⟩ := by
  have hwaits := waits_of_mem hn
    ((Graph.mem_plan h (p := ⟨fqn, p⟩)).mpr ⟨n, hnode, before, after, hp, rfl⟩)
  induction before using List.reverseRecOn generalizing p after with
  | nil =>
    refine ⟨by simp, ?_⟩
    intro w hw
    refine Relation.TransGen.single ?_
    rw [hwaits]
    exact hw
  | append_singleton before last ih =>
    have hlast : Graph.phasesOf requested n = before ++ last :: (p :: after) := by
      rw [hp, List.append_assoc]
      rfl
    have hdirect : c.Behind ⟨fqn, last⟩ ⟨fqn, p⟩ := by
      refine Relation.TransGen.single ?_
      rw [hwaits]
      simp
    obtain ⟨hearlier, hgates⟩ := ih hlast (waits_of_mem hn
      ((Graph.mem_plan h (p := ⟨fqn, last⟩)).mpr ⟨n, hnode, before, p :: after, hlast, rfl⟩))
    refine ⟨?_, fun w hw => (hgates w hw).trans hdirect⟩
    intro q hq
    rcases List.mem_append.mp hq with hq | hq
    · exact (hearlier q hq).trans hdirect
    · rw [List.mem_singleton.mp hq]
      exact hdirect

/-- **Earlier phases of the same unit** stand behind a pair. -/
theorem behind_earlier (hr : requested.Pairwise fun p q => p.index < q.index)
    (h : c.graph.plan requested = .ok c.plan) {fqn : String} {p q : Phase}
    (hp : ⟨fqn, p⟩ ∈ Table.keys c.plan) (hq : ⟨fqn, q⟩ ∈ Table.keys c.plan)
    (hlt : q.index < p.index) : c.Behind ⟨fqn, q⟩ ⟨fqn, p⟩ := by
  obtain ⟨n, hn, hpr, hpa⟩ := (Graph.mem_keys_plan h).mp hp
  obtain ⟨m, hm, hqr, hqa⟩ := (Graph.mem_keys_plan h).mp hq
  rw [hn, Option.some.injEq] at hm
  subst hm
  have hpm : p ∈ Graph.phasesOf requested n := List.mem_filter.mpr ⟨hpr, hpa⟩
  obtain ⟨before, after, hsplit⟩ := List.append_of_mem hpm
  refine (behind_of_split (Graph.nodup_keys_plan hr h) h hn hsplit).1 q ?_
  have hqm : q ∈ before ++ p :: after := hsplit ▸ List.mem_filter.mpr ⟨hqr, hqa⟩
  have hsorted : (Graph.phasesOf requested n).Pairwise fun p q => p.index < q.index := hr.filter _
  rw [hsplit, List.pairwise_append, List.pairwise_cons] at hsorted
  rcases List.mem_append.mp hqm with hqm | hqm
  · exact hqm
  rcases List.mem_cons.mp hqm with rfl | hqm
  · omega
  · have := hsorted.2.1.1 q hqm
    omega

/-- **The gates of all edges to a unit** stand behind every pair of the unit. -/
theorem behind_gate (hr : requested.Pairwise fun p q => p.index < q.index)
    (h : c.graph.plan requested = .ok c.plan) {p w : Pair} (hp : p ∈ Table.keys c.plan) {e : Edge}
    (he : e ∈ c.graph.edges) (ht : e.target = p.fqn) (hw : c.graph.gate? requested e = some w) :
    c.Behind w p := by
  obtain ⟨n, hn, hpr, hpa⟩ := (Graph.mem_keys_plan h).mp hp
  have hpm : p.phase ∈ Graph.phasesOf requested n := List.mem_filter.mpr ⟨hpr, hpa⟩
  obtain ⟨before, after, hsplit⟩ := List.append_of_mem hpm
  refine (behind_of_split (Graph.nodup_keys_plan hr h) h hn hsplit).2 w ?_
  exact List.mem_filterMap.mpr ⟨e, List.mem_filter.mpr ⟨he, by simpa using ht⟩, hw⟩

end Setup

end Rollout
