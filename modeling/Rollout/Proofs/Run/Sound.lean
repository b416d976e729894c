import Rollout.Executor.Basic
import Rollout.Proofs.Graph.Built
import Rollout.Proofs.Run.Plan

/-!
# Sound setups

What the checks in front of a run establish: the plan is that of the requested phases, every planned
pair has an executor that can run, with a positive limit if it has one, and there is a worker. This
is all that a run needs in order to come to an end. If the graph was built from a stack besides,
then the deployments that a pair reads stand behind it.

**Types.** `Setup.Checked`, `Setup.Sound`.

**Results.**
* `exists_node`, `exists_executor`: every planned pair can be carried out;
* `not_behind_self`, `behind_planned`: what stands behind a pair;
* `behind_upstream`, `behind_site`: the deployments that a unit refers to come first.
-/

namespace Rollout.Setup

/-- What the checks in front of a run establish, whatever the graph is. -/
structure Checked (c : Setup) (requested : List Phase) : Prop where
  sorted : requested.Pairwise fun p q => p.index < q.index
  plan : c.graph.plan requested = .ok c.plan
  executors : checkExecutors c.executors c.graph requested = .ok ()
  workers : 1 ≤ c.maxWorkers

/-- What the checks in front of a run establish over a graph that was built from a stack. -/
structure Sound (c : Setup) (requested : List Phase) : Prop extends c.Checked requested where
  built : ∃ stack, c.graph.Built stack

instance (c : Setup) (requested : List Phase) : Coe (c.Sound requested) (c.Checked requested) :=
  ⟨Sound.toChecked⟩

/-- The pairs of the run. -/
abbrev Planned (c : Setup) (p : Pair) : Prop := p ∈ Table.keys c.plan

end Setup

/-- Checked executors can carry out the phases of a graph, within positive limits. -/
theorem exists_of_checkExecutors {executors : Executors} {g : Graph} {phases : List Phase}
    (h : checkExecutors executors g phases = .ok ()) {p : Phase} (hp : p ∈ phases) {n : Node}
    (hn : n ∈ g.nodes) (ha : p.appliesTo n.unit.kind = true) :
    ∃ timeout work, Table.get? p executors = some ⟨timeout, some work⟩ ∧
      allowedTimeout timeout = true := by
  induction phases with
  | nil => cases hp
  | cons q rest ih =>
    rw [checkExecutors] at h
    cases hq : checkExecutor executors g q with
    | error fault => simp [hq] at h
    | ok _ =>
      rw [hq] at h
      rcases List.mem_cons.mp hp with rfl | hp
      · have hunits : (g.nodes.filter fun n => p.appliesTo n.unit.kind).length ≠ 0 := by
          have hm : n ∈ g.nodes.filter fun n => p.appliesTo n.unit.kind :=
            List.mem_filter.mpr ⟨hn, ha⟩
          intro hzero
          rw [List.length_eq_zero_iff.mp hzero] at hm
          cases hm
        rw [checkExecutor, if_neg hunits] at hq
        cases he : Table.get? p executors with
        | none => simp [he] at hq
        | some e =>
          simp only [he] at hq
          cases hw : e.run with
          | none => simp [hw] at hq
          | some work =>
            refine ⟨e.timeout, work, by rw [← hw], ?_⟩
            by_contra hnot
            simp [hw, hnot] at hq
      · exact ih h hp

/-- An allowed limit is positive. -/
theorem timeoutSeconds_pos {timeout : Value} (h : allowedTimeout timeout = true) :
    ∀ t ∈ timeoutSeconds timeout, 0 < t := by
  intro t ht
  cases timeout with
  | int i =>
    have hi : 0 < i := of_decide_eq_true h
    have hne : i ≠ 0 := by omega
    simp only [timeoutSeconds, hne, if_false, Option.mem_def, Option.some.injEq] at ht
    rw [← ht]
    exact_mod_cast hi
  | bool b =>
    obtain rfl : b = true := h
    simp only [timeoutSeconds, if_true, Option.mem_def, Option.some.injEq] at ht
    rw [← ht]
    decide
  | float x =>
    simp only [timeoutSeconds] at ht
    simp only [allowedTimeout] at h
    cases hx : x.toRat? with
    | none => simp [hx] at ht
    | some q =>
      simp only [hx, decide_eq_true_eq] at h
      simp only [hx, Option.mem_def] at ht
      split at ht
      · cases ht
      · rw [← Option.some.inj ht]
        exact h
  | _ => simp [timeoutSeconds] at ht

namespace Setup

variable {c : Setup} {requested : List Phase}

namespace Checked

theorem nodup (h : c.Checked requested) : (Table.keys c.plan).Nodup :=
  Graph.nodup_keys_plan h.sorted h.plan

/-- A planned pair belongs to a unit of the graph that has its phase. -/
theorem exists_node (h : c.Checked requested) {p : Pair} (hp : c.Planned p) :
    ∃ n, c.graph.node? p.fqn = some n ∧ p.phase ∈ requested ∧
      p.phase.appliesTo n.unit.kind = true :=
  (Graph.mem_keys_plan h.plan).mp hp

/-- A planned pair has an executor that can run, and its limit is positive. -/
theorem exists_executor (h : c.Checked requested) {p : Pair} (hp : c.Planned p) :
    ∃ timeout work, Table.get? p.phase c.executors = some ⟨timeout, some work⟩ ∧
      ∀ t ∈ timeoutSeconds timeout, 0 < t := by
  obtain ⟨n, hn, hr, ha⟩ := h.exists_node hp
  obtain ⟨timeout, work, he, hallowed⟩ :=
    exists_of_checkExecutors h.executors hr (Graph.mem_of_node? hn).1 ha
  exact ⟨timeout, work, he, timeoutSeconds_pos hallowed⟩

theorem wellFounded (h : c.Checked requested) : WellFounded fun w p => w ∈ c.waits p :=
  wellFounded_waits h.sorted h.plan

/-- No pair stands behind itself. -/
theorem not_behind_self (h : c.Checked requested) (p : Pair) : ¬c.Behind p p :=
  fun hb => h.wellFounded.transGen.irrefl.irrefl p hb

theorem waits_planned (h : c.Checked requested) {w p : Pair} (hw : w ∈ c.waits p) : c.Planned w :=
  Graph.waits_subset h.sorted h.plan (mem_plan_of_waits hw) w hw

theorem behind_planned (h : c.Checked requested) {w p : Pair} (hb : c.Behind w p) : c.Planned w := by
  induction hb using Relation.TransGen.head_induction_on with
  | single hw => exact h.waits_planned hw
  | head hw _ _ => exact h.waits_planned hw

/-- A deployment in the plan has been requested. -/
theorem deploy_requested (h : c.Checked requested) {p : Pair} (hp : c.Planned p)
    (hd : p.phase = .deploy) : Phase.deploy ∈ requested := by
  obtain ⟨n, -, hr, -⟩ := h.exists_node hp
  rwa [hd] at hr

end Checked

namespace Sound

/-- If deployments are requested, a pair comes after those that its unit needs. -/
theorem behind_upstream (h : c.Sound requested) {p : Pair} (hp : c.Planned p)
    (hd : Phase.deploy ∈ requested) {e : Edge} (he : e ∈ c.graph.edges) (ht : e.target = p.fqn)
    (hk : e.kind = .deploy) : c.Behind ⟨e.source, .deploy⟩ p := by
  obtain ⟨stack, hbuilt⟩ := h.built
  exact behind_gate h.sorted h.plan hp he ht
    (Graph.gate?_of_deploy h.sorted hd hk (hbuilt.ends e he).1)

/-- If deployments are requested, a pair comes after those of the units that the sites of its unit
refer to. -/
theorem behind_site (h : c.Sound requested) {p : Pair} (hp : c.Planned p)
    (hd : Phase.deploy ∈ requested) {site : Site} (hs : site ∈ c.graph.sites)
    (hu : site.unit = p.fqn) :
    c.Behind ⟨site.reference.target c.graph.stackName, .deploy⟩ p := by
  obtain ⟨stack, hbuilt⟩ := h.built
  rw [hbuilt.sites, List.mem_flatMap] at hs
  obtain ⟨n, hn, hs⟩ := hs
  obtain ⟨r, hr, rfl⟩ := List.mem_map.mp hs
  obtain ⟨e, he, hsource, htarget, hkind⟩ := hbuilt.needed n hn r hr
  have hb := h.behind_upstream hp hd he (htarget.trans hu) hkind
  rwa [hsource] at hb

end Sound

end Setup

end Rollout
