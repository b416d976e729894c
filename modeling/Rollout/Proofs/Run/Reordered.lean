import Rollout.Proofs.Graph.Accepted
import Rollout.Proofs.Run.Contained

/-!
# The order of prerequisites

A plan lists what each pair waits for, and a run does not depend on the order in which it does so,
nor on how often it lists a pair. Whether a pair is considered depends on whether all that it waits
for is settled. What blocks it is the first by phase and by declaration of the pairs that have not
succeeded, and no two pairs of a plan have the same place.

**Types.** `Plan.Reordered`, `Setup.Ranked`.

**Operations.** `Setup.replan`.

**Results.**
* `Setup.Ranked.antisymm`: different pairs of a plan have different places;
* `run_replan`: a run from any state;
* `Scheduler.carryOut_reordered`: a run from the beginning.
-/

namespace Rollout

open RunState

/-- Two plans have the same pairs in the same order, which wait for the same pairs in any order. -/
def Plan.Reordered (plan plan' : Plan) : Prop :=
  List.Forall₂ (fun e e' => e.1 = e'.1 ∧ ∀ w, w ∈ e.2 ↔ w ∈ e'.2) plan plan'

def Setup.replan (c : Setup) (plan : Plan) : Setup := { c with plan := plan }

namespace Plan.Reordered

variable {plan plan' : Plan}

/-- The same pairs wait for pairs of which the same holds. -/
theorem filter_keys (h : plan.Reordered plan') {f : List Pair → Bool}
    (hf : ∀ ws ws', (∀ w, w ∈ ws ↔ w ∈ ws') → f ws = f ws') :
    (plan.filter fun e => f e.2).map Prod.fst = (plan'.filter fun e => f e.2).map Prod.fst := by
  induction h with
  | nil => rfl
  | cons he _ ih =>
    obtain ⟨hpair, hwaits⟩ := he
    rw [List.filter_cons, List.filter_cons, hf _ _ hwaits]
    split
    · rw [List.map_cons, List.map_cons, hpair, ih]
    · exact ih

theorem keys (h : plan.Reordered plan') : plan.map Prod.fst = plan'.map Prod.fst := by
  have hall := h.filter_keys (f := fun _ => true) fun _ _ _ => rfl
  simpa using hall

theorem mem_get? (h : plan.Reordered plan') (p w : Pair) :
    w ∈ (Table.get? p plan).getD [] ↔ w ∈ (Table.get? p plan').getD [] := by
  induction h with
  | nil => rfl
  | cons he _ ih =>
    obtain ⟨hpair, hwaits⟩ := he
    rw [Table.get?, Table.get?, hpair]
    split
    · exact hwaits w
    · exact ih

/-- **Settling a pair** promotes the same pairs. -/
theorem settle_eq (h : plan.Reordered plan') (p : Pair) (s : RunState) :
    s.settle plan' p = s.settle plan p := by
  have hpromoted := h.filter_keys
    (f := fun ws => ws.contains p && ws.all fun w => (s.status w).terminal) fun ws ws' hsame => by
      rw [Bool.eq_iff_iff]
      simp [hsame]
  simp only [settle, hpromoted]

end Plan.Reordered

/-! ### What blocks a pair -/

variable {c : Setup} {requested : List Phase} {plan' : Plan}

/-- The plan is that of the requested phases, over a graph whose units are numbered differently. -/
structure Setup.Ranked (c : Setup) (requested : List Phase) : Prop where
  sorted : requested.Pairwise fun p q => p.index < q.index
  plan : c.graph.plan requested = .ok c.plan
  indices : (c.graph.nodes.map Node.index).Nodup

/-- **Different pairs of a plan** have different places by phase and declaration. -/
theorem Setup.Ranked.antisymm (hc : c.Ranked requested) {a b : Pair}
    (ha : a ∈ Table.keys c.plan) (hb : b ∈ Table.keys c.plan) (hab : c.rankLe a b = true)
    (hba : c.rankLe b a = true) : a = b := by
  rw [Setup.rankLe_iff] at hab hba
  obtain ⟨n, hn, -⟩ := (Graph.mem_keys_plan hc.plan).mp ha
  obtain ⟨m, hm, -⟩ := (Graph.mem_keys_plan hc.plan).mp hb
  obtain ⟨hnmem, hnname⟩ := Graph.mem_of_node? hn
  obtain ⟨hmmem, hmname⟩ := Graph.mem_of_node? hm
  have hphase : a.phase = b.phase := Phase.index_injective (by omega)
  have hindex : n.index = m.index := by
    simp only [Setup.index, hn, hm] at hab hba
    omega
  obtain rfl : n = m := List.inj_on_of_nodup_map hc.indices hnmem hmmem hindex
  exact Pair.eq_of_fields (hnname.symm.trans hmname) hphase

theorem Setup.Ranked.planned_of_waits (hc : c.Ranked requested) {p w : Pair}
    (hw : w ∈ c.waits p) : w ∈ Table.keys c.plan :=
  Graph.waits_subset hc.sorted hc.plan (mem_plan_of_waits hw) w hw

/-- **What blocks a pair** does not depend on the order of prerequisites. -/
theorem blocker?_replan (hc : c.Ranked requested) (h : c.plan.Reordered plan') (s : RunState)
    (p : Pair) : s.blocker? (c.replan plan') p = s.blocker? c p := by
  have hwaits (w : Pair) : w ∈ c.waits p ↔ w ∈ (c.replan plan').waits p := h.mem_get? p w
  cases hb : s.blocker? c p with
  | none =>
    rw [blocker?_eq_none_iff] at hb ⊢
    exact fun w hw => hb w ((hwaits w).mpr hw)
  | some b =>
    cases hb' : s.blocker? (c.replan plan') p with
    | none =>
      rw [blocker?_eq_none_iff] at hb'
      obtain ⟨hmem, hopen, -⟩ := blocker?_spec hb
      exact absurd (hb' b ((hwaits b).mp hmem)) hopen
    | some b' =>
      -- each of the two is open among the prerequisites of which the other one is the first
      obtain ⟨hmem, hopen, hleast⟩ := blocker?_spec hb
      obtain ⟨hmem', hopen', hleast'⟩ := blocker?_spec hb'
      have hle : c.rankLe b b' = true := hleast b' ((hwaits b').mpr hmem') hopen'
      have hle' : c.rankLe b' b = true := hleast' b ((hwaits b).mp hmem) hopen
      exact congrArg some (hc.antisymm (hc.planned_of_waits ((hwaits b').mpr hmem'))
        (hc.planned_of_waits hmem) hle' hle)

/-! ### Runs -/

theorem consider_replan (hc : c.Ranked requested) (h : c.plan.Reordered plan') (s : RunState)
    (p : Pair) : s.consider (c.replan plan') p = s.consider c p := by
  have hsettle : settle plan' p = settle c.plan p := funext (h.settle_eq p)
  have hcompare (n : Node) (resolved : Option Resolved) :
      s.compare (c.replan plan') p n resolved = s.compare c p n resolved := by
    rw [RunState.compare, RunState.compare, show (c.replan plan').plan = plan' from rfl, hsettle]
    rfl
  rw [consider, consider, blocker?_replan hc h, show (c.replan plan').plan = plan' from rfl,
    show (c.replan plan').graph = c.graph from rfl, hsettle]
  simp only [hcompare]

theorem wait_replan (h : c.plan.Reordered plan') (s : RunState) :
    s.wait (c.replan plan') = s.wait c := by
  have hsettle (p : Pair) : settle plan' p = settle c.plan p := funext (h.settle_eq p)
  have hexpire : expire (c.replan plan') = expire c := by
    funext t
    simp only [expire, show (c.replan plan').plan = plan' from rfl, hsettle]
  have hdeliver (call : Call) (t : RunState) :
      t.deliver (c.replan plan') call = t.deliver c call := by
    rw [deliver, deliver, show (c.replan plan').plan = plan' from rfl, hsettle]
    rfl
  simp only [wait, hexpire, hdeliver]

/-- **Every step** does the same when prerequisites are reordered. -/
theorem step_replan (hc : c.Ranked requested) (h : c.plan.Reordered plan') (s : RunState) :
    s.step (c.replan plan') = s.step c := by
  simp only [step, consider_replan hc h, wait_replan h]
  rfl

/-- **A run** does the same when prerequisites are reordered. -/
theorem run_replan (hc : c.Ranked requested) (h : c.plan.Reordered plan') (fuel : Nat)
    (s : RunState) : RunState.run (c.replan plan') fuel s = RunState.run c fuel s := by
  induction fuel generalizing s with
  | zero => rfl
  | succ fuel ih =>
    rw [RunState.run, RunState.run, step_replan hc h]
    cases s.step c with
    | state t => exact ih t
    | halted halt => rfl
    | finished => rfl

theorem Graph.nodup_indices {stack : Stack} {g : Graph} (h : ofStack stack = .ok g) :
    (g.nodes.map Node.index).Nodup := by
  have hindices : g.nodes.map Node.index =
      List.range (stack.services ++ stack.projects).length := by
    rw [(depicts_ofStack h).nodes]
    exact List.ext_getElem (by simp) fun i hi hi' => by simp
  rw [hindices]
  exact List.nodup_range

namespace Scheduler

variable {s : Scheduler} {plan plan' : Plan} {phases : List Phase}

theorem initial_reordered (h : plan.Reordered plan') (files : Files) :
    s.initial plan' phases files = s.initial plan phases files := by
  have hfree := h.filter_keys (f := List.isEmpty) fun ws ws' hsame => by
    rw [Bool.eq_iff_iff, List.isEmpty_iff, List.isEmpty_iff, List.eq_nil_iff_forall_not_mem,
      List.eq_nil_iff_forall_not_mem]
    simp [hsame]
  simp only [initial, hfree, h.keys]

/-- **Prerequisites in any order.** A scheduler over the graph of a stack that carries out its plan
does the same for every order in which the plan lists what a pair waits for. -/
theorem carryOut_reordered (hs : s.Sound)
    (hplan : s.graph.plan (requestedPhases phases) = .ok plan) (h : plan.Reordered plan')
    (files : Files) :
    s.carryOut plan' (requestedPhases phases)
        (s.initial plan' (requestedPhases phases) files) =
      s.carryOut plan (requestedPhases phases)
        (s.initial plan (requestedPhases phases) files) := by
  obtain ⟨stack, hg⟩ := hs.built
  have hc : (s.setup plan).Ranked (requestedPhases phases) :=
    ⟨sorted_requestedPhases phases, hplan, Graph.nodup_indices hg⟩
  have hlimit : stepLimit plan' = stepLimit plan := by
    rw [stepLimit, stepLimit, List.Forall₂.length_eq h]
  have hrun : RunState.run (s.setup plan') = RunState.run (s.setup plan) :=
    funext fun fuel => funext fun first => run_replan hc h fuel first
  rw [initial_reordered h, carryOut, carryOut, hlimit, hrun]

end Scheduler

end Rollout
