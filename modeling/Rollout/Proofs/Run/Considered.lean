import Rollout.Proofs.Run.Tied

/-!
# What considering a pair leads to

Considering a promoted pair does what the verdict on it says: the pair is skipped, fails, is reused
or is made ready, and if there is no verdict, the run halts with its fault.

**Results.**
* `RunState.reuse_eq`: what becomes of a pair that is reused;
* `Tied.consider_spec`: considering a pair is a move, or a halt for want of a verdict.
-/

namespace Rollout

open RunState

variable {c : Setup} {requested : List Phase} {base s : RunState} {A : Chart} {x : Pair}

/-- Recording outputs either publishes them or fails for the reason for which they cannot be
accepted. -/
theorem recordOutputs_spec (base s : RunState) {fqn : String} (outputs : Entries)
    (hg : s.resolver.graph.has fqn = true)
    (ho : s.resolver.outputs? fqn = base.resolver.outputs? fqn) :
    (∃ keys, base.accept fqn outputs = .ok keys ∧
        s.recordOutputs fqn outputs = .ok (s.publish fqn (some outputs))) ∨
      ∃ fault state, base.accept fqn outputs = .error fault ∧
        s.recordOutputs fqn outputs = .error ⟨fault, state⟩ ∧ state.journal = s.journal := by
  cases hr : (base.resolver.outputs? fqn).isSome with
  | true =>
    refine Or.inr ⟨.resolve (.duplicate fqn), s, by simp [accept, hr], ?_, rfl⟩
    simp [recordOutputs, Resolver.record, hg, ho, hr]
  | false =>
    cases hk : sortedKeys outputs with
    | error fault =>
      refine Or.inr ⟨.noText fault, { s with resolver :=
        { s.resolver with recorded := Table.set fqn outputs s.resolver.recorded } },
        by simp [accept, hr, hk], ?_, rfl⟩
      simp [recordOutputs, Resolver.record, hg, ho, hr, hk]
    | ok keys =>
      refine Or.inl ⟨keys, by simp [accept, hr, hk], ?_⟩
      simp [recordOutputs, Resolver.record, hg, ho, hr, hk, publish, publication, outputFields,
        report]

/-- A deployment that is reused records the outputs that are known of its unit. -/
theorem RunState.reuse_eq (s : RunState) (x : Pair) (digest : String) :
    s.reuse x digest =
      if x.phase = .deploy then
        (s.confirm x digest).recordOutputs x.fqn ((s.buildstate.record? x.fqn).getD {}).outputs
      else .ok (s.confirm x digest) := by
  have hsame : (s.confirm x digest).buildstate = s.buildstate := rfl
  by_cases hd : x.phase = .deploy
  · rw [reuse, if_pos hd, if_pos hd, ← confirm, hsame]
    cases s.buildstate.record? x.fqn <;> rfl
  · rw [reuse, if_neg hd, if_neg hd, ← confirm]

namespace Tied

/-- A node of the graph is known to the resolver. -/
theorem has_resolver (h : Tied c base A s) {n : Node} (hn : c.graph.node? x.fqn = some n) :
    s.resolver.graph.has x.fqn = true := by
  rw [h.shown.graph, Graph.has, hn]
  rfl

/-- An open pair has recorded no outputs in this run. -/
theorem outputs?_of_open (h : Tied c base A s) (hopen : (A x).settled = false)
    (hd : x.phase = .deploy) :
    s.resolver.outputs? x.fqn = base.resolver.outputs? x.fqn := by
  have hx : (⟨x.fqn, .deploy⟩ : Pair) = x := by rw [← hd]
  rw [h.shown.outputs, hx, Standing.outputs?_of_not_settled hopen, Option.none_or]

/-- A waiting pair is as current as it was before the run. -/
theorem isCurrent_of_waiting (h : Tied c base A s) (hw : A x = .waiting) (digest : String) :
    s.buildstate.isCurrent x.fqn x.phase digest =
      base.buildstate.isCurrent x.fqn x.phase digest := by
  have hany := Chart.isCurrent_record? A base.buildstate x digest
  simp only [hw] at hany
  rw [← hany, Buildstate.isCurrent, h.shown.record]
  cases A.record? base.buildstate x.fqn <;> rfl

/-- Outputs come from deployments only. -/
theorem outputs?_of_phase (h : Tied c base A s) {p : Pair} (hp : p.phase ≠ .deploy) :
    (A p).outputs? = none := by
  obtain ⟨t, -, hfit⟩ := h.fit p
  cases hA : A p with
  | reused digest outputs =>
    rw [hA] at hfit
    rcases verdict_cases hfit.2 with ⟨b, hst, -⟩ | ⟨cause, hst, -⟩ | ⟨d, o, hst, hl, -⟩ |
      ⟨d, r, hst, -⟩
    · cases hst
    · cases hst
    · cases hst
      exact leftover_of_ne hp hl
    · cases hst
  | succeeded digest ctx snapshot outputs =>
    rw [hA] at hfit
    obtain ⟨-, reply, given, -, -, hg⟩ := hfit
    exact gain_of_ne hp hg
  | _ => rfl

/-- The record of a unit whose deployment waits has the outputs from before the run. -/
theorem outputs_of_waiting (h : Tied c base A s) (hw : A x = .waiting) (hd : x.phase = .deploy) :
    ((s.buildstate.record? x.fqn).getD {}).outputs =
      ((base.buildstate.record? x.fqn).getD {}).outputs := by
  rw [h.shown.record]
  refine Chart.outputs_record? A base.buildstate fun p => ?_
  by_cases hp : p = .deploy
  · have hx : (⟨x.fqn, p⟩ : Pair) = x := by rw [hp, ← hd]
    rw [hx, hw]
    rfl
  · exact h.outputs?_of_phase hp

/-- Reusing a pair publishes what an earlier run left, unless it cannot be accepted. -/
theorem reuse_spec (h : Tied c base A s) {n : Node} (hn : c.graph.node? x.fqn = some n)
    (hw : A x = .waiting) (rest : List Pair) (digest : String) :
    (∃ outputs, base.leftover x = .ok outputs ∧
        ({ s with promoted := rest }.note x digest).reuse x digest =
          .ok ((({ s with promoted := rest }.note x digest).confirm x digest).publish
            x.fqn outputs)) ∨
      ∃ fault state, base.leftover x = .error fault ∧
        ({ s with promoted := rest }.note x digest).reuse x digest = .error ⟨fault, state⟩ ∧
        Quiet s state := by
  by_cases hd : x.phase = .deploy
  · have hopen : (A x).settled = false := by rw [hw]; rfl
    have houtputs := h.outputs_of_waiting hw hd
    have hsame : ({ s with promoted := rest }.note x digest).buildstate = s.buildstate := rfl
    rw [reuse_eq, if_pos hd, hsame, houtputs, leftover, if_pos hd]
    rcases recordOutputs_spec base
      (({ s with promoted := rest }.note x digest).confirm x digest)
      ((base.buildstate.record? x.fqn).getD {}).outputs (h.has_resolver hn)
      (h.outputs?_of_open hopen hd) with ⟨keys, hk, hr⟩ | ⟨fault, state, hk, hr, hj⟩
    · exact Or.inl ⟨_, by rw [hk]; rfl, hr⟩
    · refine Or.inr ⟨fault, state, by rw [hk]; rfl, hr, [⟨.reused x digest, s.files⟩], hj, ?_⟩
      intro e he p heq
      rw [List.mem_singleton.mp he] at heq
      cases heq
  · refine Or.inl ⟨none, by rw [leftover, if_neg hd], ?_⟩
    rw [reuse_eq, if_neg hd]
    simp [publish, publication]

/-- Comparing a pair with what is known about it reuses it or makes it ready, as the verdict
says. -/
theorem compare_spec (h : Tied c base A s) {rest : List Pair} (hp : s.promoted = x :: rest)
    {n : Node} (hn : c.graph.node? x.fqn = some n) {resolved : Option Resolved}
    (hv : verdict c base s x = match Digest.fingerprint (s.fingerprinted c x n.unit resolved) with
      | .error fault => .error (.noText fault)
      | .ok digest =>
        if overdue c base x digest then .ok (.ready digest resolved)
        else (base.leftover x).map (.reused digest)) :
    Leads c base s ({ s with promoted := rest }.compare c x n resolved) := by
  obtain ⟨ho, -⟩ := h.queued.take_promoted hp
  have hprint : { s with promoted := rest }.fingerprinted c x n.unit resolved =
      s.fingerprinted c x n.unit resolved := rfl
  cases hd : Digest.fingerprint (s.fingerprinted c x n.unit resolved) with
  | error fault =>
    rw [hd] at hv
    refine Or.inr ⟨⟨.noText fault, { s with promoted := rest }⟩, ?_, .verdict hp hv, Quiet.refl s⟩
    rw [RunState.compare, hprint, hd]
  | ok digest =>
    simp only [hd] at hv
    have hcurrent := h.isCurrent_of_waiting ho.waiting digest
    have hcompare : { s with promoted := rest }.compare c x n resolved =
        if overdue c base x digest then
          .ok (({ s with promoted := rest }.note x digest).enqueue ⟨x, c.index x.fqn, resolved⟩)
        else (({ s with promoted := rest }.note x digest).reuse x digest).map
          (settle c.plan x) := by
      have hindex : c.index x.fqn = n.index := by rw [Setup.index, hn]
      rw [RunState.compare, hprint, hd, overdue, ← hcurrent, hindex]
      change (if (!(c.forced x.phase).contains x.fqn &&
          s.buildstate.isCurrent x.fqn x.phase digest) = true then
        (({ s with promoted := rest }.note x digest).reuse x digest).map (settle c.plan x)
        else .ok (({ s with promoted := rest }.note x digest).enqueue ⟨x, n.index, resolved⟩)) = _
      cases (c.forced x.phase).contains x.fqn <;>
        cases s.buildstate.isCurrent x.fqn x.phase digest <;> rfl
    rw [hcompare]
    cases hover : overdue c base x digest with
    | true =>
      rw [hover, if_pos rfl] at hv
      exact Or.inl ⟨_, if_pos rfl, .ready hp hv⟩
    | false =>
      rw [hover, if_neg (by simp)] at hv
      rw [if_neg (by simp)]
      rcases h.reuse_spec hn ho.waiting rest digest with ⟨outputs, hl, hr⟩ |
        ⟨fault, state, hl, hr, hj⟩
      · rw [hl] at hv
        exact Or.inl ⟨_, by rw [hr]; rfl, .reuse hp hv⟩
      · rw [hl] at hv
        exact Or.inr ⟨⟨fault, state⟩, by rw [hr]; rfl, .verdict hp hv, hj⟩

/-- **Considering a pair** is a move, or a halt for want of a verdict. -/
theorem consider_spec (hc : c.Checked requested) (h : Tied c base A s) {rest : List Pair}
    (hp : s.promoted = x :: rest) :
    Leads c base s ({ s with promoted := rest }.consider c x) := by
  obtain ⟨ho, -⟩ := h.queued.take_promoted hp
  obtain ⟨n, hn, -⟩ := hc.exists_node ho.planned
  have hblocker : { s with promoted := rest }.blocker? c x = s.blocker? c x := rfl
  cases hb : s.blocker? c x with
  | some b =>
    refine Or.inl ⟨_, ?_, .skip hp (b := b) ?_⟩
    · rw [consider, hblocker, hb]
    · rw [verdict, hb]
  | none =>
    by_cases hd : x.phase = .deploy
    · cases hr : s.resolver.resolve x.fqn with
      | ok resolved =>
        have hconsider : { s with promoted := rest }.consider c x =
            { s with promoted := rest }.compare c x n (some resolved) := by
          simp only [consider, hblocker, hb, hn, if_pos hd, hr]
        rw [hconsider]
        refine h.compare_spec hp hn ?_
        cases hf : Digest.fingerprint (s.fingerprinted c x n.unit (some resolved)) <;>
          simp only [verdict, hb, hn, resolvedFor, if_pos hd, hr, Except.map, hf]
      | error fault =>
        have hfilled : s.resolvedFor x = .error fault := by
          rw [resolvedFor, if_pos hd, hr]
          rfl
        cases hfault : fault with
        | missingOutput site target available =>
          obtain ⟨f, hf⟩ : ∃ f, (ResolveFault.missingOutput site target available).failure? =
            some f := ⟨_, rfl⟩
          have hv : verdict c base s x = .ok (.missing f.message) := by
            simp only [verdict, hb, hn, hfilled, hfault, hf]
          refine Or.inl ⟨_, ?_, .miss hp hv⟩
          simp only [consider, hblocker, hb, hn, if_pos hd, hr, hfault, hf]
        | _ =>
          have hv : verdict c base s x = .error (.resolve fault) := by
            simp only [verdict, hb, hn, hfilled, hfault]
          refine Or.inr ⟨⟨.resolve fault, { s with promoted := rest }⟩, ?_, .verdict hp hv,
            Quiet.refl s⟩
          simp only [consider, hblocker, hb, hn, if_pos hd, hr, hfault]
    · have hconsider : { s with promoted := rest }.consider c x =
          { s with promoted := rest }.compare c x n none := by
        simp only [consider, hblocker, hb, hn, if_neg hd]
      rw [hconsider]
      refine h.compare_spec hp hn ?_
      cases hf : Digest.fingerprint (s.fingerprinted c x n.unit none) <;>
        simp only [verdict, hb, hn, resolvedFor, if_neg hd, hf]

end Tied

end Rollout
