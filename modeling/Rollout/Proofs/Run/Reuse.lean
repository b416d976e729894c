import Rollout.Proofs.Run.Evaluation
import Rollout.Proofs.Run.Scheduled

/-!
# Reuse over many runs

Runs that share a build state tell each other what they have done. Between two runs the records of
units may be dropped. A pair is current in the shared state exactly when the last thing that decided
about it was a run in which it succeeded, under the same fingerprint: successes, failures, timeouts
and missing outputs decide about their own pair, dropping the record decides about all pairs of the
unit, and skips decide about nothing.

**Types.** `Happening`, `LastSucceeded`, `History`.

**Results.**
* `History.isCurrent_iff`: what a shared state knows;
* `reused_iff`: when a pair is reused.
-/

namespace Rollout

open RunState

/-- Something that has happened to a shared build state: a run that reported, or the loss of all
records but those of some units. -/
inductive Happening
  | ran (report : Report)
  | pruned (keep : List String)

namespace Happening

/-- It was a run in which the pair succeeded, under the fingerprint. -/
def Succeeds (p : Pair) (digest : String) : Happening → Prop
  | .ran report => ∃ o, Table.get? p report.pairs = some o ∧ o.status = .succeeded ∧
      o.fingerprint = some digest
  | .pruned _ => False

/-- It was a run in which the pair succeeded or failed, or the record of its unit was dropped. -/
def Decides (p : Pair) : Happening → Prop
  | .ran report => ∃ o, Table.get? p report.pairs = some o ∧
      (o.status = .succeeded ∨ o.status = .failed)
  | .pruned keep => p.fqn ∉ keep

end Happening

/-- The last thing that decided about a pair was a run in which it succeeded, under the
fingerprint. -/
def LastSucceeded (past : List Happening) (p : Pair) (digest : String) : Prop :=
  ∃ earlier x later, past = earlier ++ x :: later ∧ x.Succeeds p digest ∧
    ∀ y ∈ later, ¬y.Decides p

/-- What can have happened to a state about which nothing was known at first: any runs that
reported, of any stacks, executors and requests, each on the state that the one before has left,
and losses of records. -/
inductive History : List Happening → Buildstate → Prop
  | start {b : Buildstate} (h : b.units = []) : History [] b
  | ran {past : List Happening} {s : Scheduler} {phases : List Phase} {files : Files}
      {report : Report} (h : History past s.buildstate) (hs : s.Sound)
      (hr : (s.run phases files).report = .ok report) :
      History (past ++ [.ran report]) (s.run phases files).scheduler.buildstate
  | pruned {past : List Happening} {b : Buildstate} (h : History past b) (keep : List String) :
      History (past ++ [.pruned keep]) (b.prune keep).2

theorem lastSucceeded_append {past : List Happening} {x : Happening} {p : Pair} {digest : String} :
    LastSucceeded (past ++ [x]) p digest ↔
      x.Succeeds p digest ∨ ¬x.Decides p ∧ LastSucceeded past p digest := by
  constructor
  · rintro ⟨earlier, y, later, hsplit, hy, hlater⟩
    rcases List.eq_nil_or_concat later with rfl | ⟨later, last, rfl⟩
    · obtain ⟨-, heq⟩ := List.append_inj' hsplit rfl
      obtain ⟨rfl, -⟩ := List.cons.inj heq
      exact Or.inl hy
    · rw [List.concat_eq_append, ← List.cons_append, ← List.append_assoc] at hsplit
      obtain ⟨rfl, heq⟩ := List.append_inj' hsplit rfl
      obtain ⟨rfl, -⟩ := List.cons.inj heq
      rw [List.concat_eq_append] at hlater
      exact Or.inr ⟨hlater x (by simp), earlier, y, later, rfl, hy,
        fun z hz => hlater z (List.mem_append_left _ hz)⟩
  · rintro (hx | ⟨hx, earlier, y, later, rfl, hy, hlater⟩)
    · exact ⟨past, x, [], rfl, hx, by simp⟩
    · refine ⟨earlier, y, later ++ [x], by simp, hy, ?_⟩
      intro z hz
      rcases List.mem_append.mp hz with hz | hz
      · exact hlater z hz
      · rw [List.mem_singleton.mp hz]
        exact hx

/-- A pair is current under one fingerprint at most. -/
theorem Buildstate.isCurrent_unique {b : Buildstate} {fqn : String} {p : Phase}
    {digest other : String} (h : b.isCurrent fqn p digest = true)
    (h' : b.isCurrent fqn p other = true) : digest = other := by
  unfold isCurrent at h h'
  cases hr : b.record? fqn with
  | none => simp [hr] at h
  | some r =>
    simp only [hr, UnitRecord.isCurrent, Bool.and_eq_true, beq_iff_eq] at h h'
    rw [h.2, Option.some.injEq] at h'
    exact h'.2

/-- What is current after a loss of records is what was current for the units that kept theirs. -/
theorem Buildstate.isCurrent_prune (b : Buildstate) (keep : List String) (fqn : String) (p : Phase)
    (digest : String) :
    (b.prune keep).2.isCurrent fqn p digest = (keep.contains fqn && b.isCurrent fqn p digest) := by
  have hrecord : (b.prune keep).2.record? fqn = if keep.contains fqn then b.record? fqn else none :=
    Table.get?_filter (fun fqn => keep.contains fqn) fqn b.units
  unfold isCurrent
  rw [hrecord]
  cases keep.contains fqn <;> rfl

/-! ### Runs on a shared state -/

variable {c : Setup} {base last : RunState} {A : Chart} {s : Scheduler} {phases : List Phase}
  {files : Files} {report : Report}

/-- A state says of a pair what its chart says. -/
theorem Shown.isCurrent (h : Shown c base A last) (p : Pair) (digest : String) :
    last.buildstate.isCurrent p.fqn p.phase digest =
      match A p with
      | .succeeded d _ _ _ => d == digest
      | .missing _ | .failed .. => false
      | _ => base.buildstate.isCurrent p.fqn p.phase digest := by
  have hany : last.buildstate.isCurrent p.fqn p.phase digest =
      (last.buildstate.record? p.fqn).any fun r => r.isCurrent p.phase digest := by
    unfold Buildstate.isCurrent
    cases last.buildstate.record? p.fqn <;> rfl
  rw [hany, h.record]
  refine (Chart.isCurrent_record? A base.buildstate p digest).trans ?_
  cases A p <;> rfl

/-- A reused pair is current and not forced. -/
theorem Tied.current_of_reused (h : Tied c base A last) {p : Pair} {digest : String}
    {outputs : Option Entries} (hA : A p = .reused digest outputs) :
    p.fqn ∉ c.forced p.phase ∧ base.buildstate.isCurrent p.fqn p.phase digest = true := by
  obtain ⟨t, -, hfit⟩ := h.fit p
  rw [hA] at hfit
  rcases verdict_cases hfit.2 with ⟨b, hst, -⟩ | ⟨cause, hst, -⟩ | ⟨d, o, hst, -, hdue, -⟩ |
    ⟨d, r, hst, -⟩
  · cases hst
  · cases hst
  · cases hst
    simp only [overdue, Bool.or_eq_false_iff, Bool.not_eq_false', List.contains_eq_mem,
      decide_eq_false_iff_not] at hdue
    exact hdue
  · cases hst

/-- Over the graph of a stack, a reused pair would be examined in the same way now. -/
theorem Tied.examined_of_reused (hb : ∃ stack, c.graph.Built stack) (h : Tied c base A last)
    {p : Pair} {digest : String} {outputs : Option Entries} (hA : A p = .reused digest outputs) :
    ∃ resolved, Examined c last p digest resolved := by
  have hfit := (h.fit p).fits hb
  rw [hA] at hfit
  rcases verdict_cases hfit.2 with ⟨b, hst, -⟩ | ⟨cause, hst, -⟩ | ⟨d, o, hst, -, -, he⟩ |
    ⟨d, r, hst, -⟩
  · cases hst
  · cases hst
  · cases hst
    exact he
  · cases hst

/-- The resolved configuration of a deployment is what its references are resolved to. -/
theorem RunState.resolve_of_resolvedFor {p : Pair} {resolved : Option Resolved}
    (h : last.resolvedFor p = .ok resolved) (hd : p.phase = .deploy) :
    ∃ r, last.resolver.resolve p.fqn = .ok r ∧ some r = resolved := by
  rw [resolvedFor, if_pos hd] at h
  cases hres : last.resolver.resolve p.fqn with
  | ok r =>
    rw [hres] at h
    exact ⟨r, rfl, Except.ok.inj h⟩
  | error fault =>
    rw [hres] at h
    cases h

/-- The references of a pair that has been examined are resolved. -/
theorem RunState.Examined.resolves {p : Pair} {digest : String} {resolved : Option Resolved}
    (h : Examined c last p digest resolved) (hd : p.phase = .deploy) :
    ∃ r, last.resolver.resolve p.fqn = .ok r := by
  obtain ⟨r, hr, -⟩ := resolve_of_resolvedFor h.filled hd
  exact ⟨r, hr⟩

/-- A pair that is current and not forced has not been begun. -/
theorem RunState.not_begun_of_current {p : Pair} {digest : String} {ctx : UnitContext}
    (hforced : p.fqn ∉ c.forced p.phase)
    (hcurrent : base.buildstate.isCurrent p.fqn p.phase digest = true) :
    ¬Begun c base last p digest ctx := by
  rintro ⟨resolved, node, hv, -⟩
  have hdue := (examined_of_ready hv).2
  simp only [overdue, Bool.or_eq_true, Bool.not_eq_true', List.contains_eq_mem,
    decide_eq_true_eq] at hdue
  rcases hdue with hdue | hdue
  · exact hforced hdue
  · rw [hcurrent] at hdue
    cases hdue

/-- A settled pair is reused when it is current under the fingerprint that is shown for it, and not
forced. -/
theorem Tied.reused_of_current (h : Tied c base A last) {p : Pair} {digest : String}
    (hsettled : (A p).settled = true) (hd : (A p).outcome.fingerprint = some digest)
    (hforced : p.fqn ∉ c.forced p.phase)
    (hcurrent : base.buildstate.isCurrent p.fqn p.phase digest = true) :
    (A p).outcome.reused = true := by
  obtain ⟨t, -, hfit⟩ := h.fit p
  cases hA : A p with
  | reused d outputs => rfl
  | waiting =>
    rw [hA] at hsettled
    cases hsettled
  | ready d resolved =>
    rw [hA] at hsettled
    cases hsettled
  | running d ctx =>
    rw [hA] at hsettled
    cases hsettled
  | skipped b =>
    rw [hA] at hd
    cases hd
  | missing cause =>
    rw [hA] at hd
    cases hd
  | succeeded d ctx snapshot outputs =>
    rw [hA] at hd hfit
    obtain rfl := Option.some.inj hd
    exact absurd hfit.1 (not_begun_of_current hforced hcurrent)
  | failed d ctx cause timedOut =>
    rw [hA] at hd hfit
    obtain rfl := Option.some.inj hd
    cases timedOut with
    | false => exact absurd hfit.1 (not_begun_of_current hforced hcurrent)
    | true => exact absurd hfit.1 (not_begun_of_current hforced hcurrent)

/-- Nothing blocks a pair when the pairs that it waits for are shown to have succeeded. -/
theorem Shown.blocker?_eq_none_iff {requested : List Phase} (hc : c.Sound requested)
    (h : Shown c base A last) {p : Pair} {waits : List Pair} (hp : (p, waits) ∈ c.plan) :
    last.blocker? c p = none ↔
      ∀ w ∈ waits, ∃ o, Table.get? w last.outcomes = some o ∧ o.status = .succeeded := by
  have hwaits : c.waits p = waits := Setup.waits_of_mem hc.nodup hp
  rw [RunState.blocker?_eq_none_iff, hwaits]
  refine forall₂_congr fun w hw => ?_
  rw [← hwaits] at hw
  obtain ⟨o, ho, -⟩ := h.exists_outcome (hc.waits_planned hw)
  simp [ho, RunState.status]

/-- **What a run does to a shared state.** A pair is current afterwards if it has succeeded, under
the fingerprint of its success; a pair about which the run has not decided is as it was. -/
theorem Scheduler.isCurrent_ran (hs : s.Sound) (hr : (s.run phases files).report = .ok report)
    (p : Pair) (digest : String) :
    (s.run phases files).scheduler.buildstate.isCurrent p.fqn p.phase digest = true ↔
      (Happening.ran report).Succeeds p digest ∨ ¬(Happening.ran report).Decides p ∧
        s.buildstate.isCurrent p.fqn p.phase digest = true := by
  obtain ⟨plan, n, last, A, hcarries, hrun, hreport, hall⟩ := s.report_spec hs hr
  have htied := hcarries.tied
  have hafter : (s.run phases files).scheduler.buildstate.isCurrent p.fqn p.phase digest =
      last.buildstate.isCurrent p.fqn p.phase digest := by
    rw [hrun]
    rfl
  have hpairs : report.pairs = last.outcomes := by
    rw [hreport]
    rfl
  rw [hafter, htied.shown.isCurrent]
  simp only [Happening.Succeeds, Happening.Decides, hpairs]
  by_cases hp : (s.setup plan).Planned p
  · obtain ⟨o, ho, hu⟩ := htied.shown.exists_outcome hp
    have hstatus : o.status = (A p).outcome.status := by rw [← hu]; rfl
    have hdigest : o.fingerprint = (A p).outcome.fingerprint := by rw [← hu]; rfl
    simp only [ho, Option.some.injEq, exists_eq_left', hstatus, hdigest]
    have hsettled := hall p hp
    cases hA : A p with
    | waiting =>
      rw [hA] at hsettled
      cases hsettled
    | ready d resolved =>
      rw [hA] at hsettled
      cases hsettled
    | running d ctx =>
      rw [hA] at hsettled
      cases hsettled
    | skipped b =>
      simp only [Standing.outcome]
      simp only [reduceCtorEq, false_and, or_self, not_false_eq_true, true_and, false_or]
      rfl
    | missing cause => simp [Standing.outcome]
    | reused d outputs =>
      have hcurrent := (htied.current_of_reused hA).2
      simp only [Standing.outcome, true_and, Option.some.injEq, true_or, not_true_eq_false,
        false_and, or_false]
      constructor
      · intro h
        exact Buildstate.isCurrent_unique hcurrent h
      · rintro rfl
        exact hcurrent
    | succeeded d ctx snapshot outputs => simp [Standing.outcome]
    | failed d ctx cause timedOut => simp [Standing.outcome]
  · have hnone : Table.get? p last.outcomes = none := by
      rw [Table.get?_eq_none_iff, htied.shown.keys]
      exact hp
    rw [htied.shown.offPlan p hp, hnone]
    simp only [reduceCtorEq, false_and, exists_false, not_false_eq_true, true_and, false_or]
    rfl

/-- **What a shared state knows**: a pair is current when the last thing that decided about it was a
success under the fingerprint. -/
theorem History.isCurrent_iff {past : List Happening} {b : Buildstate} (h : History past b)
    (p : Pair) (digest : String) :
    b.isCurrent p.fqn p.phase digest = true ↔ LastSucceeded past p digest := by
  induction h with
  | start hb =>
    have hnone : ¬LastSucceeded [] p digest := by
      rintro ⟨earlier, x, later, hsplit, -⟩
      simp at hsplit
    simp [hnone, Buildstate.isCurrent, Buildstate.record?, hb]
  | ran h hs hr ih => rw [lastSucceeded_append, ← ih, Scheduler.isCurrent_ran hs hr]
  | @pruned past b h keep ih =>
    rw [lastSucceeded_append, ← ih, Buildstate.isCurrent_prune]
    simp [Happening.Succeeds, Happening.Decides]

/-- **When a pair is reused.** After any history of a shared state, a run reports a pair as reused if
and only if all pairs that it waits for succeed in that run, its references are resolved, it is not
forced, and the last thing that decided about it in the past was a run in which it succeeded, under
the fingerprint that it has now. -/
theorem reused_iff {past : List Happening} {s : Scheduler} {phases : List Phase} {files : Files}
    {report : Report} {plan : Plan} {p : Pair} {waits : List Pair}
    (h : History past s.buildstate) (hs : s.Sound)
    (hr : (s.run phases files).report = .ok report)
    (hplan : s.graph.plan (requestedPhases phases) = .ok plan) (hp : (p, waits) ∈ plan) :
    ∃ o, Table.get? p report.pairs = some o ∧
      (o.reused = true ↔
        (∀ w ∈ waits, ∃ o', Table.get? w report.pairs = some o' ∧ o'.status = .succeeded) ∧
        (p.phase = .deploy →
          ∃ resolved, (s.run phases files).scheduler.resolver.resolve p.fqn = .ok resolved) ∧
        p.fqn ∉ s.forced p.phase ∧
        ∃ digest, o.fingerprint = some digest ∧ LastSucceeded past p digest) := by
  obtain ⟨plan', n, last, A, hcarries, hrun, hreport, hall⟩ := s.report_spec hs hr
  have hc := hcarries.sound
  obtain rfl : plan = plan' := Except.ok.inj (hplan.symm.trans hc.plan)
  have htied := hcarries.tied
  have hpairs : report.pairs = last.outcomes := by
    rw [hreport]
    rfl
  have hresolver : (s.run phases files).scheduler.resolver = last.resolver := by
    rw [hrun]
    rfl
  obtain ⟨o, ho, hu⟩ := htied.shown.exists_outcome (List.mem_map_of_mem (f := Prod.fst) hp)
  have hreused : o.reused = (A p).outcome.reused := by rw [← hu]; rfl
  have hdigest : o.fingerprint = (A p).outcome.fingerprint := by rw [← hu]; rfl
  refine ⟨o, by rw [hpairs]; exact ho, ?_⟩
  rw [hpairs, ← htied.shown.blocker?_eq_none_iff hc hp, hresolver, hreused, hdigest]
  constructor
  · intro hyes
    obtain ⟨digest, outputs, hA⟩ : ∃ digest outputs, A p = .reused digest outputs := by
      cases hA : A p with
      | reused digest outputs => exact ⟨digest, outputs, rfl⟩
      | _ =>
        rw [hA] at hyes
        cases hyes
    obtain ⟨hforced, hcurrent⟩ := htied.current_of_reused hA
    obtain ⟨resolved, he⟩ := htied.examined_of_reused hc.built hA
    exact ⟨he.clear, he.resolves, hforced, digest, by rw [hA]; rfl,
      (h.isCurrent_iff p digest).mp hcurrent⟩
  · rintro ⟨-, -, hforced, digest, hd, hlast⟩
    exact htied.reused_of_current (hall p (List.mem_map_of_mem (f := Prod.fst) hp)) hd hforced
      ((h.isCurrent_iff p digest).mpr hlast)

/-- The shop without its interface, on top of a known state. -/
def Shop.again (b : Buildstate) : Scheduler :=
  { Shop.scheduler [Shop.database] 1 (Shop.executors 1) with buildstate := b }

/-- In the shop the database is initialized once. After a loss of all other records the next run
reuses that. -/
theorem reused_iff_shop :
    ∃ (past : List Happening) (b : Buildstate) (report : Report) (o : Outcome) (digest : String),
      History past b ∧ (Shop.again b).Sound ∧ ((Shop.again b).run [.init] []).report = .ok report ∧
      (Shop.again b).graph.plan [.init] = .ok [(⟨"shop.service.db", .init⟩, [])] ∧
      Table.get? ⟨"shop.service.db", .init⟩ report.pairs = some o ∧ o.reused = true ∧
      o.fingerprint = some digest ∧ LastSucceeded past ⟨"shop.service.db", .init⟩ digest := by
  have hsound (b : Buildstate) : (Shop.again b).Sound :=
    ⟨⟨_, Shop.ofStack_database⟩, rfl, Nat.le_refl 1⟩
  have hplan (b : Buildstate) :
      (Shop.again b).graph.plan [.init] = .ok [(⟨"shop.service.db", .init⟩, [])] := by rfl
  have hfirst : ((Shop.again {}).run [.init] []).report.isOk = true := by
    simp only [Scheduler.run, Scheduler.carryOut, RunState.run_eq]
    decide +kernel
  obtain ⟨first, hr⟩ := exists_of_isOk hfirst
  have hstart : History [] (Shop.again {}).buildstate := .start rfl
  have hpast := (hstart.ran (hsound {}) hr).pruned ["shop.service.db"]
  generalize hb : (((Shop.again {}).run [.init] []).scheduler.buildstate.prune
    ["shop.service.db"]).2 = b at hpast
  have hsecond : (((Shop.again b).run [.init] []).report.toOption.bind fun r =>
      (Table.get? ⟨"shop.service.db", .init⟩ r.pairs).map Outcome.reused) = some true := by
    rw [← hb]
    simp only [Scheduler.run, Scheduler.carryOut, RunState.run_eq]
    decide +kernel
  cases hr' : ((Shop.again b).run [.init] []).report with
  | error fault =>
    rw [hr'] at hsecond
    cases hsecond
  | ok report =>
    obtain ⟨o, ho, hiff⟩ := reused_iff hpast (hsound b) hr' (hplan b) (List.mem_singleton.mpr rfl)
    have hreused : o.reused = true := by
      rw [hr'] at hsecond
      simpa [Except.toOption, ho] using hsecond
    obtain ⟨-, -, -, digest, hd, hlast⟩ := hiff.mp hreused
    exact ⟨_, b, report, o, digest, hpast, hsound b, hr', hplan b, ho, hreused, hd, hlast⟩

end Rollout
