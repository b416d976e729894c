import Rollout.Proofs.Run.Sound
import Rollout.Proofs.Run.Verdict

/-!
# What a state shows of a chart

The tables of a running state, its records and the contexts that were handed out say pair by pair
what a chart says, on top of what was known before the run. When one pair comes to stand
differently, the state has to change in that pair's places only.

A pair reads what stands behind it, and nothing else that a run can change. So charts that agree
behind a pair lead to the same verdict on it, in one run or in two.

**Types.** `Shown`, `Moved`.

**Results.**
* `Shown.status`: the statuses of a state are those of its chart;
* `Shown.update`: a state in which one pair has moved shows the chart in which it has;
* `sameReads_of_agree`: what a pair reads is decided behind it.
-/

namespace Rollout

open RunState

/-- A state shows a chart, on top of the state before the run. -/
structure Shown (c : Setup) (base : RunState) (A : Chart) (s : RunState) : Prop where
  offPlan : ∀ p, ¬c.Planned p → A p = .waiting
  keys : Table.keys s.outcomes = Table.keys c.plan
  outcome : ∀ p, c.Planned p →
    (Table.get? p s.outcomes).map Outcome.untimed = some (A p).outcome
  fingerprint : ∀ p, Table.get? p s.fingerprints =
    (A p).digest?.or (Table.get? p base.fingerprints)
  graph : s.resolver.graph = c.graph
  outputs : ∀ fqn, s.resolver.outputs? fqn =
    (A ⟨fqn, .deploy⟩).outputs?.or (base.resolver.outputs? fqn)
  record : ∀ fqn, s.buildstate.record? fqn = A.record? base.buildstate fqn
  version : s.buildstate.version = base.buildstate.version
  release : s.buildstate.releaseName = base.buildstate.releaseName
  stack : s.buildstate.stack =
    if (Table.keys c.plan).any fun p => (A p).saved then c.graph.stackName
    else base.buildstate.stack
  once : (s.contexts.map UnitContext.pair).Nodup
  called : ∀ ctx, ctx ∈ s.contexts ↔ (A ctx.pair).context? = some ctx

/-- A state has changed so that a pair which stood in one way now stands in another one. -/
structure Moved (c : Setup) (x : Pair) (old st : Standing) (s s' : RunState) : Prop where
  outcome : ∃ f, s'.outcomes = Table.modify x f s.outcomes ∧
    ∀ o : Outcome, o.untimed = old.outcome → (f o).untimed = st.outcome
  digest : st.digest? = none → old.digest? = none
  fingerprint : ∀ p, Table.get? p s'.fingerprints =
    if p = x then st.digest?.or (Table.get? p s.fingerprints) else Table.get? p s.fingerprints
  graph : s'.resolver.graph = s.resolver.graph
  outputs : ∀ fqn, s'.resolver.outputs? fqn =
    if (⟨fqn, .deploy⟩ : Pair) = x then st.outputs?.or (s.resolver.outputs? fqn)
    else s.resolver.outputs? fqn
  record : ∀ fqn, s'.buildstate.record? fqn =
    if fqn = x.fqn then st.mark x.phase (s.buildstate.record? fqn) else s.buildstate.record? fqn
  version : s'.buildstate.version = s.buildstate.version
  release : s'.buildstate.releaseName = s.buildstate.releaseName
  stack : s'.buildstate.stack = if st.saved then c.graph.stackName else s.buildstate.stack
  contexts : (s'.contexts = s.contexts ∧ st.context? = old.context?) ∨
    ∃ ctx, s'.contexts = s.contexts ++ [ctx] ∧ ctx.pair = x ∧ old.context? = none ∧
      st.context? = some ctx

variable {c : Setup} {requested : List Phase} {base s s' t : RunState} {A A' : Chart}
  {x : Pair} {st : Standing}

namespace Shown

theorem exists_outcome (h : Shown c base A s) {p : Pair} (hp : c.Planned p) :
    ∃ o, Table.get? p s.outcomes = some o ∧ o.untimed = (A p).outcome :=
  Option.map_eq_some_iff.mp (h.outcome p hp)

/-- **A pair with an outcome** is planned, and its outcome tells how it stands. -/
theorem untimed_of_get? (h : Shown c base A s) {p : Pair} {o : Outcome}
    (ho : Table.get? p s.outcomes = some o) : c.Planned p ∧ o.untimed = (A p).outcome := by
  have hp : c.Planned p := by
    rw [Setup.Planned, ← h.keys]
    exact List.mem_map_of_mem (Table.mem_of_get? ho)
  obtain ⟨o', ho', hu⟩ := h.exists_outcome hp
  obtain rfl : o' = o := Option.some.inj (ho'.symm.trans ho)
  exact ⟨hp, hu⟩

/-- **The statuses of a state** are those of its chart. -/
theorem status (h : Shown c base A s) (p : Pair) : s.status p = (A p).status := by
  by_cases hp : c.Planned p
  · obtain ⟨o, ho, hu⟩ := h.exists_outcome hp
    rw [RunState.status, ho, Standing.status, ← hu]
    rfl
  · have hnone : Table.get? p s.outcomes = none := by
      rw [Table.get?_eq_none_iff, h.keys]
      exact hp
    rw [RunState.status, hnone, h.offPlan p hp]
    rfl

theorem planned_of_ne (h : Shown c base A s) {p : Pair} (hp : A p ≠ .waiting) : c.Planned p := by
  by_contra hnot
  exact hp (h.offPlan p hnot)

/-- A pair without a context has not been handed to an executor. -/
theorem not_called (h : Shown c base A s) {p : Pair} (hp : (A p).context? = none) :
    p ∉ s.contexts.map UnitContext.pair := by
  intro hm
  obtain ⟨ctx, hctx, rfl⟩ := List.mem_map.mp hm
  rw [(h.called ctx).mp hctx] at hp
  cases hp

private theorem any_update {keys : List Pair} (hx : x ∈ keys) (hopen : (A x).settled = false) :
    (keys.any fun p => (Function.update A x st p).saved) =
      ((keys.any fun p => (A p).saved) || st.saved) := by
  rw [Bool.eq_iff_iff, Bool.or_eq_true, List.any_eq_true, List.any_eq_true]
  constructor
  · rintro ⟨p, hp, hs⟩
    by_cases hpx : p = x
    · subst hpx
      rw [Function.update_self] at hs
      exact Or.inr hs
    · rw [Function.update_of_ne hpx] at hs
      exact Or.inl ⟨p, hp, hs⟩
  · rintro (⟨p, hp, hs⟩ | hs)
    · have hpx : p ≠ x := by
        rintro rfl
        rw [Standing.saved_of_not_settled hopen] at hs
        cases hs
      exact ⟨p, hp, by rwa [Function.update_of_ne hpx]⟩
    · exact ⟨x, hx, by rwa [Function.update_self]⟩

/-- **A state in which one pair has moved** shows the chart in which it has. -/
theorem update (h : Shown c base A s) (hx : c.Planned x) (hopen : (A x).settled = false)
    (hlast : ∀ p : Phase, x.phase.index < p.index → (A ⟨x.fqn, p⟩).unmarked = true)
    (hm : Moved c x (A x) st s s') : Shown c base (Function.update A x st) s' := by
  obtain ⟨f, hf, hfu⟩ := hm.outcome
  refine ⟨?_, ?_, ?_, ?_, ?_, ?_, ?_, ?_, ?_, ?_, ?_, ?_⟩
  · intro p hp
    have hpx : p ≠ x := fun heq => hp (heq ▸ hx)
    rw [Function.update_of_ne hpx, h.offPlan p hp]
  · rw [hf, Table.keys_modify, h.keys]
  · intro p hp
    rw [hf, Table.get?_modify]
    by_cases hpx : p = x
    · subst hpx
      obtain ⟨o, ho, hu⟩ := h.exists_outcome hp
      rw [if_pos rfl, ho, Function.update_self, Option.map_some, Option.map_some, hfu o hu]
    · rw [if_neg hpx, Function.update_of_ne hpx, h.outcome p hp]
  · intro p
    rw [hm.fingerprint p, h.fingerprint p]
    by_cases hpx : p = x
    · subst hpx
      rw [if_pos rfl, Function.update_self]
      cases hd : st.digest? with
      | some digest => rfl
      | none => rw [hm.digest hd, Option.none_or, Option.none_or]
    · rw [if_neg hpx, Function.update_of_ne hpx]
  · rw [hm.graph, h.graph]
  · intro fqn
    rw [hm.outputs fqn, h.outputs fqn]
    by_cases hpx : (⟨fqn, .deploy⟩ : Pair) = x
    · rw [if_pos hpx, hpx, Function.update_self, Standing.outputs?_of_not_settled hopen,
        Option.none_or]
    · rw [if_neg hpx, Function.update_of_ne hpx]
  · intro fqn
    rw [hm.record fqn, h.record fqn]
    by_cases hfqn : fqn = x.fqn
    · subst hfqn
      rw [if_pos rfl, Chart.record?_update_of_last A base.buildstate
        (Standing.unmarked_of_not_settled hopen) hlast]
    · rw [if_neg hfqn, Chart.record?_update_of_ne A base.buildstate hfqn]
  · rw [hm.version, h.version]
  · rw [hm.release, h.release]
  · rw [hm.stack, h.stack, any_update hx hopen]
    cases st.saved <;> simp
  · rcases hm.contexts with ⟨hc, -⟩ | ⟨ctx, hc, hpair, hold, -⟩
    · rw [hc]
      exact h.once
    · rw [hc, List.map_append, List.map_singleton, hpair, ← List.concat_eq_append]
      exact h.once.concat (h.not_called hold)
  · intro ctx
    rcases hm.contexts with ⟨hc, hsame⟩ | ⟨new, hc, hpair, hold, hnew⟩
    · rw [hc, h.called ctx]
      by_cases hpx : ctx.pair = x
      · rw [hpx, Function.update_self, hsame]
      · rw [Function.update_of_ne hpx]
    · rw [hc, List.mem_append, List.mem_singleton, h.called ctx]
      by_cases hpx : ctx.pair = x
      · rw [hpx, Function.update_self, hold, hnew, Option.some.injEq]
        exact ⟨fun hor => (hor.resolve_left (by simp)).symm, fun heq => Or.inr heq.symm⟩
      · have hne : ctx ≠ new := fun heq => hpx (heq ▸ hpair)
        rw [Function.update_of_ne hpx]
        exact ⟨fun hor => hor.resolve_right hne, Or.inl⟩

end Shown

/-- **What a pair reads** is decided behind it: it reads the same in two states, of one run or of
two, whose charts agree there. -/
theorem sameReads_of_agree (hc : c.Sound requested) (hs : Shown c base A s)
    (ht : Shown c base A' t) {p : Pair} (hp : c.Planned p)
    (h : ∀ q, c.Behind q p → A q = A' q) : SameReads c p s t := by
  refine ⟨?_, ?_, ?_, ?_, ?_⟩
  · intro w hw
    rw [hs.status, ht.status, h w (Relation.TransGen.single hw)]
  · rw [hs.graph, ht.graph]
  · intro hd site hsite
    rw [Resolver.sitesOf, hs.graph, List.mem_filter] at hsite
    have hunit : site.unit = p.fqn := by simpa using hsite.2
    rw [hs.graph, hs.outputs, ht.outputs,
      h _ (hc.behind_site hp (hc.deploy_requested hp hd) hsite.1 hunit)]
  · intro hd
    -- the phases before the deployment stand behind it, or are not part of the run
    have hsame (q : Phase) (hq : q.index < p.phase.index) : A ⟨p.fqn, q⟩ = A' ⟨p.fqn, q⟩ := by
      by_cases hplanned : c.Planned ⟨p.fqn, q⟩
      · exact h _ (Setup.behind_earlier hc.sorted hc.plan hp hplanned hq)
      · rw [hs.offPlan _ hplanned, ht.offPlan _ hplanned]
    have hinit := hsame .init (by simp [hd, Phase.index])
    have hbuild := hsame .build (by simp [hd, Phase.index])
    have hrecord : (s.buildstate.record? p.fqn).bind (fun r => r.fingerprint? .build) =
        (t.buildstate.record? p.fqn).bind fun r => r.fingerprint? .build := by
      rw [hs.record, ht.record]
      simp only [Chart.record?, Phase.all, List.foldl_cons, List.foldl_nil,
        Standing.fingerprint?_mark_of_ne (show Phase.build ≠ Phase.deploy by decide), hinit, hbuild]
    simp only [buildDigest?, hs.fingerprint, ht.fingerprint, hbuild, hrecord]
  · intro hd e he hk
    obtain ⟨hedge, htarget⟩ := List.mem_filter.mp he
    have hb := hc.behind_upstream hp (hc.deploy_requested hp hd) hedge (by simpa using htarget) hk
    rw [hs.fingerprint, ht.fingerprint, h _ hb]

/-! ### Fitting charts -/

/-- What a pair has read in one state stands in another one: the statuses of the pairs that it waits
for, and the rest too if what it reads is decided behind it. -/
structure Lasts (c : Setup) (p : Pair) (s t : RunState) : Prop where
  statuses : ∀ w ∈ c.waits p, s.status w = t.status w
  reads : (∃ stack, c.graph.Built stack) → SameReads c p s t

theorem Lasts.refl (p : Pair) (s : RunState) : Lasts c p s s :=
  ⟨fun _ _ => rfl, fun _ => .refl p s⟩

theorem Lasts.trans {p : Pair} {r : RunState} (h : Lasts c p r s) (h' : Lasts c p s t) :
    Lasts c p r t :=
  ⟨fun w hw => (h.statuses w hw).trans (h'.statuses w hw),
    fun hb => (h.reads hb).trans (h'.reads hb)⟩

/-- What a pair has read stands as long as charts agree behind the pair. -/
theorem lasts_of_agree (hc : c.Checked requested) (hs : Shown c base A s)
    (ht : Shown c base A' t) {p : Pair} (hp : c.Planned p)
    (h : ∀ q, c.Behind q p → A q = A' q) : Lasts c p s t := by
  refine ⟨fun w hw => ?_, fun hb => sameReads_of_agree ⟨hc, hb⟩ hs ht hp h⟩
  rw [hs.status, ht.status, h w (Relation.TransGen.single hw)]

/-- A standing fits what the pair read when it was decided, and that still stands. -/
def Fitted (c : Setup) (base s : RunState) (p : Pair) (st : Standing) : Prop :=
  ∃ t, Lasts c p t s ∧ Fits c base t p st

/-- Over the graph of a stack, a standing fits what the pair would read now. -/
theorem Fitted.fits (hb : ∃ stack, c.graph.Built stack) {p : Pair} (h : Fitted c base s p st) :
    Fits c base s p st := by
  obtain ⟨t, hlasts, hfits⟩ := h
  exact fits_congr (hlasts.reads hb) hfits

theorem Fitted.lasting {p : Pair} (h : Fitted c base s p st) (hl : Lasts c p s t) :
    Fitted c base t p st := by
  obtain ⟨r, hlasts, hfits⟩ := h
  exact ⟨r, hlasts.trans hl, hfits⟩

theorem Fitted.waiting {p : Pair} : Fitted c base s p .waiting := ⟨s, .refl p s, trivial⟩

theorem Fitted.of_fits {p : Pair} (h : Fits c base s p st) : Fitted c base s p st :=
  ⟨s, .refl p s, h⟩

/-- A pair with a standing waits for settled pairs only. -/
theorem Fitted.waits_terminal {p : Pair} (h : Fitted c base s p st) (hst : st ≠ .waiting) :
    ∀ w ∈ c.waits p, (s.status w).terminal = true := by
  obtain ⟨t, hlasts, hfits⟩ := h
  intro w hw
  rw [← hlasts.statuses w hw]
  exact hfits.waits_terminal hst w hw

/-- A pair that is neither waiting nor skipped waited for pairs that have succeeded. -/
theorem Fitted.clear {p : Pair} (h : Fitted c base s p st) (hst : st ≠ .waiting)
    (hskip : ∀ b, st ≠ .skipped b) : ∀ w ∈ c.waits p, s.status w = .succeeded := by
  obtain ⟨t, hlasts, hfits⟩ := h
  intro w hw
  rw [← hlasts.statuses w hw]
  exact hfits.clear hst hskip w hw

/-- All standings of a chart fit what their pairs have read. -/
def AllFit (c : Setup) (base s : RunState) (A : Chart) : Prop := ∀ p, Fitted c base s p (A p)

namespace AllFit

/-- Everything behind a pair with a standing is settled. -/
theorem settled_of_behind (hs : Shown c base A s) (h : AllFit c base s A) {q p : Pair}
    (hb : c.Behind q p) (hp : A p ≠ .waiting) : (A q).settled = true := by
  have hone {w p : Pair} (hw : w ∈ c.waits p) (hp : A p ≠ .waiting) : (A w).settled = true := by
    have := (h p).waits_terminal hp w hw
    rwa [hs.status] at this
  have hne {w : Pair} (hw : (A w).settled = true) : A w ≠ .waiting := by
    intro heq
    rw [heq] at hw
    cases hw
  induction hb using Relation.TransGen.head_induction_on with
  | single hw => exact hone hw hp
  | head hw _ ih => exact hone hw (hne ih)

/-- Everything behind a pair that was not skipped has succeeded. -/
theorem succeeded_of_behind (hs : Shown c base A s) (h : AllFit c base s A) {q p : Pair}
    (hb : c.Behind q p) (hp : A p ≠ .waiting) (hskip : ∀ b, A p ≠ .skipped b) :
    (A q).status = .succeeded := by
  have hone {w p : Pair} (hw : w ∈ c.waits p) (hp : A p ≠ .waiting)
      (hskip : ∀ b, A p ≠ .skipped b) : (A w).status = .succeeded := by
    rw [← hs.status]
    exact (h p).clear hp hskip w hw
  have hne {w : Pair} (hw : (A w).status = .succeeded) :
      A w ≠ .waiting ∧ ∀ b, A w ≠ .skipped b := by
    constructor
    · intro heq
      rw [heq] at hw
      cases hw
    · intro b heq
      rw [heq] at hw
      cases hw
  induction hb using Relation.TransGen.head_induction_on with
  | single hw => exact hone hw hp hskip
  | head hw _ ih => exact hone hw (hne ih).1 (hne ih).2

/-- Later phases of a unit leave its record alone as long as an earlier one is open. -/
theorem unmarked_after (hc : c.Checked requested) (hs : Shown c base A s) (h : AllFit c base s A)
    (hx : c.Planned x) (hopen : (A x).settled = false) (p : Phase)
    (hp : x.phase.index < p.index) : (A ⟨x.fqn, p⟩).unmarked = true := by
  by_contra hmark
  have hne : A ⟨x.fqn, p⟩ ≠ .waiting := by
    intro heq
    rw [heq] at hmark
    exact hmark rfl
  have hb : c.Behind x ⟨x.fqn, p⟩ :=
    Setup.behind_earlier hc.sorted hc.plan (hs.planned_of_ne hne) hx hp
  rw [h.settled_of_behind hs hb hne] at hopen
  cases hopen

/-- **What fits keeps fitting** while open pairs move, one after the other, to standings that fit
themselves. -/
theorem update (hc : c.Checked requested) (hs : Shown c base A s)
    (hs' : Shown c base (Function.update A x st) s') (h : AllFit c base s A) (hx : c.Planned x)
    (hopen : (A x).settled = false) (hst : Fitted c base s x st) :
    AllFit c base s' (Function.update A x st) := by
  have hkeep {q p : Pair} (hb : c.Behind q p) (hne : q ≠ x) :
      A q = Function.update A x st q := (Function.update_of_ne hne _ _).symm
  intro p
  by_cases hpx : p = x
  · subst hpx
    rw [Function.update_self]
    refine hst.lasting (lasts_of_agree hc hs hs' hx ?_)
    intro q hb
    refine hkeep hb ?_
    rintro rfl
    exact hc.not_behind_self _ hb
  · rw [Function.update_of_ne hpx]
    by_cases hwait : A p = .waiting
    · rw [hwait]
      exact .waiting
    · refine (h p).lasting (lasts_of_agree hc hs hs' (hs.planned_of_ne hwait) ?_)
      intro q hb
      refine hkeep hb ?_
      rintro rfl
      rw [h.settled_of_behind hs hb hwait] at hopen
      cases hopen

end AllFit

end Rollout
