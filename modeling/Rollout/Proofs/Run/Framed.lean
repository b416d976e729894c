import Rollout.Proofs.Run.Durable
import Rollout.Proofs.Run.Workers

/-!
# What a run leaves alone

The record of a unit is written when a pair of the unit is executed or fails, and only then. The
three phases of a unit share the record; but what it says about a phase is changed by the pair of
that phase alone, and the snapshot and the outputs by an executed deployment alone. A failure never
makes a record. So whatever a pair does not change is, after a run, as it was before it, however the
pairs of the run came one after the other and whatever the records said.

**Types.** `UnitRecord.deployment`.

**Operations.** `Pair.executed`, `Pair.noted`: whether a pair was executed with success, and whether
its record was written for it.

**Results.**
* `Chart.record?_kept`: the record of a unit none of whose open pairs is executed or fails;
* `Chart.isSome_record?`: which units have a record;
* `Tied.deployment_kept`: the snapshot and the outputs of a unit that was not deployed;
* `changed_only_by_run`: what a run leaves alone, as a whole and between two of its moments.
-/

namespace Rollout

open RunState

/-- Whether an executor has succeeded, and not an earlier run. -/
def Outcome.executed (o : Outcome) : Bool := o.status == .succeeded && !o.reused

/-- Whether what became of a pair is written to the record of its unit. -/
def Outcome.noted (o : Outcome) : Bool := o.status == .failed || o.executed

/-- Whether a pair was executed with success. -/
def Pair.executed (p : Pair) (outcomes : Table Pair Outcome) : Bool :=
  (Table.get? p outcomes).any Outcome.executed

/-- Whether the record of its unit was written for a pair: it was executed or has failed. -/
def Pair.noted (p : Pair) (outcomes : Table Pair Outcome) : Bool :=
  (Table.get? p outcomes).any Outcome.noted

/-- What a record keeps of the latest deployment: its configuration, and its outputs. -/
def UnitRecord.deployment (r : Option UnitRecord) : Option Value × Entries :=
  (r.bind UnitRecord.snapshot, (r.getD {}).outputs)

/-! ### What one pair leaves alone -/

namespace Standing

variable {st st' : Standing}

theorem executed_outcome (st : Standing) : st.outcome.executed = st.saved := by
  cases st <;> rfl

theorem noted_outcome (st : Standing) : st.outcome.noted = !st.unmarked := by
  cases st <;> rfl

/-- A pair makes a record only by being executed. -/
theorem isSome_mark (p : Phase) (st : Standing) (r : Option UnitRecord) :
    (st.mark p r).isSome = (r.isSome || st.saved) := by
  cases st <;> simp [mark, saved]

/-- A pair that has not left anything of a deployment leaves alone what the record keeps of it. -/
theorem deployment_mark (h : ∀ digest ctx snapshot outputs,
      st = .succeeded digest ctx snapshot outputs → snapshot = none ∧ outputs = none)
    (p : Phase) (r : Option UnitRecord) :
    UnitRecord.deployment (st.mark p r) = UnitRecord.deployment r := by
  have hmark (r : UnitRecord) (value : Bool) :
      (r.mark p value).snapshot = r.snapshot ∧ (r.mark p value).outputs = r.outputs := by
    cases p <;> exact ⟨rfl, rfl⟩
  have hfail (r : Option UnitRecord) :
      UnitRecord.deployment (r.map (UnitRecord.fail p)) = UnitRecord.deployment r := by
    cases r <;> simp [UnitRecord.deployment, UnitRecord.fail, hmark]
  cases st with
  | succeeded digest ctx snapshot outputs =>
    obtain ⟨rfl, rfl⟩ := h digest ctx snapshot outputs rfl
    cases r with
    | none => cases p <;> rfl
    | some r => simp [mark, UnitRecord.deployment, UnitRecord.succeed, hmark]
  | missing cause => exact hfail r
  | failed digest ctx cause timedOut => exact hfail r
  | _ => rfl

/-- A pair leaves alone what is stored in the record under another name than that of its phase. -/
theorem stored_mark {p : Phase} {key : String} (h : key ≠ p.text) (st : Standing)
    (r : Option UnitRecord) :
    (st.mark p r).bind (fun r => Table.get? key r.fingerprints) =
      r.bind fun r => Table.get? key r.fingerprints := by
  have hfail (r : Option UnitRecord) :
      (r.map (UnitRecord.fail p)).bind (fun r => Table.get? key r.fingerprints) =
        r.bind fun r => Table.get? key r.fingerprints := by
    cases r <;> simp [UnitRecord.fail, UnitRecord.fingerprints_mark, Table.get?_erase_of_ne h]
  cases st with
  | succeeded digest ctx snapshot outputs =>
    cases r <;>
      simp [mark, UnitRecord.succeed, UnitRecord.fingerprints_mark, Table.get?_set_of_ne h]
  | missing cause => exact hfail r
  | failed digest ctx cause timedOut => exact hfail r
  | _ => rfl

/-- A settled pair stays as it is, and of an open one that comes to leave the record alone the
record says nothing either. -/
theorem mark_kept (hkept : st.settled = true → st' = st)
    (h : st.settled = true ∨ st'.unmarked = true) (p : Phase) (r : Option UnitRecord) :
    st'.mark p r = st.mark p r := by
  cases hst : st.settled with
  | true => rw [hkept hst]
  | false =>
    have hunmarked : st'.unmarked = true := h.resolve_left (by rw [hst]; nofun)
    rw [mark_of_unmarked hunmarked, mark_of_unmarked (unmarked_of_not_settled hst)]

end Standing

/-! ### What the pairs of a unit leave alone -/

namespace Chart

variable {A A' : Chart} {fqn : String}

/-- **The record of a unit** stays between two charts unless an open pair of the unit has come to be
executed or to fail. -/
theorem record?_kept (b : Buildstate) (hsettles : Settles A A')
    (h : ∀ p, (A ⟨fqn, p⟩).settled = true ∨ (A' ⟨fqn, p⟩).unmarked = true) :
    A'.record? b fqn = A.record? b fqn := by
  have hmark (p : Phase) (r : Option UnitRecord) :
      (A' ⟨fqn, p⟩).mark p r = (A ⟨fqn, p⟩).mark p r :=
    Standing.mark_kept (hsettles ⟨fqn, p⟩) (h p) p r
  simp only [record?, hmark]

/-- **A unit has a record** if it had one before the run or one of its pairs was executed. -/
theorem isSome_record? (A : Chart) (b : Buildstate) (fqn : String) :
    (A.record? b fqn).isSome =
      ((b.record? fqn).isSome || Phase.all.any fun p => (A ⟨fqn, p⟩).saved) := by
  simp [record?, Phase.all, Standing.isSome_mark, Bool.or_assoc]

/-- What is known about an executed pair after a run: it is done, under the fingerprint that was
found for it. -/
theorem account_of_saved (A : Chart) (b : Buildstate) {p : Pair} (h : (A p).saved = true) :
    UnitRecord.account (A.record? b p.fqn) p.phase = (true, (A p).outcome.fingerprint) := by
  obtain ⟨r, hr, -⟩ := A.exists_account b p
  rw [hr]
  cases hA : A p with
  | succeeded digest ctx snapshot outputs =>
    have hcurrent := UnitRecord.isCurrent_succeed (r.getD {}) p.phase digest digest snapshot outputs
    rw [beq_self_eq_true, UnitRecord.isCurrent, Bool.and_eq_true, beq_iff_eq] at hcurrent
    exact Prod.ext hcurrent.1 hcurrent.2
  | _ =>
    rw [hA] at h
    cases h

/-- A failed pair is open after a run. -/
theorem open_of_failed (A : Chart) (b : Buildstate) {p : Pair} (h : (A p).status = .failed) :
    (UnitRecord.account (A.record? b p.fqn) p.phase).1 = false := by
  obtain ⟨r, hr, -⟩ := A.exists_account b p
  rw [hr, Standing.mark_of_failed h]
  cases r <;> simp [UnitRecord.account, UnitRecord.done_fail]

end Chart

variable {c : Setup} {requested : List Phase} {base s s' t : RunState} {A : Chart} {fqn : String}

/-! ### What the outcomes of a run tell -/

namespace Shown

/-- What an outcome tells without its time can be read off the chart. -/
theorem any_outcome (h : Shown c base A s) {f : Outcome → Bool}
    (huntimed : ∀ o : Outcome, f o.untimed = f o) (hnew : f {} = false) (p : Pair) :
    (Table.get? p s.outcomes).any f = f (A p).outcome := by
  by_cases hp : c.Planned p
  · obtain ⟨o, ho, hsame⟩ := h.exists_outcome hp
    rw [ho, ← hsame, huntimed]
    rfl
  · have hnone : Table.get? p s.outcomes = none := by
      rw [Table.get?_eq_none_iff, h.keys]
      exact hp
    rw [hnone, h.offPlan p hp]
    exact hnew.symm

theorem executed (h : Shown c base A s) (p : Pair) : p.executed s.outcomes = (A p).saved :=
  (h.any_outcome (fun _ => rfl) rfl p).trans (A p).executed_outcome

theorem noted (h : Shown c base A s) (p : Pair) : p.noted s.outcomes = !(A p).unmarked :=
  (h.any_outcome (fun _ => rfl) rfl p).trans (A p).noted_outcome

/-- A pair for which nothing was written leaves the record of its unit alone. -/
theorem unmarked_of_noted (h : Shown c base A s) {p : Pair} (hp : p.noted s.outcomes = false) :
    (A p).unmarked = true := by
  rwa [h.noted, Bool.not_eq_false'] at hp

end Shown

namespace Tied

/-- Only deployments leave a snapshot and outputs. -/
theorem eq_none_of_ne_deploy (h : Tied c base A s) {p : Pair} (hp : p.phase ≠ .deploy)
    {digest : String} {ctx : UnitContext} {snapshot : Option Value} {outputs : Option Entries}
    (hA : A p = .succeeded digest ctx snapshot outputs) : snapshot = none ∧ outputs = none := by
  obtain ⟨r, -, hfit⟩ := h.fit p
  rw [hA] at hfit
  obtain ⟨-, reply, given, -, -, hgain⟩ := hfit
  rw [gain, if_neg hp, Except.ok.injEq, Prod.mk.injEq] at hgain
  exact ⟨hgain.1.symm, hgain.2.symm⟩

/-- **The snapshot and the outputs of a unit** that was not deployed stay as they were. -/
theorem deployment_kept (h : Tied c base A s) (hdeploy : (A ⟨fqn, .deploy⟩).saved = false) :
    UnitRecord.deployment (s.buildstate.record? fqn) =
      UnitRecord.deployment (base.buildstate.record? fqn) := by
  rw [h.shown.record]
  refine A.record?_keeps base.buildstate _ fun p r => Standing.deployment_mark ?_ p r
  intro digest ctx snapshot outputs hA
  refine h.eq_none_of_ne_deploy (p := ⟨fqn, p⟩) ?_ hA
  rintro rfl
  rw [hA] at hdeploy
  cases hdeploy

/-- **Between two moments** of a run the record of a unit changes only if a pair of the unit that is
open at the first moment has been executed or has failed at the second one. -/
theorem record_kept (hc : c.Checked requested) (h : Tied c base A t) (ht : Timely t) {n : Nat}
    (hsteps : Steps c n t s) (hopen : ∀ p : Phase, (t.status ⟨fqn, p⟩).terminal = true ∨
      Pair.noted ⟨fqn, p⟩ s.outcomes = false) :
    s.buildstate.record? fqn = t.buildstate.record? fqn := by
  obtain ⟨B, hB, hsettles, -⟩ := h.steps hc hsteps ht
  rw [h.shown.record, hB.shown.record]
  refine Chart.record?_kept base.buildstate hsettles fun p => ?_
  rcases hopen p with hterminal | hquiet
  · rw [h.shown.status] at hterminal
    exact Or.inl hterminal
  · exact Or.inr (hB.shown.unmarked_of_noted hquiet)

end Tied

/-! ### Whole runs -/

/-- **A run changes only what it ran.** Any scheduler, over any graph and with any records, carries
out a run that reports.

The record of a unit outside the graph, and of one whose pairs were all skipped or reused or no part
of the run, is the same after the run as before. What a record says about a phase, whether it is
done and under which fingerprint, is the same if the pair neither was executed nor failed; what is
stored under another name than that of a phase is the same in any case. A pair that was executed is
done under the fingerprint in its outcome, and one that failed is open. A unit has a record if it
had one or one of its pairs was executed: a failure makes none. The snapshot and the outputs are the
same unless the deployment of the unit was executed with success.

Between two moments of the run, too, a record changes only for a pair that was open at the first one
and was executed or has failed at the second. So nothing that is considered, skipped, reused or
started changes a record, nor does the answer of an executor whose pair has failed before, for its
time. -/
theorem changed_only_by_run {sched : Scheduler} (husable : sched.Usable) {phases : List Phase}
    {files : Files} {report : Report} (hr : (sched.run phases files).report = .ok report) :
    (∀ fqn, sched.graph.has fqn = false ∨ (∀ p, Pair.noted ⟨fqn, p⟩ report.pairs = false) →
      (sched.run phases files).scheduler.buildstate.record? fqn = sched.buildstate.record? fqn) ∧
    (∀ p : Pair, p.noted report.pairs = false →
      (sched.run phases files).scheduler.buildstate.account p = sched.buildstate.account p) ∧
    (∀ fqn key, (∀ p : Phase, key ≠ p.text) →
      (((sched.run phases files).scheduler.buildstate.record? fqn).bind fun r =>
        Table.get? key r.fingerprints) =
      (sched.buildstate.record? fqn).bind fun r => Table.get? key r.fingerprints) ∧
    (∀ p : Pair, p.executed report.pairs = true →
      (sched.run phases files).scheduler.buildstate.account p =
        (true, (Table.get? p report.pairs).bind Outcome.fingerprint)) ∧
    (∀ p : Pair, report.statusOf? p = some .failed →
      ((sched.run phases files).scheduler.buildstate.account p).1 = false) ∧
    (∀ fqn, ((sched.run phases files).scheduler.buildstate.record? fqn).isSome =
      ((sched.buildstate.record? fqn).isSome ||
        Phase.all.any fun p => Pair.executed ⟨fqn, p⟩ report.pairs)) ∧
    (∀ fqn, Pair.executed ⟨fqn, .deploy⟩ report.pairs = false →
      UnitRecord.deployment ((sched.run phases files).scheduler.buildstate.record? fqn) =
        UnitRecord.deployment (sched.buildstate.record? fqn)) ∧
    ∀ plan t n t', sched.Passes phases files plan t → Steps (sched.setup plan) n t t' → ∀ fqn,
      (∀ p, (t.status ⟨fqn, p⟩).terminal = true ∨ Pair.noted ⟨fqn, p⟩ t'.outcomes = false) →
        t'.buildstate.record? fqn = t.buildstate.record? fqn := by
  obtain ⟨plan, n, last, A, hfollows, hrun, rfl, hall⟩ := Scheduler.settled_spec husable hr
  have htied := hfollows.tied
  have hshown := htied.shown
  have hafter : (sched.run phases files).scheduler.buildstate = last.buildstate := by rw [hrun]; rfl
  have hoff {fqn : String} (hnone : sched.graph.has fqn = false) (p : Phase) :
      A ⟨fqn, p⟩ = .waiting := by
    refine hshown.offPlan _ fun hplanned => ?_
    obtain ⟨node, hnode, -⟩ := hfollows.checked.exists_node hplanned
    rw [Graph.has, show sched.graph.node? fqn = some node from hnode] at hnone
    cases hnone
  rw [hafter]
  refine ⟨fun fqn hidle => ?_, fun p hquiet => ?_, fun fqn key hkey => ?_, fun p hdone => ?_,
    fun p hfailed => ?_, fun fqn => ?_, fun fqn hdeploy => ?_, fun plan' t m t' hp hsteps fqn => ?_⟩
  · rw [hshown.record]
    refine A.record?_keeps _ id fun p r => Standing.mark_of_unmarked ?_ p r
    rcases hidle with hnone | hquiet
    · rw [hoff hnone]
      rfl
    · exact hshown.unmarked_of_noted (hquiet p)
  · rw [Buildstate.account, hshown.record]
    exact A.account_of_unmarked _ (hshown.unmarked_of_noted hquiet)
  · rw [hshown.record]
    exact A.record?_keeps _ (fun r => r.bind fun r => Table.get? key r.fingerprints)
      fun p r => Standing.stored_mark (hkey p) _ r
  · change p.executed last.outcomes = true at hdone
    rw [hshown.executed] at hdone
    have hplanned : (sched.setup plan).Planned p := by
      refine hshown.planned_of_ne fun hwait => ?_
      rw [hwait] at hdone
      cases hdone
    obtain ⟨o, ho, hsame⟩ := hshown.exists_outcome hplanned
    have hpairs : Table.get? p (sched.reportOf (requestedPhases phases) last).pairs = some o := ho
    rw [Buildstate.account, hshown.record, A.account_of_saved _ hdone, ← hsame, hpairs]
    rfl
  · rw [Buildstate.account, hshown.record]
    exact A.open_of_failed _ (hshown.statusOf?_eq_some_iff.mp hfailed).2
  · rw [hshown.record, A.isSome_record?]
    simp only [← hshown.executed]
    rfl
  · exact htied.deployment_kept ((hshown.executed _).symm.trans hdeploy)
  · obtain ⟨B, hB, htimely⟩ := hp.tied husable
    exact hB.record_kept (hp.checked husable) htimely hsteps

namespace Shop

/-- The record of a unit that is no longer part of the shop, with a fingerprint under the name of a
phase that there is not. -/
def leftover : UnitRecord := { built := true, fingerprints := [("lint", "5f0c")] }

/-- A scheduler that knows the unit; the executor of deployments fails. -/
def remembering : Scheduler :=
  { scheduler [database, interface] 4 failing with
    buildstate := { stack := "shop", units := [("shop.service.old", leftover)] } }

end Shop

/-- The deployment of the database fails in the shop, and the interface is skipped. Neither gets a
record, and the record of the unit that is no longer part of the shop stays. -/
theorem changed_only_by_run_shop : ∃ report,
    Shop.remembering.Usable ∧ (Shop.remembering.run [.deploy] []).report = .ok report ∧
    report.statusOf? ⟨"shop.service.db", .deploy⟩ = some .failed ∧
    report.statusOf? ⟨"shop.service.api", .deploy⟩ = some .skipped ∧
    (Shop.remembering.run [.deploy] []).scheduler.buildstate.record? "shop.service.old" =
      some Shop.leftover ∧
    (Shop.remembering.run [.deploy] []).scheduler.buildstate.record? "shop.service.api" = none ∧
    (Shop.remembering.run [.deploy] []).scheduler.buildstate.record? "shop.service.db" = none := by
  have husable : Shop.remembering.Usable := ⟨rfl, by decide⟩
  have hrun : ((Shop.remembering.run [.deploy] []).report.toOption.any fun r =>
      r.statusOf? ⟨"shop.service.db", .deploy⟩ == some .failed &&
      r.statusOf? ⟨"shop.service.api", .deploy⟩ == some .skipped &&
      !(Phase.all.any fun p => Pair.executed ⟨"shop.service.db", p⟩ r.pairs) &&
      Phase.all.all fun p => !Pair.noted ⟨"shop.service.api", p⟩ r.pairs) = true := by
    simp only [Scheduler.run, Scheduler.carryOut, RunState.run_eq]
    decide +kernel
  obtain ⟨report, hr, hfacts⟩ := exists_of_any hrun
  simp only [Bool.and_eq_true, beq_iff_eq, Bool.not_eq_true', List.all_eq_true] at hfacts
  obtain ⟨⟨⟨hfailed, hskipped⟩, hopen⟩, hquiet⟩ := hfacts
  obtain ⟨hrecord, -, -, -, -, hsome, -⟩ := changed_only_by_run husable hr
  refine ⟨report, husable, hr, hfailed, hskipped, ?_, ?_, ?_⟩
  · exact hrecord _ (Or.inl (by rfl))
  · exact hrecord _ (Or.inr fun p => hquiet p (by cases p <;> decide))
  · rw [← Option.isNone_iff_eq_none, ← Option.not_isSome, hsome, hopen]
    rfl

end Rollout
