import Rollout.Proofs.Run.Reordered
import Rollout.Proofs.Run.Untimed

/-!
# One worker

With one worker and executors that return in time there is never a choice: at most one call is
open, and a run that waits waits for that call. So a run does what it would do if nothing took any
time. Two runs whose executors differ only in how long they take do the same in the same order,
then, and report the same but for the times.

**Types.** `RunState.Lone`, `RunResult.InStep`.

**Operations.** `Executors.retime`: executors that take other times; `EventBody.untimed`,
`Event.untimed`: events without their times.

**Results.**
* `Lone.onward`, `Lone.untimed_onward`: a run with one worker, step by step, with and without times;
* `Lone.untimed_run`: the same for a number of steps;
* `Scheduler.carryOut_inStep`: two ways of carrying out a plan;
* `Scheduler.sequential_reproducible`: two runs with one worker.
-/

namespace Rollout

open RunState

/-! ### One call at a time -/

/-- No executor is at work, or a single one that returns in time. -/
inductive RunState.Lone (s : RunState) : Prop
  | idle (ha : s.abandoned = []) (hr : s.running = []) (hc : s.calls = [])
  | busy {call : Call} {task : Task} (ha : s.abandoned = []) (hr : s.running = [(call.pair, task)])
      (hc : s.calls = [call]) (hintime : ∀ d ∈ task.deadline, call.due ≤ d)

namespace RunState.Lone

variable {c : Setup} {s s' : RunState}

theorem congr (h : s.Lone) (ha : s'.abandoned = s.abandoned) (hr : s'.running = s.running)
    (hc : s'.calls = s.calls) : s'.Lone := by
  cases h with
  | idle ha' hr' hc' => exact .idle (ha.trans ha') (hr.trans hr') (hc.trans hc')
  | busy ha' hr' hc' hintime => exact .busy (ha.trans ha') (hr.trans hr') (hc.trans hc') hintime

/-- **Waiting for the only call** takes in its answer, and no pair runs out of time. -/
theorem wait_eq {call : Call} {task : Task} (ha : s.abandoned = [])
    (hr : s.running = [(call.pair, task)]) (hc : s.calls = [call])
    (hintime : ∀ d ∈ task.deadline, call.due ≤ d) :
    s.wait c = { s with now := later s.now call.due, calls := [] }.deliver c call := by
  have hlimit : s.limit?.all (fun t => decide (call.due ≤ t)) = true := by
    rw [limit?, hr]
    cases hd : task.deadline with
    | none => simp [hd, earliest?]
    | some d =>
      have hle : call.due ≤ later s.now d := by
        rw [later_eq]
        exact le_max_of_le_right (hintime d hd)
      simpa [hd, earliest?] using hle
  have hexpire (t : RunState) (ht : t.running = []) : t.expire c = t := by
    rw [expire_eq, ht]
    rfl
  rw [wait, hc, show firstCall? [call] = some call from rfl]
  dsimp only
  rw [if_pos hlimit, show [call].filter (fun other => other.pair != call.pair) = [] by simp]
  cases hdeliver : { s with now := later s.now call.due, calls := [] }.deliver c call with
  | error halt => rfl
  | ok t =>
    have hdelivered := delivered hdeliver
    have hrunning : t.running = [] := by
      rw [hdelivered.running, ha, if_neg (by simp), hr]
      simp [Table.erase]
    exact congrArg Except.ok (hexpire t hrunning)

/-- Without a call there is nothing to wait for. -/
theorem exists_call (h : s.Lone) (hw : 1 ≤ c.maxWorkers) (hn : s.next c = .wait) :
    ∃ call task, s.abandoned = [] ∧ s.running = [(call.pair, task)] ∧ s.calls = [call] ∧
      ∀ d ∈ task.deadline, call.due ≤ d := by
  cases h with
  | busy ha hr hc hintime => exact ⟨_, _, ha, hr, hc, hintime⟩
  | idle ha hr hc =>
    have hworker : s.hasWorker c = true := by
      rw [hasWorker, ha, hr]
      exact decide_eq_true hw
    unfold next at hn
    split at hn
    · cases hn
    · rw [if_pos hworker] at hn
      cases hn
    · rw [hr] at hn
      cases hn

/-- A single worker that is free has no call open. -/
theorem idle_of_hasWorker (h : s.Lone) (hone : c.maxWorkers = 1) (hw : s.hasWorker c = true) :
    s.abandoned = [] ∧ s.running = [] ∧ s.calls = [] := by
  cases h with
  | idle ha hr hc => exact ⟨ha, hr, hc⟩
  | busy ha hr hc hintime =>
    rw [hasWorker, hr, hone] at hw
    simp at hw

/-- **Every step** leaves one call at most, which returns in time. -/
theorem onward (h : s.Lone) (hone : c.maxWorkers = 1) (hprompt : c.executors.Prompt)
    (hs : s.onward c = .ok s') : s'.Lone := by
  rw [RunState.onward] at hs
  cases hn : s.next c with
  | consider x =>
    rw [hn] at hs
    have hsame := SameWork.consider hs
    exact h.congr hsame.abandoned hsame.running hsame.calls
  | start item =>
    rw [hn] at hs
    obtain ⟨n, timeout, work, ctx, -, he, -, rfl⟩ := of_start hs
    obtain ⟨ha, hr, hc⟩ := h.idle_of_hasWorker hone (of_next_start hn).1
    have hcalls : ({ s with ready := s.ready.tail }.launch item timeout work ctx).calls =
        [⟨item.pair, s.now, s.now + (work ctx s.files).seconds, work ctx s.files⟩] := by
      simp [launch, report, amend, hc]
    refine .busy ha (by simp [launch, report, amend, hr, Table.set]; rfl) hcalls fun d hd => ?_
    obtain ⟨limit, hlimit, rfl⟩ := Option.map_eq_some_iff.mp hd
    have hlt := hprompt item.pair.phase timeout work he ctx s.files limit hlimit
    exact (add_lt_add_right hlt s.now).le
  | wait =>
    rw [hn] at hs
    obtain ⟨call, task, ha, hr, hc, hintime⟩ := h.exists_call hone.ge hn
    dsimp only at hs
    rw [wait_eq ha hr hc hintime] at hs
    have hdelivered := delivered hs
    refine .idle ?_ ?_ hdelivered.calls
    · rw [hdelivered.abandoned, ha]
      rfl
    · rw [hdelivered.running, ha, if_neg (by simp), hr]
      simp [Table.erase]
  | finish =>
    rw [hn] at hs
    rw [← Except.ok.inj hs]
    exact h

/-- What is next does not depend on times. -/
theorem next_untimed (c : Setup) (s : RunState) : s.untimed.next c.still = s.next c := by
  have hworker : s.untimed.hasWorker c.still = s.hasWorker c := by
    simp [hasWorker, RunState.untimed, Setup.still, Setup.equip]
  simp only [next, hworker]
  simp [RunState.untimed]

/-- **Every step** does what it would do if nothing took any time. -/
theorem untimed_onward (h : s.Lone) (hw : 1 ≤ c.maxWorkers) :
    untimedAttempt (s.onward c) = s.untimed.onward c.still := by
  rw [RunState.onward, RunState.onward, next_untimed]
  cases hn : s.next c with
  | consider x => exact untimed_consider { s with promoted := s.promoted.tail } x
  | start item => exact untimed_start { s with ready := s.ready.tail } item
  | wait =>
    obtain ⟨call, task, ha, hr, hc, hintime⟩ := h.exists_call hw hn
    -- without times the only call is due at once, and there is no limit that could come first
    have hr' : s.untimed.running = [(call.untimed.pair, task.untimed)] := by
      simp [RunState.untimed, hr]
      rfl
    have hc' : s.untimed.calls = [call.untimed] := by simp [RunState.untimed, hc]
    have hintime' : ∀ d ∈ task.untimed.deadline, call.untimed.due ≤ d := by
      rintro d ⟨⟩
    have hwait : s.untimed.wait c.still =
        { s.untimed with now := later 0 0, calls := [] }.deliver c call.untimed :=
      wait_eq ha hr' hc' hintime'
    dsimp only
    rw [wait_eq ha hr hc hintime, hwait, untimed_deliver]
    rfl
  | finish => rfl

/-- **A run with one worker** does what it would do if nothing took any time. -/
theorem untimed_run (h : s.Lone) (hone : c.maxWorkers = 1) (hprompt : c.executors.Prompt)
    (fuel : Nat) : untimedAttempt (s.run c fuel) = s.untimed.run c.still fuel := by
  induction fuel generalizing s with
  | zero => rfl
  | succ fuel ih =>
    rw [run_succ, run_succ, ← h.untimed_onward hone.ge]
    cases hs : s.onward c with
    | error halt => rfl
    | ok t => exact ih (h.onward hone hprompt hs)

end RunState.Lone

/-! ### Executors that take other times -/

/-- An executor that takes other times. -/
def Executor.retime (seconds : UnitContext → Files → Rat) (e : Executor) : Executor :=
  { e with run := e.run.map fun work ctx files =>
      { work ctx files with seconds := seconds ctx files } }

/-- Executors that take other times, and do everything else in the same way. -/
def Executors.retime (seconds : Phase → UnitContext → Files → Rat) (executors : Executors) :
    Executors :=
  executors.map fun e => (e.1, e.2.retime (seconds e.1))

/-- What executors do apart from their times stays when they take other times. -/
theorem Executors.still_retime (seconds : Phase → UnitContext → Files → Rat)
    (executors : Executors) : (executors.retime seconds).still = executors.still := by
  rw [still, still, retime, List.map_map]
  refine List.map_congr_left fun e _ => Prod.ext rfl ?_
  change (e.2.retime (seconds e.1)).still = e.2.still
  rw [Executor.still, Executor.still, Executor.retime, Option.map_map]
  rfl

theorem Executors.get?_retime (seconds : Phase → UnitContext → Files → Rat)
    (executors : Executors) (p : Phase) : Table.get? p (executors.retime seconds) =
      (Table.get? p executors).map (Executor.retime (seconds p)) :=
  Table.get?_map_key (fun p => Executor.retime (seconds p)) p executors

/-- Times are not checked. -/
theorem Executors.check_retime (seconds : Phase → UnitContext → Files → Rat)
    (executors : Executors) (g : Graph) (phases : List Phase) :
    checkExecutors (executors.retime seconds) g phases = checkExecutors executors g phases := by
  refine checkExecutors_congr (fun p => ?_) g phases
  rw [get?_retime]
  cases Table.get? p executors with
  | none => exact .none
  | some e => exact .some ⟨rfl, by cases e with | mk timeout run => cases run <;> rfl⟩

/-! ### What is told without times -/

/-- What an event reports, without its time. -/
def EventBody.untimed : EventBody → EventBody
  | .stageCompleted stage _ status => .stageCompleted stage 0 status
  | .stageFailed stage _ code message hint => .stageFailed stage 0 code message hint
  | .unitSucceeded fqn phase _ => .unitSucceeded fqn phase 0
  | .unitFailed fqn phase _ cause timedOut => .unitFailed fqn phase 0 cause timedOut
  | .runFinished status counts _ => .runFinished status counts 0
  | body => body

def Event.untimed (e : Event) : Event := { e with body := e.body.untimed }

theorem Event.untimed_of (command : String) (progress : Progress) :
    (Event.of command progress.body).untimed = Event.of command progress.untimed.body := by
  cases progress <;> rfl

/-- The events of a run without their times are those of its journal without its times. -/
theorem RunResult.untimed_events (r : RunResult) : r.events.map Event.untimed =
    (r.journal.map Entry.untimed).map fun e => Event.of r.scheduler.command e.progress.body := by
  rw [events, List.map_map, List.map_map]
  exact List.map_congr_left fun e _ => Event.untimed_of r.scheduler.command e.progress

namespace Report

theorem unitStatus_untimed (r : Report) (fqn : String) :
    r.untimed.unitStatus fqn = r.unitStatus fqn := by
  have hstatuses : r.untimed.statusesOf fqn = r.statusesOf fqn := by
    simp only [statusesOf, untimed, List.filter_map, List.map_map]
    rfl
  rw [unitStatus, unitStatus, hstatuses]

/-- The status of a run does not depend on its times. -/
theorem status_untimed (r : Report) : r.untimed.status = r.status := by
  have hunits : r.untimed.units = r.units := by
    simp only [units, unitStatus_untimed]
    rw [untimed, List.foldl_map]
  rw [status, status, hunits]

/-- Nor do its counts. -/
theorem counts_untimed (r : Report) : r.untimed.counts = r.counts := by
  have hcount (f : Outcome → Bool) (hf : ∀ o : Outcome, f o.untimed = f o) :
      (r.untimed.pairs.filter fun e => f e.2).length = (r.pairs.filter fun e => f e.2).length := by
    rw [untimed, List.filter_map, List.length_map]
    simp only [Function.comp_def, hf]
  simp only [counts, hcount (fun o => o.status == _) fun _ => rfl,
    hcount Outcome.reused fun _ => rfl]

end Report

/-! ### Two runs -/

/-- Two runs have told the same in the same order, have handed out the same contexts and have left
the same files and schedulers, but for the times and the executors. -/
structure RunResult.InStep (r r' : RunResult) : Prop where
  events : r.events.map Event.untimed = r'.events.map Event.untimed
  report : r.report.map Report.untimed = r'.report.map Report.untimed
  contexts : r.contexts = r'.contexts
  files : r.files = r'.files
  scheduler : r'.scheduler = r.scheduler.equip r'.scheduler.executors

namespace Scheduler

variable {s : Scheduler} {phases : List Phase} {files : Files} {plan : Plan}

/-- A run begins before anything has taken time. -/
theorem untimed_initial (s : Scheduler) (plan : Plan) (phases : List Phase) (files : Files) :
    (s.initial plan phases files).untimed = s.initial plan phases files := by
  simp only [initial, RunState.untimed_report]
  simp only [RunState.untimed, List.map_map]
  rfl

/-- What states lead to that agree but for the times. -/
theorem inStep_of_untimed {executors : Executors} {a b : RunState} (hab : a.untimed = b.untimed)
    {report report' : Except RunFault Report}
    (hreport : report.map Report.untimed = report'.map Report.untimed) (ms ms' : Rat) :
    RunResult.InStep ⟨report, a.journal, a.contexts, s.keep a, a.files, ms⟩
      ⟨report', b.journal, b.contexts, (s.equip executors).keep b, b.files, ms'⟩ := by
  have hjournal : a.untimed.journal = b.untimed.journal := congrArg RunState.journal hab
  have hresolver : a.untimed.resolver = b.untimed.resolver := congrArg RunState.resolver hab
  have hfingerprints : a.untimed.fingerprints = b.untimed.fingerprints :=
    congrArg RunState.fingerprints hab
  have hbuildstate : a.untimed.buildstate = b.untimed.buildstate :=
    congrArg RunState.buildstate hab
  have hcontexts : a.untimed.contexts = b.untimed.contexts := congrArg RunState.contexts hab
  have hfiles : a.untimed.files = b.untimed.files := congrArg RunState.files hab
  refine ⟨?_, hreport, hcontexts, hfiles, ?_⟩
  · rw [RunResult.untimed_events, RunResult.untimed_events]
    exact congrArg (List.map fun e => Event.of s.command e.progress.body) hjournal
  · change (s.equip executors).keep b.untimed = (s.keep a.untimed).equip executors
    rw [keep, keep, hresolver, hfingerprints, hbuildstate]
    rfl

/-- **Carrying out a plan** in two ways that agree but for the times. -/
theorem carryOut_inStep {executors : Executors} {first : RunState}
    (h : untimedAttempt (first.run (s.setup plan) (stepLimit plan)) =
      untimedAttempt (first.run ((s.equip executors).setup plan) (stepLimit plan))) :
    (s.carryOut plan phases first).InStep ((s.equip executors).carryOut plan phases first) := by
  rw [carryOut, carryOut]
  generalize RunState.run (s.setup plan) (stepLimit plan) first = attempt at h
  generalize RunState.run ((s.equip executors).setup plan) (stepLimit plan) first = attempt' at h
  cases attempt with
  | error halt =>
    cases attempt' with
    | ok b => cases h
    | error halt' =>
      obtain ⟨hfault, hab⟩ := Halt.mk.inj (Except.error.inj h)
      have hreport : (Except.error halt.fault : Except RunFault Report).map Report.untimed =
          (Except.error halt'.fault).map Report.untimed := congrArg Except.error hfault
      exact inStep_of_untimed hab hreport _ _
  | ok a =>
    cases attempt' with
    | error halt' => cases h
    | ok b =>
      have hab : a.untimed = b.untimed := Except.ok.inj h
      have hreport : (s.reportOf phases a).untimed =
          ((s.equip executors).reportOf phases b).untimed := by
        have houtcomes : a.untimed.outcomes = b.untimed.outcomes :=
          congrArg RunState.outcomes hab
        exact congrArg (fun pairs => Report.mk phases s.releaseName pairs 0) houtcomes
      have hlast (status : RunStatus) (counts : Table String Int) (ms ms' : Rat) :
          (a.report (.finished status counts ms)).untimed =
            (b.report (.finished status counts ms')).untimed := by
        rw [RunState.untimed_report, RunState.untimed_report, hab]
        rfl
      have hstatus : (s.reportOf phases a).status =
          ((s.equip executors).reportOf phases b).status := by
        rw [← Report.status_untimed, hreport, Report.status_untimed]
      have hcounts : (s.reportOf phases a).counts =
          ((s.equip executors).reportOf phases b).counts := by
        rw [← Report.counts_untimed, hreport, Report.counts_untimed]
      have hreport' : (Except.ok (s.reportOf phases a) : Except RunFault Report).map
          Report.untimed = (Except.ok ((s.equip executors).reportOf phases b)).map
            Report.untimed := congrArg Except.ok hreport
      dsimp only
      rw [hstatus, hcounts]
      exact inStep_of_untimed (hlast _ _ _ _) hreport' _ _

/-- A run with one worker starts from a state in which nobody is at work. -/
theorem untimed_carried {executors : Executors} (hone : s.maxWorkers = 1)
    (hprompt : executors.Prompt) (plan : Plan) (phases : List Phase) (files : Files) :
    untimedAttempt ((s.initial plan phases files).run ((s.equip executors).setup plan)
        (stepLimit plan)) =
      (s.initial plan phases files).run ((s.setup plan).equip executors.still)
        (stepLimit plan) := by
  have hidle : (s.initial plan phases files).Lone := .idle rfl rfl rfl
  have hrun := hidle.untimed_run (c := (s.equip executors).setup plan) hone hprompt
    (stepLimit plan)
  rw [untimed_initial] at hrun
  exact hrun

/-- **Strictly in sequence.** With one worker and executors that return in time, a run does and
tells the same in the same order, whatever time the executors take for a context: the events, the
report, the contexts that executors are handed, the files, and what the scheduler knows afterwards
agree but for the times. Nor does it matter in which order, or how often, the plan lists what a pair
waits for. -/
theorem sequential_reproducible {s : Scheduler} (hs : s.Sound) (hone : s.maxWorkers = 1)
    {seconds seconds' : Phase → UnitContext → Files → Rat}
    (hprompt : (s.executors.retime seconds).Prompt)
    (hprompt' : (s.executors.retime seconds').Prompt) (phases : List Phase) (files : Files) :
    ((s.equip (s.executors.retime seconds)).run phases files).InStep
        ((s.equip (s.executors.retime seconds')).run phases files) ∧
      ∀ plan plan', s.graph.plan (requestedPhases phases) = .ok plan → plan.Reordered plan' →
        s.carryOut plan' (requestedPhases phases)
            (s.initial plan' (requestedPhases phases) files) =
          s.carryOut plan (requestedPhases phases)
            (s.initial plan (requestedPhases phases) files) := by
  refine ⟨?_, fun plan plan' hplan h => carryOut_reordered hs hplan h files⟩
  obtain ⟨plan, hplan⟩ := exists_plan hs (requestedPhases phases)
  have hchecks (seconds : Phase → UnitContext → Files → Rat) :
      checkExecutors (s.executors.retime seconds) s.graph (requestedPhases phases) =
        checkExecutors s.executors s.graph (requestedPhases phases) :=
    s.executors.check_retime seconds s.graph (requestedPhases phases)
  cases hcheck : checkExecutors s.executors s.graph (requestedPhases phases) with
  | error fault =>
    simp only [run, equip, hchecks, hcheck]
    exact ⟨rfl, rfl, rfl, rfl, rfl⟩
  | ok _ =>
    have hrun (seconds : Phase → UnitContext → Files → Rat) :
        (s.equip (s.executors.retime seconds)).run phases files =
          (s.equip (s.executors.retime seconds)).carryOut plan (requestedPhases phases)
            (s.initial plan (requestedPhases phases) files) :=
      run_eq_carryOut (s := s.equip (s.executors.retime seconds))
        ((hchecks seconds).trans hcheck) hplan files
    rw [hrun, hrun]
    refine carryOut_inStep (s := s.equip (s.executors.retime seconds)) ?_
    rw [untimed_carried hone hprompt, Executors.still_retime]
    refine Eq.symm ((untimed_carried hone hprompt' plan (requestedPhases phases) files).trans ?_)
    rw [Executors.still_retime]

end Scheduler

/-! ### A shop with a portal -/

namespace Shop

/-- A portal whose inputs refer to the database and to the interface. -/
def portal : UnitDef :=
  ⟨"portal", .service, none, [("store", .text "self.service.db.output.address"),
    ("source", .text "self.service.api.output.address")], [], .names [], none, none, none, [], []⟩

theorem ofStack_portal : Graph.ofStack (stack [database, interface, portal]) =
    .ok (graph [database, interface, portal]) := by rfl

/-- What each pair waits for, in the other order. -/
def backwards (plan : Plan) : Plan := plan.map fun e => (e.1, e.2.reverse)

theorem reordered_backwards (plan : Plan) : plan.Reordered (backwards plan) := by
  rw [Plan.Reordered, backwards, List.forall₂_map_right_iff, List.forall₂_same]
  exact fun e _ => ⟨rfl, fun w => List.mem_reverse.symm⟩

theorem prompt_retime {seconds : Phase → UnitContext → Files → Rat}
    (h : ∀ p ctx files, seconds p ctx files < 60) :
    ((executors 0).retime seconds).Prompt := by
  intro p timeout work he ctx files t ht
  rw [Executors.get?_retime] at he
  obtain ⟨⟨limit, run⟩, hgiven, hretimed⟩ := Option.map_eq_some_iff.mp he
  cases run with
  | none => cases hretimed
  | some given =>
    cases hretimed
    obtain ⟨rfl, -⟩ := Shop.limit hgiven ht
    exact h p ctx files

end Shop

/-- In the shop the portal waits for two deployments, and slow deployments of one unit change
nothing. -/
theorem sequential_reproducible_shop :
    ∃ (s : Scheduler) (seconds seconds' : Phase → UnitContext → Files → Rat) (plan : Plan),
      s.Sound ∧ s.maxWorkers = 1 ∧ (s.executors.retime seconds).Prompt ∧
      (s.executors.retime seconds').Prompt ∧
      s.graph.plan (requestedPhases [.init, .deploy]) = .ok plan ∧
      plan.Reordered (Shop.backwards plan) ∧ Shop.backwards plan ≠ plan ∧
      ((s.equip (s.executors.retime seconds)).run [.init, .deploy] []).report.isOk = true ∧
      ((s.equip (s.executors.retime seconds)).run [.init, .deploy] []).InStep
        ((s.equip (s.executors.retime seconds')).run [.init, .deploy] []) ∧
      s.carryOut (Shop.backwards plan) (requestedPhases [.init, .deploy])
          (s.initial (Shop.backwards plan) (requestedPhases [.init, .deploy]) []) =
        s.carryOut plan (requestedPhases [.init, .deploy])
          (s.initial plan (requestedPhases [.init, .deploy]) []) := by
  have hs : (Shop.scheduler [Shop.database, Shop.interface, Shop.portal] 1
      (Shop.executors 0)).Sound := ⟨⟨_, Shop.ofStack_portal⟩, rfl, by decide⟩
  have hprompt : ((Shop.executors 0).retime fun _ _ _ => 2).Prompt :=
    Shop.prompt_retime fun _ _ _ => by norm_num
  have hprompt' : ((Shop.executors 0).retime fun _ ctx _ =>
      if ctx.fqn = "shop.service.db" then 59 else 7).Prompt :=
    Shop.prompt_retime fun _ ctx _ => by split <;> norm_num
  have hplan : (Shop.graph [Shop.database, Shop.interface, Shop.portal]).plan
      (requestedPhases [.init, .deploy]) = .ok
        [(⟨"shop.service.db", .init⟩, []),
          (⟨"shop.service.db", .deploy⟩, [⟨"shop.service.db", .init⟩]),
          (⟨"shop.service.api", .init⟩, [⟨"shop.service.db", .deploy⟩]),
          (⟨"shop.service.api", .deploy⟩, [⟨"shop.service.api", .init⟩]),
          (⟨"shop.service.portal", .init⟩,
            [⟨"shop.service.db", .deploy⟩, ⟨"shop.service.api", .deploy⟩]),
          (⟨"shop.service.portal", .deploy⟩, [⟨"shop.service.portal", .init⟩])] := by
    decide +kernel
  have hreordered := Shop.reordered_backwards
  obtain ⟨hinStep, hcarried⟩ := Scheduler.sequential_reproducible hs rfl hprompt hprompt'
    [.init, .deploy] []
  exact ⟨_, _, _, _, hs, rfl, hprompt, hprompt', hplan, hreordered _, by decide,
    by decide +kernel, hinStep, hcarried _ _ hplan (hreordered _)⟩

end Rollout
