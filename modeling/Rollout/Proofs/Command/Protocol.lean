import Rollout.Command.Pipeline
import Rollout.Proofs.Run.Contained
import Rollout.Proofs.Run.Told

/-!
# The protocol of commands

Whatever happens to its stages, a command that does not crash reports in the same way: it is started,
goes through stages one after the other, each of which is started and then completed or failed, and
is completed. A failed stage is the last one. The exit code can be read off the events before it.
A command that fails before it gets to its phases has done nothing.

The course of a command is built from its end. So every part of it is described by what is still to
come, given whether a run has already ended without success.

**Types.** `Bracketed`, `Course.Closes`, `Course.FailsLate`, `Course.Untouched`.

**Operations.** `EventBody.marks`, `EventBody.failedStage?`, `EventBody.runStatus?`, `exitCode`.

**Results.**
* `Bracketed.not_commandCompleted`, `Bracketed.failed_last`: what brackets around stages mean;
* `command_protocol`: the events of a command.
-/

namespace Rollout

namespace EventBody

/-- Whether an event is about a command or a stage as a whole. -/
def marks : EventBody → Bool
  | .commandStarted _ _ _ | .commandCompleted _ _ | .stageStarted _ _ | .stageCompleted _ _ _
  | .stageFailed _ _ _ _ _ => true
  | _ => false

/-- The stage that has been started. -/
def startedStage? : EventBody → Option String
  | .stageStarted stage _ => some stage
  | _ => none

/-- The stage that has been completed. -/
def completedStage? : EventBody → Option String
  | .stageCompleted stage _ _ => some stage
  | _ => none

/-- The stage that has failed. -/
def failedStage? : EventBody → Option String
  | .stageFailed stage _ _ _ _ => some stage
  | _ => none

/-- The status with which a run has ended. -/
def runStatus? : EventBody → Option String
  | .runFinished status _ _ => some status
  | _ => none

/-- Whether an event is about neither a command, a stage, a pair nor the end of a run. -/
def quiet (b : EventBody) : Bool := !b.marks && b.pairLine?.isNone && b.runStatus?.isNone

end EventBody

/-- Events of stages: every stage that is started is completed or fails before the next one is
started, and a stage that fails is the last one. -/
inductive Bracketed : List Event → Prop
  | nil : Bracketed []
  | between {e : Event} {rest : List Event} : e.body.marks = false → Bracketed rest →
      Bracketed (e :: rest)
  | completed {opening closing : Event} {work rest : List Event} {stage : String} :
      opening.body.startedStage? = some stage → (∀ e ∈ work, e.body.marks = false) →
      closing.body.completedStage? = some stage → Bracketed rest →
      Bracketed (opening :: (work ++ closing :: rest))
  | failed {opening closing : Event} {work : List Event} {stage : String} :
      opening.body.startedStage? = some stage → (∀ e ∈ work, e.body.marks = false) →
      closing.body.failedStage? = some stage → Bracketed (opening :: (work ++ [closing]))

/-- A stage has failed. -/
def Event.isFailure (e : Event) : Bool := e.body.failedStage?.isSome

/-- A run has ended, and not with success. -/
def Event.isSetback (e : Event) : Bool := e.body.runStatus?.any (· != RunStatus.succeeded.text)

/-- The exit code after some events: two if a stage has failed, else one if a run has ended without
success, else zero. -/
def exitCode (events : List Event) : Int :=
  if events.any Event.isFailure then 2 else if events.any Event.isSetback then 1 else 0

namespace Bracketed

variable {events : List Event}

theorem append (h : Bracketed events) {work : List Event}
    (hwork : ∀ e ∈ work, e.body.marks = false) : Bracketed (work ++ events) := by
  induction work with
  | nil => exact h
  | cons e work ih =>
    obtain ⟨he, hrest⟩ := List.forall_mem_cons.mp hwork
    exact .between he (ih hrest)

/-- Between its stages a command is neither started nor completed. -/
theorem mem_cases (h : Bracketed events) : ∀ e ∈ events, e.body.marks = false ∨
    e.body.startedStage?.isSome ∨ e.body.completedStage?.isSome ∨ e.body.failedStage?.isSome := by
  induction h with
  | nil => simp
  | between he _ ih => exact List.forall_mem_cons.mpr ⟨Or.inl he, ih⟩
  | completed hopening hwork hclosing _ ih =>
    refine List.forall_mem_cons.mpr ⟨by simp [hopening], List.forall_mem_append.mpr
      ⟨fun e he => Or.inl (hwork e he), List.forall_mem_cons.mpr ⟨by simp [hclosing], ih⟩⟩⟩
  | failed hopening hwork hclosing =>
    refine List.forall_mem_cons.mpr ⟨by simp [hopening], List.forall_mem_append.mpr
      ⟨fun e he => Or.inl (hwork e he), List.forall_mem_singleton.mpr (by simp [hclosing])⟩⟩

/-- No command is completed between its stages. -/
theorem not_commandCompleted (h : Bracketed events) :
    ∀ e ∈ events, ∀ ok code, e.body ≠ .commandCompleted ok code := by
  intro e he ok code hbody
  have hcases := h.mem_cases e he
  rw [hbody] at hcases
  simp [EventBody.marks, EventBody.startedStage?, EventBody.completedStage?,
    EventBody.failedStage?] at hcases

theorem not_isFailure {e : Event} (h : e.body.marks = false ∨ e.body.startedStage?.isSome ∨
    e.body.completedStage?.isSome) : e.isFailure = false := by
  unfold Event.isFailure
  cases hb : e.body <;> first | rfl | simp [hb, EventBody.marks, EventBody.startedStage?,
    EventBody.completedStage?] at h

/-- A failure is not to be found among events that are none. -/
theorem split_of_not_isFailure {front rest pre post : List Event} {e : Event}
    (hfront : ∀ d ∈ front, d.isFailure = false) (he : e.isFailure = true)
    (h : front ++ rest = pre ++ e :: post) : ∃ pre', rest = pre' ++ e :: post := by
  rcases split_append h with ⟨post', rfl⟩ | ⟨pre', -, hrest⟩
  · rw [hfront e (by simp)] at he
    cases he
  · exact ⟨pre', hrest⟩

/-- A stage that fails is the last one. -/
theorem failed_last (h : Bracketed events) {pre post : List Event} {e : Event}
    (hsplit : events = pre ++ e :: post) (he : e.isFailure = true) : post = [] := by
  induction h generalizing pre with
  | nil => simp at hsplit
  | @between d rest hd _ ih =>
    have hfront : ∀ x ∈ [d], x.isFailure = false :=
      List.forall_mem_singleton.mpr (not_isFailure (Or.inl hd))
    obtain ⟨pre', hrest⟩ := split_of_not_isFailure hfront he hsplit
    exact ih hrest
  | @completed opening closing work rest stage hopening hwork hclosing _ ih =>
    have hfront : ∀ d ∈ opening :: (work ++ [closing]), d.isFailure = false := by
      refine List.forall_mem_cons.mpr ⟨not_isFailure (by simp [hopening]),
        List.forall_mem_append.mpr ⟨fun d hd => not_isFailure (Or.inl (hwork d hd)),
          List.forall_mem_singleton.mpr (not_isFailure (by simp [hclosing]))⟩⟩
    obtain ⟨pre', hrest⟩ := split_of_not_isFailure hfront he (by simpa using hsplit)
    exact ih hrest
  | @failed opening closing work stage hopening hwork hclosing =>
    have hfront : ∀ d ∈ opening :: work, d.isFailure = false :=
      List.forall_mem_cons.mpr ⟨not_isFailure (by simp [hopening]),
        fun d hd => not_isFailure (Or.inl (hwork d hd))⟩
    obtain ⟨pre', hrest⟩ := split_of_not_isFailure hfront he hsplit
    cases pre' with
    | nil => exact (List.cons.inj hrest).2.symm
    | cons first pre' => simpa using congrArg List.length hrest

end Bracketed

namespace Course

/-- A course ends with the exit code that goes with its events, after stages in brackets. Before it,
a run may have ended without success. -/
def Closes (name : String) (setback : Bool) (c : Course) : Prop :=
  ∃ body, Bracketed body ∧
    c.events = body ++ [commandCompleted name
      (if body.any Event.isFailure then 2
        else if setback || body.any Event.isSetback then 1 else 0)]

/-- Only stages from the phases on fail. -/
def FailsLate (c : Course) : Prop :=
  ∀ e ∈ c.events, ∀ stage, e.body.failedStage? = some stage →
    stage = Stage.runPhases.id ∨ stage = Stage.saveBuildstate.id

/-- Nothing is told about pairs, no executor is called, and files are left as they are. -/
structure Untouched (files : Files) (c : Course) : Prop where
  news : ∀ e ∈ c.events, e.body.pairLine? = none
  contexts : c.contexts = []
  files : c.files = files

variable {name : String} {setback : Bool} {c : Course} {files : Files} {chance : Chance}

theorem crash_after (events : List Event) (c : Course) : (c.after events).crash = c.crash := rfl

theorem crash_calling (contexts : List UnitContext) (c : Course) :
    (c.calling contexts).crash = c.crash := rfl

theorem closes_done (setback : Bool) :
    (done name (if setback then 1 else 0) files chance).Closes name setback := by
  refine ⟨[], .nil, ?_⟩
  cases setback <;> rfl

theorem failsLate_done (code : Int) : (done name code files chance).FailsLate := by
  intro e he stage hstage
  rw [List.mem_singleton.mp he] at hstage
  cases hstage

theorem untouched_done (code : Int) : (done name code files chance).Untouched files :=
  ⟨by simp [done, commandCompleted, Event.of, EventBody.pairLine?], rfl, rfl⟩

/-- Events that say nothing about failures come before a course. -/
theorem FailsLate.after (h : c.FailsLate) {events : List Event}
    (hevents : ∀ e ∈ events, e.body.failedStage? = none) : (c.after events).FailsLate := by
  intro e he stage hstage
  rcases List.mem_append.mp he with he | he
  · rw [hevents e he] at hstage
    cases hstage
  · exact h e he stage hstage

/-- Executors that have been called say nothing about failures. -/
theorem FailsLate.calling (h : c.FailsLate) (contexts : List UnitContext) :
    (c.calling contexts).FailsLate := h

theorem Untouched.after (h : c.Untouched files) {events : List Event}
    (hevents : ∀ e ∈ events, e.body.pairLine? = none) : (c.after events).Untouched files := by
  refine ⟨fun e he => ?_, h.contexts, h.files⟩
  rcases List.mem_append.mp he with he | he
  · exact hevents e he
  · exact h.news e he

theorem failedStage?_of_marks {b : EventBody} (h : b.marks = false) : b.failedStage? = none := by
  cases b <;> first | rfl | cases h

theorem marks_of_quiet {b : EventBody} (h : b.quiet = true) : b.marks = false := by
  cases b <;> first | rfl | cases h

theorem pairLine?_of_quiet {b : EventBody} (h : b.quiet = true) : b.pairLine? = none := by
  cases b <;> first | rfl | cases h

theorem isSetback_of_quiet {e : Event} (h : e.body.quiet = true) : e.isSetback = false := by
  have hnone : e.body.runStatus? = none := by
    cases hb : e.body <;> first | rfl | (rw [hb] at h; cases h)
  rw [Event.isSetback, hnone]
  rfl

theorem any_isFailure {work : List Event} (h : ∀ e ∈ work, e.body.marks = false) :
    work.any Event.isFailure = false := by
  refine List.any_eq_false.mpr fun e he => ?_
  rw [Event.isFailure, failedStage?_of_marks (h e he)]
  simp

theorem any_isSetback {work : List Event} (h : ∀ e ∈ work, e.body.quiet = true) :
    work.any Event.isSetback = false :=
  List.any_eq_false.mpr fun e he => by simp [isSetback_of_quiet (h e he)]

section

variable {work : List Event} (hwork : ∀ e ∈ work, e.body.marks = false)
include hwork

/-- Events that belong to no stage. -/
theorem Closes.between (h : c.Closes name (setback || work.any Event.isSetback)) :
    (c.after work).Closes name setback := by
  obtain ⟨body, hbody, hevents⟩ := h
  refine ⟨work ++ body, hbody.append hwork, ?_⟩
  rw [events_after, hevents, List.append_assoc]
  simp only [List.any_append, any_isFailure hwork, Bool.false_or, Bool.or_assoc]

/-- A stage that is completed. -/
theorem Closes.completed (h : c.Closes name (setback || work.any Event.isSetback)) (stage : String)
    (ms : Rat) (status : String) :
    (c.after (stageStarted name stage :: (work ++ [stageCompleted name stage ms status]))).Closes
      name setback := by
  obtain ⟨body, hbody, hevents⟩ := h
  refine ⟨stageStarted name stage :: (work ++ stageCompleted name stage ms status :: body),
    .completed rfl hwork rfl hbody, ?_⟩
  have hopening : (stageStarted name stage).isFailure = false := rfl
  have hclosing : (stageCompleted name stage ms status).isFailure = false := rfl
  have hopening' : (stageStarted name stage).isSetback = false := rfl
  have hclosing' : (stageCompleted name stage ms status).isSetback = false := rfl
  rw [events_after, hevents]
  simp only [List.any_cons, List.any_append, any_isFailure hwork, hopening, hclosing, hopening',
    hclosing', Bool.false_or, Bool.or_assoc, List.cons_append, List.append_assoc, List.nil_append]

/-- A stage that fails. -/
theorem closes_failed (name stage : String) (ms : Rat) (f : Failure) (files : Files)
    (chance : Chance) (setback : Bool) :
    ((done name 2 files chance).after
      (stageStarted name stage :: (work ++ [stageFailed name stage ms f]))).Closes name setback := by
  refine ⟨stageStarted name stage :: (work ++ [stageFailed name stage ms f]),
    .failed rfl hwork rfl, ?_⟩
  have hclosing : (stageFailed name stage ms f).isFailure = true := rfl
  rw [events_after]
  simp only [List.any_cons, List.any_append, hclosing, Bool.true_or, Bool.or_true, if_true]
  rfl

end

/-! ### Stages -/

section

variable {α : Type} {stage : Stage} {work : Except Trouble (α × List Event)} {next : α → Course}

/-- A stage whose work says nothing about commands, stages, pairs and runs. -/
theorem closes_throughStage (h : (throughStage name stage work files chance next).crash = none)
    (hquiet : ∀ value extra, work = .ok (value, extra) → ∀ e ∈ extra, e.body.quiet = true)
    (hnext : ∀ value, (next value).crash = none → (next value).Closes name setback) :
    (throughStage name stage work files chance next).Closes name setback := by
  unfold throughStage runStage at h ⊢
  cases work with
  | ok found =>
    obtain ⟨value, extra⟩ := found
    have hextra := hquiet value extra rfl
    refine Closes.completed (fun e he => marks_of_quiet (hextra e he)) ?_ _ _ _
    rw [any_isSetback hextra, Bool.or_false]
    exact hnext value h
  | error trouble =>
    cases trouble with
    | failure f => exact closes_failed (List.forall_mem_nil _) name stage.id 0 f files chance setback
    | crash crash => cases h

/-- A stage before the phases: if it fails, nothing has been touched. -/
theorem untouched_throughStage (h : (throughStage name stage work files chance next).crash = none)
    (hquiet : ∀ value extra, work = .ok (value, extra) → ∀ e ∈ extra, e.body.quiet = true)
    (hnext : ∀ value, (next value).crash = none →
      (next value).FailsLate ∨ (next value).Untouched files) :
    (throughStage name stage work files chance next).FailsLate ∨
      (throughStage name stage work files chance next).Untouched files := by
  unfold throughStage runStage at h ⊢
  cases work with
  | ok found =>
    obtain ⟨value, extra⟩ := found
    have hextra := hquiet value extra rfl
    refine (hnext value h).imp (fun hlate => hlate.after ?_) fun huntouched => huntouched.after ?_
    · simp only [List.cons_append, List.forall_mem_cons, List.forall_mem_append]
      exact ⟨rfl, fun e he => failedStage?_of_marks (marks_of_quiet (hextra e he)), rfl, by simp⟩
    · simp only [List.cons_append, List.forall_mem_cons, List.forall_mem_append]
      exact ⟨rfl, fun e he => pairLine?_of_quiet (hextra e he), rfl, by simp⟩
  | error trouble =>
    cases trouble with
    | failure f => exact Or.inr ((untouched_done 2).after (by
        simp [stageStarted, stageFailed, Event.of, EventBody.pairLine?]))
    | crash crash => cases h

/-- A stage from the phases on. -/
theorem failsLate_throughStage (hstage : stage = .runPhases ∨ stage = .saveBuildstate)
    (hquiet : ∀ value extra, work = .ok (value, extra) → ∀ e ∈ extra, e.body.quiet = true)
    (hnext : ∀ value, (next value).FailsLate) :
    (throughStage name stage work files chance next).FailsLate := by
  unfold throughStage runStage
  cases work with
  | ok found =>
    obtain ⟨value, extra⟩ := found
    have hextra := hquiet value extra rfl
    refine (hnext value).after ?_
    simp only [List.cons_append, List.forall_mem_cons, List.forall_mem_append]
    exact ⟨rfl, fun e he => failedStage?_of_marks (marks_of_quiet (hextra e he)), rfl, by simp⟩
  | error trouble =>
    cases trouble with
    | failure f =>
      intro e he failed hfailed
      simp only [after, done, List.cons_append, List.nil_append, List.mem_cons, List.not_mem_nil,
        or_false] at he
      rcases he with rfl | rfl | rfl
      · cases hfailed
      · rw [← Option.some.inj hfailed]
        exact hstage.imp (congrArg _) (congrArg _)
      · cases hfailed
    | crash crash =>
      intro e he
      cases he

end

end Course

/-! ### The phases -/

/-- What a run reports is about no command and no stage. -/
theorem marks_of_mem_events {r : RunResult} {e : Event} (h : e ∈ r.events) :
    e.body.marks = false := by
  obtain ⟨entry, -, rfl⟩ := List.mem_map.mp h
  cases hp : entry.progress <;> simp [Event.of, Progress.body, EventBody.marks]

/-- A run that reports ends without success if its report says so. -/
theorem Scheduler.any_isSetback_run {s : Scheduler} (h : s.Usable) {phases : List Phase}
    {files : Files} {report : Report} (hr : (s.run phases files).report = .ok report) :
    (s.run phases files).events.any Event.isSetback = (report.status != .succeeded) := by
  obtain ⟨pairs, news, hnews, hevents⟩ := s.events_spec h hr
  have hnone : (news.map fun e => Event.of s.command e.body).any Event.isSetback = false := by
    refine List.any_eq_false.mpr fun e he => ?_
    obtain ⟨p, hp, rfl⟩ := List.mem_map.mp he
    have hisnews := hnews p hp
    cases p <;> first | exact Bool.false_ne_true | cases hisnews
  have hstatus : (report.status.text != RunStatus.succeeded.text) = (report.status != .succeeded) := by
    cases report.status <;> rfl
  rw [hevents, newsEvents, List.map_cons, List.any_cons, List.map_append, List.any_append, hnone]
  simpa [Event.isSetback, Event.of, Progress.body, EventBody.runStatus?] using hstatus

namespace Job

variable {j : Job} {files : Files} {chance : Chance} {p : Job.Prepared}

theorem quiet_loadStack {value : Stack} {extra : List Event}
    (h : j.loadStack files = .ok (value, extra)) : ∀ e ∈ extra, e.body.quiet = true := by
  unfold loadStack at h
  split at h
  · obtain ⟨-, rfl⟩ := Prod.mk.inj (Except.ok.inj h)
    simp
  · cases h

theorem quiet_resolveGraph {s : Stack} {value : Graph} {extra : List Event}
    (h : j.resolveGraph s = .ok (value, extra)) : ∀ e ∈ extra, e.body.quiet = true := by
  unfold resolveGraph at h
  split at h
  · cases h
  · split at h
    · cases h
    · obtain ⟨-, rfl⟩ := Prod.mk.inj (Except.ok.inj h)
      refine List.forall_mem_cons.mpr ⟨rfl, ?_⟩
      split
      · exact List.forall_mem_singleton.mpr rfl
      · simp

theorem quiet_loadBuildstate {s : Stack} {value : Buildstate} {extra : List Event}
    (h : j.loadBuildstate s files = .ok (value, extra)) : ∀ e ∈ extra, e.body.quiet = true := by
  unfold loadBuildstate at h
  split at h
  · cases h
  · cases h
  · obtain ⟨-, rfl⟩ := Prod.mk.inj (Except.ok.inj h)
    exact List.forall_mem_singleton.mpr rfl

theorem quiet_planRedeploy {s : Stack} {g : Graph} {value : Forced} {extra : List Event}
    (h : j.planRedeploy s g = .ok (value, extra)) : ∀ e ∈ extra, e.body.quiet = true := by
  unfold planRedeploy at h
  dsimp only at h
  split at h
  · cases h
  · obtain ⟨-, rfl⟩ := Prod.mk.inj (Except.ok.inj h)
    exact List.forall_mem_singleton.mpr rfl

theorem quiet_makeExecutors {s : Stack} {value : Executors} {extra : List Event}
    (h : j.makeExecutors s = .ok (value, extra)) : ∀ e ∈ extra, e.body.quiet = true := by
  unfold makeExecutors at h
  split at h
  · obtain ⟨-, rfl⟩ := Prod.mk.inj (Except.ok.inj h)
    simp
  · cases h
  · cases h

theorem quiet_pruned (removed : List String) : ∀ e ∈ j.pruned removed, e.body.quiet = true := by
  unfold pruned
  split
  · simp
  · exact List.forall_mem_singleton.mpr rfl

theorem quiet_saveBuildstate {s : Stack} {g : Graph} {b : Buildstate} {value : Unit}
    {extra : List Event} (h : (j.saveBuildstate s g b files).1 = .ok (value, extra)) :
    ∀ e ∈ extra, e.body.quiet = true := by
  unfold saveBuildstate at h
  dsimp only at h
  split at h
  · cases h
  · obtain ⟨-, rfl⟩ := Prod.mk.inj (Except.ok.inj h)
    exact List.forall_mem_append.mpr ⟨quiet_pruned _, List.forall_mem_singleton.mpr rfl⟩

theorem quiet_generated (release : String) :
    ∀ e ∈ j.generated p release, e.body.quiet = true := by
  unfold generated
  split
  · exact List.forall_mem_singleton.mpr rfl
  · simp

/-- After the phases the state is saved, and the exit code tells of the run. -/
theorem closes_finish {report : Report} {b : Buildstate}
    (h : (j.finish p report b files chance).crash = none) :
    (j.finish p report b files chance).Closes j.name (report.status != .succeeded) := by
  have hquiet : ∀ value extra, (j.saveBuildstate p.stack p.graph b files).1 = .ok (value, extra) →
      ∀ e ∈ extra, e.body.quiet = true := fun _ _ => quiet_saveBuildstate
  unfold finish at h ⊢
  generalize j.saveBuildstate p.stack p.graph b files = saved at h hquiet ⊢
  refine Course.closes_throughStage h hquiet fun _ _ => ?_
  have hcode : (if report.status = .succeeded then (0 : Int) else 1) =
      if (report.status != .succeeded) = true then 1 else 0 := by
    cases report.status <;> rfl
  rw [hcode]
  exact Course.closes_done _

theorem failsLate_finish (report : Report) (b : Buildstate) :
    (j.finish p report b files chance).FailsLate := by
  have hquiet : ∀ value extra, (j.saveBuildstate p.stack p.graph b files).1 = .ok (value, extra) →
      ∀ e ∈ extra, e.body.quiet = true := fun _ _ => quiet_saveBuildstate
  unfold finish
  generalize j.saveBuildstate p.stack p.graph b files = saved at hquiet ⊢
  exact Course.failsLate_throughStage (Or.inr rfl) hquiet fun _ => Course.failsLate_done _

/-- A fault in the phases ends the command, whatever has been reported before. -/
theorem closes_faulted {fault : RunFault} {ms : Rat} (work : List Event)
    (hwork : ∀ e ∈ work, e.body.marks = false)
    (h : (j.faulted fault ms files chance).crash = none) :
    ((j.faulted fault ms files chance).after
      (stageStarted j.name Stage.runPhases.id :: work)).Closes j.name false := by
  unfold faulted at h ⊢
  cases ht : fault.trouble with
  | failure f =>
    have hclosed := Course.closes_failed hwork j.name Stage.runPhases.id ms f files chance false
    simpa only [Course.after, List.cons_append, List.append_assoc] using hclosed
  | crash crash =>
    rw [ht] at h
    cases h

theorem failsLate_faulted (fault : RunFault) (ms : Rat) :
    (j.faulted fault ms files chance).FailsLate := by
  unfold faulted
  cases fault.trouble with
  | failure f =>
    intro e he stage hstage
    simp only [Course.after, Course.done, List.cons_append, List.nil_append, List.mem_cons,
      List.not_mem_nil, or_false] at he
    rcases he with rfl | rfl
    · exact Or.inl (Option.some.inj hstage).symm
    · cases hstage
  | crash crash =>
    intro e he
    cases he

/-- The events of the phases, of their end, and of what comes after them. -/
theorem closes_after_phases {report : Report} {b : Buildstate} {events : List Event}
    (hevents : ∀ e ∈ events, e.body.marks = false)
    (hsetback : events.any Event.isSetback = (report.status != .succeeded))
    (h : (j.finish p report b files chance).crash = none) (ms : Rat)
    (contexts : List UnitContext) :
    ((((j.finish p report b files chance).after
        [stageCompleted j.name Stage.runPhases.id ms report.status.text]).calling contexts).after
      (stageStarted j.name Stage.runPhases.id :: events)).Closes j.name false := by
  have hfinish : (j.finish p report b files chance).Closes j.name
      (false || events.any Event.isSetback) := by
    rw [hsetback, Bool.false_or]
    exact closes_finish h
  obtain ⟨body, hbody, hclosed⟩ := hfinish.completed hevents Stage.runPhases.id ms
    report.status.text
  refine ⟨body, hbody, ?_⟩
  rw [← hclosed]
  simp [Course.after, Course.calling]

/-- **The phases** are one stage, whatever the scheduler reports in between. -/
theorem closes_carryOut (release : String)
    (h : (j.carryOut p release files chance).crash = none) :
    ((j.carryOut p release files chance).after
      [stageStarted j.name Stage.runPhases.id]).Closes j.name false := by
  unfold carryOut at h ⊢
  generalize hcreate : Scheduler.create p.graph p.executors j.store (some p.state) files
    (j.runOptions p release) chance = created at h ⊢
  cases created with
  | error fault =>
    dsimp only at h ⊢
    exact closes_faulted [] (List.forall_mem_nil _) h
  | ok created =>
    obtain ⟨s, chance'⟩ := created
    dsimp only at h ⊢
    have hmarks : ∀ e ∈ (s.run j.command.phases files).events, e.body.marks = false :=
      fun e => marks_of_mem_events
    have hsetback (report : Report) (hr : (s.run j.command.phases files).report = .ok report) :=
      Scheduler.any_isSetback_run (Scheduler.usable_create hcreate).1 hr
    generalize s.run j.command.phases files = r at h hmarks hsetback ⊢
    cases hr : r.report with
    | error fault =>
      simp only [hr, Course.crash_after, Course.crash_calling] at h
      obtain ⟨body, hbody, hclosed⟩ := closes_faulted _ hmarks h
      refine ⟨body, hbody, ?_⟩
      rw [← hclosed]
      simp [Course.after, Course.calling]
    | ok report =>
      simp only [hr, Course.crash_after, Course.crash_calling] at h
      obtain ⟨body, hbody, hclosed⟩ := closes_after_phases hmarks (hsetback report hr) h r.elapsedMs
        r.contexts
      refine ⟨body, hbody, ?_⟩
      rw [← hclosed]
      simp [Course.after, Course.calling]

/-- Only the phases and what comes after them can fail here. -/
theorem failsLate_carryOut (release : String) :
    (j.carryOut p release files chance).FailsLate := by
  unfold carryOut
  generalize Scheduler.create p.graph p.executors j.store (some p.state) files
    (j.runOptions p release) chance = created
  cases created with
  | error fault => exact failsLate_faulted fault 0
  | ok created =>
    obtain ⟨s, chance'⟩ := created
    dsimp only
    have hnone : ∀ e ∈ (s.run j.command.phases files).events, e.body.failedStage? = none :=
      fun e he => Course.failedStage?_of_marks (marks_of_mem_events he)
    generalize s.run j.command.phases files = r at hnone ⊢
    refine (Course.FailsLate.calling ?_ r.contexts).after hnone
    cases r.report with
    | error fault => exact failsLate_faulted fault r.elapsedMs
    | ok report =>
      exact (failsLate_finish report r.scheduler.buildstate).after
        (List.forall_mem_singleton.mpr rfl)

theorem closes_release (h : (j.release p files chance).crash = none) :
    (j.release p files chance).Closes j.name false := by
  unfold release at h ⊢
  dsimp only at h ⊢
  have hphases := closes_carryOut (p.stack.releaseFor (j.previous p.state) chance).1 h
  have hgenerated : ∀ e ∈ j.generated p (p.stack.releaseFor (j.previous p.state) chance).1,
      e.body.quiet = true := quiet_generated _
  have hmarks : ∀ e ∈ j.generated p (p.stack.releaseFor (j.previous p.state) chance).1,
      e.body.marks = false := fun e he => Course.marks_of_quiet (hgenerated e he)
  obtain ⟨body, hbody, hclosed⟩ := Course.Closes.between hmarks
    (by rwa [Course.any_isSetback hgenerated, Bool.or_false])
  refine ⟨body, hbody, ?_⟩
  rw [← hclosed]
  simp [Course.after]

theorem failsLate_release : (j.release p files chance).FailsLate := by
  unfold release
  refine (failsLate_carryOut _).after (List.forall_mem_append.mpr ⟨fun e he => ?_, ?_⟩)
  · exact Course.failedStage?_of_marks (Course.marks_of_quiet (quiet_generated _ e he))
  · exact List.forall_mem_singleton.mpr rfl

/-! ### The whole command -/

variable {s : Stack} {g : Graph} {b : Buildstate} {forced : Phase → List String}

theorem closes_equip (h : (j.equip s g b forced files chance).crash = none) :
    (j.equip s g b forced files chance).Closes j.name false := by
  unfold equip at h ⊢
  cases hexecutors : j.executors with
  | some executors =>
    rw [hexecutors] at h
    exact closes_release h
  | none =>
    rw [hexecutors] at h
    exact Course.closes_throughStage h (fun _ _ => quiet_makeExecutors) fun _ => closes_release

theorem untouched_equip (h : (j.equip s g b forced files chance).crash = none) :
    (j.equip s g b forced files chance).FailsLate ∨
      (j.equip s g b forced files chance).Untouched files := by
  unfold equip at h ⊢
  cases hexecutors : j.executors with
  | some executors => exact Or.inl failsLate_release
  | none =>
    rw [hexecutors] at h
    exact Course.untouched_throughStage h (fun _ _ => quiet_makeExecutors)
      fun _ _ => Or.inl failsLate_release

theorem closes_idle : (j.idle files chance).Closes j.name false := by
  unfold idle
  exact Course.Closes.between (List.forall_mem_singleton.mpr rfl) (Course.closes_done false)

theorem failsLate_idle : (j.idle files chance).FailsLate :=
  (Course.failsLate_done 0).after (List.forall_mem_singleton.mpr rfl)

theorem closes_phases (h : (j.phases s g files chance).crash = none) :
    (j.phases s g files chance).Closes j.name false := by
  unfold phases at h ⊢
  refine Course.closes_throughStage h (fun _ _ => quiet_loadBuildstate) fun b hb => ?_
  by_cases hredeploys : j.redeploys = true
  · rw [if_pos hredeploys] at hb ⊢
    refine Course.closes_throughStage hb (fun _ _ => quiet_planRedeploy) fun forced hforced => ?_
    by_cases hempty : forced.deploy.isEmpty = true
    · rw [if_pos hempty]
      exact closes_idle
    · rw [if_neg hempty] at hforced ⊢
      exact closes_equip hforced
  · rw [if_neg hredeploys] at hb ⊢
    exact closes_equip hb

theorem untouched_phases (h : (j.phases s g files chance).crash = none) :
    (j.phases s g files chance).FailsLate ∨ (j.phases s g files chance).Untouched files := by
  unfold phases at h ⊢
  refine Course.untouched_throughStage h (fun _ _ => quiet_loadBuildstate) fun b hb => ?_
  by_cases hredeploys : j.redeploys = true
  · rw [if_pos hredeploys] at hb ⊢
    refine Course.untouched_throughStage hb (fun _ _ => quiet_planRedeploy) fun forced hforced => ?_
    by_cases hempty : forced.deploy.isEmpty = true
    · rw [if_pos hempty]
      exact Or.inl failsLate_idle
    · rw [if_neg hempty] at hforced ⊢
      exact untouched_equip hforced
  · rw [if_neg hredeploys] at hb ⊢
    exact untouched_equip hb

/-- A command is started, goes on to its end, and leaves things as they were if it fails before the
phases. -/
theorem closes_run (h : (j.run files chance).crash = none) : ∃ c : Course,
    j.run files chance = c.after
      [j.event (.commandStarted (some j.project) (some j.configPath) (some j.options))] ∧
    c.Closes j.name false ∧ (c.FailsLate ∨ c.Untouched files) := by
  unfold run at h ⊢
  rw [Course.crash_after] at h
  refine ⟨_, rfl, ?_, ?_⟩
  · refine Course.closes_throughStage h (fun _ _ => quiet_loadStack) fun s hs => ?_
    refine Course.closes_throughStage hs (fun _ _ => quiet_resolveGraph) fun g hg => ?_
    by_cases hgraph : j.command = .graph
    · rw [if_pos hgraph]
      exact Course.closes_done false
    · rw [if_neg hgraph] at hg ⊢
      exact closes_phases hg
  · refine Course.untouched_throughStage h (fun _ _ => quiet_loadStack) fun s hs => ?_
    refine Course.untouched_throughStage hs (fun _ _ => quiet_resolveGraph) fun g hg => ?_
    by_cases hgraph : j.command = .graph
    · rw [if_pos hgraph]
      exact Or.inl (Course.failsLate_done 0)
    · rw [if_neg hgraph] at hg ⊢
      exact untouched_phases hg

end Job

/-- The stages before the phases are those that do not fail late. -/
theorem Stage.not_late {c : Command} {stage : Stage}
    (h : c.stages.idxOf stage < c.stages.idxOf .runPhases) :
    ¬(stage.id = Stage.runPhases.id ∨ stage.id = Stage.saveBuildstate.id) := by
  revert h
  cases c <;> cases stage <;> decide

/-- **The protocol of commands.** Every command that does not crash, whichever of its stages succeed
or fail, begins with its start and ends with its only completion. In between its stages stand in
brackets, and a stage that fails is followed by the completion only. The exit code is two if a stage
has failed, else one if the run has ended without success, else zero; the command is completed well
if it is zero. If a stage before the phases fails, nothing is told about pairs, no executor has been
called, and all files are as they were. -/
theorem command_protocol (j : Job) (files : Files) (chance : Chance)
    (h : (j.run files chance).crash = none) :
    ∃ body, (j.run files chance).events =
        j.event (.commandStarted (some j.project) (some j.configPath) (some j.options)) ::
          (body ++ [j.event (.commandCompleted (decide (exitCode body = 0)) (exitCode body))]) ∧
      Bracketed body ∧ (∀ e ∈ body, ∀ ok code, e.body ≠ .commandCompleted ok code) ∧
      (∀ pre e post, body = pre ++ e :: post → e.isFailure = true → post = []) ∧
      ∀ stage : Stage, (∃ e ∈ body, e.body.failedStage? = some stage.id) →
        j.command.stages.idxOf stage < j.command.stages.idxOf .runPhases →
        (∀ e ∈ body, e.body.pairLine? = none) ∧ (j.run files chance).contexts = [] ∧
          (j.run files chance).files = files := by
  obtain ⟨rest, hrun, hrest, huntouched⟩ := j.closes_run h
  obtain ⟨body, hbody, hevents⟩ := hrest
  refine ⟨body, ?_, hbody, hbody.not_commandCompleted, fun pre e post hsplit he =>
    hbody.failed_last hsplit he, fun stage hfailed hearly => ?_⟩
  · rw [hrun, Course.events_after, hevents]
    rfl
  · obtain ⟨e, he, hstage⟩ := hfailed
    have hmem : ∀ d ∈ body, d ∈ rest.events := fun d hd => by
      rw [hevents]
      exact List.mem_append_left _ hd
    rcases huntouched with hlate | huntouched
    · exact absurd (hlate e (hmem e he) stage.id hstage) (Stage.not_late hearly)
    · rw [hrun]
      exact ⟨fun d hd => huntouched.news d (hmem d hd), huntouched.contexts, huntouched.files⟩

namespace Shop

/-- A stack file with one service. -/
def stackFile : String :=
  "name: shop\nrelease_name: calm\nservices:\n  db:\n    service: postgres\n    deploy:\n" ++
    "      custom_chart: charts/db\n"

/-- A project with a stack file. -/
def project : Files :=
  [(["shop"], .folder), (["shop", "stack.yaml"], .file stackFile.toUTF8)]

/-- A deployment of the project, with executors whose deployments fail. -/
def deployment : Job :=
  { command := .deploy, project := .ofText "/shop", config := .ofText "stack.yaml",
    executors := some failing, stamp := "2024-01-01T00:00:00Z" }

end Shop

/-- In the shop the deployment of the only service fails, so the command goes through all its stages
and ends with exit code one. -/
theorem command_protocol_shop :
    (Shop.deployment.run Shop.project ⟨[], [], 0, 0⟩).crash = none ∧
    ∃ body, (Shop.deployment.run Shop.project ⟨[], [], 0, 0⟩).events =
        Shop.deployment.event (.commandStarted (some Shop.deployment.project)
            (some Shop.deployment.configPath) (some Shop.deployment.options)) ::
          (body ++ [Shop.deployment.event (.commandCompleted false 1)]) ∧ Bracketed body := by
  have hrun : (fun c : Course => c.crash.isNone &&
      c.events.getLast?.map Event.body == some (.commandCompleted false 1))
        (Shop.deployment.run Shop.project ⟨[], [], 0, 0⟩) = true := by
    decide +kernel
  simp only [Bool.and_eq_true, Option.isNone_iff_eq_none, beq_iff_eq] at hrun
  obtain ⟨hcrash, hlast⟩ := hrun
  obtain ⟨body, hevents, hbody, -⟩ := command_protocol Shop.deployment Shop.project ⟨[], [], 0, 0⟩ hcrash
  refine ⟨hcrash, body, ?_, hbody⟩
  rw [hevents, List.getLast?_cons, List.getLast?_append] at hlast
  obtain ⟨hok, hcode⟩ := EventBody.commandCompleted.inj (Option.some.inj hlast)
  rw [hevents, hok, hcode]

end Rollout
