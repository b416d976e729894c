import Rollout.Command.Pipeline
import Rollout.Proofs.Buildstate.Reloaded
import Rollout.Proofs.Run.Evaluation
import Rollout.Proofs.Run.Redeployed

/-!
# Release names from command to command

A run is announced under its release name, and notes the name in the build state before anything
else. From then on every step keeps it, also one that halts the run, and every context that is handed
to an executor has it.

Over a stack that pins no release name, a redeployment takes the name from the build state, and every
other command takes a fresh one. So what a redeployment goes on with is the name of the latest command
that has run phases. It need not be the name under which anything has been deployed: an
initialization or a build leaves its name, too, and then a redeployment deploys everything again.

**Types.** `RunState.Under`, `RunResult.Under`, `Carried`, `Session`.

**Results.**
* `RunState.Under.step`, `RunState.Under.run`: a step and a run under a release name;
* `Scheduler.under_run`: what a run leads to;
* `Session.exists_under`: what commands over one state leave;
* `release_continued`: the release name of a redeployment;
* `released_by_initialization`: a unit that is deployed again under another name.
-/

namespace Rollout

open RunState

/-! ### One run -/

/-- A run is carried out under a release name: its plan has been announced under the name, the state
keeps the name, and so does every context that an executor was handed. -/
structure RunState.Under (release : String) (s : RunState) : Prop where
  announced : ∃ phases pairs workers files rest,
    s.journal = ⟨.planned phases pairs release workers, files⟩ :: rest
  kept : s.buildstate.releaseName = some release
  handed : ∀ ctx ∈ s.contexts, ctx.releaseName = release

/-- An attempt ends in a state with a property, be it one in which the run halts. -/
def EndsIn (P : RunState → Prop) : Except Halt RunState → Prop
  | .ok s => P s
  | .error halt => P halt.state

/-- What comes next is a state with a property, if there is any. -/
def RunState.Next.EndsIn (P : RunState → Prop) : RunState.Next → Prop
  | .state s => P s
  | .halted halt => P halt.state
  | .finished => True

variable {c : Setup} {s s' : RunState}

theorem EndsIn.map {P : RunState → Prop} {attempt : Except Halt RunState}
    (h : EndsIn P attempt) {f : RunState → RunState} (hf : ∀ s, P s → P (f s)) :
    EndsIn P (attempt.map f) := by
  cases attempt with
  | error halt => exact h
  | ok s => exact hf s h

theorem EndsIn.next {P : RunState → Prop} {attempt : Except Halt RunState}
    (h : EndsIn P attempt) : (Next.of attempt).EndsIn P := by
  cases attempt with
  | error halt => exact h
  | ok s => exact h

/-! ### What a step keeps -/

namespace RunState.Under

/-- More can be reported, without anything handed out. -/
theorem of_append (h : s.Under c.releaseName)
    (hb : s'.buildstate.releaseName = s.buildstate.releaseName) (hc : s'.contexts = s.contexts)
    (hj : ∃ more, s'.journal = s.journal ++ more) : s'.Under c.releaseName := by
  obtain ⟨phases, pairs, workers, files, rest, hannounced⟩ := h.announced
  obtain ⟨more, hj⟩ := hj
  refine ⟨⟨phases, pairs, workers, files, rest ++ more, ?_⟩, by rw [hb]; exact h.kept,
    by rw [hc]; exact h.handed⟩
  rw [hj, hannounced, List.cons_append]

/-- Much can change without anything being reported. -/
theorem of_eq (h : s.Under c.releaseName)
    (hb : s'.buildstate.releaseName = s.buildstate.releaseName) (hc : s'.contexts = s.contexts)
    (hj : s'.journal = s.journal) : s'.Under c.releaseName :=
  h.of_append hb hc ⟨[], by rw [hj, List.append_nil]⟩

theorem report (h : s.Under c.releaseName) (p : Progress) : (s.report p).Under c.releaseName :=
  h.of_append rfl rfl ⟨_, rfl⟩

theorem skip (h : s.Under c.releaseName) (x b : Pair) : (s.skip x b).Under c.releaseName :=
  h.of_append rfl rfl ⟨_, rfl⟩

theorem settle (h : s.Under c.releaseName) (plan : Plan) (x : Pair) :
    (s.settle plan x).Under c.releaseName :=
  h.of_eq rfl rfl rfl

theorem fail (h : s.Under c.releaseName) (x : Pair) (cause : String) (ms : Rat) (timedOut : Bool) :
    (s.fail x cause ms timedOut).Under c.releaseName :=
  h.of_append (s.buildstate.markFailed_header x.fqn x.phase).2.2 rfl ⟨_, rfl⟩

theorem recordOutputs (h : s.Under c.releaseName) (fqn : String) (outputs : Entries) :
    EndsIn (Under c.releaseName) (s.recordOutputs fqn outputs) := by
  unfold RunState.recordOutputs
  split
  · exact h
  · dsimp only
    split
    · exact h.of_eq rfl rfl rfl
    · exact h.of_append rfl rfl ⟨_, rfl⟩

theorem reuse (h : s.Under c.releaseName) (x : Pair) (digest : String) :
    EndsIn (Under c.releaseName) (s.reuse x digest) := by
  have hconfirmed : (s.confirm x digest).Under c.releaseName := h.of_append rfl rfl ⟨_, rfl⟩
  rw [reuse_eq]
  split
  · exact hconfirmed.recordOutputs _ _
  · exact hconfirmed

theorem compare (h : s.Under c.releaseName) (x : Pair) (n : Node) (resolved : Option Resolved) :
    EndsIn (Under c.releaseName) (s.compare c x n resolved) := by
  unfold RunState.compare
  split
  · exact h
  · rename_i digest hdigest
    dsimp only
    have hnoted : ({ s.amend x fun o => { o with fingerprint := some digest } with
        fingerprints := Table.set x digest s.fingerprints } : RunState).Under c.releaseName :=
      h.of_eq rfl rfl rfl
    split
    · exact (hnoted.reuse x digest).map fun s hs => hs.settle _ _
    · exact hnoted.of_eq rfl rfl rfl

theorem consider (h : s.Under c.releaseName) (x : Pair) :
    EndsIn (Under c.releaseName) (s.consider c x) := by
  unfold RunState.consider
  split
  · exact (h.skip _ _).settle _ _
  · exact h
  · split
    · split
      · exact h.compare _ _ _
      · split
        · exact (h.fail _ _ _ _).settle _ _
        · exact h
    · exact h.compare _ _ _

/-- A context has the release name of the run. -/
theorem releaseName_of_context {x : Pair} {u : UnitDef} {resolved : Option Resolved}
    {ctx : UnitContext} (h : context c x u resolved = .ok ctx) : ctx.releaseName = c.releaseName := by
  obtain ⟨steps, -, rfl⟩ := eq_ok_of_map h
  rfl

theorem start (h : s.Under c.releaseName) (item : Ready) :
    EndsIn (Under c.releaseName) (s.start c item) := by
  unfold RunState.start
  dsimp only
  split
  · split
    · exact h
    · rename_i ctx hctx
      obtain ⟨phases, pairs, workers, files, rest, hannounced⟩ := h.announced
      refine ⟨⟨phases, pairs, workers, files, rest ++ [⟨.started item.pair, s.files⟩], ?_⟩,
        h.kept, ?_⟩
      · change s.journal ++ [⟨.started item.pair, s.files⟩] = _
        rw [hannounced, List.cons_append]
      · intro ctx' hin
        rcases List.mem_append.mp hin with hin | hin
        · exact h.handed ctx' hin
        · rw [List.mem_singleton.mp hin]
          exact releaseName_of_context hctx
  · exact h
  · exact h

theorem saveSuccess (h : s.Under c.releaseName) (x : Pair) (task : Task) (snapshot : Option Value)
    (outputs : Option Entries) (ms : Rat) :
    EndsIn (Under c.releaseName) (Rollout.saveSuccess c x task snapshot outputs ms s) := by
  have hsaved := Store.save_state c.store c.graph.stackName
    (s.buildstate.markSucceeded x.fqn x.phase task.fingerprint snapshot outputs) s.files
  unfold Rollout.saveSuccess
  dsimp only
  split
  · refine h.of_eq ?_ rfl rfl
    rw [hsaved]
    rfl
  · refine h.of_append ?_ rfl ⟨_, rfl⟩
    simp only [conclude, hsaved]
    rfl

theorem succeed (h : s.Under c.releaseName) (x : Pair) (task : Task) (call : Call)
    (given : Option Entries) : EndsIn (Under c.releaseName) (s.succeed c x task call given) := by
  rw [succeed_eq]
  split
  · have hrecorded := h.recordOutputs x.fqn (completed c x task.namespaceName given)
    cases hr : s.recordOutputs x.fqn (completed c x task.namespaceName given) with
    | error halt =>
      rw [hr] at hrecorded
      exact hrecorded
    | ok t =>
      rw [hr] at hrecorded
      exact saveSuccess hrecorded _ _ _ _ _
  · exact h.saveSuccess _ _ _ _ _

theorem deliver (h : s.Under c.releaseName) (call : Call) :
    EndsIn (Under c.releaseName) (s.deliver c call) := by
  unfold RunState.deliver
  split
  · exact h.of_eq rfl rfl rfl
  · split
    · exact h
    · dsimp only
      have hreleased (running : Table Pair Task) :
          ({ s with running := running } : RunState).Under c.releaseName :=
        h.of_eq rfl rfl rfl
      split
      · exact ((hreleased _).succeed _ _ _ _).map fun t ht => ht.settle _ _
      · exact ((hreleased _).fail _ _ _ _).settle _ _

theorem expireOne (h : s.Under c.releaseName) (e : Pair × Task) :
    (Rollout.expireOne c s e).Under c.releaseName := by
  unfold Rollout.expireOne
  split
  · exact h
  · split
    · have hgiven : (s.giveUp e.1).Under c.releaseName :=
        h.of_eq rfl rfl rfl
      exact (hgiven.fail _ _ _ _).settle _ _
    · exact h

theorem expire (h : s.Under c.releaseName) : (s.expire c).Under c.releaseName := by
  rw [expire_eq]
  generalize s.running = todo
  induction todo generalizing s with
  | nil => exact h
  | cons e todo ih => exact ih (h.expireOne e)

theorem wait (h : s.Under c.releaseName) : EndsIn (Under c.releaseName) (s.wait c) := by
  have htick (t : Rat) (calls : List Call) :
      ({ s with now := t, calls := calls } : RunState).Under c.releaseName :=
    h.of_eq rfl rfl rfl
  unfold RunState.wait
  split
  · split
    · exact ((htick _ _).deliver _).map fun t ht => ht.expire
    · exact expire (htick _ _)
  · exact expire (htick _ _)

/-- **A step** leaves the run under its release name. -/
theorem step (h : s.Under c.releaseName) : (s.step c).EndsIn (Under c.releaseName) := by
  have htaken (promoted : List Pair) (ready : List Ready) :
      ({ s with promoted := promoted, ready := ready } : RunState).Under c.releaseName :=
    h.of_eq rfl rfl rfl
  unfold RunState.step
  split
  · exact ((htaken _ _).consider _).next
  · split
    · split
      · exact ((htaken _ _).start _).next
      · split
        · trivial
        · exact h.wait.next
    · split
      · trivial
      · exact h.wait.next

/-- **A run** stays under its release name to its end, and up to where it halts. -/
theorem run (h : s.Under c.releaseName) (fuel : Nat) :
    EndsIn (Under c.releaseName) (s.run c fuel) := by
  induction fuel generalizing s with
  | zero => exact h
  | succ fuel ih =>
    have hstep := h.step
    unfold RunState.run
    split
    · rename_i s' hs
      rw [hs] at hstep
      exact ih hstep
    · rename_i halt hs
      rw [hs] at hstep
      exact hstep
    · exact h

end RunState.Under

/-! ### What a run leads to -/

/-- The release name under which a run has been announced. A run that ends before there is a plan
is not announced. -/
def RunResult.release? (r : RunResult) : Option String :=
  r.journal.findSome? fun e =>
    match e.progress with
    | .planned _ _ release _ => some release
    | _ => none

/-- A run over a state is carried out under a release name: nothing shows another one, and the state
keeps the name as soon as the run is announced. -/
structure RunResult.Under (release : String) (b : Buildstate) (r : RunResult) : Prop where
  announced : ∀ name ∈ r.release?, name = release
  handed : ∀ ctx ∈ r.contexts, ctx.releaseName = release
  reported : ∀ report, r.report = .ok report → report.releaseName = release
  kept : r.scheduler.buildstate.releaseName =
    if r.release?.isSome then some release else b.releaseName

namespace Scheduler

variable {sched : Scheduler}

/-- The state in which a run begins. -/
theorem under_initial (sched : Scheduler) (plan : Plan) (phases : List Phase) (files : Files) :
    (sched.initial plan phases files).Under sched.releaseName :=
  ⟨⟨phases, plan.map Prod.fst, sched.shownWorkers, files, [], rfl⟩, rfl, nofun⟩

/-- What a run leads to that ends in some state. -/
theorem under_of_state {s : RunState} (h : s.Under sched.releaseName) {b : Buildstate}
    {report : Except RunFault Report}
    (hreport : ∀ r, report = .ok r → r.releaseName = sched.releaseName) (files : Files) (ms : Rat) :
    (RunResult.mk report s.journal s.contexts (sched.keep s) files ms).release? =
        some sched.releaseName ∧
      (RunResult.mk report s.journal s.contexts (sched.keep s) files ms).Under
        sched.releaseName b := by
  obtain ⟨phases, pairs, workers, before, rest, hannounced⟩ := h.announced
  have hrelease : (RunResult.mk report s.journal s.contexts (sched.keep s) files ms).release? =
      some sched.releaseName := by
    rw [RunResult.release?, hannounced]
    rfl
  refine ⟨hrelease, fun name hname => ?_, h.handed, hreport, ?_⟩
  · rw [hrelease] at hname
    exact (Option.some.inj hname).symm
  · rw [hrelease]
    exact h.kept

/-- **The run of a plan** is announced, and carried out under the release name of its scheduler. -/
theorem under_carryOut (sched : Scheduler) (plan : Plan) (phases : List Phase) (files : Files)
    (b : Buildstate) :
    (sched.carryOut plan phases (sched.initial plan phases files)).release? =
        some sched.releaseName ∧
      (sched.carryOut plan phases (sched.initial plan phases files)).Under sched.releaseName b := by
  have hrun := (sched.under_initial plan phases files).run (c := sched.setup plan) (stepLimit plan)
  unfold carryOut
  split
  · rename_i fault state hhalted
    rw [hhalted] at hrun
    exact under_of_state hrun (fun r hr => by cases hr) _ _
  · rename_i state hended
    rw [hended] at hrun
    refine under_of_state (RunState.Under.report (c := sched.setup plan) hrun (.finished
      (sched.reportOf phases state).status (sched.reportOf phases state).counts
      (sched.reportOf phases state).durationMs)) ?_ _ _
    intro r hr
    rw [← Except.ok.inj hr]
    rfl

/-- A run is announced if it has executors and a plan. -/
theorem release?_run {phases : List Phase} {plan : Plan}
    (hcheck : checkExecutors sched.executors sched.graph (requestedPhases phases) = .ok ())
    (hplan : sched.graph.plan (requestedPhases phases) = .ok plan) (files : Files) :
    (sched.run phases files).release? = some sched.releaseName := by
  rw [run_eq_carryOut hcheck hplan]
  exact (sched.under_carryOut plan (requestedPhases phases) files sched.buildstate).1

/-- **A run** is carried out under the release name of its scheduler. -/
theorem under_run (sched : Scheduler) (phases : List Phase) (files : Files) :
    (sched.run phases files).Under sched.releaseName sched.buildstate := by
  have hrefused (fault : RunFault) :
      (RunResult.mk (.error fault) [] [] sched files 0).Under sched.releaseName sched.buildstate :=
    ⟨nofun, nofun, nofun, rfl⟩
  unfold run
  dsimp only
  split
  · exact hrefused _
  · split
    · exact hrefused _
    · exact (sched.under_carryOut _ _ files _).2

/-- A redeployment that has nothing to do. -/
theorem under_idle (sched : Scheduler) (files : Files) :
    (sched.idle files).Under sched.releaseName sched.buildstate :=
  ⟨nofun, nofun, fun r hr => by rw [← Except.ok.inj hr], rfl⟩

end Scheduler

/-! ### Commands over one state -/

/-- A command is carried out over a state, without a release name of its own. The phases are run by a
scheduler, by a redeployment of changed paths, or in the course of a job, which chooses the release
name before it creates its scheduler. -/
inductive Carried (g : Graph) (b : Buildstate) : Command → RunResult → Prop
  | run {command : Command} (hcommand : command ≠ .redeploy) {executors : Executors} {store : Store}
      {files before : Files} {options : RunOptions} {chance chance' : Chance} {sched : Scheduler}
      (hgiven : options.releaseName = none) (hname : options.command = command.text)
      (hs : Scheduler.create g executors store (some b) before options chance =
        .ok (sched, chance')) :
      Carried g b command (sched.run command.phases files)
  | redeploy {executors : Executors} {directory : FilePath} {changed : List String} {store : Store}
      {files : Files} {options : RunOptions} {chance chance' : Chance} {r : RunResult}
      (hgiven : options.releaseName = none)
      (hr : Scheduler.redeploy g executors directory changed store (some b) files options chance =
        .ok (r, chance')) :
      Carried g b .redeploy r
  | job {j : Job} {p : Job.Prepared} (hgraph : p.graph = g) (hstack : g.stack = some p.stack)
      (hstate : p.state = b) {files before : Files} {chance chance' : Chance} {sched : Scheduler}
      (hs : Scheduler.create p.graph p.executors j.store (some p.state) before
        (j.runOptions p (p.stack.releaseFor (j.previous p.state) chance).1)
        (p.stack.releaseFor (j.previous p.state) chance).2 = .ok (sched, chance')) :
      Carried g b j.command (sched.run j.command.phases files)

/-- Commands are carried out one after the other over one state, with these results. In between, the
state can lose the records of some units, and it can be saved in a file and loaded from there. -/
inductive Session (g : Graph) : List RunResult → Buildstate → Prop
  | start (b : Buildstate) : Session g [] b
  | command {past : List RunResult} {b : Buildstate} {command : Command} {r : RunResult}
      (h : Session g past b) (hr : Carried g b command r) :
      Session g (past ++ [r]) r.scheduler.buildstate
  | pruned {past : List RunResult} {b : Buildstate} (h : Session g past b) (keep : List String) :
      Session g past (b.prune keep).2
  | stored {past : List RunResult} {b b' : Buildstate} (h : Session g past b) {store : Store}
      {folder : FilePath} (hfolder : store.folder? = some folder) {before files : Files}
      {path : Option FilePath} (hsaved : (store.save g.stackName b before).path = .ok path)
      (hkept : files.item? (Store.pathIn folder g.stackName) =
        (store.save g.stackName b before).files.item? (Store.pathIn folder g.stackName))
      (hload : store.load g.stackName files = .ok b') :
      Session g past b'

/-- The latest command that has run phases. -/
def latest? (past : List RunResult) : Option RunResult :=
  past.reverse.find? fun r => r.release?.isSome

variable {g : Graph} {stack : Stack} {b : Buildstate} {command : Command} {r : RunResult}

/-- The release name that is chosen for a stack without one is not empty, and the previous one if
there is any. -/
theorem Stack.releaseFor_unpinned (hpin : nonEmpty? stack.releaseName = none)
    (previous : Option String) (chance : Chance) :
    (stack.releaseFor previous chance).1 ≠ "" ∧
      ∀ name ∈ previous, name ≠ "" → (stack.releaseFor previous chance).1 = name := by
  simp only [releaseFor, hpin]
  cases hprevious : nonEmpty? previous with
  | none =>
    refine ⟨Scheduler.releaseName_ne_empty chance, fun name hname hne => ?_⟩
    rw [Scheduler.nonEmpty?_eq_some_iff.mpr ⟨hname, hne⟩] at hprevious
    cases hprevious
  | some kept =>
    obtain ⟨rfl, hne⟩ := Scheduler.nonEmpty?_eq_some_iff.mp hprevious
    exact ⟨hne, fun name hname _ => Option.some.inj hname⟩

/-- The release name of a scheduler that is created over a state: given, or that of the stack. -/
theorem Scheduler.releaseName_of_create (hg : Graph.ofStack stack = .ok g) {executors : Executors}
    {store : Store} {files : Files} {options : RunOptions} {chance chance' : Chance}
    {sched : Scheduler} (hs : create g executors store (some b) files options chance =
      .ok (sched, chance')) :
    sched.buildstate = b ∧ sched.releaseName = options.releaseName.getD
      (stack.releaseFor (if options.command = "redeploy" then b.releaseName else none) chance).1 := by
  obtain ⟨-, -, -, -, -, hknown⟩ := sound_create hg hs
  obtain ⟨-, -, hchosen⟩ := of_create hs
  obtain rfl : b = sched.buildstate := Except.ok.inj hknown
  refine ⟨rfl, (congrArg Prod.fst hchosen).trans ?_⟩
  cases options.releaseName with
  | some name => rfl
  | none => simp only [chooseRelease, (Graph.built_ofStack hg).stack, Option.getD_none]

/-- **A command** is carried out under one release name. A redeployment takes the name that the state
keeps. -/
theorem Carried.exists_under (hg : Graph.ofStack stack = .ok g)
    (hpin : nonEmpty? stack.releaseName = none) (h : Carried g b command r) :
    ∃ release, release ≠ "" ∧ r.Under release b ∧
      (command = .redeploy → ∀ name ∈ b.releaseName, name ≠ "" → release = name) := by
  cases h with
  | @run _ hcommand _ _ files _ _ _ _ sched hgiven hname hs =>
    obtain ⟨rfl, hrelease⟩ := Scheduler.releaseName_of_create hg hs
    rw [hgiven, Option.getD_none] at hrelease
    refine ⟨sched.releaseName, ?_, sched.under_run _ files, fun hredeploy => absurd hredeploy hcommand⟩
    rw [hrelease]
    exact (Stack.releaseFor_unpinned hpin _ _).1
  | @redeploy executors directory changed store files options chance chance' r hgiven hr =>
    unfold Scheduler.redeploy at hr
    dsimp only at hr
    generalize hs : Scheduler.create g executors store (some b) files _ chance = attempt at hr
    cases attempt with
    | error fault => cases hr
    | ok created =>
      obtain ⟨sched, rest⟩ := created
      obtain ⟨rfl, hrelease⟩ := Scheduler.releaseName_of_create hg hs
      rw [hgiven, Option.getD_none, if_pos rfl] at hrelease
      have hr := Except.ok.inj hr
      dsimp only at hr
      have hunder : r.Under sched.releaseName sched.buildstate := by
        split at hr
        · rw [← (Prod.mk.inj hr).1]
          exact sched.under_idle files
        · rw [← (Prod.mk.inj hr).1]
          exact sched.under_run _ files
      refine ⟨sched.releaseName, ?_, hunder, fun _ => ?_⟩
      · rw [hrelease]
        exact (Stack.releaseFor_unpinned hpin _ _).1
      · rw [hrelease]
        exact (Stack.releaseFor_unpinned hpin _ _).2
  | @job j p hgraph hstack hstate files _ chance _ sched hs =>
    rw [(Graph.built_ofStack hg).stack, Option.some.injEq] at hstack
    subst hgraph hstate hstack
    obtain ⟨hb, hrelease⟩ := Scheduler.releaseName_of_create hg hs
    have hrelease : sched.releaseName = (p.stack.releaseFor (j.previous p.state) chance).1 := hrelease
    refine ⟨sched.releaseName, ?_, hb ▸ sched.under_run _ files, fun hredeploy => ?_⟩
    · rw [hrelease]
      exact (Stack.releaseFor_unpinned hpin _ _).1
    · have hprevious : j.previous p.state = p.state.releaseName := by
        rw [Job.previous, Job.redeploys, hredeploy]
        rfl
      rw [hrelease, hprevious]
      exact (Stack.releaseFor_unpinned hpin _ _).2

/-- **The state that commands leave** keeps the release name of the latest command that has run
phases. -/
theorem Session.exists_under (hg : Graph.ofStack stack = .ok g)
    (hpin : nonEmpty? stack.releaseName = none) {past : List RunResult} (h : Session g past b)
    {last : RunResult} (hlast : latest? past = some last) :
    ∃ release before, release ≠ "" ∧ last.release? = some release ∧ last.Under release before ∧
      b.releaseName = some release := by
  induction h with
  | start b => cases hlast
  | @command past b command r _ hr ih =>
    obtain ⟨release, hne, hunder, -⟩ := hr.exists_under hg hpin
    rw [latest?, List.reverse_append, List.reverse_singleton, List.singleton_append,
      List.find?_cons] at hlast
    have hkept := hunder.kept
    cases hrelease : r.release? with
    | none =>
      simp only [hrelease, Option.isSome_none, Bool.false_eq_true, if_false] at hlast hkept
      rw [hkept]
      exact ih hlast
    | some name =>
      simp only [hrelease, Option.isSome_some, if_true, Option.some.injEq] at hlast hkept
      rw [← hlast]
      refine ⟨release, b, hne, ?_, hunder, hkept⟩
      rw [hrelease, hunder.announced name hrelease]
  | pruned _ keep ih => exact ih hlast
  | stored _ hfolder hsaved hkept hload ih =>
    obtain ⟨release, before, hne, hrelease, hunder, hb⟩ := ih hlast
    have hheld := (Store.hold_save hfolder hsaved).congr hkept
    have hread := Store.ofValue_of_load hfolder hheld hload
    refine ⟨release, before, hne, hrelease, hunder, ?_⟩
    rw [Buildstate.releaseName_of_ofValue hread, Store.save_state]
    exact hb

/-- **Redeployments go on under the latest release.** Over a stack that pins no release name, commands
are carried out over one state. A redeployment that follows has the release name of the latest
earlier command that has run phases, whichever phases these were: it is announced under the name,
reports it, and leaves it in the state, and whatever either of the two commands hands to an executor
has the name. -/
theorem release_continued (hg : Graph.ofStack stack = .ok g)
    (hpin : nonEmpty? stack.releaseName = none) {past : List RunResult} (h : Session g past b)
    {last : RunResult} (hlast : latest? past = some last) (hr : Carried g b .redeploy r) :
    ∃ release, last.release? = some release ∧
      (∀ ctx ∈ last.contexts, ctx.releaseName = release) ∧
      (∀ name ∈ r.release?, name = release) ∧
      (∀ ctx ∈ r.contexts, ctx.releaseName = release) ∧
      (∀ report, r.report = .ok report → report.releaseName = release) ∧
      r.scheduler.buildstate.releaseName = some release := by
  obtain ⟨release, before, hne, hrelease, hunder, hb⟩ := h.exists_under hg hpin hlast
  obtain ⟨name, -, hredeployed, hprevious⟩ := hr.exists_under hg hpin
  obtain rfl : name = release := hprevious rfl release hb hne
  refine ⟨name, hrelease, hunder.handed, hredeployed.announced, hredeployed.handed,
    hredeployed.reported, ?_⟩
  rw [hredeployed.kept, hb, ite_self]

namespace Shop

/-- A service that needs nothing. -/
def mail : UnitDef := { database with name := "mail" }

/-- A shop that pins no release name. -/
def unpinned : Stack := { Shop.stack [watched, mail] with releaseName := none }

def loose : Graph :=
  match Graph.ofStack unpinned with
  | .ok g => g
  | .error _ => default

theorem ofStack_unpinned : Graph.ofStack unpinned = .ok loose := by rfl

/-- Choices that lead to one release name. -/
def choice (i : Int) : Chance := Chance.start [i] ["0a1b"]

/-- A scheduler over the shop that pins no release name. -/
def releasing (command release : String) (b : Buildstate) : Scheduler :=
  { scheduler [] 4 (executors 7) with
    graph := loose
    resolver := Resolver.start loose
    command := command
    releaseName := release
    buildstate := b }

/-- The deployment of the shop. -/
def released : RunResult :=
  (releasing "deploy" "amber-anchor-0a1b" (Buildstate.empty "shop")).run Command.deploy.phases []

/-- The initialization of the shop that has been deployed. -/
def initialized : RunResult :=
  (releasing "init" "brisk-badger-0a1b" released.scheduler.buildstate).run Command.init.phases []

theorem carried_released : Carried loose (Buildstate.empty "shop") .deploy released := by
  have hs : Scheduler.create loose (executors 7) ⟨none, "now"⟩ (some (Buildstate.empty "shop")) []
      { command := "deploy" } (choice 0) =
        .ok (releasing "deploy" "amber-anchor-0a1b" (Buildstate.empty "shop"), ⟨[0], ["0a1b"], 2, 1⟩) := by
    rfl
  exact .run (by decide) rfl rfl hs

theorem carried_initialized : Carried loose released.scheduler.buildstate .init initialized := by
  have hs : Scheduler.create loose (executors 7) ⟨none, "now"⟩ (some released.scheduler.buildstate) []
      { command := "init" } (choice 1) =
        .ok (releasing "init" "brisk-badger-0a1b" released.scheduler.buildstate,
          ⟨[1], ["0a1b"], 2, 1⟩) := by
    rfl
  exact .run (by decide) rfl rfl hs

/-- The mail service is deployed, and deployed again by a redeployment that does not affect it, after
an initialization under another name. -/
theorem mail_redeployed :
    (released.contexts.any fun ctx => ctx.pair == ⟨"shop.service.mail", .deploy⟩) = true ∧
    ((Scheduler.redeploy loose (executors 7) (FilePath.ofText "/shop") ["db/schema.sql"]
      ⟨none, "now"⟩ (some initialized.scheduler.buildstate) [] {} (choice 2)).toOption.any fun r =>
        r.1.contexts.any fun ctx => ctx.pair == ⟨"shop.service.mail", .deploy⟩) = true := by
  simp only [released, initialized, Scheduler.redeploy, Scheduler.run, Scheduler.carryOut,
    RunState.run_eq]
  decide +kernel

theorem release?_initialized : initialized.release? = some "brisk-badger-0a1b" :=
  Scheduler.release?_run (by rfl) (by rfl) []

/-- The initialization leaves its release name. -/
theorem releaseName_initialized :
    initialized.scheduler.buildstate.releaseName = some "brisk-badger-0a1b" := by
  have hunder := (releasing "init" "brisk-badger-0a1b" released.scheduler.buildstate).under_run
    Command.init.phases []
  rw [← initialized] at hunder
  rw [hunder.kept, release?_initialized]
  rfl

end Shop

/-- In the shop, a redeployment after an initialization has the name of the initialization, although
the shop has been deployed under another one before. -/
theorem release_continued_shop : ∃ r,
    Graph.ofStack Shop.unpinned = .ok Shop.loose ∧
    nonEmpty? Shop.unpinned.releaseName = none ∧
    Session Shop.loose [Shop.released, Shop.initialized] Shop.initialized.scheduler.buildstate ∧
    latest? [Shop.released, Shop.initialized] = some Shop.initialized ∧
    Carried Shop.loose Shop.initialized.scheduler.buildstate .redeploy r ∧
    ∃ ctx ∈ r.contexts, ctx.pair = ⟨"shop.service.mail", .deploy⟩ ∧
      ctx.releaseName = "brisk-badger-0a1b" := by
  have hsession : Session Shop.loose [Shop.released, Shop.initialized]
      Shop.initialized.scheduler.buildstate :=
    ((Session.start _).command Shop.carried_released).command Shop.carried_initialized
  have hlatest : latest? [Shop.released, Shop.initialized] = some Shop.initialized := by
    simp [latest?, Shop.release?_initialized]
  obtain ⟨⟨r, chance⟩, hr, hany⟩ := exists_of_any Shop.mail_redeployed.2
  obtain ⟨ctx, hctx, hpair⟩ := List.any_eq_true.mp hany
  have hcarried : Carried Shop.loose Shop.initialized.scheduler.buildstate .redeploy r :=
    .redeploy rfl hr
  obtain ⟨release, hlast, -, -, hhanded, -⟩ :=
    release_continued Shop.ofStack_unpinned rfl hsession hlatest hcarried
  obtain rfl : "brisk-badger-0a1b" = release :=
    Option.some.inj (Shop.release?_initialized.symm.trans hlast)
  exact ⟨r, Shop.ofStack_unpinned, rfl, hsession, hlatest, hcarried, ctx, hctx,
    by simpa using hpair, hhanded ctx hctx⟩

/-- A shop that pins no release name is deployed, then initialized, then redeployed after a change of
the database. The mail service is not affected by the change, and it has been deployed under the
name of the deployment, which is the latest earlier command that has deployed anything; yet it is
deployed again, under the name of the initialization. -/
theorem released_by_initialization : ∃ r chance,
    Graph.ofStack Shop.unpinned = .ok Shop.loose ∧
    nonEmpty? Shop.unpinned.releaseName = none ∧
    Carried Shop.loose (Buildstate.empty "shop") .deploy Shop.released ∧
    Carried Shop.loose Shop.released.scheduler.buildstate .init Shop.initialized ∧
    Scheduler.redeploy Shop.loose (Shop.executors 7) (FilePath.ofText "/shop") ["db/schema.sql"]
      ⟨none, "now"⟩ (some Shop.initialized.scheduler.buildstate) [] {} (Shop.choice 2) =
        .ok (r, chance) ∧
    (∃ ctx ∈ Shop.released.contexts, ctx.pair = ⟨"shop.service.mail", .deploy⟩ ∧
      ctx.releaseName = "amber-anchor-0a1b") ∧
    "shop.service.mail" ∉ (Shop.loose.redeployForce (Shop.loose.touched (FilePath.ofText "/shop")
      ["db/schema.sql"] Shop.loose.watchRoots)).deploy ∧
    ∃ ctx ∈ r.contexts, ctx.pair = ⟨"shop.service.mail", .deploy⟩ ∧
      ctx.releaseName = "brisk-badger-0a1b" := by
  obtain ⟨hdeployed, hredeployed⟩ := Shop.mail_redeployed
  obtain ⟨first, hfirst, hpair⟩ := List.any_eq_true.mp hdeployed
  have hunder := (Shop.releasing "deploy" "amber-anchor-0a1b" (Buildstate.empty "shop")).under_run
    Command.deploy.phases []
  obtain ⟨⟨r, chance⟩, hr, hany⟩ := exists_of_any hredeployed
  obtain ⟨ctx, hctx, hpair'⟩ := List.any_eq_true.mp hany
  obtain ⟨release, -, hlater, hprevious⟩ :=
    Carried.exists_under Shop.ofStack_unpinned rfl (.redeploy rfl hr)
  obtain rfl : release = "brisk-badger-0a1b" :=
    hprevious rfl _ Shop.releaseName_initialized (by decide)
  exact ⟨r, chance, Shop.ofStack_unpinned, rfl, Shop.carried_released, Shop.carried_initialized, hr,
    ⟨first, hfirst, by simpa using hpair, hunder.handed first hfirst⟩, by decide +kernel,
    ctx, hctx, by simpa using hpair', hlater.handed ctx hctx⟩

end Rollout
