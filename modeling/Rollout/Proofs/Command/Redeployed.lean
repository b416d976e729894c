import Rollout.Proofs.Command.Protocol
import Rollout.Proofs.Graph.Built
import Rollout.Proofs.Run.Release

/-!
# Two ways to redeploy

A redeployment can be asked for directly, over a graph, or as a command, over a project. The command
does everything on its own that the direct redeployment does: it loads the state, finds out what the
changed paths affect, and chooses the release name before it has a scheduler. Still both come to the
same scheduler and so to the same run, under the same name and with the same report.

What the command reports besides, about its stages, is told apart from what the run reports by the
kind of the events.

**Types.** `Course.Leads`, `Course.Apart`.

**Operations.** `EventBody.ofRun`, `Job.scheduled`, `Job.concluded`.

**Results.**
* `Job.carryOut_eq`: the phases of a command are a run and a conclusion;
* `Job.scheduled_eq_redeploy`: the run of a redeployment is the direct one;
* `Job.leads_carryOut`: how a redeployment gets to its phases;
* `redeployments_agree`: the direct redeployment and the command.
-/

namespace Rollout

/-- Whether an event is one that runs report. -/
def EventBody.ofRun : EventBody → Bool
  | .runPlanned _ _ _ _ | .unitStarted _ _ | .unitSucceeded _ _ _ | .unitReused _ _ _
  | .unitFailed _ _ _ _ _ | .unitSkipped _ _ _ | .outputsRecorded _ _ | .runFinished _ _ _ => true
  | _ => false

theorem ofRun_of_mem_events {r : RunResult} {e : Event} (h : e ∈ r.events) :
    e.body.ofRun = true := by
  obtain ⟨entry, -, rfl⟩ := List.mem_map.mp h
  cases hp : entry.progress <;> rfl

namespace Course

/-- A course goes on as another one, after events that are not those of a run. -/
def Leads (c c' : Course) : Prop :=
  ∃ events, (∀ e ∈ events, e.body.ofRun = false) ∧ c = c'.after events

/-- A course without events of a run, in which no executor is called. -/
structure Apart (c : Course) : Prop where
  events : ∀ e ∈ c.events, e.body.ofRun = false
  contexts : c.contexts = []

variable {c c' c'' : Course} {name : String} {files : Files} {chance : Chance}

theorem Leads.refl (c : Course) : c.Leads c := ⟨[], List.forall_mem_nil _, rfl⟩

theorem Leads.trans (h : c.Leads c') (h' : c'.Leads c'') : c.Leads c'' := by
  obtain ⟨events, hevents, rfl⟩ := h
  obtain ⟨events', hevents', rfl⟩ := h'
  refine ⟨events ++ events', List.forall_mem_append.mpr ⟨hevents, hevents'⟩, ?_⟩
  simp [after]

theorem Leads.after {events : List Event} (hevents : ∀ e ∈ events, e.body.ofRun = false) :
    (c.after events).Leads c := ⟨events, hevents, rfl⟩

/-- A stage whose work succeeds leads on to what follows it. -/
theorem Leads.stage {α : Type} {stage : Stage} {work : Except Trouble (α × List Event)}
    {next : α → Course} {value : α} {extra : List Event} (hwork : work = .ok (value, extra))
    (hextra : ∀ e ∈ extra, e.body.ofRun = false) :
    (throughStage name stage work files chance next).Leads (next value) := by
  subst hwork
  refine ⟨stageStarted name stage.id :: extra ++ [stageCompleted name stage.id 0 "success"], ?_, rfl⟩
  rw [List.cons_append, List.forall_mem_cons, List.forall_mem_append]
  exact ⟨rfl, hextra, List.forall_mem_singleton.mpr rfl⟩

theorem Apart.after (h : c.Apart) {events : List Event}
    (hevents : ∀ e ∈ events, e.body.ofRun = false) : (c.after events).Apart :=
  ⟨List.forall_mem_append.mpr ⟨hevents, h.events⟩, h.contexts⟩

theorem apart_done (code : Int) : (done name code files chance).Apart :=
  ⟨List.forall_mem_singleton.mpr rfl, rfl⟩

theorem apart_crashed (crash : Crash) : (crashed crash files chance).Apart :=
  ⟨List.forall_mem_nil _, rfl⟩

/-- A stage keeps apart from runs if its work and what follows it do. -/
theorem apart_throughStage {α : Type} {stage : Stage} {work : Except Trouble (α × List Event)}
    {next : α → Course}
    (hwork : ∀ value extra, work = .ok (value, extra) → ∀ e ∈ extra, e.body.ofRun = false)
    (hnext : ∀ value, (next value).Apart) :
    (throughStage name stage work files chance next).Apart := by
  cases work with
  | ok result =>
    obtain ⟨value, extra⟩ := result
    have hleads : (throughStage name stage (.ok (value, extra)) files chance next).Leads
        (next value) := .stage rfl (hwork value extra rfl)
    obtain ⟨events, hevents, heq⟩ := hleads
    rw [heq]
    exact (hnext value).after hevents
  | error trouble =>
    cases trouble with
    | failure f =>
      refine (apart_done 2).after ?_
      exact List.forall_mem_cons.mpr ⟨rfl, List.forall_mem_singleton.mpr rfl⟩
    | crash crash => exact apart_crashed crash

end Course

namespace Job

variable {j : Job} {p : Prepared} {files : Files} {chance : Chance}

/-- The run of the phases of a command. -/
def scheduled (j : Job) (p : Prepared) (release : String) (files : Files) (chance : Chance) :
    Except RunFault (RunResult × Chance) :=
  (Scheduler.create p.graph p.executors j.store (some p.state) files (j.runOptions p release)
    chance).map fun (s, chance) => (s.run j.command.phases files, chance)

/-- The course of a command from the end of its run on. -/
def concluded (j : Job) (p : Prepared) (r : RunResult) (chance : Chance) : Course :=
  match r.report with
  | .error fault => j.faulted fault r.elapsedMs r.files chance
  | .ok report =>
    (j.finish p report r.scheduler.buildstate r.files chance).after
      [stageCompleted j.name Stage.runPhases.id r.elapsedMs report.status.text]

/-- **The phases of a command** are a run, and the conclusion that is drawn from it. -/
theorem carryOut_eq (j : Job) (p : Prepared) (release : String) (files : Files) (chance : Chance) :
    j.carryOut p release files chance =
      match j.scheduled p release files chance with
      | .error fault => j.faulted fault 0 files chance
      | .ok (r, chance) => ((j.concluded p r chance).calling r.contexts).after r.events := by
  unfold carryOut scheduled
  cases Scheduler.create p.graph p.executors j.store (some p.state) files (j.runOptions p release)
    chance with
  | error fault => rfl
  | ok created => rfl

theorem apart_faulted (fault : RunFault) (ms : Rat) :
    (j.faulted fault ms files chance).Apart := by
  unfold faulted
  split
  · exact (Course.apart_done 2).after (List.forall_mem_singleton.mpr rfl)
  · exact Course.apart_crashed _

theorem apart_concluded (r : RunResult) (chance : Chance) : (j.concluded p r chance).Apart := by
  unfold concluded
  split
  · exact apart_faulted _ _
  · refine Course.Apart.after ?_ (List.forall_mem_singleton.mpr rfl)
    unfold finish saveBuildstate
    dsimp only
    refine Course.apart_throughStage (fun value extra hwork => ?_) fun _ => Course.apart_done _
    split at hwork
    · cases hwork
    · obtain ⟨-, rfl⟩ := Prod.mk.inj (Except.ok.inj hwork)
      refine List.forall_mem_append.mpr ⟨?_, List.forall_mem_singleton.mpr rfl⟩
      unfold pruned
      split
      · exact List.forall_mem_nil _
      · exact List.forall_mem_singleton.mpr rfl

section Redeployment

variable {s : Stack} {g : Graph} {b : Buildstate} {executors : Executors}

/-! ### The stages before the phases -/

theorem exists_resolveGraph (j : Job) (hgraph : Graph.ofStack s = .ok g) {order : List String}
    (horder : g.order = .ok order) :
    ∃ extra, j.resolveGraph s = .ok (g, extra) ∧ ∀ e ∈ extra, e.body.ofRun = false := by
  unfold resolveGraph
  rw [hgraph]
  dsimp only
  rw [horder]
  refine ⟨_, rfl, List.forall_mem_cons.mpr ⟨rfl, ?_⟩⟩
  split
  · exact List.forall_mem_singleton.mpr rfl
  · exact List.forall_mem_nil _

theorem exists_loadBuildstate (hload : j.store.load s.normalizedName files = .ok b) :
    ∃ extra, j.loadBuildstate s files = .ok (b, extra) ∧ ∀ e ∈ extra, e.body.ofRun = false := by
  have hpath : j.store.path s.normalizedName =
      .ok (Store.pathIn (j.project.child ".stackctl_buildstate") s.normalizedName) := rfl
  unfold loadBuildstate
  rw [hload, hpath]
  exact ⟨_, rfl, List.forall_mem_singleton.mpr rfl⟩

theorem exists_planRedeploy (j : Job) (s : Stack) {order : List String}
    (horder : g.order = .ok order) :
    ∃ extra, j.planRedeploy s g =
        .ok (g.redeployForce (g.touched j.project j.changed (some s.watcher.paths)), extra) ∧
      ∀ e ∈ extra, e.body.ofRun = false := by
  unfold planRedeploy
  dsimp only
  rw [horder]
  exact ⟨_, rfl, List.forall_mem_singleton.mpr rfl⟩

/-- The choice of a release name leads to the phases. -/
theorem leads_release (j : Job) (p : Prepared) (files : Files) (chance : Chance) :
    (j.release p files chance).Leads
      (j.carryOut p (p.stack.releaseFor (j.previous p.state) chance).1 files
        (p.stack.releaseFor (j.previous p.state) chance).2) := by
  refine Course.Leads.after (List.forall_mem_append.mpr ⟨?_, List.forall_mem_singleton.mpr rfl⟩)
  unfold generated
  split
  · exact List.forall_mem_singleton.mpr rfl
  · exact List.forall_mem_nil _

/-! ### Redeployments -/

/-- What a redeployment is prepared to do. -/
def prepared (j : Job) (s : Stack) (g : Graph) (b : Buildstate) (executors : Executors) : Prepared :=
  ⟨s, g, b, (g.redeployForce (g.touched j.project j.changed (some s.watcher.paths))).units,
    executors⟩

variable (hcommand : j.command = .redeploy) (hgraph : Graph.ofStack s = .ok g)
  (hload : j.store.load s.normalizedName files = .ok b)
  (haffected : g.affected j.project j.changed (some s.watcher.paths) ≠ [])

include hcommand hgraph hload haffected

/-- **The run of a redeployment** is the direct one: over the same graph and state, with the same
units forced, and under the name that the stack, the state or chance gives. -/
theorem scheduled_eq_redeploy (executors : Executors) (chance : Chance) :
    j.scheduled (j.prepared s g b executors)
      (s.releaseFor b.releaseName chance).1 files (s.releaseFor b.releaseName chance).2 =
    Scheduler.redeploy g executors j.project j.changed j.store none files
      { maxWorkers := j.maxWorkers } chance := by
  have hstack := (Graph.built_ofStack hgraph).stack
  have hroots : g.watchRoots = some s.watcher.paths := by
    rw [Graph.watchRoots, hstack]
    rfl
  have hdeploy : (g.redeployForce
      (g.touched j.project j.changed (some s.watcher.paths))).deploy.isEmpty = false :=
    List.isEmpty_eq_false_iff.mpr haffected
  have hname : j.name = "redeploy" := by
    rw [name, hcommand]
    rfl
  have hknown : Scheduler.knownState g j.store none files = .ok b := by
    rw [Scheduler.knownState, Graph.stackName_ofStack hgraph, hload]
  have hcreate : Scheduler.create g executors j.store (some b) files
      (j.runOptions (j.prepared s g b executors) (s.releaseFor b.releaseName chance).1)
      (s.releaseFor b.releaseName chance).2 =
      Scheduler.create g executors j.store none files
        { maxWorkers := j.maxWorkers
          forced := (g.redeployForce
            (g.touched j.project j.changed (some s.watcher.paths))).units
          command := "redeploy"
          directory := some j.project } chance := by
    unfold Scheduler.create
    rw [hknown]
    simp only [runOptions, prepared, Scheduler.knownState, Scheduler.chooseRelease, hstack, hname,
      if_true]
  unfold scheduled Scheduler.redeploy
  rw [hroots]
  simp only [hdeploy, Bool.false_eq_true, if_false]
  rw [← hcreate]
  simp only [prepared, hcommand, redeployPhases]

/-- **A redeployment gets to its phases** if its stack is there, its state can be loaded and the
changed paths affect a unit. -/
theorem leads_carryOut (hstack : StackFile.load j.project j.config files = .ok s)
    (hexecutors : j.executors = some executors) (chance : Chance) :
    (j.run files chance).Leads (j.carryOut (j.prepared s g b executors)
      (s.releaseFor b.releaseName chance).1 files (s.releaseFor b.releaseName chance).2) := by
  have hbuilt := Graph.built_ofStack hgraph
  obtain ⟨order, horder⟩ := Graph.exists_order hbuilt.ends hbuilt.names hbuilt.acyclic
  have hredeploys : j.redeploys = true := by
    rw [redeploys, hcommand]
    rfl
  have hdeploy : ¬(g.redeployForce
      (g.touched j.project j.changed (some s.watcher.paths))).deploy.isEmpty = true := by
    rwa [List.isEmpty_iff]
  have hprevious : j.previous b = b.releaseName := by
    rw [previous, if_pos hredeploys]
  have hloaded : j.loadStack files = .ok (s, []) := by
    rw [loadStack, hstack]
  obtain ⟨resolved, hresolve, hresolved⟩ := j.exists_resolveGraph hgraph horder
  obtain ⟨known, hknow, hknown⟩ := exists_loadBuildstate hload
  obtain ⟨planned, hplan, hplanned⟩ := j.exists_planRedeploy s horder
  unfold run
  refine (Course.Leads.after (List.forall_mem_singleton.mpr rfl)).trans ?_
  refine (Course.Leads.stage hloaded (List.forall_mem_nil _)).trans ?_
  refine (Course.Leads.stage hresolve hresolved).trans ?_
  rw [if_neg (by rw [hcommand]; decide), phases]
  refine (Course.Leads.stage hknow hknown).trans ?_
  rw [if_pos hredeploys]
  refine (Course.Leads.stage hplan hplanned).trans ?_
  rw [if_neg hdeploy, equip, hexecutors, ← hprevious]
  exact j.leads_release (j.prepared s g b executors) files chance

end Redeployment

/-- The run of a command is carried out under the name that it has been given. -/
theorem under_scheduled {release : String} {chance' : Chance} {r : RunResult}
    (h : j.scheduled p release files chance = .ok (r, chance')) : r.Under release p.state := by
  unfold scheduled at h
  cases hcreate : Scheduler.create p.graph p.executors j.store (some p.state) files
      (j.runOptions p release) chance with
  | error fault =>
    rw [hcreate] at h
    cases h
  | ok created =>
    obtain ⟨sched, last⟩ := created
    rw [hcreate] at h
    obtain ⟨rfl, -⟩ := Prod.mk.inj (Except.ok.inj h)
    have hname : sched.releaseName = release :=
      congrArg Prod.fst (Scheduler.of_create hcreate).2.2
    have hstate : p.state = sched.buildstate :=
      Except.ok.inj (Scheduler.usable_create hcreate).2.2.2.2.2
    rw [← hname, hstate]
    exact sched.under_run _ _

end Job

/-- **The two ways to redeploy agree.** Let changed paths affect a unit of the stack of a project.
If the graph of the stack can be redeployed directly, with the store of the project, then the
command that redeploys the project comes to the same run: over the state that is stored, and under
the release name of the stack, of that state, or of the same chance. So the same executors are
called with the same contexts in the same order, and what the command tells of its run are exactly
the events of the direct one. If there is a report, then the command has it too: its phases are
completed with the status of the report. -/
theorem redeployments_agree {j : Job} {s : Stack} {g : Graph} {executors : Executors} {files : Files}
    {chance chance' : Chance} {r : RunResult} (hcommand : j.command = .redeploy)
    (hexecutors : j.executors = some executors)
    (hstack : StackFile.load j.project j.config files = .ok s) (hgraph : Graph.ofStack s = .ok g)
    (haffected : g.affected j.project j.changed (some s.watcher.paths) ≠ [])
    (hr : Scheduler.redeploy g executors j.project j.changed j.store none files
      { maxWorkers := j.maxWorkers } chance = .ok (r, chance')) :
    ∃ b, j.store.load s.normalizedName files = .ok b ∧
      j.scheduled (j.prepared s g b executors) (s.releaseFor b.releaseName chance).1 files
        (s.releaseFor b.releaseName chance).2 = .ok (r, chance') ∧
      r.Under (s.releaseFor b.releaseName chance).1 b ∧
      (j.run files chance).contexts = r.contexts ∧
      (j.run files chance).events.filter (fun e => e.body.ofRun) = r.events ∧
      ∀ report, r.report = .ok report →
        stageCompleted j.name Stage.runPhases.id r.elapsedMs report.status.text ∈
          (j.run files chance).events := by
  have hload : ∃ b, j.store.load s.normalizedName files = .ok b := by
    unfold Scheduler.redeploy at hr
    dsimp only at hr
    cases hcreate : Scheduler.create g executors j.store none files
        { maxWorkers := j.maxWorkers
          forced := (g.redeployForce (g.touched j.project j.changed g.watchRoots)).units
          command := "redeploy"
          directory := some j.project } chance with
    | error fault =>
      rw [hcreate] at hr
      cases hr
    | ok created =>
      have hknown := (Scheduler.usable_create hcreate).2.2.2.2.2
      rw [Scheduler.knownState, Graph.stackName_ofStack hgraph] at hknown
      exact ⟨_, hknown⟩
  obtain ⟨b, hload⟩ := hload
  have hscheduled := (Job.scheduled_eq_redeploy hcommand hgraph hload haffected executors
    chance).trans hr
  obtain ⟨before, hbefore, hrun⟩ := Job.leads_carryOut hcommand hgraph hload haffected hstack
    hexecutors chance
  rw [Job.carryOut_eq, hscheduled] at hrun
  have hafter := Job.apart_concluded (j := j) (p := j.prepared s g b executors) r chance'
  refine ⟨b, hload, hscheduled, Job.under_scheduled hscheduled, ?_, ?_, fun report hreport => ?_⟩
  · rw [hrun]
    change r.contexts ++ (j.concluded _ r chance').contexts = r.contexts
    rw [hafter.contexts, List.append_nil]
  · have hevents : (j.run files chance).events =
        before ++ (r.events ++ (j.concluded (j.prepared s g b executors) r chance').events) :=
      congrArg Course.events hrun
    rw [hevents, List.filter_append, List.filter_append,
      List.filter_eq_nil_iff.mpr fun e he => by rw [hbefore e he]; exact Bool.false_ne_true,
      List.filter_eq_self.mpr fun e he => ofRun_of_mem_events he,
      List.filter_eq_nil_iff.mpr fun e he => by rw [hafter.events e he]; exact Bool.false_ne_true,
      List.nil_append, List.append_nil]
  · rw [hrun]
    refine List.mem_append_right _ (List.mem_append_right _ ?_)
    change _ ∈ (j.concluded _ r chance').events
    rw [Job.concluded, hreport]
    exact List.mem_cons_self

namespace Shop

/-- The project of the shop, with a service that watches a directory. -/
def watchedProject : Files :=
  [(["shop"], .folder),
    (["shop", "stack.yaml"], .file (stackFile ++ "    watch_paths:\n      - db\n").toUTF8)]

/-- A redeployment of the project after a change in the directory. -/
def redeployment : Job :=
  { deployment with command := .redeploy, changed := ["db/schema.sql"] }

/-- The direct redeployment of a graph for the same change. -/
def directly (g : Graph) : Except RunFault (RunResult × Chance) :=
  Scheduler.redeploy g failing redeployment.project redeployment.changed redeployment.store none
    watchedProject { maxWorkers := redeployment.maxWorkers } ⟨[], [], 0, 0⟩

end Shop

/-- In the shop both redeployments call the executors of the service. -/
theorem redeployments_agree_shop : ∃ s g r chance',
    StackFile.load Shop.redeployment.project Shop.redeployment.config Shop.watchedProject = .ok s ∧
    Graph.ofStack s = .ok g ∧
    g.affected Shop.redeployment.project Shop.redeployment.changed (some s.watcher.paths) ≠ [] ∧
    Shop.directly g = .ok (r, chance') ∧ r.contexts.length = 1 ∧
    (Shop.redeployment.run Shop.watchedProject ⟨[], [], 0, 0⟩).contexts = r.contexts ∧
    (Shop.redeployment.run Shop.watchedProject ⟨[], [], 0, 0⟩).events.filter
      (fun e => e.body.ofRun) = r.events := by
  have hall : ((StackFile.load Shop.redeployment.project Shop.redeployment.config
      Shop.watchedProject).toOption.any fun s => (Graph.ofStack s).toOption.any fun g =>
        decide (g.affected Shop.redeployment.project Shop.redeployment.changed
          (some s.watcher.paths) ≠ []) &&
        (Shop.directly g).toOption.any fun result => decide (result.1.contexts.length = 1)) =
      true := by
    decide +kernel
  obtain ⟨s, hstack, hall⟩ := exists_of_any hall
  obtain ⟨g, hgraph, hall⟩ := exists_of_any hall
  rw [Bool.and_eq_true, decide_eq_true_eq] at hall
  obtain ⟨haffected, hall⟩ := hall
  obtain ⟨⟨r, chance'⟩, hdirectly, hcalls⟩ := exists_of_any hall
  obtain ⟨b, -, -, -, hcontexts, hevents, -⟩ :=
    redeployments_agree (j := Shop.redeployment) rfl rfl hstack hgraph haffected hdirectly
  exact ⟨s, g, r, chance', hstack, hgraph, haffected, hdirectly, of_decide_eq_true hcalls,
    hcontexts, hevents⟩

end Rollout
