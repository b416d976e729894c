import Rollout.Proofs.Run.Steps

/-!
# Runs of a scheduler

A scheduler refuses a run whose executors do not pass the check or whose graph has no plan, and
carries out every other one: it takes steps along the plan, and reports, unless a step halts. The
graph of a stack has a plan for all phases.

**Types.** `Scheduler.Usable`, `Scheduler.Follows`, for any graph; `Scheduler.Sound`,
`Scheduler.Carries`, for the graph of a stack; `Shop`, a stack to try things on.

**Results.**
* `Scheduler.usable_create`, `Scheduler.sound_create`: schedulers that are created;
* `Scheduler.follows_spec`, `Scheduler.finished_spec`, `Scheduler.settled_spec`: what a run over any
  graph leads to;
* `Scheduler.exists_plan`: the graph of a stack has a plan for all phases;
* `Scheduler.run_spec`, `Scheduler.report_spec`: what a run over the graph of a stack leads to.
-/

namespace Rollout

open RunState

namespace Scheduler

/-- A scheduler over any graph, with at least one worker. -/
structure Usable (s : Scheduler) : Prop where
  resolver : s.resolver.graph = s.graph
  workers : 1 ≤ s.maxWorkers

/-- A scheduler over the graph of a stack, with at least one worker. -/
structure Sound (s : Scheduler) : Prop where
  built : ∃ stack, Graph.ofStack stack = .ok s.graph
  resolver : s.resolver.graph = s.graph
  workers : 1 ≤ s.maxWorkers

theorem workerCount_pos {v : Value} {n : Nat} (h : workerCount v = .ok n) : 1 ≤ n := by
  unfold workerCount at h
  split at h
  · split at h
    · rw [← Except.ok.inj h]
      omega
    · cases h
  · rw [← Except.ok.inj h]
  · cases h

/-- **Schedulers that are created** can be used, and start with what is known. -/
theorem usable_create {g : Graph} {executors : Executors} {store : Store}
    {state : Option Buildstate} {files : Files} {options : RunOptions} {chance chance' : Chance}
    {s : Scheduler} (h : create g executors store state files options chance = .ok (s, chance')) :
    s.Usable ∧ s.graph = g ∧ s.executors = executors ∧ s.store = store ∧
      s.resolver = Resolver.start g ∧ knownState g store state files = .ok s.buildstate := by
  unfold create at h
  cases hw : workerCount options.maxWorkers with
  | error fault => simp [hw] at h
  | ok workers =>
    cases hb : knownState g store state files with
    | error fault => simp [hw, hb] at h
    | ok b =>
      simp only [hw, hb, Except.ok.injEq, Prod.mk.injEq] at h
      obtain ⟨rfl, -⟩ := h
      exact ⟨⟨rfl, workerCount_pos hw⟩, rfl, rfl, rfl, rfl, rfl⟩

/-- **Schedulers that are created** over the graph of a stack are sound. -/
theorem sound_create {stack : Stack} {g : Graph} (hg : Graph.ofStack stack = .ok g)
    {executors : Executors} {store : Store} {state : Option Buildstate} {files : Files}
    {options : RunOptions} {chance chance' : Chance} {s : Scheduler}
    (h : create g executors store state files options chance = .ok (s, chance')) :
    s.Sound ∧ s.graph = g ∧ s.executors = executors ∧ s.store = store ∧
      s.resolver = Resolver.start g ∧ knownState g store state files = .ok s.buildstate := by
  obtain ⟨husable, hgraph, hrest⟩ := usable_create h
  exact ⟨⟨⟨stack, hgraph.symm ▸ hg⟩, husable.resolver, husable.workers⟩, hgraph, hrest⟩

/-- A scheduler that loads its state is created as if it were given the state. -/
theorem create_of_load {g : Graph} {executors : Executors} {store : Store} {files : Files}
    {b : Buildstate} (h : store.load g.stackName files = .ok b) (options : RunOptions)
    (chance : Chance) : create g executors store none files options chance =
      create g executors store (some b) files options chance := by
  unfold create knownState
  rw [h]

variable {s : Scheduler} {phases : List Phase} {files : Files}

theorem Sound.usable (h : s.Sound) : s.Usable := ⟨h.resolver, h.workers⟩

theorem Sound.exists_built (h : s.Sound) : ∃ stack, s.graph.Built stack := by
  obtain ⟨stack, hg⟩ := h.built
  exact ⟨stack, Graph.built_ofStack hg⟩

/-- A checked plan makes a checked setup. -/
theorem Usable.setup (h : s.Usable) {plan : Plan}
    (hcheck : checkExecutors s.executors s.graph (requestedPhases phases) = .ok ())
    (hplan : s.graph.plan (requestedPhases phases) = .ok plan) :
    (s.setup plan).Checked (requestedPhases phases) :=
  ⟨sorted_requestedPhases phases, hplan, hcheck, h.workers⟩

/-- The graph of a stack has a plan for all phases. -/
theorem exists_plan (h : s.Sound) (requested : List Phase) :
    ∃ plan, s.graph.plan requested = .ok plan := by
  obtain ⟨stack, hg⟩ := h.built
  have hbuilt := Graph.built_ofStack hg
  obtain ⟨names, ho⟩ := Graph.exists_order hbuilt.ends hbuilt.names hbuilt.acyclic
  exact ⟨s.graph.planAlong requested names, by rw [Graph.plan, ho]; rfl⟩

/-- A checked plan over the graph of a stack makes a sound setup. -/
theorem Sound.setup (h : s.Sound) {plan : Plan}
    (hcheck : checkExecutors s.executors s.graph (requestedPhases phases) = .ok ())
    (hplan : s.graph.plan (requestedPhases phases) = .ok plan) :
    (s.setup plan).Sound (requestedPhases phases) :=
  ⟨h.usable.setup hcheck hplan, h.exists_built⟩

/-- What a run leads to that has come to its end. -/
def ended (s : Scheduler) (requested : List Phase) (last : RunState) : RunResult :=
  let report := s.reportOf requested last
  let state := last.report (.finished report.status report.counts report.durationMs)
  ⟨.ok report, state.journal, state.contexts, s.keep state, state.files, report.durationMs⟩

/-- What a run leads to that has halted. -/
def cutShort (s : Scheduler) (halt : Halt) : RunResult :=
  ⟨.error halt.fault, halt.state.journal, halt.state.contexts, s.keep halt.state,
    halt.state.files, halt.state.now * 1000⟩

/-- A run that passes the checks in front of it follows a plan, from its first state to a last
one. -/
structure Follows (s : Scheduler) (phases : List Phase) (files : Files) (plan : Plan) (n : Nat)
    (last : RunState) (A : Chart) : Prop where
  checked : (s.setup plan).Checked (requestedPhases phases)
  bound : n ≤ 4 * plan.length
  steps : Steps (s.setup plan) n (s.initial plan (requestedPhases phases) files) last
  tied : Tied (s.setup plan) (s.initial plan (requestedPhases phases) files) A last

/-- A run that passes the checks in front of it over the graph of a stack. -/
structure Carries (s : Scheduler) (phases : List Phase) (files : Files) (plan : Plan) (n : Nat)
    (last : RunState) (A : Chart) : Prop extends s.Follows phases files plan n last A where
  built : ∃ stack, s.graph.Built stack

theorem Carries.sound {plan : Plan} {n : Nat} {last : RunState} {A : Chart}
    (h : s.Carries phases files plan n last A) :
    (s.setup plan).Sound (requestedPhases phases) :=
  ⟨h.checked, h.built⟩

/-- A run that passes the checks in front of it carries out its plan. -/
theorem run_eq_carryOut {plan : Plan}
    (hcheck : checkExecutors s.executors s.graph (requestedPhases phases) = .ok ())
    (hplan : s.graph.plan (requestedPhases phases) = .ok plan) (files : Files) :
    s.run phases files = s.carryOut plan (requestedPhases phases)
      (s.initial plan (requestedPhases phases) files) := by
  simp only [run, hcheck, hplan]

/-- **What a run leads to** that passes the checks: to a report on a last state in which every pair
is settled, or to a halt for which its last state is to blame. -/
theorem follows_spec (h : s.Usable) {plan : Plan}
    (hcheck : checkExecutors s.executors s.graph (requestedPhases phases) = .ok ())
    (hplan : s.graph.plan (requestedPhases phases) = .ok plan) (files : Files) :
    ∃ n last A, s.Follows phases files plan n last A ∧
      ((s.run phases files = s.ended (requestedPhases phases) last ∧
          last.step (s.setup plan) = .finished ∧
          ∀ p, (s.setup plan).Planned p → (A p).settled = true) ∨
        ∃ halt, s.run phases files = s.cutShort halt ∧ last.step (s.setup plan) = .halted halt ∧
          Blamed (s.setup plan) (s.initial plan (requestedPhases phases) files) last halt) := by
  have hc := h.setup hcheck hplan
  have htied := tied_initial hc (requestedPhases phases) files h.resolver
  have hrun := run_eq_carryOut hcheck hplan files
  have hfuel : Chart.start.rest (s.setup plan) (s.initial plan (requestedPhases phases) files) <
      stepLimit plan := by
    rw [rest_initial, stepLimit]
    omega
  rcases htied.run_spec hc timely_initial hfuel with
    ⟨n, hn, last, A, hs, hok, hend, hA, hall⟩ |
    ⟨n, hn, last, A, halt, hs, herror, hend, hA, hblame⟩
  · rw [rest_initial] at hn
    refine ⟨n, last, A, ⟨hc, hn, hs, hA⟩, Or.inl ⟨?_, hend, hall⟩⟩
    simp only [hrun, carryOut, hok]
    rfl
  · rw [rest_initial] at hn
    refine ⟨n, last, A, ⟨hc, hn, hs, hA⟩, Or.inr ⟨halt, ?_, hend, hblame⟩⟩
    simp only [hrun, carryOut, herror]
    rfl

/-- A run over any graph that reports has come to a last state, from which there is no further
step. -/
theorem finished_spec (h : s.Usable) {report : Report}
    (hr : (s.run phases files).report = .ok report) :
    ∃ plan n last A, s.Follows phases files plan n last A ∧
      s.run phases files = s.ended (requestedPhases phases) last ∧
      report = s.reportOf (requestedPhases phases) last ∧
      last.step (s.setup plan) = .finished ∧
      ∀ p, (s.setup plan).Planned p → (A p).settled = true := by
  cases hcheck : checkExecutors s.executors s.graph (requestedPhases phases) with
  | error fault => simp [run, hcheck] at hr
  | ok _ =>
    cases hplan : s.graph.plan (requestedPhases phases) with
    | error fault => simp [run, hcheck, hplan] at hr
    | ok plan =>
      obtain ⟨n, last, A, hfollows, ⟨hrun, hend, hall⟩ | ⟨halt, hrun, -⟩⟩ :=
        follows_spec h hcheck hplan files
      · rw [hrun] at hr
        exact ⟨plan, n, last, A, hfollows, hrun, (Except.ok.inj hr).symm, hend, hall⟩
      · rw [hrun] at hr
        cases hr

/-- **A run over any graph that reports** has settled every pair of its plan. -/
theorem settled_spec (h : s.Usable) {report : Report}
    (hr : (s.run phases files).report = .ok report) :
    ∃ plan n last A, s.Follows phases files plan n last A ∧
      s.run phases files = s.ended (requestedPhases phases) last ∧
      report = s.reportOf (requestedPhases phases) last ∧
      ∀ p, (s.setup plan).Planned p → (A p).settled = true := by
  obtain ⟨plan, n, last, A, hfollows, hrun, hreport, -, hall⟩ := finished_spec h hr
  exact ⟨plan, n, last, A, hfollows, hrun, hreport, hall⟩

/-- **What a run leads to**: to a refusal, to a report on a last state in which every pair is
settled, or to a halt for which its last state is to blame. -/
theorem run_spec (h : s.Sound) (phases : List Phase) (files : Files) :
    (∃ fault, checkExecutors s.executors s.graph (requestedPhases phases) = .error fault ∧
        s.run phases files = ⟨.error (.executor fault), [], [], s, files, 0⟩) ∨
      (checkExecutors s.executors s.graph (requestedPhases phases) = .ok () ∧
        ∃ plan n last A, s.Carries phases files plan n last A ∧
          ((s.run phases files = s.ended (requestedPhases phases) last ∧
              last.step (s.setup plan) = .finished ∧
              ∀ p, (s.setup plan).Planned p → (A p).settled = true) ∨
            ∃ halt, s.run phases files = s.cutShort halt ∧
              Blamed (s.setup plan) (s.initial plan (requestedPhases phases) files) last
                halt)) := by
  obtain ⟨plan, hplan⟩ := exists_plan h (requestedPhases phases)
  cases hcheck : checkExecutors s.executors s.graph (requestedPhases phases) with
  | error fault =>
    refine Or.inl ⟨fault, rfl, ?_⟩
    simp only [run, hcheck]
  | ok _ =>
    obtain ⟨n, last, A, hfollows, hend⟩ := follows_spec h.usable hcheck hplan files
    exact Or.inr ⟨rfl, plan, n, last, A, ⟨hfollows, h.exists_built⟩,
      hend.imp_right fun ⟨halt, hrun, _, hblame⟩ => ⟨halt, hrun, hblame⟩⟩

/-- **A run that reports** has settled every pair. -/
theorem report_spec (h : s.Sound) {report : Report}
    (hr : (s.run phases files).report = .ok report) :
    ∃ plan n last A, s.Carries phases files plan n last A ∧
      s.run phases files = s.ended (requestedPhases phases) last ∧
      report = s.reportOf (requestedPhases phases) last ∧
      ∀ p, (s.setup plan).Planned p → (A p).settled = true := by
  rcases s.run_spec h phases files with ⟨fault, -, hrun⟩ |
    ⟨-, plan, n, last, A, hcarries, ⟨hrun, -, hall⟩ | ⟨halt, hrun, -⟩⟩
  · rw [hrun] at hr
    cases hr
  · rw [hrun] at hr
    exact ⟨plan, n, last, A, hcarries, hrun, (Except.ok.inj hr).symm, hall⟩
  · rw [hrun] at hr
    cases hr

/-- A sound scheduler is sound after a run that reports. -/
theorem Sound.ended (h : s.Sound) {plan : Plan} {n : Nat} {last : RunState} {A : Chart}
    (hc : s.Carries phases files plan n last A) :
    (s.ended (requestedPhases phases) last).scheduler.Sound :=
  ⟨h.built, hc.tied.shown.graph, h.workers⟩

end Scheduler

/-! ### A small stack -/

theorem exists_of_isOk {ε α : Type} {attempt : Except ε α} (h : attempt.isOk = true) :
    ∃ a, attempt = .ok a := by
  cases attempt with
  | ok a => exact ⟨a, rfl⟩
  | error fault => cases h

theorem exists_of_any {ε α : Type} {attempt : Except ε α} {f : α → Bool}
    (h : attempt.toOption.any f = true) : ∃ a, attempt = .ok a ∧ f a = true := by
  cases attempt with
  | ok a => exact ⟨a, rfl, h⟩
  | error fault => cases h

namespace Shop

def database : UnitDef :=
  ⟨"db", .service, none, [], [], .names [], none, none, none, [], []⟩

/-- An interface whose inputs refer to the address of the database. -/
def interface : UnitDef :=
  ⟨"api", .service, none, [("address", .text "self.service.db.output.address")], [], .names [],
    none, none, none, [], []⟩

def stack (services : List UnitDef) : Stack :=
  { name := "shop"
    version := "1"
    releaseName := some "blue"
    namespaceName := none
    watcher := Watcher.default
    executors := []
    services := services
    projects := [] }

def graph (services : List UnitDef) : Graph :=
  match Graph.ofStack (stack services) with
  | .ok g => g
  | .error _ => default

theorem ofStack_database : Graph.ofStack (stack [database]) = .ok (graph [database]) := by rfl

theorem ofStack_both :
    Graph.ofStack (stack [database, interface]) = .ok (graph [database, interface]) := by rfl

/-- An executor that gives the same answer for every unit, after some seconds. -/
def executor (timeout : Value) (seconds : Rat) (answer : Answer) : Executor :=
  ⟨timeout, some fun ctx files => { Reply.plain ctx files answer with seconds := seconds }⟩

/-- Executors that take so many seconds; deployments answer with an address. -/
def executors (seconds : Rat) : Executors :=
  [(.init, executor .null seconds (.succeeded none)),
    (.deploy, executor (.int 60) seconds
      (.succeeded (some [("address", .text "db:5432"), ("host", .text "db")])))]

/-- A scheduler that keeps its state in memory. -/
def scheduler (services : List UnitDef) (workers : Nat) (executors : Executors) : Scheduler :=
  { graph := graph services
    executors := executors
    store := ⟨none, "now"⟩
    command := "run"
    releaseName := "blue"
    maxWorkers := workers
    shownWorkers := .int workers
    forced := fun _ => []
    resolver := Resolver.start (graph services)
    fingerprints := []
    buildstate := Buildstate.empty "shop" }

end Shop

end Rollout
