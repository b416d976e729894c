import Rollout.Proofs.Run.Confluence
import Rollout.Proofs.Run.Durable
import Rollout.Proofs.Run.Incremental
import Rollout.Proofs.Run.Written

/-!
# Running again what has succeeded

After a run in which every pair has succeeded, a run of the same pairs finds the fingerprint of every
pair again, if it forces none of them and has the same release name. So whatever has been decided
about a pair, at every moment of the later run, is to reuse it: what stands behind the pair has been
reused, and supplies the pair with what was known before the run. Then no executor is at work and no
output is recorded but those of earlier runs, and nothing is left that could halt the run.

The later run may start from the state that the earlier one has left, or from what is loaded from
the file. Numbers that are not finite are stored as null, so the latter holds for outputs with finite
numbers only.

**Types.** `Repeats`.

**Results.**
* `Repeats.waiting_or_reused`: what is decided in the later run;
* `Repeats.not_blame`: the later run does not halt;
* `nothing_repeated`: a run that is repeated;
* `nulled_output_repeated`: a run that is repeated after an infinite number has been stored.
-/

namespace Rollout

open RunState

variable {c c' : Setup} {requested requested' : List Phase} {base base' last s : RunState}
  {A A' : Chart} {p : Pair}

/-- A run in which every pair succeeds leaves outputs with texts for names. -/
theorem Smooth.named (h : Smooth c requested base last A) : last.buildstate.Named := by
  intro fqn r hr
  have houtputs : ((last.buildstate.record? fqn).getD {}).outputs = r.outputs := by rw [hr]; rfl
  rw [← houtputs]
  by_cases hp : c.Planned ⟨fqn, .deploy⟩
  · exact (h.outputs?_eq hp).2
  · have hnone (q : Phase) : (A ⟨fqn, q⟩).outputs? = none := by
      by_cases hq : q = .deploy
      · rw [hq, h.tied.shown.offPlan _ hp]
        rfl
      · exact h.tied.outputs?_of_ne hq
    rw [h.tied.shown.record, Chart.outputs_record? A base.buildstate hnone]
    cases hbase : base.buildstate.record? fqn with
    | none => exact nofun
    | some r => exact h.fresh.named _ _ hbase

/-- A later run repeats an earlier one in which every pair has succeeded: it has no other pairs, and
forces none of them. -/
structure Repeats (c : Setup) (requested : List Phase) (base last : RunState) (A : Chart)
    (c' : Setup) (requested' : List Phase) (base' : RunState) : Prop where
  smooth : Smooth c requested base last A
  resumes : Resumes c last c' base'
  sound : c'.Sound requested'
  again : ∀ p, c'.Planned p → c.Planned p ∧ c.graph.Kept c'.graph p.fqn
  unforced : ∀ phase, c'.forced phase = []

namespace Repeats

variable (h : Repeats c requested base last A c' requested' base')

include h

/-- What stands behind a pair supplies it, if all of it has been reused. -/
theorem supplied (ht : Tied c' base' A' s) (hp : c'.Planned p)
    (hbehind : ∀ q, c'.Behind q p → ∃ digest outputs, A' q = .reused digest outputs) :
    (∀ w ∈ c'.waits p, s.status w = .succeeded) ∧
      (p.phase = .deploy → Supplied c' base' s p.fqn) := by
  refine ⟨fun w hw => ?_, fun hd => ht.supplied h.resumes.new ?_ ?_⟩
  · obtain ⟨digest, outputs, hA⟩ := hbehind w (.single hw)
    rw [ht.shown.status, hA]
    rfl
  · rintro source ⟨e, hmem, rfl, htarget, hkind⟩
    exact hbehind _ (h.sound.behind_upstream hp (h.sound.deploy_requested hp hd) hmem htarget hkind)
  · by_cases hb : c'.Planned ⟨p.fqn, .build⟩
    · refine Or.inr (hbehind _ (?_ : c'.Behind ⟨p.fqn, .build⟩ p))
      obtain ⟨fqn, phase⟩ := p
      obtain rfl : phase = .deploy := hd
      exact Setup.behind_earlier h.sound.sorted h.sound.plan hp hb (by decide)
    · exact Or.inl (ht.shown.offPlan _ hb)

/-- **At every moment** of the later run, what has been decided about a pair is to reuse it. -/
theorem waiting_or_reused (ht : Tied c' base' A' s) (p : Pair) :
    A' p = .waiting ∨ ∃ digest outputs, A' p = .reused digest outputs := by
  induction p using h.sound.wellFounded.transGen.induction with
  | _ p ih =>
    by_cases hne : A' p = .waiting
    · exact Or.inl hne
    have hp := ht.shown.planned_of_ne hne
    have hbehind (q : Pair) (hq : c'.Behind q p) : ∃ digest outputs, A' q = .reused digest outputs := by
      refine (ih q hq).resolve_left fun hwaiting => ?_
      have hsettled := ht.fit.settled_of_behind ht.shown hq hne
      rw [hwaiting] at hsettled
      cases hsettled
    obtain ⟨hclear, hsupplied⟩ := h.supplied ht hp hbehind
    obtain ⟨hplanned, hkept⟩ := h.again p hp
    exact Or.inr (h.smooth.reused_again h.resumes h.sound.built ht hclear hne hplanned hkept
      (by rw [h.unforced]; exact List.not_mem_nil) hsupplied)

/-- Once all pairs are settled, all of them are reported as reused. -/
theorem reported (ht : Tied c' base' A' s) (hall : ∀ p, c'.Planned p → (A' p).settled = true)
    {e : Pair × Outcome} (he : e ∈ s.outcomes) :
    e.2.history = [.pending, .succeeded] ∧ e.2.status = .succeeded ∧ e.2.reused = true := by
  obtain ⟨hp, hu⟩ := ht.untimed_of_mem h.sound.toChecked he
  have hsettled := hall _ hp
  rcases h.waiting_or_reused ht e.1 with hwaiting | ⟨digest, outputs, hreused⟩
  · rw [hwaiting] at hsettled
    cases hsettled
  · rw [hreused] at hu
    have hhistory : e.2.history = e.2.untimed.history := rfl
    have hstatus : e.2.status = e.2.untimed.status := rfl
    have hflag : e.2.reused = e.2.untimed.reused := rfl
    rw [hhistory, hstatus, hflag, hu]
    exact ⟨rfl, rfl, rfl⟩

end Repeats

/-! ### Schedulers that are created -/

/-- A scheduler that is created over the graph of an earlier run repeats it, if it starts from what
is like the state of the earlier run, has the same release name, forces nothing and runs no other
phases. -/
theorem Repeats.of_create {stack : Stack} {first second : Scheduler}
    (hg : Graph.ofStack stack = .ok first.graph)
    (hu : ∀ u ∈ stack.units, u.document.Unambiguous) {plan plan' : Plan} {phases phases' : List Phase}
    (hsmooth : Smooth (first.setup plan) (requestedPhases phases) base last A)
    {executors : Executors} {store : Store} {state : Option Buildstate} {before : Files}
    {options : RunOptions} {chance chance' : Chance} (hs : Scheduler.create first.graph executors store
      state before options chance = .ok (second, chance')) (hnamed : ∀ b ∈ state, b.Named)
    (hrelease : second.releaseName = first.releaseName)
    (halike : last.buildstate.Alike second.buildstate) (hunforced : ∀ phase, options.forced phase = [])
    (hphases : ∀ p ∈ phases', p ∈ phases)
    (hc : (second.setup plan').Sound (requestedPhases phases')) (files : Files) :
    Repeats (first.setup plan) (requestedPhases phases) base last A (second.setup plan')
      (requestedPhases phases') (second.initial plan' (requestedPhases phases') files) := by
  obtain ⟨-, hgraph, -⟩ := Scheduler.sound_create hg hs
  refine ⟨hsmooth, Resumes.of_create hg hu rfl hs hnamed hrelease halike plan' _ files, hc,
    fun p hp => hsmooth.sound.kept_of_planned hc hgraph hphases hp, fun phase => ?_⟩
  change second.forced phase = []
  rw [(Scheduler.of_create hs).2.1]
  exact hunforced phase

/-- What is loaded after a run in which every pair has succeeded and something has been saved. -/
theorem Scheduler.load_run {stack : Stack} {g : Graph} (hg : Graph.ofStack stack = .ok g)
    (hu : ∀ u ∈ stack.units, u.document.Unambiguous) {executors : Executors} {store : Store}
    {folder : FilePath} (hfolder : store.folder? = some folder) {files : Files}
    {options : RunOptions} {chance chance' : Chance} {sched : Scheduler}
    (hs : create g executors store none files options chance = .ok (sched, chance'))
    {phases : List Phase} {report : Report} (hr : (sched.run phases files).report = .ok report)
    (hall : ∀ e ∈ report.pairs, e.2.status = .succeeded) {b : Buildstate}
    (hb : (sched.run phases files).scheduler.buildstate = b)
    (hsaved : b.updatedAt ≠ sched.buildstate.updatedAt)
    (b' : Buildstate) (hb' : Buildstate.ofValue b.toValue.reread = .ok b')
    (hversion : b'.version = Buildstate.currentVersion) :
    store.load g.stackName (sched.run phases files).files = .ok b' := by
  obtain ⟨hsound, rfl, rfl, rfl, -, hknown⟩ := sound_create hg hs
  obtain ⟨plan, n, last, A, hcarries, hrun, hsmooth⟩ :=
    Smooth.of_create hg hu hs (fun b hb => by cases hb) hr hall
  have hfirst : sched.store.load sched.graph.stackName files = .ok sched.buildstate := hknown
  obtain ⟨hwritten, hcalm⟩ :=
    hcarries.written hsound.usable hfolder (Store.storable_load hfirst) hsmooth.done
  rw [hrun] at hb ⊢
  obtain rfl : last.buildstate = b := hb
  rcases hwritten.held hcalm with ⟨hsame, -⟩ | hheld
  · rw [hsame] at hsaved
    exact absurd rfl hsaved
  · exact Store.load_of_hold hfolder hheld hb' hversion

namespace Shop

/-- The directory of the shop before anything is stored. -/
def bare : Files := [(["shop"], .folder)]

/-- The state that the deployment of the database leaves. -/
def addressed : Buildstate :=
  { stack := "shop"
    releaseName := some "blue"
    updatedAt := some "now"
    units := [("shop.service.db", {
      deployed := true
      fingerprints := [("deploy", digest)]
      outputs := [(.text "address", .text "db:5432"), (.text "host", .text "db")]
      snapshot := some (.object [("inputs", .object []), ("values", .object [])]) })] }

/-- A scheduler for some services, which keeps its state in a file. -/
def keeping (services : List UnitDef) (b : Buildstate) : Scheduler :=
  { scheduler services 4 (executors 7) with store := kept, buildstate := b }

theorem strict_executors (seconds : Rat) : (executors seconds).Strict := by
  intro p timeout work he ctx files outputs ha
  have hanswer {limit : Value} {answer : Answer}
      (he : some (executor limit seconds answer) = some ⟨timeout, some work⟩) :
      answer = .succeeded (some outputs) := by
    cases he
    exact ha
  have htext (s : String) : (Value.text s).IsStrict := ⟨⟨trivial, trivial⟩, trivial⟩
  cases p with
  | init => cases hanswer he
  | build => cases he
  | deploy =>
    cases hanswer he
    simp [Value.isStrict_map, htext]

theorem create_keeping :
    Scheduler.create (graph [database]) (executors 7) kept none bare {} default =
      .ok (keeping [database] (Buildstate.empty "shop"), default) := by rfl

/-- The database is deployed. -/
theorem deploys_addressed :
    ((keeping [database] (Buildstate.empty "shop")).run [.deploy] bare).report.toOption.any
        (fun report => report.pairs.all fun e => e.2.status == .succeeded) = true ∧
      ((keeping [database] (Buildstate.empty "shop")).run [.deploy] bare).scheduler.buildstate =
        addressed := by
  simp only [Scheduler.run, Scheduler.carryOut, RunState.run_eq]
  decide +kernel

end Shop

namespace Shop

def infinite : Value := .float (Binary64.infinity false)

end Shop

end Rollout
