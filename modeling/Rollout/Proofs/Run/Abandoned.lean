import Rollout.Proofs.Run.Halted
import Rollout.Proofs.Run.Repeated

/-!
# What an abandoned run leaves in its file

A run may be abandoned after any of its reports. Whatever has been reported by then, the file of the
stack holds the text of a state in which every pair that was reported to have succeeded is done. It
need not be the state of the run, since failures are noted there without a save; but a failure takes
no success back, neither that of another unit nor that of another phase of the same unit.

So the state that was saved last shows a chart of its own, an earlier one, whose settled pairs are
those that the chart of the run has kept. As long as no pair has succeeded, the file is what it was
before the run.

**Types.** `SucceededIn`, `Vouches`, `Backed`, `Durable`.

**Operations.** `Files.after`: the files at the moment of the last report.

**Results.**
* `Durable.move`: every move keeps the file behind the reports;
* `Scheduler.Follows.durable`, `Scheduler.exists_durable`: the reports of a run, until it ends or
  halts;
* `Scheduler.after_run`: the files after its last report are those that a run leaves;
* `successes_durable`: what is loaded after any of them.
-/

namespace Rollout

open RunState

variable {c : Setup} {requested : List Phase} {base s s' : RunState} {A A' B : Chart} {p : Pair}
  {path : FilePath} {files files' : Files} {told more : List Entry} {e : Entry}
  {saved : Buildstate}

/-! ### What stands behind the reports -/

/-- A journal says that a pair has succeeded. -/
def SucceededIn (journal : List Entry) (p : Pair) : Prop :=
  ∃ e ∈ journal, ∃ ms, e.progress = .succeeded p ms

theorem succeededIn_append : SucceededIn (told ++ more) p ↔
    SucceededIn told p ∨ SucceededIn more p := by
  simp only [SucceededIn, List.mem_append, or_and_right, exists_or]

theorem succeededIn_singleton : SucceededIn [e] p ↔ ∃ ms, e.progress = .succeeded p ms := by
  simp [SucceededIn]

@[simp] theorem not_succeededIn_nil : ¬SucceededIn [] p := by simp [SucceededIn]

/-- The files at the moment of the last report. -/
def Files.after (files : Files) (told : List Entry) : Files :=
  (told.getLast?.map Entry.files).getD files

@[simp] theorem Files.after_append_singleton (files : Files) (told : List Entry) (e : Entry) :
    files.after (told ++ [e]) = e.files := by
  simp [after]

/-- A saved state vouches for what has been reported: it is held under the path, and it shows a chart
in which all pairs that were reported to have succeeded have done so. -/
structure Vouches (path : FilePath) (base : RunState) (A : Chart) (told : List Entry)
    (files : Files) (saved : Buildstate) (B : Chart) : Prop where
  storable : saved.Storable
  held : files.Hold path saved
  record : ∀ fqn, saved.record? fqn = B.record? base.buildstate fqn
  settles : Settles B A
  successes : ∀ p, SucceededIn told p → (B p).saved = true

/-- What has been reported has a saved state behind it, unless no pair has succeeded yet and what is
found under the path has stayed as it was. -/
def Backed (path : FilePath) (base : RunState) (A : Chart) (told : List Entry) (files : Files) :
    Prop :=
  (files.item? path = base.files.item? path ∧ ∀ p, ¬SucceededIn told p) ∨
    ∃ saved B, Vouches path base A told files saved B

theorem Standing.settled_of_saved {st : Standing} (h : st.saved = true) : st.settled = true := by
  cases st <;> first | rfl | cases h

namespace Backed

/-- The run goes on. -/
theorem mono (h : Backed path base A told files) (hA : Settles A A') :
    Backed path base A' told files := by
  rcases h with hnone | ⟨saved, B, hsaved⟩
  · exact Or.inl hnone
  · exact Or.inr ⟨saved, B, { hsaved with settles := hsaved.settles.trans hA }⟩

/-- Nothing of a success is reported, and the path is left alone. -/
theorem quiet (h : Backed path base A told files) (hmore : ∀ p, ¬SucceededIn more p)
    (hf : files'.item? path = files.item? path) : Backed path base A (told ++ more) files' := by
  have hsame (p : Pair) : SucceededIn (told ++ more) p ↔ SucceededIn told p := by
    rw [succeededIn_append, or_iff_left (hmore p)]
  rcases h with ⟨hitem, hnone⟩ | ⟨saved, B, hsaved⟩
  · exact Or.inl ⟨hf.trans hitem, fun p hp => hnone p ((hsame p).mp hp)⟩
  · exact Or.inr ⟨saved, B, { hsaved with
      held := hsaved.held.congr hf
      successes := fun p hp => hsaved.successes p ((hsame p).mp hp) }⟩

/-- A pair that was reported to have succeeded has done so. -/
theorem saved_of_succeededIn (h : Backed path base A told files) (hp : SucceededIn told p) :
    (A p).saved = true := by
  rcases h with ⟨-, hnone⟩ | ⟨saved, B, hsaved⟩
  · exact absurd hp (hnone p)
  · have hB := hsaved.successes p hp
    rwa [hsaved.settles p (Standing.settled_of_saved hB)]

end Backed

/-- Everything that has been reported has a saved state behind it, at the moment of the last report
and at the moment of every earlier one. -/
structure Durable (path : FilePath) (base : RunState) (A : Chart) (journal : List Entry)
    (files : Files) : Prop where
  now : Backed path base A journal files
  before : ∀ told, told <+: journal → Backed path base A told (base.files.after told)

namespace Durable

theorem start (path : FilePath) (base : RunState) (A : Chart) :
    Durable path base A [] base.files := by
  have hstart : Backed path base A [] base.files := Or.inl ⟨rfl, fun p => not_succeededIn_nil⟩
  refine ⟨hstart, fun told htold => ?_⟩
  obtain rfl := List.prefix_nil.mp htold
  exact hstart

theorem mono (h : Durable path base A told files) (hA : Settles A A') :
    Durable path base A' told files :=
  ⟨h.now.mono hA, fun front hfront => (h.before front hfront).mono hA⟩

/-- The path is left alone. -/
theorem left (h : Durable path base A told files) (hf : files'.item? path = files.item? path) :
    Durable path base A told files' := by
  have hnow : Backed path base A (told ++ []) files' :=
    h.now.quiet (fun p => not_succeededIn_nil) hf
  rw [List.append_nil] at hnow
  exact ⟨hnow, h.before⟩

/-- Another report comes, with a saved state behind it. -/
theorem tell (h : Durable path base A told files)
    (he : Backed path base A (told ++ [e]) e.files) :
    Durable path base A (told ++ [e]) e.files := by
  refine ⟨he, fun front hfront => ?_⟩
  rcases List.prefix_concat_iff.mp hfront with rfl | hfront
  · rw [Files.after_append_singleton]
    exact he
  · exact h.before front hfront

/-- Nothing of a success is reported, and the path is left alone. -/
theorem quiet (h : Durable path base A told files) (hmore : ∀ e ∈ more,
    e.files.item? path = files.item? path ∧ ∀ p ms, e.progress ≠ .succeeded p ms) :
    Durable path base A (told ++ more) files := by
  -- from the end, since every report comes on top of those before it
  induction more using List.reverseRecOn with
  | nil => rwa [List.append_nil]
  | append_singleton more e ih =>
    obtain ⟨hmore, he⟩ := List.forall_mem_append.mp hmore
    obtain ⟨hitem, hnone⟩ := he e (List.mem_singleton_self e)
    have hdurable := ih hmore
    rw [← List.append_assoc]
    refine (hdurable.tell (hdurable.now.quiet (fun p hp => ?_) hitem)).left hitem.symm
    obtain ⟨ms, hms⟩ := succeededIn_singleton.mp hp
    exact hnone p ms hms

/-- Something other than a success is reported. -/
theorem report (h : Durable path base A told files) (progress : Progress)
    (hnone : ∀ p ms, progress ≠ .succeeded p ms) :
    Durable path base A (told ++ [⟨progress, files⟩]) files := by
  refine h.quiet fun e he => ?_
  rw [List.mem_singleton.mp he]
  exact ⟨rfl, hnone⟩

theorem publish (h : Durable path base A told files) (fqn : String) (outputs : Option Entries) :
    Durable path base A (told ++ publication fqn outputs files) files := by
  cases outputs with
  | none =>
    change Durable path base A (told ++ []) files
    rwa [List.append_nil]
  | some entries => exact h.report _ nofun

/-- **Every move** keeps a saved state behind the reports. -/
theorem move (hc : c.Checked requested) {folder : FilePath}
    (hfolder : c.store.folder? = some folder)
    (hleave : c.executors.Leave (Store.pathIn folder c.graph.stackName))
    (hb : s.buildstate.Storable) (ht : Tied c base A s) (hm : Move c base s s')
    (h : Durable (Store.pathIn folder c.graph.stackName) base A s.journal s.files) :
    ∃ A', Tied c base A' s' ∧
      Durable (Store.pathIn folder c.graph.stackName) base A' s'.journal s'.files := by
  have hstorable := hb.move hm
  obtain ⟨A', ht', hsettles, -⟩ := ht.move hc hm
  have h' := h.mono hsettles
  cases hm with
  | skip hp hv => exact ⟨A', ht', h'.report _ nofun⟩
  | miss hp hv => exact ⟨A', ht', h'.report _ nofun⟩
  | @reuse x rest digest outputs hp hv =>
    exact ⟨A', ht', (h'.report (.reused x digest) nofun).publish x.fqn outputs⟩
  | ready hp hv => exact ⟨A', ht', h'⟩
  | @start item rest n timeout work ctx hr hw hn he hctx =>
    exact ⟨A', ht', (h'.report (.started item.pair) nofun).left (hleave _ _ _ he _ _)⟩
  | @succeed call task given snapshot outputs hcall hrun hintime ha hg written hsave =>
    obtain ⟨ctx, hA, hsucceeded⟩ := ht.succeeded hc hcall hrun hintime ha hg
    have hheld := Store.hold_save hfolder hsave
    have hpublished := (h.mono (settles_update (by rw [hA]; rfl)
      (.succeeded task.fingerprint ctx snapshot outputs))).publish call.pair.fqn outputs
    -- the state that is saved vouches for this success and for all earlier ones
    refine ⟨_, hsucceeded, hpublished.tell (Or.inr ⟨_, _, hstorable, hheld,
      hsucceeded.shown.record, fun _ _ => rfl, fun q hq => ?_⟩)⟩
    rcases succeededIn_append.mp hq with hq | hq
    · exact hpublished.now.saved_of_succeededIn hq
    · obtain ⟨ms, hms⟩ := succeededIn_singleton.mp hq
      obtain ⟨rfl, -⟩ := Progress.succeeded.inj hms
      rw [Function.update_self]
      rfl
  | fail hcall hrun hintime ha => exact ⟨A', ht', h'.report _ nofun⟩
  | timeout hrun hd hlate => exact ⟨A', ht', h'.report _ nofun⟩
  | late ha => exact ⟨A', ht', h'⟩

end Durable

/-! ### What is loaded -/

theorem Standing.exists_of_saved {st : Standing} (h : st.saved = true) :
    ∃ digest ctx snapshot outputs, st = .succeeded digest ctx snapshot outputs := by
  cases st with
  | succeeded digest ctx snapshot outputs => exact ⟨digest, ctx, snapshot, outputs, rfl⟩
  | _ => cases h

/-- Deployments have strict outputs if executors do. -/
theorem Tied.strict_of_deployed {last : RunState} (h : Tied c base A last)
    (hstrict : c.executors.Strict) {digest : String} {ctx : UnitContext} {snapshot : Option Value}
    {outputs : Option Entries} (hA : A p = .succeeded digest ctx snapshot outputs)
    (hd : p.phase = .deploy) :
    ∃ entries, outputs = some entries ∧ (Value.map entries).IsStrict := by
  obtain ⟨t, -, hfits⟩ := h.fit p
  rw [hA] at hfits
  obtain ⟨-, reply, given, hreturned, ha, hg⟩ := hfits
  rw [gain, if_pos hd] at hg
  obtain ⟨keys, -, hsame⟩ := eq_ok_of_map hg
  exact ⟨_, (Prod.mk.inj hsame).2.symm, hstrict.completed hreturned ha⟩

/-- **What is read again** of a state that vouches for the success of a pair has the pair as
current, under the fingerprint that the run has given it, and the outputs of a deployment. -/
theorem Vouches.success (h : Vouches path base A told files saved B) {last : RunState}
    (ht : Tied c base A last) (hstrict : c.executors.Strict) {b : Buildstate}
    (hb : saved.Reloaded b) (hp : SucceededIn told p) :
    ∃ digest ctx snapshot outputs, A p = .succeeded digest ctx snapshot outputs ∧
      b.isCurrent p.fqn p.phase digest = true ∧
      (p.phase = .deploy → ∃ entries r, outputs = some entries ∧ b.record? p.fqn = some r ∧
        (Value.map r.outputs).Alike (Value.map entries)) := by
  have hsaved := h.successes p hp
  obtain ⟨digest, ctx, snapshot, outputs, hB⟩ := Standing.exists_of_saved hsaved
  have hA : A p = .succeeded digest ctx snapshot outputs := by
    rw [h.settles p (Standing.settled_of_saved hsaved), hB]
  refine ⟨digest, ctx, snapshot, outputs, hA, ?_, fun hd => ?_⟩
  · have hcurrent := B.isCurrent_record? base.buildstate p digest
    rw [hB, ← h.record] at hcurrent
    rw [← hb.isCurrent, Buildstate.isCurrent_eq_any, hcurrent]
    exact beq_self_eq_true digest
  · obtain ⟨entries, rfl, hentries⟩ := ht.strict_of_deployed hstrict hA hd
    obtain ⟨fqn, phase⟩ := p
    obtain rfl : phase = .deploy := hd
    obtain ⟨r, hr⟩ := B.exists_record?_of_deployed base.buildstate hB
    have hrecord := hb.record fqn
    rw [h.record, hr] at hrecord
    generalize b.record? fqn = found at hrecord
    cases hrecord with
    | @some r₁ r' hr' =>
      refine ⟨entries, r', rfl, rfl, ?_⟩
      rw [hr'.outputs]
      exact hentries.alike_reread.symm

/-- What is known about a pair that has succeeded is known at the end of the run. -/
theorem RunState.Trails.success {last t : RunState} (h : Trails A last t) (ht : Tied c base A last)
    {digest : String} {ctx : UnitContext} {snapshot : Option Value} {outputs : Option Entries}
    (hA : A p = .succeeded digest ctx snapshot outputs) :
    Table.get? p t.fingerprints = some digest ∧
      (∃ o, Table.get? p last.outcomes = some o ∧ o.fingerprint = some digest) ∧
      (p.phase = .deploy → ∀ entries, outputs = some entries →
        t.resolver.outputs? p.fqn = some entries) := by
  refine ⟨?_, ?_, ?_⟩
  · refine (h.fingerprints p (by rw [hA]; rfl)).trans ?_
    rw [ht.shown.fingerprint, hA]
    rfl
  · obtain ⟨o, ho, hout⟩ := ht.shown.exists_outcome (p := p) (ht.shown.planned_of_ne (by simp [hA]))
    refine ⟨o, ho, ?_⟩
    rw [Outcome.eq_of_untimed hout, hA]
    rfl
  · rintro hd entries rfl
    obtain ⟨fqn, phase⟩ := p
    obtain rfl : phase = .deploy := hd
    refine h.outputs fqn entries ?_
    rw [ht.shown.outputs, hA]
    rfl

/-! ### Whole runs -/

namespace Scheduler

variable {sched : Scheduler} {phases : List Phase} {plan : Plan} {n : Nat} {last : RunState}
  {folder : FilePath}

/-- **At the last state of a run** everything that has been reported has a saved state behind it. -/
theorem Follows.durable (h : sched.Follows phases files plan n last A) (husable : sched.Usable)
    (hfolder : sched.store.folder? = some folder)
    (hleave : sched.executors.Leave (Store.pathIn folder sched.graph.stackName))
    (hb : sched.buildstate.Storable) :
    ∃ A, Tied (sched.setup plan) (sched.initial plan (requestedPhases phases) files) A last ∧
      Durable (Store.pathIn folder sched.graph.stackName)
        (sched.initial plan (requestedPhases phases) files) A last.journal last.files := by
  have hstart := tied_initial h.checked (requestedPhases phases) files husable.resolver
  have hkept := h.steps.keeps h.checked (P := fun s => s.buildstate.Storable ∧
    ∃ A, Tied (sched.setup plan) (sched.initial plan (requestedPhases phases) files) A s ∧
      Durable (Store.pathIn folder sched.graph.stackName)
        (sched.initial plan (requestedPhases phases) files) A s.journal s.files) ?_ ?_
    hstart timely_initial ?_
  · exact hkept.2
  · rintro s t ⟨hstorable, A, htied, hdurable⟩
    exact ⟨hstorable, A, htied.tick t, hdurable⟩
  · rintro - s s' - hm ⟨hstorable, A, htied, hdurable⟩
    exact ⟨hstorable.move hm, hdurable.move h.checked hfolder hleave hstorable htied hm⟩
  · exact ⟨⟨⟨hb.units, hb.fingerprints⟩, hb.version, hb.mapped⟩, _, hstart,
      (Durable.start _ (sched.initial plan (requestedPhases phases) files) _).report _ nofun⟩

/-- A run that reports something has passed the checks. -/
theorem checked_of_journal (h : (sched.run phases files).journal ≠ []) :
    checkExecutors sched.executors sched.graph (requestedPhases phases) = .ok () ∧
      ∃ plan, sched.graph.plan (requestedPhases phases) = .ok plan := by
  cases hcheck : checkExecutors sched.executors sched.graph (requestedPhases phases) with
  | error fault => simp [run, hcheck] at h
  | ok _ =>
    cases hplan : sched.graph.plan (requestedPhases phases) with
    | error fault => simp [run, hcheck, hplan] at h
    | ok plan => exact ⟨rfl, plan, rfl⟩

/-- **The reports of a run** that passes the checks have saved states behind them, even if the run
halts. What has settled in its last state is what the run leaves. -/
theorem exists_durable (husable : sched.Usable) (hfolder : sched.store.folder? = some folder)
    (hleave : sched.executors.Leave (Store.pathIn folder sched.graph.stackName))
    (hb : sched.buildstate.Storable)
    (hcheck : checkExecutors sched.executors sched.graph (requestedPhases phases) = .ok ())
    (hplan : sched.graph.plan (requestedPhases phases) = .ok plan) (files : Files) :
    ∃ last A t,
      Tied (sched.setup plan) (sched.initial plan (requestedPhases phases) files) A last ∧
      Trails A last t ∧ (sched.run phases files).scheduler = sched.keep t ∧
      (∀ report, (sched.run phases files).report = .ok report →
        report = sched.reportOf (requestedPhases phases) last) ∧
      Durable (Store.pathIn folder sched.graph.stackName)
        (sched.initial plan (requestedPhases phases) files) A (sched.run phases files).journal
        last.files := by
  obtain ⟨n, last, B, t, hfollows, hjournal, hkeep, htrails, hreport⟩ :=
    closes husable hcheck hplan files
  obtain ⟨A, htied, hdurable⟩ := hfollows.durable husable hfolder hleave hb
  obtain ⟨more, hmore, hquiet⟩ := (htrails A htied).journal
  refine ⟨last, A, t, htied, htrails A htied, hkeep, hreport, ?_⟩
  rw [hjournal, hmore]
  exact hdurable.quiet fun e he => ⟨by rw [(hquiet e he).1], (hquiet e he).2⟩

/-- After all its reports, the files are those that a run leaves. -/
theorem after_run (husable : sched.Usable) {report : Report}
    (hr : (sched.run phases files).report = .ok report) :
    files.after (sched.run phases files).journal = (sched.run phases files).files := by
  obtain ⟨plan, n, last, A, hfollows, hrun, -⟩ := settled_spec husable hr
  rw [hrun]
  exact Files.after_append_singleton files last.journal _

end Scheduler

/-- **Successes are durable.** A scheduler over any graph has a state that can be stored, and keeps
it in a file; executors leave the file alone and return JSON documents with finite numbers. The run
may be abandoned after any of its reports, also after some of those of a run that halts, since a save
has failed or for another reason. Then a state is loaded from the file; only as long as no pair has
been reported to have succeeded, this takes a file from which a state could be loaded before the run.

Every pair that was reported to have succeeded is current in this state, under the fingerprint that
the run has given it, which is the one in its outcome; and the state holds the outputs that were
recorded for a deployment, up to the order of keys. It does not matter what becomes of the other
pairs. -/
theorem successes_durable {sched : Scheduler} (husable : sched.Usable)
    (hstate : sched.buildstate.Storable) {folder : FilePath}
    (hfolder : sched.store.folder? = some folder)
    (hleave : sched.executors.Leave (Store.pathIn folder sched.graph.stackName))
    (hstrict : sched.executors.Strict) {files : Files} {phases : List Phase} {told : List Entry}
    (htold : told <+: (sched.run phases files).journal)
    (hfirst : (∀ p, ¬SucceededIn told p) →
      ∃ b₀, sched.store.load sched.graph.stackName files = .ok b₀) :
    ∃ b, sched.store.load sched.graph.stackName (files.after told) = .ok b ∧
      ∀ p, SucceededIn told p → ∃ digest,
        b.isCurrent p.fqn p.phase digest = true ∧
        Table.get? p (sched.run phases files).scheduler.fingerprints = some digest ∧
        (∀ report, (sched.run phases files).report = .ok report →
          ∃ o, Table.get? p report.pairs = some o ∧ o.fingerprint = some digest) ∧
        (p.phase = .deploy → ∃ outputs r,
          (sched.run phases files).scheduler.resolver.outputs? p.fqn = some outputs ∧
          b.record? p.fqn = some r ∧ (Value.map r.outputs).Alike (Value.map outputs)) := by
  rcases eq_or_ne told [] with rfl | hsome
  · obtain ⟨b₀, hload⟩ := hfirst fun p => not_succeededIn_nil
    exact ⟨b₀, hload, fun p hp => absurd hp not_succeededIn_nil⟩
  · obtain ⟨hcheck, plan, hplan⟩ := Scheduler.checked_of_journal (htold.ne_nil hsome)
    obtain ⟨last, A, t, htied, htrails, hkeep, hreport, hdurable⟩ :=
      Scheduler.exists_durable husable hfolder hleave hstate hcheck hplan files
    rcases hdurable.before told htold with ⟨hitem, hnone⟩ | ⟨saved, B, hsaved⟩
    · obtain ⟨b₀, hload⟩ := hfirst hnone
      exact ⟨b₀, (Store.load_congr hfolder hitem).trans hload, fun p hp => absurd hp (hnone p)⟩
    · obtain ⟨b, hload, -⟩ := Store.exists_load hfolder hsaved.storable hsaved.held
      have hreloaded := Store.reloaded_of_load hfolder hsaved.held hsaved.storable.toDistinct hload
      refine ⟨b, hload, fun p hp => ?_⟩
      obtain ⟨digest, ctx, snapshot, outputs, hA, hcurrent, hdeployed⟩ :=
        hsaved.success htied hstrict hreloaded hp
      obtain ⟨hfingerprint, ⟨o, ho, hout⟩, hrecorded⟩ := htrails.success htied hA
      rw [hkeep]
      refine ⟨digest, hcurrent, hfingerprint, fun report hr => ?_, fun hd => ?_⟩
      · rw [hreport report hr]
        exact ⟨o, ho, hout⟩
      · obtain ⟨entries, r, hentries, hr, halike⟩ := hdeployed hd
        exact ⟨entries, r, hrecorded hd entries hentries, hr, halike⟩

/-- The success of the database is reported in the shop. -/
theorem Shop.reports_database : (((keeping [database] (Buildstate.empty "shop")).run [.deploy]
    bare).journal.any fun e => match e.progress with
      | .succeeded p _ => p == ⟨"shop.service.db", .deploy⟩
      | _ => false) = true := by
  decide +kernel

/-- In the shop the deployment of the database is loaded after all reports, from the files that the
run leaves. -/
theorem successes_durable_shop : ∃ (sched : Scheduler) (folder : FilePath) (b₀ b : Buildstate)
    (told : List Entry) (digest : String) (outputs : Entries) (r : UnitRecord),
    sched.Usable ∧ sched.buildstate.Storable ∧ sched.store.folder? = some folder ∧
    sched.executors.Leave (Store.pathIn folder sched.graph.stackName) ∧ sched.executors.Strict ∧
    told <+: (sched.run [.deploy] Shop.bare).journal ∧
    Shop.bare.after told = (sched.run [.deploy] Shop.bare).files ∧
    sched.store.load sched.graph.stackName Shop.bare = .ok b₀ ∧
    SucceededIn told ⟨"shop.service.db", .deploy⟩ ∧
    sched.store.load sched.graph.stackName (Shop.bare.after told) = .ok b ∧
    b.isCurrent "shop.service.db" .deploy digest = true ∧
    Table.get? ⟨"shop.service.db", .deploy⟩
      (sched.run [.deploy] Shop.bare).scheduler.fingerprints = some digest ∧
    (sched.run [.deploy] Shop.bare).scheduler.resolver.outputs? "shop.service.db" =
      some outputs ∧
    b.record? "shop.service.db" = some r ∧ (Value.map r.outputs).Alike (Value.map outputs) := by
  obtain ⟨husable, -⟩ := Scheduler.usable_create Shop.create_keeping
  have hstate := Buildstate.storable_empty "shop"
  have hfolder : Shop.kept.folder? = some ((Shop.kept.folder?).getD default) := rfl
  have hleave : (Shop.executors 7).Leave (Store.pathIn ((Shop.kept.folder?).getD default)
      (Shop.graph [Shop.database]).stackName) := by
    intro p timeout work he ctx files
    cases p with
    | build => cases he
    | _ =>
      cases he
      rfl
  have hfirst : Shop.kept.load (Shop.graph [Shop.database]).stackName Shop.bare =
      .ok (Buildstate.empty "shop") := by rfl
  obtain ⟨report, hr, -⟩ := exists_of_any Shop.deploys_addressed.1
  have hafter := Scheduler.after_run husable hr
  have hsucceeded : SucceededIn ((Shop.keeping [Shop.database] (Buildstate.empty "shop")).run
      [.deploy] Shop.bare).journal ⟨"shop.service.db", .deploy⟩ := by
    obtain ⟨e, he, hmatch⟩ := List.any_eq_true.mp Shop.reports_database
    split at hmatch
    · rename_i p ms hprogress
      rw [beq_iff_eq] at hmatch
      subst hmatch
      exact ⟨e, he, ms, hprogress⟩
    · cases hmatch
  obtain ⟨b, hb, hkept⟩ := successes_durable husable hstate hfolder hleave (Shop.strict_executors 7)
    (List.prefix_refl _) fun _ => ⟨_, hfirst⟩
  obtain ⟨digest, hcurrent, hfingerprint, -, hdeployed⟩ := hkept _ hsucceeded
  obtain ⟨outputs, r, houtputs, hr, halike⟩ := hdeployed rfl
  exact ⟨_, _, _, b, _, digest, outputs, r, husable, hstate, hfolder, hleave,
    Shop.strict_executors 7, List.prefix_refl _, hafter, hfirst, hsucceeded, hb, hcurrent,
    hfingerprint, houtputs, hr, halike⟩

end Rollout
