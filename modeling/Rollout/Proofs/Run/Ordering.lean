import Rollout.Proofs.Run.Scheduled

/-!
# The order in which pairs are started

The journal of a run tells when pairs are started and when they are completed, that is, succeed or
are reused. A pair is started once, not after it has been completed, and only after everything
behind it has been completed. This holds at every moment of a run, and so also of the journals of
runs that halt.

**Types.** `Entry.Completes`, `Completed`, `WellOrdered`, `Recorded`.

**Results.** `started_after_prerequisites`: in the journal of a run, a start comes after the
completion of the earlier phases of its unit, of the gates of all edges to its unit, and of the
deployments that its unit refers to; and the executors of two phases of one unit are never at work
at the same time.
-/

namespace Rollout

open RunState

/-- An entry says that a pair has succeeded or is reused. -/
def Entry.Completes (e : Entry) (p : Pair) : Prop :=
  (∃ ms, e.progress = .succeeded p ms) ∨ ∃ digest, e.progress = .reused p digest

/-- A journal says that a pair has succeeded or is reused. -/
def Completed (journal : List Entry) (p : Pair) : Prop := ∃ e ∈ journal, e.Completes p

/-- A journal says that a pair has been started. -/
def StartedIn (journal : List Entry) (p : Pair) : Prop := ∃ e ∈ journal, e.progress = .started p

/-- In a journal every pair is started at most once, before it is completed and after everything
behind it has been completed. -/
def WellOrdered (c : Setup) (journal : List Entry) : Prop :=
  ∀ pre e post p, journal = pre ++ e :: post → e.progress = .started p →
    c.Planned p ∧ ¬StartedIn pre p ∧ ¬Completed pre p ∧ ∀ q, c.Behind q p → Completed pre q

/-- The journal of a state is well-ordered and says of every pair whether it has been completed,
and nothing of a start that is still to come. -/
structure Recorded (c : Setup) (s : RunState) : Prop where
  ordered : WellOrdered c s.journal
  completed : ∀ p, Completed s.journal p ↔ s.status p = .succeeded
  started : ∀ p, s.status p = .pending ∨ s.status p = .ready → ¬StartedIn s.journal p

theorem completed_append {journal more : List Entry} {p : Pair} :
    Completed (journal ++ more) p ↔ Completed journal p ∨ Completed more p := by
  simp only [Completed, List.mem_append, or_and_right, exists_or]

theorem startedIn_append {journal more : List Entry} {p : Pair} :
    StartedIn (journal ++ more) p ↔ StartedIn journal p ∨ StartedIn more p := by
  simp only [StartedIn, List.mem_append, or_and_right, exists_or]

@[simp] theorem not_completed_nil {p : Pair} : ¬Completed [] p := by simp [Completed]

@[simp] theorem not_startedIn_nil {p : Pair} : ¬StartedIn [] p := by simp [StartedIn]

@[simp] theorem completed_cons {e : Entry} {journal : List Entry} {p : Pair} :
    Completed (e :: journal) p ↔ e.Completes p ∨ Completed journal p := by
  simp only [Completed, List.mem_cons, exists_eq_or_imp]

@[simp] theorem startedIn_cons {e : Entry} {journal : List Entry} {p : Pair} :
    StartedIn (e :: journal) p ↔ e.progress = .started p ∨ StartedIn journal p := by
  simp only [StartedIn, List.mem_cons, exists_eq_or_imp]

@[simp] theorem not_completed_publication {fqn : String} {outputs : Option Entries} {files : Files}
    {p : Pair} : ¬Completed (publication fqn outputs files) p := by
  cases outputs <;> simp [publication, Entry.Completes]

@[simp] theorem not_startedIn_publication {fqn : String} {outputs : Option Entries} {files : Files}
    {p : Pair} : ¬StartedIn (publication fqn outputs files) p := by
  cases outputs <;> simp [publication]

/-- A split of a longer journal is a split of its front or of what has been added. -/
theorem split_append {α : Type} {front more pre post : List α} {e : α}
    (h : front ++ more = pre ++ e :: post) :
    (∃ post', front = pre ++ e :: post') ∨
      ∃ pre', pre = front ++ pre' ∧ more = pre' ++ e :: post := by
  rcases List.append_eq_append_iff.mp h with ⟨pre', hpre, hmore⟩ | ⟨rest, hfront, hrest⟩
  · exact Or.inr ⟨pre', hpre, hmore⟩
  · cases rest with
    | nil =>
      rw [List.append_nil] at hfront
      exact Or.inr ⟨[], by rw [List.append_nil, hfront], hrest.symm⟩
    | cons first rest =>
      obtain ⟨rfl, -⟩ := List.cons.inj hrest
      exact Or.inl ⟨rest, hfront⟩

variable {c : Setup} {requested : List Phase} {base s s' : RunState} {A : Chart} {x : Pair}
  {st : Standing}

/-- Entries about other things than starts keep a journal well-ordered. -/
theorem WellOrdered.append {journal more : List Entry} (h : WellOrdered c journal)
    (hmore : ∀ p, ¬StartedIn more p) : WellOrdered c (journal ++ more) := by
  intro pre e post p hsplit he
  rcases split_append hsplit with ⟨post', hfront⟩ | ⟨pre', -, hrest⟩
  · exact h pre e post' p hfront he
  · exact absurd ⟨e, by rw [hrest]; simp, he⟩ (hmore p)

/-- A start keeps a journal well-ordered when it is the first one of its pair, and comes after
everything behind it. -/
theorem WellOrdered.start {journal : List Entry} {e : Entry} (h : WellOrdered c journal)
    (he : e.progress = .started x) (hx : c.Planned x) (hfirst : ¬StartedIn journal x)
    (hopen : ¬Completed journal x) (hbehind : ∀ q, c.Behind q x → Completed journal q) :
    WellOrdered c (journal ++ [e]) := by
  intro pre e' post p hsplit hp
  rcases split_append hsplit with ⟨post', hfront⟩ | ⟨pre', hpre, hrest⟩
  · exact h pre e' post' p hfront hp
  · cases pre' with
    | nil =>
      obtain ⟨rfl, -⟩ := List.cons.inj hrest
      rw [he, Progress.started.injEq] at hp
      subst hp
      rw [List.append_nil] at hpre
      subst hpre
      exact ⟨hx, hfirst, hopen, hbehind⟩
    | cons first pre' =>
      have := congrArg List.length hrest
      simp at this

/-- The statuses after one pair has moved. -/
theorem status_update (h : Tied c base A s) (h' : Tied c base (Function.update A x st) s')
    (p : Pair) : s'.status p = if p = x then st.status else s.status p := by
  rw [h'.shown.status, h.shown.status]
  by_cases hpx : p = x
  · rw [if_pos hpx, hpx, Function.update_self]
  · rw [if_neg hpx, Function.update_of_ne hpx]

namespace Recorded

/-- The clock is no part of what is recorded. -/
theorem tick (h : Recorded c s) (t : Rat) : Recorded c { s with now := t } :=
  ⟨h.ordered, h.completed, h.started⟩

/-- A pair moves without being started. -/
theorem moved (h : Recorded c s) (ht : Tied c base A s)
    (ht' : Tied c base (Function.update A x st) s') {more : List Entry}
    (hj : s'.journal = s.journal ++ more) (hopen : s.status x ≠ .succeeded)
    (hmore : ∀ p, ¬StartedIn more p)
    (hdone : ∀ p, Completed more p ↔ p = x ∧ st.status = .succeeded)
    (hready : st.status = .ready → s.status x = .pending) (hst : st.status ≠ .pending) :
    Recorded c s' := by
  refine ⟨?_, fun p => ?_, fun p hp => ?_⟩
  · rw [hj]
    exact h.ordered.append hmore
  · rw [hj, completed_append, h.completed p, hdone p, status_update ht ht' p]
    by_cases hpx : p = x
    · subst hpx
      simp [hopen]
    · simp [hpx]
  · rw [hj, startedIn_append]
    refine not_or.mpr ⟨h.started p ?_, hmore p⟩
    rw [status_update ht ht' p] at hp
    by_cases hpx : p = x
    · subst hpx
      rw [if_pos rfl] at hp
      exact Or.inl (hready (hp.resolve_left hst))
    · rwa [if_neg hpx] at hp

/-- A pair is started. -/
theorem launched (h : Recorded c s) (ht : Tied c base A s) {digest : String}
    {resolved : Option Resolved} {ctx : UnitContext} (hA : A x = .ready digest resolved)
    (ht' : Tied c base (Function.update A x (.running digest ctx)) s') {e : Entry}
    (he : e.progress = .started x) (hj : s'.journal = s.journal ++ [e]) : Recorded c s' := by
  have hx : s.status x = .ready := by rw [ht.shown.status, hA]; rfl
  have hdone (p : Pair) : ¬e.Completes p := by simp [Entry.Completes, he]
  refine ⟨?_, fun p => ?_, fun p hp => ?_⟩
  · rw [hj]
    refine h.ordered.start he (ht.shown.planned_of_ne (by simp [hA]))
      (h.started x (Or.inr hx)) ?_ fun q hb => ?_
    · rw [h.completed, hx]
      simp
    · rw [h.completed, ht.shown.status]
      exact ht.fit.succeeded_of_behind ht.shown hb (by simp [hA]) (by simp [hA])
  · rw [hj, completed_append, h.completed p, status_update ht ht' p]
    by_cases hpx : p = x
    · subst hpx
      simp [hx, hdone, Standing.status, Standing.outcome]
    · simp [hpx, hdone]
  · rw [status_update ht ht' p] at hp
    have hpx : p ≠ x := by
      rintro rfl
      simp [Standing.status, Standing.outcome] at hp
    rw [if_neg hpx] at hp
    rw [hj, startedIn_append]
    exact not_or.mpr ⟨h.started p hp, by simp [he, hpx.symm]⟩

/-- **Every move** keeps the journal well-ordered. -/
theorem move (hc : c.Checked requested) (h : Recorded c s) (ht : Tied c base A s)
    (hm : Move c base s s') : Recorded c s' := by
  cases hm with
  | @skip x rest b hp hv =>
    have hx := ht.pending_of_considered hp hv
    exact h.moved ht (ht.skipped hc hp hv) rfl (by simp [hx]) (by simp)
      (by simp [Entry.Completes, Standing.status, Standing.outcome]) (fun _ => hx)
      (by simp [Standing.status, Standing.outcome])
  | @miss x rest cause hp hv =>
    have hx := ht.pending_of_considered hp hv
    exact h.moved ht (ht.missed hc hp hv) rfl (by simp [hx]) (by simp)
      (by simp [Entry.Completes, Standing.status, Standing.outcome]) (fun _ => hx)
      (by simp [Standing.status, Standing.outcome])
  | @reuse x rest digest outputs hp hv =>
    have hx := ht.pending_of_considered hp hv
    have hj : (((({ s with promoted := rest }.note x digest).confirm x digest).publish
        x.fqn outputs).settle c.plan x).journal =
          s.journal ++ ([⟨.reused x digest, s.files⟩] ++ publication x.fqn outputs s.files) := by
      rw [← List.append_assoc]
      rfl
    refine h.moved ht (ht.reused hc hp hv) hj (by simp [hx]) (fun p => ?_) (fun p => ?_)
      (fun _ => hx) (by simp [Standing.status, Standing.outcome])
    · simp
    · simp [Entry.Completes, Standing.status, Standing.outcome, eq_comm]
  | @ready x rest digest resolved hp hv =>
    have hx := ht.pending_of_considered hp hv
    have hj : (({ s with promoted := rest }.note x digest).enqueue
        ⟨x, c.index x.fqn, resolved⟩).journal = s.journal ++ [] := (List.append_nil _).symm
    exact h.moved ht (ht.readied hc hp hv) hj (by simp [hx]) (by simp)
      (by simp [Standing.status, Standing.outcome]) (fun _ => hx)
      (by simp [Standing.status, Standing.outcome])
  | @start item rest n timeout work ctx hr hw hn he hctx =>
    obtain ⟨digest, hA, ht'⟩ := ht.started hc hr hn he hctx
    exact h.launched ht hA ht' rfl rfl
  | @succeed call task given snapshot outputs hcall hrun hintime ha hg =>
    obtain ⟨ctx, hA, ht'⟩ := ht.succeeded hc hcall hrun hintime ha hg
    have hx : s.status call.pair = .running := by rw [ht.shown.status, hA]; rfl
    have hj : ((((s.release call.pair).publish call.pair.fqn outputs).conclude c call.pair
        task.fingerprint snapshot outputs ((call.due - call.started) * 1000)).settle c.plan
          call.pair).journal = s.journal ++ (publication call.pair.fqn outputs s.files ++
            [⟨.succeeded call.pair ((call.due - call.started) * 1000),
              (c.store.save c.graph.stackName (s.buildstate.markSucceeded call.pair.fqn
                call.pair.phase task.fingerprint snapshot outputs) s.files).files⟩]) := by
      rw [← List.append_assoc]
      rfl
    refine h.moved ht ht' hj (by simp [hx]) (fun p => ?_) (fun p => ?_)
      (by simp [Standing.status, Standing.outcome]) (by simp [Standing.status, Standing.outcome])
    · simp [startedIn_append]
    · simp [completed_append, Entry.Completes, Standing.status, Standing.outcome, eq_comm]
  | @fail call task cause hcall hrun hintime ha =>
    obtain ⟨ctx, hA, ht'⟩ := ht.failed hc hcall hrun hintime ha
    have hx : s.status call.pair = .running := by rw [ht.shown.status, hA]; rfl
    exact h.moved ht ht' rfl (by simp [hx]) (by simp)
      (by simp [Entry.Completes, Standing.status, Standing.outcome])
      (by simp [Standing.status, Standing.outcome]) (by simp [Standing.status, Standing.outcome])
  | @timeout x task deadline hrun hd hlate =>
    obtain ⟨ctx, hA, ht'⟩ := ht.timedOut hc hrun hd hlate
    have hx : s.status x = .running := by rw [ht.shown.status, hA]; rfl
    exact h.moved ht ht' rfl (by simp [hx]) (by simp)
      (by simp [Entry.Completes, Standing.status, Standing.outcome])
      (by simp [Standing.status, Standing.outcome]) (by simp [Standing.status, Standing.outcome])
  | late ha => exact ⟨h.ordered, h.completed, h.started⟩

end Recorded

/-! ### Events -/

/-- An event says that a pair has been started. -/
def Event.Starts (e : Event) (p : Pair) : Prop := e.body = .unitStarted p.fqn p.phase.text

/-- An event says that a pair has succeeded or is reused. -/
def Event.Completes (e : Event) (p : Pair) : Prop :=
  (∃ ms, e.body = .unitSucceeded p.fqn p.phase.text ms) ∨
    ∃ digest, e.body = .unitReused p.fqn p.phase.text digest

/-- What has to be completed before a pair is started: the earlier requested phases of its unit,
for every edge to its unit the latest requested phase of the source that the edge asks for, and,
if deployments are requested, those of the units that its unit refers to. -/
inductive Graph.Requires (g : Graph) (requested : List Phase) (b : Pair) : Pair → Prop
  | earlier {n : Node} {q : Phase} (hn : g.node? b.fqn = some n) (hq : q ∈ requested)
      (ha : q.appliesTo n.unit.kind = true) (hlt : q.index < b.phase.index) :
      Requires g requested b ⟨b.fqn, q⟩
  | gate {e : Edge} {n : Node} {p : Phase} (he : e ∈ g.edges) (ht : e.target = b.fqn)
      (hn : g.node? e.source = some n) (hp : p ∈ requested)
      (ha : p.appliesTo n.unit.kind = true) (hle : p.index ≤ (Graph.lastPhase e n).index)
      (hlast : ∀ q ∈ requested, q.appliesTo n.unit.kind = true →
        q.index ≤ (Graph.lastPhase e n).index → q.index ≤ p.index) :
      Requires g requested b ⟨e.source, p⟩
  | reference {site : Site} (hd : .deploy ∈ requested) (hs : site ∈ g.sites)
      (hu : site.unit = b.fqn) :
      Requires g requested b ⟨site.reference.target g.stackName, .deploy⟩

theorem Phase.eq_of_text {p q : Phase} (h : p.text = q.text) : p = q := by
  rw [← Option.some.injEq, ← Phase.ofText?_text p, ← Phase.ofText?_text q, h]

theorem Pair.eq_of_fields {p q : Pair} (hf : p.fqn = q.fqn) (hp : p.phase = q.phase) : p = q := by
  cases p
  cases q
  rw [Pair.mk.injEq]
  exact ⟨hf, hp⟩

/-- An event says of a start what its entry says. -/
theorem starts_of {command : String} {e : Entry} {p : Pair} :
    (Event.of command e.progress.body).Starts p ↔ e.progress = .started p := by
  constructor
  · intro h
    unfold Event.Starts Event.of at h
    cases hp : e.progress with
    | started q =>
      rw [hp] at h
      obtain ⟨hf, hphase⟩ := EventBody.unitStarted.inj h
      rw [Pair.eq_of_fields hf (Phase.eq_of_text hphase)]
    | _ =>
      rw [hp] at h
      cases h
  · intro h
    rw [h]
    rfl

/-- An event says of a completion what its entry says. -/
theorem completes_of {command : String} {e : Entry} {p : Pair} (h : e.Completes p) :
    (Event.of command e.progress.body).Completes p := by
  rcases h with ⟨ms, h⟩ | ⟨digest, h⟩
  · exact Or.inl ⟨ms, by rw [h]; rfl⟩
  · exact Or.inr ⟨digest, by rw [h]; rfl⟩

/-- **What a pair requires** stands behind it. -/
theorem Setup.Sound.behind_of_requires (hc : c.Sound requested) {b w : Pair} (hb : c.Planned b)
    (h : c.graph.Requires requested b w) : c.Behind w b := by
  cases h with
  | @earlier n q hn hq ha hlt =>
    have hplanned : c.Planned ⟨b.fqn, q⟩ := (Graph.mem_keys_plan hc.plan).mpr ⟨n, hn, hq, ha⟩
    exact Setup.behind_earlier hc.sorted hc.plan hb hplanned hlt
  | @gate e n p he ht hn hp ha hle hlast =>
    exact Setup.behind_gate hc.sorted hc.plan hb he ht
      ((Graph.gate?_eq_some_iff hc.sorted).mpr ⟨n, hn, rfl, ⟨hp, ha, hle⟩, hlast⟩)
  | @reference site hd hs hu => exact hc.behind_site hb hd hs hu

/-- In a well-ordered journal a later start of the same unit is that of a later phase, and comes
after the completion of the earlier one. -/
theorem WellOrdered.between (hc : c.Sound requested) {pre mid post : List Entry} {e e' : Entry}
    {fqn : String} {p q : Phase} (h : WellOrdered c (pre ++ e :: (mid ++ e' :: post)))
    (he : e.progress = .started ⟨fqn, p⟩) (he' : e'.progress = .started ⟨fqn, q⟩) :
    p.index < q.index ∧ Completed mid ⟨fqn, p⟩ := by
  obtain ⟨hp, -, hopen, hbehind⟩ := h pre e _ _ rfl he
  obtain ⟨hq, hfirst, hopen', hbehind'⟩ := h (pre ++ e :: mid) e' post _ (by simp) he'
  have hlt : p.index < q.index := by
    rcases Nat.lt_trichotomy p.index q.index with hlt | heq | hgt
    · exact hlt
    · obtain rfl := Phase.index_injective heq
      exact absurd ⟨e, by simp, he⟩ hfirst
    · have hdone := hbehind _ (Setup.behind_earlier hc.sorted hc.plan hp hq hgt)
      exact absurd (completed_append.mpr (Or.inl hdone)) hopen'
  refine ⟨hlt, ?_⟩
  have hdone := hbehind' _ (Setup.behind_earlier hc.sorted hc.plan hq hp hlt)
  rcases completed_append.mp hdone with hdone | ⟨d, hd, hcompletes⟩
  · exact absurd hdone hopen
  · rcases List.mem_cons.mp hd with rfl | hd
    · simp [Entry.Completes, he] at hcompletes
    · exact ⟨d, hd, hcompletes⟩

/-- The executors of two phases of a unit are not at work at the same time. -/
theorem Tied.call_unique (hc : c.Checked requested) (h : Tied c base A s) {p q : Pair}
    (hp : p ∈ s.calls.map Call.pair) (hq : q ∈ s.calls.map Call.pair) (hf : p.fqn = q.fqn) :
    p = q := by
  have hbusy {r : Pair} (hr : r ∈ s.calls.map Call.pair) :
      A r ≠ .waiting ∧ (∀ b, A r ≠ .skipped b) ∧ (A r).status ≠ .succeeded := by
    rcases (h.queued.mem_calls r).mp hr with hm | hm
    · obtain ⟨digest, ctx, hA⟩ := Queued.exists_of_isRunning (h.queued.running.mem_iff'.mp hm)
      simp [hA, Standing.status, Standing.outcome]
    · have hA := h.queued.abandoned r hm (by simp)
      cases hst : A r <;> rw [hst] at hA <;>
        simp_all [Standing.isOverrun, Standing.status, Standing.outcome]
  have hapart {p q : Pair} (hp : p ∈ s.calls.map Call.pair) (hq : q ∈ s.calls.map Call.pair)
      (hf : p.fqn = q.fqn) : ¬p.phase.index < q.phase.index := by
    intro hlt
    obtain ⟨hpw, -, hopen⟩ := hbusy hp
    obtain ⟨hqw, hqs, -⟩ := hbusy hq
    have hpp := h.shown.planned_of_ne hpw
    have hqp := h.shown.planned_of_ne hqw
    have hb : c.Behind ⟨q.fqn, p.phase⟩ q :=
      Setup.behind_earlier hc.sorted hc.plan hqp (hf ▸ hpp) hlt
    rw [← hf] at hb
    exact hopen (h.fit.succeeded_of_behind h.shown hb hqw hqs)
  have h1 := hapart hp hq hf
  have h2 := hapart hq hp hf.symm
  exact Pair.eq_of_fields hf (Phase.index_injective (by omega))

/-! ### The order of a run -/

/-- At the beginning nothing has been started. -/
theorem recorded_initial {sched : Scheduler} {plan : Plan} {phases : List Phase} {files : Files}
    (h : Tied (sched.setup plan) base .start (sched.initial plan phases files)) :
    Recorded (sched.setup plan) (sched.initial plan phases files) := by
  have hnone : ∀ p, ¬StartedIn (sched.initial plan phases files).journal p := by
    intro p
    simp [StartedIn, Scheduler.initial, report]
  refine ⟨?_, fun p => ?_, fun p _ => hnone p⟩
  · intro pre e post p hsplit he
    exact absurd ⟨e, by rw [hsplit]; simp, he⟩ (hnone p)
  · rw [h.shown.status]
    simp [Completed, Entry.Completes, Scheduler.initial, report, Chart.start, Standing.status,
      Standing.outcome]

/-- The journal of a run that is carried out is well-ordered, also if the run halts. -/
theorem Scheduler.wellOrdered_run {s : Scheduler} (hs : s.Sound) (phases : List Phase)
    (files : Files) : (s.run phases files).journal = [] ∨
      ∃ plan, (s.setup plan).Sound (requestedPhases phases) ∧
        WellOrdered (s.setup plan) (s.run phases files).journal := by
  rcases s.run_spec hs phases files with ⟨fault, -, hrun⟩ | ⟨-, plan, n, last, A, hcarries, hend⟩
  · exact Or.inl (by rw [hrun])
  · have hc := hcarries.sound
    have htied := tied_initial hc.toChecked (requestedPhases phases) files hs.resolver
    have hlast : Recorded (s.setup plan) last := hcarries.steps.keeps hc.toChecked
      (fun _ t h => h.tick t) (fun _ _ _ ht hm h => h.move hc.toChecked ht hm) htied timely_initial
      (recorded_initial htied)
    refine Or.inr ⟨plan, hc, ?_⟩
    rcases hend with ⟨hrun, -⟩ | ⟨halt, hrun, t, -, more, hmore, hquiet⟩
    · rw [hrun]
      exact hlast.ordered.append (by simp [StartedIn])
    · rw [hrun]
      change WellOrdered (s.setup plan) halt.state.journal
      rw [hmore]
      refine hlast.ordered.append ?_
      rintro p ⟨e, he, hp⟩
      exact hquiet e he p hp

/-- Requests matter for their members only. -/
theorem Graph.Requires.of_phases {g : Graph} {phases : List Phase} {b w : Pair}
    (h : g.Requires phases b w) : g.Requires (requestedPhases phases) b w := by
  cases h with
  | earlier hn hq ha hlt => exact .earlier hn (mem_requestedPhases.mpr hq) ha hlt
  | gate he ht hn hp ha hle hlast =>
    exact .gate he ht hn (mem_requestedPhases.mpr hp) ha hle
      fun q hq => hlast q (mem_requestedPhases.mp hq)
  | reference hd hs hu => exact .reference (mem_requestedPhases.mpr hd) hs hu

/-- **The order of a run.** In the events of a run, whether it ends or halts, everything that a pair
requires has been completed when the pair is started. The starts of a unit come in the order of the
phases, each after the completion of the one before. And at no moment are two executors at work for
the same unit. -/
theorem started_after_prerequisites {s : Scheduler} (hs : s.Sound) (phases : List Phase)
    (files : Files) :
    (∀ pre e post b, (s.run phases files).events = pre ++ e :: post → e.Starts b →
      ∀ w, s.graph.Requires phases b w → ∃ d ∈ pre, d.Completes w) ∧
    (∀ pre e mid e' post fqn p q,
      (s.run phases files).events = pre ++ e :: (mid ++ e' :: post) →
      e.Starts ⟨fqn, p⟩ → e'.Starts ⟨fqn, q⟩ →
      p.index < q.index ∧ ∃ d ∈ mid, d.Completes ⟨fqn, p⟩) ∧
    ∀ plan n t, checkExecutors s.executors s.graph (requestedPhases phases) = .ok () →
      s.graph.plan (requestedPhases phases) = .ok plan →
      Steps (s.setup plan) n (s.initial plan (requestedPhases phases) files) t →
      ∀ call ∈ t.calls, ∀ call' ∈ t.calls, call.pair.fqn = call'.pair.fqn →
        call.pair = call'.pair := by
  refine ⟨?_, ?_, ?_⟩
  · intro pre e post b hevents he w hw
    obtain ⟨jpre, jrest, hj, rfl, hrest⟩ := List.map_eq_append_iff.mp hevents
    obtain ⟨je, jpost, rfl, rfl, -⟩ := List.map_eq_cons_iff.mp hrest
    rcases s.wellOrdered_run hs phases files with hnil | ⟨plan, hc, hordered⟩
    · rw [hnil] at hj
      simp at hj
    · obtain ⟨hb, -, -, hbehind⟩ := hordered jpre je jpost b hj (starts_of.mp he)
      obtain ⟨d, hd, hcompletes⟩ := hbehind w (hc.behind_of_requires hb hw.of_phases)
      exact ⟨_, List.mem_map_of_mem hd, completes_of hcompletes⟩
  · intro pre e mid e' post fqn p q hevents he he'
    obtain ⟨jpre, jrest, hj, rfl, hrest⟩ := List.map_eq_append_iff.mp hevents
    obtain ⟨je, jtail, rfl, rfl, htail⟩ := List.map_eq_cons_iff.mp hrest
    obtain ⟨jmid, jend, rfl, rfl, hend⟩ := List.map_eq_append_iff.mp htail
    obtain ⟨je', jpost, rfl, rfl, -⟩ := List.map_eq_cons_iff.mp hend
    rcases s.wellOrdered_run hs phases files with hnil | ⟨plan, hc, hordered⟩
    · rw [hnil] at hj
      simp at hj
    · rw [hj] at hordered
      obtain ⟨hlt, d, hd, hcompletes⟩ :=
        hordered.between hc (starts_of.mp he) (starts_of.mp he')
      exact ⟨hlt, _, List.mem_map_of_mem hd, completes_of hcompletes⟩
  · intro plan n t hcheck hplan hsteps call hcall call' hcall' hfqn
    have hc := hs.setup hcheck hplan
    have htied := tied_initial hc.toChecked (requestedPhases phases) files hs.resolver
    obtain ⟨A, hA, -, -⟩ := htied.steps hc.toChecked hsteps timely_initial
    exact hA.call_unique hc.toChecked (List.mem_map_of_mem hcall) (List.mem_map_of_mem hcall') hfqn

/-- In the shop the interface is not initialized before the database has been deployed. -/
theorem started_after_prerequisites_shop :
    (Shop.scheduler [Shop.database, Shop.interface] 2 (Shop.executors 1)).Sound ∧
      ∀ pre e post, ((Shop.scheduler [Shop.database, Shop.interface] 2 (Shop.executors 1)).run
        [.init, .deploy] []).events = pre ++ e :: post → e.Starts ⟨"shop.service.api", .init⟩ →
        ∃ d ∈ pre, d.Completes ⟨"shop.service.db", .deploy⟩ := by
  have hs : (Shop.scheduler [Shop.database, Shop.interface] 2 (Shop.executors 1)).Sound :=
    ⟨⟨_, Shop.ofStack_both⟩, rfl, by decide⟩
  refine ⟨hs, ?_⟩
  intro pre e post hevents he
  refine (started_after_prerequisites hs [.init, .deploy] []).1 pre e post _ hevents he _ ?_
  have hsite : (⟨"shop.service.api", ["inputs", "address"], ⟨.service, "db", "address"⟩⟩ : Site) ∈
      (Shop.graph [Shop.database, Shop.interface]).sites := by decide +kernel
  exact .reference (by decide) hsite rfl

end Rollout
