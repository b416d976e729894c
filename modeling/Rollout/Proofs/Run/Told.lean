import Rollout.Proofs.Run.Ordering

/-!
# What a run tells about its pairs

Every pair has a story: nothing is told about it while it waits or is ready, then that it is started,
and in the end how it has settled. A skip, a reuse and a failure for a missing output are told alone.
The outputs of a unit are told once, when its deployment succeeds or is reused, and not otherwise.

**Types.** `Standing.Tells`, `Told`, `Narrated`.

**Operations.** `Progress.pair?`, `Progress.isNews`, `EventBody.pairLine?`, `toldOf`,
`outputReports`, `newsEvents`.

**Results.**
* `Scheduler.told_spec`: the journal of a run that reports tells of every pair how it has settled;
* `Scheduler.events_spec`: its events are its plan, news, and its end.
-/

namespace Rollout

open RunState

/-- The pair that is reported about. -/
def Progress.pair? : Progress → Option Pair
  | .started p | .succeeded p _ | .reused p _ | .failed p _ _ _ | .skipped p _ => some p
  | .planned .. | .outputs .. | .finished .. => none

/-- Whether the outputs of a unit are reported. -/
def Progress.isOutputsOf (fqn : String) : Progress → Bool
  | .outputs other _ => other == fqn
  | _ => false

/-- Whether something is reported between the plan of a run and its end. -/
def Progress.isNews : Progress → Bool
  | .planned .. | .finished .. => false
  | _ => true

/-- The pair that an event is about. -/
def EventBody.pairLine? : EventBody → Option PairLine
  | .unitStarted fqn phase | .unitSucceeded fqn phase _ | .unitReused fqn phase _
  | .unitFailed fqn phase _ _ _ | .unitSkipped fqn phase _ => some ⟨fqn, phase⟩
  | _ => none

/-- A pair as events show it. -/
def Pair.line (p : Pair) : PairLine := ⟨p.fqn, p.phase.text⟩

theorem Progress.pairLine?_body (e : Progress) : e.body.pairLine? = e.pair?.map Pair.line := by
  cases e <;> rfl

theorem Progress.isNews_of_pair? {e : Progress} {p : Pair} (h : e.pair? = some p) :
    e.isNews = true := by
  cases e <;> first | rfl | cases h

/-- What a journal reports about a pair. -/
def toldOf (p : Pair) (journal : List Entry) : List Progress :=
  (journal.map Entry.progress).filter fun e => e.pair? = some p

/-- How often a journal reports the outputs of a unit. -/
def outputReports (fqn : String) (journal : List Entry) : Nat :=
  (journal.map Entry.progress).countP (Progress.isOutputsOf fqn)

/-- What is told about a pair that stands so. -/
def Standing.Tells (p : Pair) : Standing → List Progress → Prop
  | .waiting, told | .ready _ _, told => told = []
  | .running _ _, told => told = [.started p]
  | .skipped b, told => told = [.skipped p b]
  | .missing cause, told => told = [.failed p 0 cause false]
  | .reused digest _, told => told = [.reused p digest]
  | .succeeded _ _ _ _, told => ∃ ms, told = [.started p, .succeeded p ms]
  | .failed _ _ cause timedOut, told => ∃ ms, told = [.started p, .failed p ms cause timedOut]

/-- A journal tells the story of every pair of a chart. -/
structure Told (A : Chart) (journal : List Entry) : Prop where
  news : ∀ e ∈ journal, e.progress.isNews = true
  pairs : ∀ p, (A p).Tells p (toldOf p journal)
  outputs : ∀ fqn, outputReports fqn journal =
    if (A ⟨fqn, .deploy⟩).status = .succeeded then 1 else 0

/-- What a state has reported since the beginning tells the story of every pair. -/
def Narrated (c : Setup) (base s : RunState) : Prop :=
  ∃ A journal, Tied c base A s ∧ s.journal = base.journal ++ journal ∧ Told A journal

theorem toldOf_append (p : Pair) (journal more : List Entry) :
    toldOf p (journal ++ more) = toldOf p journal ++ toldOf p more := by
  rw [toldOf, List.map_append, List.filter_append]
  rfl

theorem outputReports_append (fqn : String) (journal more : List Entry) :
    outputReports fqn (journal ++ more) = outputReports fqn journal + outputReports fqn more := by
  rw [outputReports, List.map_append, List.countP_append]
  rfl

@[simp] theorem toldOf_publication (p : Pair) (fqn : String) (outputs : Option Entries)
    (files : Files) : toldOf p (publication fqn outputs files) = [] := by
  cases outputs <;> simp [toldOf, publication, Progress.pair?]

theorem outputReports_publication (fqn other : String) (outputs : Option Entries) (files : Files) :
    outputReports fqn (publication other outputs files) =
      if other = fqn ∧ outputs.isSome then 1 else 0 := by
  cases outputs <;> simp [outputReports, publication, Progress.isOutputsOf]

theorem isNews_of_mem_publication {fqn : String} {outputs : Option Entries} {files : Files}
    {e : Entry} (h : e ∈ publication fqn outputs files) : e.progress.isNews = true := by
  obtain ⟨fields, he⟩ := progress_of_mem_publication h
  rw [he]
  rfl

variable {c : Setup} {requested : List Phase} {base s s' : RunState} {A : Chart} {x : Pair}
  {st : Standing}

/-- Of pairs that are reused, deployments bring outputs along. -/
theorem isSome_of_leftover {outputs : Option Entries} (h : base.leftover x = .ok outputs) :
    outputs.isSome ↔ x.phase = .deploy := by
  unfold leftover at h
  split at h
  · rename_i hd
    cases ha : base.accept x.fqn ((base.buildstate.record? x.fqn).getD {}).outputs with
    | error fault =>
      rw [ha] at h
      cases h
    | ok keys =>
      rw [ha] at h
      rw [← Except.ok.inj h]
      simp [hd]
  · rename_i hd
    rw [← Except.ok.inj h]
    simp [hd]

/-- Of pairs that succeed, deployments leave outputs. -/
theorem isSome_of_gain {namespaceName : String} {reply : Reply} {given outputs : Option Entries}
    {snapshot : Option Value} (h : gain c base x namespaceName reply given = .ok (snapshot, outputs)) :
    outputs.isSome ↔ x.phase = .deploy := by
  unfold gain at h
  split at h
  · rename_i hd
    cases ha : base.accept x.fqn (completed c x namespaceName given) with
    | error fault =>
      rw [ha] at h
      cases h
    | ok keys =>
      rw [ha] at h
      rw [← (Prod.mk.inj (Except.ok.inj h)).2]
      simp [hd]
  · rename_i hd
    rw [← (Prod.mk.inj (Except.ok.inj h)).2]
    simp [hd]

/-- A pair that is reused has left outputs before. -/
theorem leftover_of_verdict {digest : String} {outputs : Option Entries}
    (h : verdict c base s x = .ok (.reused digest outputs)) : base.leftover x = .ok outputs := by
  rcases verdict_cases h with ⟨b, hst, -⟩ | ⟨cause, hst, -⟩ | ⟨d, o, hst, hleft, -⟩ | ⟨d, r, hst, -⟩
  · cases hst
  · cases hst
  · cases hst
    exact hleft
  · cases hst

/-- The reports of the outputs of a pair, if there are any. -/
theorem outputReports_of_isSome {outputs : Option Entries} (h : outputs.isSome ↔ x.phase = .deploy)
    (fqn : String) (files : Files) : outputReports fqn (publication x.fqn outputs files) =
      if x = ⟨fqn, .deploy⟩ then 1 else 0 := by
  obtain ⟨other, phase⟩ := x
  simp only [outputReports_publication, h, Pair.mk.injEq]

theorem toldOf_singleton (p : Pair) (e : Entry) :
    toldOf p [e] = if e.progress.pair? = some p then [e.progress] else [] := by
  by_cases he : e.progress.pair? = some p <;> simp [toldOf, he]

theorem outputReports_singleton {e : Entry} (h : e.progress.pair?.isSome) (fqn : String) :
    outputReports fqn [e] = 0 := by
  rw [outputReports, List.map_singleton, List.countP_singleton]
  cases hp : e.progress <;> simp [hp, Progress.pair?] at h <;> rfl

namespace Told

/-- A pair moves, and what is told goes on with this pair. -/
theorem moved {journal more : List Entry} (h : Told A journal)
    (hopen : (A x).status ≠ .succeeded) (hnews : ∀ e ∈ more, e.progress.isNews = true)
    (hothers : ∀ p, p ≠ x → toldOf p more = [])
    (hown : st.Tells x (toldOf x journal ++ toldOf x more))
    (houtputs : ∀ fqn, outputReports fqn more =
      if x = ⟨fqn, .deploy⟩ ∧ st.status = .succeeded then 1 else 0) :
    Told (Function.update A x st) (journal ++ more) := by
  refine ⟨List.forall_mem_append.mpr ⟨h.news, hnews⟩, fun p => ?_, fun fqn => ?_⟩
  · rw [toldOf_append]
    by_cases hp : p = x
    · subst hp
      rw [Function.update_self]
      exact hown
    · rw [Function.update_of_ne hp, hothers p hp, List.append_nil]
      exact h.pairs p
  · rw [outputReports_append, h.outputs, houtputs]
    by_cases hx : x = ⟨fqn, .deploy⟩
    · subst hx
      simp [hopen]
    · simp [Function.update_of_ne (Ne.symm hx), hx]

/-- One thing is told about a pair that does not succeed. -/
theorem reported {journal : List Entry} {e : Entry} (h : Told A journal)
    (hopen : (A x).status ≠ .succeeded) (he : e.progress.pair? = some x)
    (hst : st.status ≠ .succeeded) (hown : st.Tells x (toldOf x journal ++ [e.progress])) :
    Told (Function.update A x st) (journal ++ [e]) := by
  have hnews : ∀ e' ∈ [e], e'.progress.isNews = true := by
    simpa using Progress.isNews_of_pair? he
  refine h.moved hopen hnews (fun p hp => ?_) ?_ fun fqn => ?_
  · rw [toldOf_singleton, he, if_neg (by simpa using Ne.symm hp)]
  · rwa [toldOf_singleton, if_pos he]
  · rw [outputReports_singleton (by simp [he])]
    simp [hst]

/-- One thing is told about a pair that succeeds, besides its outputs. -/
theorem published {journal more : List Entry} {e : Entry} {outputs : Option Entries}
    {files : Files} (h : Told A journal) (hopen : (A x).status ≠ .succeeded)
    (he : e.progress.pair? = some x) (hst : st.status = .succeeded)
    (hsome : outputs.isSome ↔ x.phase = .deploy)
    (hmore : more = [e] ++ publication x.fqn outputs files ∨
      more = publication x.fqn outputs files ++ [e])
    (hown : st.Tells x (toldOf x journal ++ [e.progress])) :
    Told (Function.update A x st) (journal ++ more) := by
  have htold (p : Pair) : toldOf p more = toldOf p [e] := by
    rcases hmore with rfl | rfl <;>
      simp only [toldOf_append, toldOf_publication, List.append_nil, List.nil_append]
  have hreports (fqn : String) : outputReports fqn more = if x = ⟨fqn, .deploy⟩ then 1 else 0 := by
    have hone := outputReports_singleton (e := e) (by simp [he]) fqn
    have hpublished := outputReports_of_isSome hsome fqn files
    rcases hmore with rfl | rfl <;> rw [outputReports_append, hone, hpublished] <;> simp
  have hnews : ∀ e' ∈ more, e'.progress.isNews = true := by
    intro e' he'
    have hmem : e' = e ∨ e' ∈ publication x.fqn outputs files := by
      rcases hmore with rfl | rfl
      · simpa using he'
      · simpa [or_comm] using he'
    rcases hmem with rfl | hmem
    · exact Progress.isNews_of_pair? he
    · exact isNews_of_mem_publication hmem
  refine h.moved hopen hnews (fun p hp => ?_) ?_ fun fqn => ?_
  · rw [htold, toldOf_singleton, he, if_neg (by simpa using Ne.symm hp)]
  · rwa [htold, toldOf_singleton, if_pos he]
  · simp [hreports, hst]

/-- What a pair that waits or is ready has told. -/
theorem none_told {journal : List Entry} (h : Told A journal)
    (hx : A x = .waiting ∨ ∃ digest resolved, A x = .ready digest resolved) :
    toldOf x journal = [] := by
  have htells := h.pairs x
  rcases hx with hx | ⟨digest, resolved, hx⟩ <;> rwa [hx] at htells

theorem start_told {journal : List Entry} (h : Told A journal) {digest : String}
    {ctx : UnitContext} (hx : A x = .running digest ctx) :
    toldOf x journal = [.started x] := by
  have htells := h.pairs x
  rwa [hx] at htells

end Told

/-- What a later state has reported goes on with what an earlier one has. -/
theorem Told.narrated {journal more : List Entry} {A' : Chart} (h : Told A' (journal ++ more))
    (hj : s.journal = base.journal ++ journal) (hmore : s'.journal = s.journal ++ more)
    (ht : Tied c base A' s') : Narrated c base s' :=
  ⟨A', journal ++ more, ht, by rw [hmore, hj, List.append_assoc], h⟩

theorem Narrated.tick (h : Narrated c base s) (t : Rat) : Narrated c base { s with now := t } := by
  obtain ⟨A, journal, ht, hj, htold⟩ := h
  exact ⟨A, journal, ht.tick t, hj, htold⟩

/-- **Every move** goes on with the story of the pair that it moves. -/
theorem Narrated.move (hc : c.Checked requested) (h : Narrated c base s)
    (hm : Move c base s s') : Narrated c base s' := by
  obtain ⟨A, journal, ht, hj, htold⟩ := h
  cases hm with
  | @skip x rest b hp hv =>
    have hA : A x = .waiting := (ht.considered hp hv).1.waiting
    refine Told.narrated (htold.reported (by simp [hA, Standing.status, Standing.outcome]) rfl
      (by simp [Standing.status, Standing.outcome]) ?_) hj rfl
      (ht.skipped hc hp hv)
    rw [htold.none_told (Or.inl hA)]
    rfl
  | @miss x rest cause hp hv =>
    have hA : A x = .waiting := (ht.considered hp hv).1.waiting
    refine Told.narrated (htold.reported (by simp [hA, Standing.status, Standing.outcome]) rfl
      (by simp [Standing.status, Standing.outcome]) ?_) hj rfl
      (ht.missed hc hp hv)
    rw [htold.none_told (Or.inl hA)]
    rfl
  | @reuse x rest digest outputs hp hv =>
    have hA : A x = .waiting := (ht.considered hp hv).1.waiting
    obtain hsome := isSome_of_leftover (leftover_of_verdict hv)
    have hmore : (((({ s with promoted := rest }.note x digest).confirm x digest).publish
        x.fqn outputs).settle c.plan x).journal =
          s.journal ++ ([⟨.reused x digest, s.files⟩] ++ publication x.fqn outputs s.files) := by
      rw [← List.append_assoc]
      rfl
    refine Told.narrated (htold.published (e := ⟨.reused x digest, s.files⟩)
      (by simp [hA, Standing.status, Standing.outcome]) rfl rfl hsome
      (Or.inl rfl) ?_) hj hmore (ht.reused hc hp hv)
    rw [htold.none_told (Or.inl hA)]
    rfl
  | @ready x rest digest resolved hp hv =>
    have hA : A x = .waiting := (ht.considered hp hv).1.waiting
    refine Told.narrated (htold.moved (by simp [hA, Standing.status, Standing.outcome]) (by simp)
      (fun _ _ => rfl) ?_ ?_) hj (List.append_nil _).symm (ht.readied hc hp hv)
    · rw [htold.none_told (Or.inl hA)]
      rfl
    · intro fqn
      simp [outputReports, Standing.status, Standing.outcome]
  | @start item rest n timeout work ctx hr hw hn he hctx =>
    obtain ⟨digest, hA, ht'⟩ := ht.started hc hr hn he hctx
    refine Told.narrated (htold.reported (by simp [hA, Standing.status, Standing.outcome]) rfl
      (by simp [Standing.status, Standing.outcome]) ?_) hj rfl ht'
    rw [htold.none_told (Or.inr ⟨_, _, hA⟩)]
    rfl
  | @succeed call task given snapshot outputs hcall hrun hintime ha hg =>
    obtain ⟨ctx, hA, ht'⟩ := ht.succeeded hc hcall hrun hintime ha hg
    have hmore : ((((s.release call.pair).publish call.pair.fqn outputs).conclude c call.pair
        task.fingerprint snapshot outputs ((call.due - call.started) * 1000)).settle c.plan
          call.pair).journal = s.journal ++ (publication call.pair.fqn outputs s.files ++
            [⟨.succeeded call.pair ((call.due - call.started) * 1000),
              (c.store.save c.graph.stackName (s.buildstate.markSucceeded call.pair.fqn
                call.pair.phase task.fingerprint snapshot outputs) s.files).files⟩]) := by
      rw [← List.append_assoc]
      rfl
    refine Told.narrated (htold.published (by simp [hA, Standing.status, Standing.outcome]) rfl rfl
      (isSome_of_gain hg) (Or.inr rfl) ?_) hj hmore ht'
    rw [htold.start_told hA]
    exact ⟨_, rfl⟩
  | @fail call task cause hcall hrun hintime ha =>
    obtain ⟨ctx, hA, ht'⟩ := ht.failed hc hcall hrun hintime ha
    refine Told.narrated (htold.reported (by simp [hA, Standing.status, Standing.outcome]) rfl
      (by simp [Standing.status, Standing.outcome]) ?_) hj rfl ht'
    rw [htold.start_told hA]
    exact ⟨_, rfl⟩
  | @timeout x task deadline hrun hd hlate =>
    obtain ⟨ctx, hA, ht'⟩ := ht.timedOut hc hrun hd hlate
    refine Told.narrated (htold.reported (by simp [hA, Standing.status, Standing.outcome]) rfl
      (by simp [Standing.status, Standing.outcome]) ?_) hj rfl ht'
    rw [htold.start_told hA]
    exact ⟨_, rfl⟩
  | @late x ha => exact ⟨A, journal, ht.returned hc ha, hj, htold⟩

/-- At the beginning nothing has been told about any pair. -/
theorem narrated_initial {sched : Scheduler} {plan : Plan} {phases : List Phase} {files : Files}
    (h : Tied (sched.setup plan) (sched.initial plan phases files) .start
      (sched.initial plan phases files)) :
    Narrated (sched.setup plan) (sched.initial plan phases files)
      (sched.initial plan phases files) := by
  refine ⟨_, [], h, (List.append_nil _).symm, by simp, fun p => rfl, fun fqn => ?_⟩
  simp [outputReports, Chart.start, Standing.status, Standing.outcome]

/-- **The journal of a run that reports** tells of every pair how it has settled. -/
theorem Scheduler.told_spec {s : Scheduler} (h : s.Usable) {phases : List Phase} {files : Files}
    {report : Report} (hr : (s.run phases files).report = .ok report) :
    ∃ plan n last A journal, s.Follows phases files plan n last A ∧
      s.run phases files = s.ended (requestedPhases phases) last ∧
      report = s.reportOf (requestedPhases phases) last ∧
      (∀ p, (s.setup plan).Planned p → (A p).settled = true) ∧
      last.journal = (s.initial plan (requestedPhases phases) files).journal ++ journal ∧
      Told A journal := by
  obtain ⟨plan, n, last, B, hfollows, hrun, hreport, hall⟩ := s.settled_spec h hr
  have htied := tied_initial hfollows.checked (requestedPhases phases) files h.resolver
  obtain ⟨A, journal, hA, hj, htold⟩ := hfollows.steps.keeps hfollows.checked
    (fun _ t h => h.tick t) (fun _ _ _ _ hm h => h.move hfollows.checked hm) htied timely_initial
    (narrated_initial htied)
  refine ⟨plan, n, last, A, journal, ⟨hfollows.checked, hfollows.bound, hfollows.steps, hA⟩, hrun,
    hreport, fun p hp => ?_, hj, htold⟩
  have hsettled := hall p hp
  rwa [Standing.settled, ← hfollows.tied.shown.status, hA.shown.status] at hsettled

/-- The events of a plan, of news, and of an end. -/
def newsEvents (command : String) (plan : Progress) (news : List Progress) (last : Progress) :
    List Event :=
  (plan :: (news ++ [last])).map fun e => .of command e.body

/-- The events of a run that reports, from what its journal tells. -/
theorem Scheduler.events_of_journal {s : Scheduler} {phases : List Phase} {files : Files}
    {plan : Plan} {last : RunState} {journal : List Entry}
    (hrun : s.run phases files = s.ended (requestedPhases phases) last)
    (hj : last.journal = (s.initial plan (requestedPhases phases) files).journal ++ journal) :
    (s.run phases files).events = newsEvents s.command
      (.planned (requestedPhases phases) (Table.keys plan) s.releaseName s.shownWorkers)
      (journal.map Entry.progress) (.finished (s.reportOf (requestedPhases phases) last).status
        (s.reportOf (requestedPhases phases) last).counts
        (s.reportOf (requestedPhases phases) last).durationMs) := by
  rw [hrun]
  change (last.journal ++ [_]).map _ = _
  simp only [hj, newsEvents, List.map_append, List.map_cons, List.map_map, List.append_assoc]
  rfl

/-- **The events of a run that reports**: its plan, news, and its end with the status of the
report. -/
theorem Scheduler.events_spec {s : Scheduler} (h : s.Usable) {phases : List Phase} {files : Files}
    {report : Report} (hr : (s.run phases files).report = .ok report) :
    ∃ pairs news, (∀ e ∈ news, e.isNews = true) ∧
      (s.run phases files).events = newsEvents s.command
        (.planned (requestedPhases phases) pairs s.releaseName s.shownWorkers) news
        (.finished report.status report.counts report.durationMs) := by
  obtain ⟨plan, n, last, A, journal, -, hrun, rfl, -, hj, htold⟩ := s.told_spec h hr
  refine ⟨_, _, ?_, s.events_of_journal hrun hj⟩
  intro e he
  obtain ⟨entry, hentry, rfl⟩ := List.mem_map.mp he
  exact htold.news entry hentry

end Rollout
