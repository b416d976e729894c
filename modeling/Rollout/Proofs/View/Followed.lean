import Rollout.Proofs.Run.Contained
import Rollout.Proofs.View.Tally

/-!
# Following a run

Whoever follows the events of a run that reports knows the report at the end. The board says of
every pair of the report what has become of it, and nothing of other pairs; it has gathered the
failures, and the run itself says in the end what the board counts up to.

Nothing here depends on the order in which the pairs move: it rests on the stories that the journal
of a run tells, pair by pair.

**Types.** `Story`, `Report.Followed`.

**Operations.** `EventBody.isNews`, `EventBody.isOutputsOf`, `Board.after`.

**Results.** `followed_run`: the events of a run that reports, next to its report.
-/

namespace Rollout

open View

namespace EventBody

/-- Whether an event says that the outputs of a unit have been recorded. -/
def isOutputsOf (fqn : String) : EventBody → Bool
  | .outputsRecorded other _ => other == fqn
  | _ => false

/-- Whether an event is about a pair or about outputs. -/
def isNews : EventBody → Bool
  | .outputsRecorded _ _ => true
  | b => b.pairLine?.isSome

end EventBody

theorem Pair.line_injective {p q : Pair} (h : p.line = q.line) : p = q := by
  obtain ⟨hf, hp⟩ := PairLine.mk.inj h
  exact Pair.eq_of_fields hf (Phase.eq_of_text hp)

/-- A failure as a board shows it. -/
def PairFailure.shown (f : PairFailure) : UnitFailure :=
  ⟨f.pair.fqn, f.pair.phase.text, f.cause, f.timedOut⟩

/-- The board of somebody who has followed events from the first one. -/
def View.Board.after (events : List Event) : Board := events.foldl Board.apply {}

/-- What events tell about a pair, in the order in which they do, when its outcome is this one. -/
inductive Story (p : Pair) (o : Outcome) : List EventBody → Prop
  | skipped {blocker : String} (hs : o.status = .skipped) (hr : o.reused = false)
      (hb : o.blockedBy = some blocker) : Story p o [.unitSkipped p.fqn p.phase.text blocker]
  | missing {cause : String} (hs : o.status = .failed) (hr : o.reused = false)
      (hc : o.cause = some cause) (ht : o.timedOut = false) :
      Story p o [.unitFailed p.fqn p.phase.text 0 cause false]
  | reused {digest : String} (hs : o.status = .succeeded) (hr : o.reused = true)
      (hd : o.fingerprint = some digest) : Story p o [.unitReused p.fqn p.phase.text digest]
  | succeeded {ms : Rat} (hs : o.status = .succeeded) (hr : o.reused = false) :
      Story p o [.unitStarted p.fqn p.phase.text, .unitSucceeded p.fqn p.phase.text ms]
  | failed {ms : Rat} {cause : String} (hs : o.status = .failed) (hr : o.reused = false)
      (hc : o.cause = some cause) :
      Story p o [.unitStarted p.fqn p.phase.text, .unitFailed p.fqn p.phase.text ms cause o.timedOut]

theorem Story.reused_succeeded {p : Pair} {o : Outcome} {told : List EventBody} (h : Story p o told)
    (hreused : o.reused = true) : o.status = .succeeded := by
  cases h with
  | reused hs => exact hs
  | skipped _ hr => exact absurd (hreused.symm.trans hr) (by simp)
  | missing _ hr => exact absurd (hreused.symm.trans hr) (by simp)
  | succeeded _ hr => exact absurd (hreused.symm.trans hr) (by simp)
  | failed _ hr => exact absurd (hreused.symm.trans hr) (by simp)

theorem Story.terminal {p : Pair} {o : Outcome} {told : List EventBody} (h : Story p o told) :
    o.status = .succeeded ∨ o.status = .failed ∨ o.status = .skipped := by
  cases h with
  | skipped hs => exact Or.inr (Or.inr hs)
  | missing hs => exact Or.inr (Or.inl hs)
  | reused hs => exact Or.inl hs
  | succeeded hs => exact Or.inl hs
  | failed hs => exact Or.inr (Or.inl hs)

/-- **The events of a run, next to its report.** -/
structure Report.Followed (report : Report) (command : String) (events : List Event) : Prop where
  /-- The plan, news about pairs and outputs, and the end with what the board counts up to. -/
  frame : ∃ workers news ms, events =
    .of command (.runPlanned (report.phases.map Phase.text)
        ((Table.keys report.pairs).map Pair.line) report.releaseName workers) ::
      (news ++ [.of command (.runFinished (PhaseWord.verdict (Board.after events).cells)
        (PhaseWord.tally (Board.after events).cells) ms)]) ∧
    ∀ e ∈ news, e.body.isNews = true
  words : ∀ p o, Table.get? p report.pairs = some o →
    (Board.after events).phase? p.fqn p.phase.text = some o.word
  silence : ∀ line : PairLine, (∀ p ∈ Table.keys report.pairs, p.line ≠ line) →
    (Board.after events).phase? line.fqn line.phase = none ∧
      ∀ e ∈ events, e.body.pairLine? ≠ some line
  failures : (Board.after events).failures.Perm (report.failures.map PairFailure.shown)
  stories : ∀ p o, Table.get? p report.pairs = some o →
    Story p o ((events.map Event.body).filter fun e => e.pairLine? = some p.line)
  outputs : ∀ fqn, (events.map Event.body).countP (EventBody.isOutputsOf fqn) =
    if (Table.get? ⟨fqn, .deploy⟩ report.pairs).any fun o => o.status == .succeeded then 1 else 0
  finish : (Board.after events).runEnd = some ⟨PhaseWord.verdict (Board.after events).cells,
    PhaseWord.tally (Board.after events).cells⟩
  total : (Board.after events).cells.countP PhaseWord.done +
    ((Board.after events).cells.countP fun c => c.word == "failed") +
      ((Board.after events).cells.countP fun c => c.word == "skipped") = report.pairs.length

/-! ### One pair -/

/-- The failure that an outcome is. -/
def Outcome.failure? (p : Pair) (o : Outcome) : Option UnitFailure :=
  if o.status = .failed then some ⟨p.fqn, p.phase.text, o.cause.getD "", o.timedOut⟩ else none

/-- **What is told about a settled pair** is the story of its outcome; it ends with the word for the
outcome, and tells of a failure if the outcome is one. -/
theorem Standing.Tells.story {p : Pair} {st : Standing} {told : List Progress} {o : Outcome}
    (h : st.Tells p told) (hs : st.settled = true) (ho : o.untimed = st.outcome) :
    Story p o (told.map Progress.body) ∧
      (told.filterMap Progress.word?).getLast? = some o.word ∧
      told.filterMap Progress.failure? = (o.failure? p).toList := by
  have heq := Outcome.eq_of_untimed ho
  cases st with
  | skipped b =>
    obtain rfl : told = [.skipped p b] := h
    rw [heq]
    exact ⟨.skipped rfl rfl rfl, rfl, rfl⟩
  | missing cause =>
    obtain rfl : told = [.failed p 0 cause false] := h
    rw [heq]
    exact ⟨.missing rfl rfl rfl rfl, rfl, rfl⟩
  | reused digest outputs =>
    obtain rfl : told = [.reused p digest] := h
    rw [heq]
    exact ⟨.reused rfl rfl rfl, rfl, rfl⟩
  | succeeded digest ctx snapshot outputs =>
    obtain ⟨ms, rfl⟩ : ∃ ms, told = [.started p, .succeeded p ms] := h
    rw [heq]
    exact ⟨.succeeded rfl rfl, rfl, rfl⟩
  | failed digest ctx cause timedOut =>
    obtain ⟨ms, rfl⟩ : ∃ ms, told = [.started p, .failed p ms cause timedOut] := h
    rw [heq]
    exact ⟨.failed rfl rfl rfl, rfl, rfl⟩
  | _ => cases hs

theorem isNews_body {e : Progress} (h : e.isNews = true) : e.body.isNews = true := by
  cases e <;> first | rfl | cases h

theorem isOutputsOf_body (fqn : String) (e : Progress) :
    e.body.isOutputsOf fqn = e.isOutputsOf fqn := by
  cases e <;> rfl

/-- What is heard about a pair comes from what is told about it. -/
theorem filterMap_wordOn? (p : Pair) (journal : List Entry) :
    (journal.map Entry.progress).filterMap (Progress.wordOn? p.fqn p.phase.text) =
      (toldOf p journal).filterMap Progress.word? := by
  rw [toldOf, List.filterMap_filter]
  refine List.filterMap_congr fun e _ => ?_
  unfold Progress.wordOn?
  cases he : e.pair? with
  | none => rfl
  | some q =>
    have hline : (q.fqn = p.fqn ∧ q.phase.text = p.phase.text) ↔ q = p :=
      ⟨fun h => Pair.line_injective (PairLine.mk.injEq .. ▸ h), fun h => by rw [h]; exact ⟨rfl, rfl⟩⟩
    simp [hline]

/-! ### The whole run -/

section

variable {c : Setup} {base last : RunState} {A : Chart} {journal : List Entry} {report : Report}

/-- The settled pairs of a report, with what the journal has told about them. -/
structure Settled (c : Setup) (A : Chart) (journal : List Entry) (report : Report) : Prop where
  told : Told A journal
  nodup : (Table.keys report.pairs).Nodup
  planned : ∀ p, p ∈ Table.keys report.pairs ↔ c.Planned p
  waiting : ∀ p, ¬c.Planned p → A p = .waiting
  settled : ∀ p, c.Planned p → (A p).settled = true
  outcome : ∀ p o, Table.get? p report.pairs = some o → o.untimed = (A p).outcome

namespace Settled

theorem story (h : Settled c A journal report) {p : Pair} {o : Outcome}
    (ho : Table.get? p report.pairs = some o) :
    Story p o ((toldOf p journal).map Progress.body) ∧
      ((toldOf p journal).filterMap Progress.word?).getLast? = some o.word ∧
      (toldOf p journal).filterMap Progress.failure? = (o.failure? p).toList := by
  have hmem : p ∈ Table.keys report.pairs :=
    List.mem_map_of_mem (f := Prod.fst) (Table.mem_of_get? ho)
  exact (h.told.pairs p).story (h.settled p ((h.planned p).mp hmem)) (h.outcome p o ho)

/-- Whatever is told is told about pairs of the report. -/
theorem mem_of_told (h : Settled c A journal report) {e : Progress}
    (he : e ∈ journal.map Entry.progress) {p : Pair} (hp : e.pair? = some p) :
    p ∈ Table.keys report.pairs := by
  rw [h.planned]
  by_contra hnot
  have htold := h.told.pairs p
  rw [h.waiting p hnot] at htold
  have hmem : e ∈ toldOf p journal := List.mem_filter.mpr ⟨he, decide_eq_true hp⟩
  rw [show toldOf p journal = [] from htold] at hmem
  cases hmem

theorem reusedSucceeded (h : Settled c A journal report) : report.ReusedSucceeded := fun _ he hr =>
  (h.story ((Table.get?_eq_some_iff h.nodup).mpr he)).1.reused_succeeded hr

/-- The failures that are told are those of the report. -/
theorem failures_perm (h : Settled c A journal report) :
    ((journal.map Entry.progress).filterMap Progress.failure?).Perm
      (report.failures.map PairFailure.shown) := by
  have hkeys : ∀ e ∈ journal.map Entry.progress, e.failure?.isSome →
      ∃ p ∈ Table.keys report.pairs, e.pair? = some p := by
    intro e he hf
    obtain ⟨p, hp⟩ : ∃ p, e.pair? = some p := by
      cases e <;> first | exact ⟨_, rfl⟩ | cases hf
    exact ⟨p, h.mem_of_told he hp, hp⟩
  refine (Table.perm_flatMap_filter h.nodup hkeys).trans (List.Perm.of_eq ?_)
  rw [Table.keys, List.flatMap_map, Report.failures, List.map_map]
  have hpairs : ∀ e ∈ report.pairs, ((journal.map Entry.progress).filter fun a =>
      a.pair? = some e.1).filterMap Progress.failure? = (e.2.failure? e.1).toList := fun e he =>
    (h.story ((Table.get?_eq_some_iff h.nodup).mpr he)).2.2
  rw [List.flatMap_congr hpairs]
  generalize report.pairs = pairs
  induction pairs with
  | nil => rfl
  | cons e pairs ih =>
    rw [List.flatMap_cons, ih]
    by_cases hs : e.2.status = .failed
    · simp [Outcome.failure?, hs, PairFailure.shown]
    · simp [Outcome.failure?, hs]

/-- What is heard about a pair is heard about one of the report. -/
theorem filterMap_wordOn?_eq_nil (h : Settled c A journal report) {line : PairLine}
    (hline : ∀ p ∈ Table.keys report.pairs, p.line ≠ line) :
    (journal.map Entry.progress).filterMap (Progress.wordOn? line.fqn line.phase) = [] := by
  refine List.filterMap_eq_nil_iff.mpr fun e he => ?_
  unfold Progress.wordOn?
  cases hp : e.pair? with
  | none => rfl
  | some p =>
    have hne := hline p (h.mem_of_told he hp)
    rw [if_neg]
    simp only [Option.any_some, decide_eq_true_eq]
    rintro ⟨hf, hphase⟩
    exact hne (PairLine.mk.injEq .. ▸ ⟨hf, hphase⟩)

theorem isNews (h : Settled c A journal report) :
    ∀ e ∈ journal.map Entry.progress, e.isNews = true := by
  intro e he
  obtain ⟨entry, hentry, rfl⟩ := List.mem_map.mp he
  exact h.told.news entry hentry

end Settled

/-! ### The board before the end -/

/-- The board that expects the pairs of a report and has heard the news. -/
def Report.heard (report : Report) (command : String) (news : List Progress) : Board :=
  Board.hear command (({ releaseName := some report.releaseName } : Board).expect
    (Table.keys report.pairs)) news

namespace Settled

theorem words (h : Settled c A journal report) (command : String) {p : Pair} {o : Outcome}
    (ho : Table.get? p report.pairs = some o) :
    (report.heard command (journal.map Entry.progress)).phase? p.fqn p.phase.text =
      some o.word := by
  rw [Report.heard, Board.phase?_hear h.isNews, filterMap_wordOn?, (h.story ho).2.1, Option.some_or]

theorem silence (h : Settled c A journal report) (command : String) {line : PairLine}
    (hline : ∀ p ∈ Table.keys report.pairs, p.line ≠ line) :
    (report.heard command (journal.map Entry.progress)).phase? line.fqn line.phase = none := by
  have hnone : ¬∃ p ∈ Table.keys report.pairs, p.fqn = line.fqn ∧ p.phase.text = line.phase := by
    rintro ⟨p, hp, hf, hphase⟩
    exact hline p hp (PairLine.mk.injEq .. ▸ ⟨hf, hphase⟩)
  rw [Report.heard, Board.phase?_hear h.isNews, h.filterMap_wordOn?_eq_nil hline,
    Board.phase?_expect, if_neg hnone]
  rfl

theorem clear (h : Settled c A journal report) (command : String) :
    (report.heard command (journal.map Entry.progress)).Clear := by
  have hempty : Board.Clear { releaseName := some report.releaseName } :=
    ⟨List.Pairwise.nil, by simp⟩
  exact (hempty.expect _).hear h.isNews

/-- The board has the cells of the report. -/
theorem cells_perm (h : Settled c A journal report) (command : String) :
    (report.heard command (journal.map Entry.progress)).cells.Perm report.cells := by
  have hnodup : report.cells.Nodup := by
    have hn := h.nodup
    rw [Table.keys, List.nodup_iff_pairwise_ne, List.pairwise_map] at hn
    rw [Report.cells, List.nodup_iff_pairwise_ne, List.pairwise_map]
    refine hn.imp fun hne heq => hne (Pair.line_injective ?_)
    obtain ⟨hf, hp, -⟩ := PhaseWord.mk.inj heq
    exact PairLine.mk.injEq .. ▸ ⟨hf, hp⟩
  have hclear := h.clear command
  refine (List.perm_ext_iff_of_nodup (Board.nodup_cells hclear) hnodup).mpr fun cell => ?_
  rw [Board.mem_cells hclear, Report.cells, List.mem_map]
  constructor
  · intro hcell
    by_cases hall : ∀ p ∈ Table.keys report.pairs, p.line ≠ ⟨cell.unit, cell.phase⟩
    · rw [h.silence command hall] at hcell
      cases hcell
    · simp only [not_forall, not_not, exists_prop] at hall
      obtain ⟨p, hp, hline⟩ := hall
      obtain ⟨o, ho⟩ := Table.exists_get?_of_mem hp
      obtain ⟨hf, hphase⟩ := PairLine.mk.inj hline
      have hword := h.words command ho
      rw [hf, hphase, hcell, Option.some.injEq] at hword
      refine ⟨(p, o), Table.mem_of_get? ho, ?_⟩
      rw [hf, hphase, ← hword]
  · rintro ⟨e, he, rfl⟩
    exact h.words command ((Table.get?_eq_some_iff h.nodup).mpr he)

theorem failures_heard (h : Settled c A journal report) (command : String) :
    (report.heard command (journal.map Entry.progress)).failures.Perm
      (report.failures.map PairFailure.shown) := by
  rw [Report.heard, Board.failures_hear h.isNews, Board.failures_expect]
  exact h.failures_perm

/-- Pairs that are settled have succeeded, failed or been skipped. -/
theorem total (h : Settled c A journal report) :
    report.cells.countP PhaseWord.done + (report.cells.countP fun c => c.word == "failed") +
      (report.cells.countP fun c => c.word == "skipped") = report.pairs.length := by
  rw [Report.countP_cells (q := fun o => o.status == .succeeded) fun e he =>
      Report.done_word (h.reusedSucceeded e he) _ _,
    Report.countP_cells (q := fun o => o.status == .failed) fun e he =>
      Report.failed_word (h.reusedSucceeded e he),
    Report.countP_cells (q := fun o => o.status == .skipped) fun e he =>
      Report.skipped_word (h.reusedSucceeded e he)]
  have hall : ∀ e ∈ report.pairs,
      e.2.status = .succeeded ∨ e.2.status = .failed ∨ e.2.status = .skipped := fun e he =>
    (h.story ((Table.get?_eq_some_iff h.nodup).mpr he)).1.terminal
  generalize report.pairs = pairs at hall
  induction pairs with
  | nil => rfl
  | cons e pairs ih =>
    obtain ⟨he, hpairs⟩ := List.forall_mem_cons.mp hall
    have hrest := ih hpairs
    rcases he with he | he | he <;> simp [he] <;> omega

/-- The outputs of a unit are reported once if its deployment has succeeded. -/
theorem outputs (h : Settled c A journal report) (fqn : String) :
    outputReports fqn journal =
      if (Table.get? ⟨fqn, .deploy⟩ report.pairs).any fun o => o.status == .succeeded
      then 1 else 0 := by
  rw [h.told.outputs]
  refine if_congr ?_ rfl rfl
  cases ho : Table.get? ⟨fqn, .deploy⟩ report.pairs with
  | none =>
    have hnot : ¬c.Planned ⟨fqn, .deploy⟩ := by
      rw [← h.planned, ← Table.get?_eq_none_iff]
      exact ho
    rw [h.waiting _ hnot]
    simp [Standing.status, Standing.outcome]
  | some o =>
    rw [Standing.status, ← h.outcome _ o ho]
    simp [Outcome.untimed]

end Settled

/-! ### The events -/

/-- The bodies of the events that the news and what stands around them make. -/
theorem filter_newsEvents {command : String} {plan last : Progress} {news : List Progress}
    {p : EventBody → Bool} (hplan : p plan.body = false) (hlast : p last.body = false) :
    ((newsEvents command plan news last).map Event.body).filter p =
      (news.filter fun e => p e.body).map Progress.body := by
  have hbodies : (newsEvents command plan news last).map Event.body =
      plan.body :: (news.map Progress.body ++ [last.body]) := by
    simp [newsEvents, Event.of]
  rw [hbodies, List.filter_cons_of_neg (by simp [hplan]), List.filter_append,
    List.filter_cons_of_neg (by simp [hlast]), List.filter_nil, List.append_nil, List.filter_map]
  rfl

theorem after_newsEvents (report : Report) (command : String) (phases : List Phase)
    (workers : Value) (news : List Progress) (status : RunStatus) (counts : Table String Int)
    (ms : Rat) :
    Board.after (newsEvents command
        (.planned phases (Table.keys report.pairs) report.releaseName workers) news
        (.finished status counts ms)) =
      { report.heard command news with runEnd := some ⟨status.text, counts⟩ } := by
  rw [Board.after, newsEvents, List.map_cons, List.foldl_cons, List.map_append, List.foldl_append,
    Board.apply_planned]
  rfl

/-- **What the events of settled pairs say**, once the plan has been told before them and the end
after them. -/
theorem Settled.followed (h : Settled c A journal report) (command : String) (workers : Value) :
    report.Followed command (newsEvents command
      (.planned report.phases (Table.keys report.pairs) report.releaseName workers)
      (journal.map Entry.progress)
      (.finished report.status report.counts report.durationMs)) := by
  have hafter := after_newsEvents report command report.phases workers (journal.map Entry.progress)
    report.status report.counts report.durationMs
  set events := newsEvents command
    (.planned report.phases (Table.keys report.pairs) report.releaseName workers)
    (journal.map Entry.progress) (.finished report.status report.counts report.durationMs)
    with hevents
  have hsame : (Board.after events).cells =
      (report.heard command (journal.map Entry.progress)).cells := by
    rw [hafter]
    rfl
  have hperm : (Board.after events).cells.Perm report.cells := hsame ▸ h.cells_perm command
  have htally : report.counts = PhaseWord.tally (Board.after events).cells :=
    (report.counts_eq_tally h.reusedSucceeded).trans (PhaseWord.tally_perm hperm).symm
  have hverdict : report.status.text = PhaseWord.verdict (Board.after events).cells :=
    (report.status_eq_verdict h.reusedSucceeded).trans (PhaseWord.verdict_perm hperm).symm
  refine ⟨⟨workers, (journal.map Entry.progress).map fun e => .of command e.body,
    report.durationMs, ?_, ?_⟩, ?_, ?_, ?_, ?_, ?_, ?_, ?_⟩
  · rw [← hverdict, ← htally, hevents, newsEvents, List.map_cons, List.map_append]
    rfl
  · intro e he
    obtain ⟨news, hmem, rfl⟩ := List.mem_map.mp he
    exact isNews_body (h.isNews _ hmem)
  · intro p o ho
    rw [hafter]
    exact h.words command ho
  · intro line hline
    rw [hafter]
    refine ⟨h.silence command hline, fun e he hlines => ?_⟩
    have hmem : e.body ∈ (events.map Event.body).filter fun b => b.pairLine? = some line :=
      List.mem_filter.mpr ⟨List.mem_map_of_mem he, decide_eq_true hlines⟩
    rw [hevents, filter_newsEvents rfl rfl] at hmem
    obtain ⟨news, hnews, -⟩ := List.mem_map.mp hmem
    obtain ⟨hnews, hpair⟩ := List.mem_filter.mp hnews
    rw [decide_eq_true_eq, Progress.pairLine?_body] at hpair
    obtain ⟨p, hp, hpl⟩ := Option.map_eq_some_iff.mp hpair
    exact hline p (h.mem_of_told hnews hp) hpl
  · rw [hafter]
    exact h.failures_heard command
  · intro p o ho
    rw [hevents, filter_newsEvents rfl rfl]
    have htold : ((journal.map Entry.progress).filter fun e => e.body.pairLine? = some p.line) =
        toldOf p journal := by
      refine List.filter_congr fun e _ => ?_
      rw [Progress.pairLine?_body]
      cases e.pair? with
      | none => simp
      | some q => simpa using ⟨Pair.line_injective, congrArg _⟩
    rw [htold]
    exact (h.story ho).1
  · intro fqn
    rw [List.countP_eq_length_filter, hevents, filter_newsEvents rfl rfl, List.length_map,
      ← h.outputs, outputReports, List.countP_eq_length_filter]
    simp only [isOutputsOf_body]
  · rw [← hverdict, ← htally, hafter]
  · rw [hperm.countP_eq, hperm.countP_eq, hperm.countP_eq]
    exact h.total

end

/-- **The events of a run tell its report.** A run that reports begins with its plan and ends with
its end. Whoever has followed its events has the word for the outcome of every pair of the report
and for nothing else, has gathered the failures of the report, and counts up to what the run says at
its end. In between, every pair has one of five stories, and the outputs of a unit are reported once
if its deployment has succeeded and not at all otherwise. -/
theorem followed_run {s : Scheduler} (hs : s.Usable) {phases : List Phase} {files : Files}
    {report : Report} (hr : (s.run phases files).report = .ok report) :
    report.Followed s.command (s.run phases files).events := by
  obtain ⟨plan, n, last, A, journal, hfollows, hrun, rfl, hall, hj, htold⟩ := s.told_spec hs hr
  have hshown := hfollows.tied.shown
  have hkeys : Table.keys last.outcomes = Table.keys plan := hshown.keys
  have hsettled : Settled (s.setup plan) A journal (s.reportOf (requestedPhases phases) last) := by
    refine ⟨htold, ?_, fun p => ?_, hshown.offPlan, hall, fun p o ho => ?_⟩
    · exact hkeys.symm ▸ hfollows.checked.nodup
    · exact Iff.of_eq (congrArg (p ∈ ·) hkeys)
    · exact (hshown.untimed_of_get? ho).2
  rw [s.events_of_journal hrun hj, ← hkeys]
  exact hsettled.followed s.command s.shownWorkers

/-- In the shop where deployments fail, one initialization succeeds, the deployment behind it fails,
and the two pairs behind that are skipped. -/
theorem followed_run_shop :
    (Shop.scheduler [Shop.database, Shop.interface] 2 Shop.failing).Usable ∧
    ∃ report, ((Shop.scheduler [Shop.database, Shop.interface] 2 Shop.failing).run
        [.init, .deploy] []).report = .ok report ∧
      report.Followed "run" ((Shop.scheduler [Shop.database, Shop.interface] 2 Shop.failing).run
        [.init, .deploy] []).events := by
  have hs : (Shop.scheduler [Shop.database, Shop.interface] 2 Shop.failing).Usable :=
    ⟨rfl, by decide⟩
  have hok : ((Shop.scheduler [Shop.database, Shop.interface] 2 Shop.failing).run
      [.init, .deploy] []).report.isOk = true := by
    decide +kernel
  obtain ⟨report, hr⟩ := exists_of_isOk hok
  exact ⟨hs, report, hr, followed_run hs hr⟩

end Rollout
