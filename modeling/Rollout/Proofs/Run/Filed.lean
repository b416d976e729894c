import Rollout.Proofs.Buildstate.Readable
import Rollout.Proofs.Run.Ordering

/-!
# What a run has saved

A run saves its state when a pair succeeds, and only then. When a pair fails, the failure is noted in
the state, and stays unsaved until another pair succeeds.

So the state of a run is always one that has been saved, or the one the run began with, with the
unsaved failures noted on top of it; and the file of the stack holds the saved one, if no executor has
touched the file. All of them can be stored if the run began with such a state. About a pair whose
failure is unsaved, the saved state says what was known before the run.

**Types.** `Buildstate.account`, `Executors.Leave`, `Filed`.

**Operations.** `unsaved`: the failures in a journal behind which no success is reported.

**Results.**
* `Chart.account_record?`: what a run leaves open, and what it notes about a failed pair;
* `Buildstate.Storable.move`: every move keeps a state that can be stored;
* `Filed.move`: every move keeps a saved state behind the run;
* `Scheduler.Follows.filed`: so there is one at the end.
-/

namespace Rollout

open RunState

/-! ### What is known about a pair -/

/-- Whether a record has the phase marked as done, and the fingerprint that it keeps of it. -/
def UnitRecord.account (r : Option UnitRecord) (p : Phase) : Bool × Option String :=
  (r.any fun r => r.done p, r.bind fun r => r.fingerprint? p)

/-- Whether a state has a pair marked as done, and the fingerprint that it keeps of it. -/
def Buildstate.account (b : Buildstate) (p : Pair) : Bool × Option String :=
  UnitRecord.account (b.record? p.fqn) p.phase

namespace UnitRecord

theorem done_succeed_of_ne {p q : Phase} (h : q ≠ p) (r : UnitRecord) (digest : String)
    (snapshot : Option Value) (outputs : Option Entries) :
    (r.succeed p digest snapshot outputs).done q = r.done q := by
  have hmark := done_mark r p q true
  rw [if_neg h] at hmark
  rw [← hmark]
  cases q <;> rfl

theorem done_fail (r : UnitRecord) (p q : Phase) :
    (r.fail p).done q = if q = p then false else r.done q := by
  rw [← done_mark r p q false]
  cases q <;> rfl

theorem keys_fail (r : UnitRecord) (p : Phase) :
    Table.keys (r.fail p).fingerprints = (Table.keys r.fingerprints).erase p.text := by
  rw [← Table.keys_erase]
  simp [fail, fingerprints_mark]

theorem keys_succeed (r : UnitRecord) (p : Phase) (digest : String) (snapshot : Option Value)
    (outputs : Option Entries) : Table.keys (r.succeed p digest snapshot outputs).fingerprints =
      if p.text ∈ Table.keys r.fingerprints then Table.keys r.fingerprints
      else Table.keys r.fingerprints ++ [p.text] := by
  rw [← Table.keys_set p.text digest]
  simp [succeed, fingerprints_mark]

/-- A failed phase is open, and has no fingerprint. -/
theorem account_fail {r : UnitRecord} (hr : (Table.keys r.fingerprints).Nodup) (p : Phase) :
    account (some (r.fail p)) p = (false, none) := by
  have herase : (r.fail p).fingerprint? p = none := by
    rw [fingerprint?, show (r.fail p).fingerprints = Table.erase p.text r.fingerprints by
      simp [fail, fingerprints_mark], Table.get?_erase_self hr]
  simp [account, done_fail, herase]

/-- The failure of a phase leaves open what is known about the others. -/
theorem account_fail_of_ne {p q : Phase} (h : q ≠ p) (r : Option UnitRecord) :
    account (r.map (fail p)) q = account r q := by
  cases r with
  | none => rfl
  | some r => simp [account, done_fail, if_neg h, fingerprint?_fail_of_ne h]

end UnitRecord

/-- A pair that comes to stand differently leaves open what is known about the others. -/
theorem Standing.account_mark_of_ne {p q : Phase} (h : q ≠ p) (st : Standing)
    (r : Option UnitRecord) : UnitRecord.account (st.mark p r) q = UnitRecord.account r q := by
  cases st with
  | succeeded digest ctx snapshot outputs =>
    cases r <;> simp [mark, UnitRecord.account, UnitRecord.done_succeed_of_ne h,
      UnitRecord.fingerprint?_succeed_of_ne h]
    cases q <;> rfl
  | missing cause => exact UnitRecord.account_fail_of_ne h r
  | failed digest ctx cause timedOut => exact UnitRecord.account_fail_of_ne h r
  | _ => rfl

theorem Standing.nodup_mark (p : Phase) (st : Standing) {r : Option UnitRecord}
    (hr : ∀ x ∈ r, (Table.keys x.fingerprints).Nodup) :
    ∀ x ∈ st.mark p r, (Table.keys x.fingerprints).Nodup := by
  have hfail : ∀ x ∈ r.map (UnitRecord.fail p), (Table.keys x.fingerprints).Nodup := by
    intro x hx
    obtain ⟨y, rfl, rfl⟩ := Option.map_eq_some_iff.mp hx
    rw [UnitRecord.keys_fail]
    exact (hr y rfl).erase _
  cases st with
  | succeeded digest ctx snapshot outputs =>
    rintro x ⟨⟩
    rw [UnitRecord.keys_succeed]
    have hn : (Table.keys (r.getD {}).fingerprints).Nodup := by
      cases r with
      | none => exact List.nodup_nil
      | some r => exact hr r rfl
    split
    · exact hn
    · rename_i hnew
      rw [← List.concat_eq_append]
      exact hn.concat hnew
  | missing cause => exact hfail
  | failed digest ctx cause timedOut => exact hfail
  | _ => exact hr

/-- Of a pair that leaves the record of its unit alone is known after a run what was known before. -/
theorem Chart.account_of_unmarked (A : Chart) (b : Buildstate) {p : Pair}
    (h : (A p).unmarked = true) :
    UnitRecord.account (A.record? b p.fqn) p.phase = b.account p := by
  refine A.record?_keeps b (UnitRecord.account · p.phase) fun q r => ?_
  by_cases hq : q = p.phase
  · subst hq
    rw [Standing.mark_of_unmarked h]
  · exact Standing.account_mark_of_ne (Ne.symm hq) _ r

/-- What is known about a pair after a run is what the pair has made of some record: of the one that
the earlier phases of its unit have left. -/
theorem Chart.exists_account (A : Chart) (b : Buildstate) (p : Pair) :
    ∃ r, UnitRecord.account (A.record? b p.fqn) p.phase =
        UnitRecord.account ((A p).mark p.phase r) p.phase ∧
      ((∀ x ∈ b.record? p.fqn, (Table.keys x.fingerprints).Nodup) →
        ∀ x ∈ r, (Table.keys x.fingerprints).Nodup) := by
  obtain ⟨fqn, phase⟩ := p
  simp only [record?, Phase.all, List.foldl_cons, List.foldl_nil]
  cases phase with
  | init =>
    rw [Standing.account_mark_of_ne (show Phase.init ≠ .deploy by decide),
      Standing.account_mark_of_ne (show Phase.init ≠ .build by decide)]
    exact ⟨_, rfl, id⟩
  | build =>
    rw [Standing.account_mark_of_ne (show Phase.build ≠ .deploy by decide)]
    exact ⟨_, rfl, Standing.nodup_mark _ _⟩
  | deploy => exact ⟨_, rfl, fun hn => Standing.nodup_mark _ _ (Standing.nodup_mark _ _ hn)⟩

/-- A failed pair is noted in the record of its unit, if there is one. -/
theorem Standing.mark_of_failed {st : Standing} (h : st.status = .failed) (p : Phase)
    (r : Option UnitRecord) : st.mark p r = r.map (UnitRecord.fail p) := by
  cases st <;> first | rfl | cases h

/-- **What is known about a pair after a run**: of an open or reused pair what was known before, and
of a failed one that it is open. -/
theorem Chart.account_record? (A : Chart) {b : Buildstate} (hb : b.Distinct) (p : Pair) :
    ((A p).unmarked = true →
        UnitRecord.account (A.record? b p.fqn) p.phase = b.account p) ∧
      ((A p).status = .failed →
        UnitRecord.account (A.record? b p.fqn) p.phase = (false, none)) := by
  refine ⟨A.account_of_unmarked b, fun hfailed => ?_⟩
  obtain ⟨r, hr, hnodup⟩ := A.exists_account b p
  rw [hr, Standing.mark_of_failed hfailed]
  cases r with
  | none => rfl
  | some r =>
    exact UnitRecord.account_fail (hnodup (fun x hx => hb.record hx) r rfl) p.phase

/-! ### Changes of a state -/

namespace Buildstate

theorem account_markFailed_of_ne {b : Buildstate} {p q : Pair} (h : q ≠ p) :
    (b.markFailed p.fqn p.phase).account q = b.account q := by
  by_cases hfqn : q.fqn = p.fqn
  · have hphase : q.phase ≠ p.phase := fun heq => h (Pair.eq_of_fields hfqn heq)
    rw [account, account, hfqn, markFailed]
    cases hr : b.record? p.fqn with
    | none => rw [hr]
    | some r =>
      have hget : record? { b with units := Table.set p.fqn (r.fail p.phase) b.units } p.fqn =
          some (r.fail p.phase) := Table.get?_set_self _ _ _
      rw [hget]
      exact UnitRecord.account_fail_of_ne hphase (some r)
  · rw [account, account, markFailed_other _ hfqn]

theorem Distinct.set {b : Buildstate} (h : b.Distinct) (fqn : String) {r : UnitRecord}
    (hr : (Table.keys r.fingerprints).Nodup) :
    Buildstate.Distinct { b with units := Table.set fqn r b.units } := by
  constructor
  · rw [Table.keys_set]
    split
    · exact h.units
    · rename_i hnew
      rw [← List.concat_eq_append]
      exact h.units.concat hnew
  · intro e he
    rcases Table.mem_of_mem_set he with rfl | he
    · exact hr
    · exact h.fingerprints e he

theorem Distinct.markFailed {b : Buildstate} (h : b.Distinct) (fqn : String) (p : Phase) :
    (b.markFailed fqn p).Distinct := by
  unfold Buildstate.markFailed
  cases hr : b.record? fqn with
  | none => exact h
  | some r =>
    refine h.set fqn ?_
    rw [UnitRecord.keys_fail]
    exact (h.record hr).erase _

theorem Distinct.markSucceeded {b : Buildstate} (h : b.Distinct) (fqn : String) (p : Phase)
    (digest : String) (snapshot : Option Value) (outputs : Option Entries) :
    (b.markSucceeded fqn p digest snapshot outputs).Distinct := by
  have hr : ∀ x ∈ b.record? fqn, (Table.keys x.fingerprints).Nodup := fun x hx => h.record hx
  exact h.set fqn (Standing.nodup_mark p (.succeeded digest default snapshot outputs) hr _ rfl)

theorem Storable.set {b : Buildstate} (h : b.Storable) (fqn : String) {r : UnitRecord}
    (hn : (Table.keys r.fingerprints).Nodup) (hr : r.Mapped) :
    Buildstate.Storable { b with units := Table.set fqn r b.units } := by
  refine ⟨h.toDistinct.set fqn hn, h.version, fun e he => ?_⟩
  rcases Table.mem_of_mem_set he with rfl | he
  · exact hr
  · exact h.mapped e he

theorem Storable.markFailed {b : Buildstate} (h : b.Storable) (fqn : String) (p : Phase) :
    (b.markFailed fqn p).Storable := by
  unfold Buildstate.markFailed
  cases hr : b.record? fqn with
  | none => exact h
  | some r =>
    have hmapped := h.record hr
    refine h.set fqn ?_ (by cases p <;> exact hmapped)
    rw [UnitRecord.keys_fail]
    exact (h.toDistinct.record hr).erase _

theorem Storable.markSucceeded {b : Buildstate} (h : b.Storable) (fqn : String) (p : Phase)
    (digest : String) {snapshot : Option Value} (hs : ∀ v ∈ snapshot, ∃ entries, v = .map entries)
    (outputs : Option Entries) : (b.markSucceeded fqn p digest snapshot outputs).Storable := by
  have hn : ∀ x ∈ b.record? fqn, (Table.keys x.fingerprints).Nodup := fun x hx =>
    h.toDistinct.record hx
  refine h.set fqn
    (Standing.nodup_mark p (.succeeded digest default snapshot outputs) hn _ rfl) fun v hv => ?_
  -- the snapshot is the new one if there is one, and the earlier one otherwise
  have hkept (r : UnitRecord) : (r.mark p true).snapshot = r.snapshot := by cases p <;> rfl
  have hold : ((b.record? fqn).getD {}).Mapped := by
    cases hr : b.record? fqn with
    | none => exact nofun
    | some r => exact h.record hr
  change (snapshot.orElse fun _ => (((b.record? fqn).getD {}).mark p true).snapshot) = some v at hv
  cases snapshot with
  | none =>
    rw [hkept] at hv
    exact hold v hv
  | some w =>
    cases hv
    exact hs v rfl

/-- A state with failures noted on top of it, one after the other. -/
def withFailures (b : Buildstate) (pairs : List Pair) : Buildstate :=
  pairs.foldl (fun b p => b.markFailed p.fqn p.phase) b

theorem withFailures_append (b : Buildstate) (pairs : List Pair) (p : Pair) :
    b.withFailures (pairs ++ [p]) = (b.withFailures pairs).markFailed p.fqn p.phase := by
  simp [withFailures]

theorem Storable.withFailures {b : Buildstate} (h : b.Storable) (pairs : List Pair) :
    (b.withFailures pairs).Storable := by
  induction pairs using List.reverseRecOn with
  | nil => exact h
  | append_singleton pairs p ih =>
    rw [withFailures_append]
    exact ih.markFailed _ _

theorem account_withFailures {b : Buildstate} {pairs : List Pair} {q : Pair} (h : q ∉ pairs) :
    (b.withFailures pairs).account q = b.account q := by
  induction pairs using List.reverseRecOn with
  | nil => rfl
  | append_singleton pairs p ih =>
    rw [List.mem_append, List.mem_singleton, not_or] at h
    rw [withFailures_append, account_markFailed_of_ne h.2, ih h.1]

end Buildstate

/-- The pairs whose failures are reported without a success behind them, in order. -/
def unsaved (journal : List Entry) : List Pair :=
  journal.foldl (fun lost e =>
    match e.progress with
    | .succeeded _ _ => []
    | .failed p _ _ _ => lost ++ [p]
    | _ => lost) []

theorem unsaved_failed {journal : List Entry} {e : Entry} {p : Pair} {ms : Rat} {cause : String}
    {timedOut : Bool} (he : e.progress = .failed p ms cause timedOut) :
    unsaved (journal ++ [e]) = unsaved journal ++ [p] := by
  simp [unsaved, he]

theorem unsaved_succeeded {journal : List Entry} {e : Entry} {p : Pair} {ms : Rat}
    (he : e.progress = .succeeded p ms) : unsaved (journal ++ [e]) = [] := by
  simp [unsaved, he]

/-- Other reports leave open which failures are unsaved. -/
theorem unsaved_append {journal more : List Entry} (h : ∀ e ∈ more,
    (∀ p ms, e.progress ≠ .succeeded p ms) ∧
      ∀ p ms cause timedOut, e.progress ≠ .failed p ms cause timedOut) :
    unsaved (journal ++ more) = unsaved journal := by
  induction more using List.reverseRecOn with
  | nil => rw [List.append_nil]
  | append_singleton more e ih =>
    obtain ⟨hsucceeded, hfailed⟩ := h e (by simp)
    rw [← List.append_assoc, ← ih fun e he => h e (List.mem_append_left _ he)]
    rw [unsaved, List.foldl_append, List.foldl_cons, List.foldl_nil, ← unsaved]
    split
    · rename_i p ms heq
      exact absurd heq (hsucceeded p ms)
    · rename_i p ms cause timedOut heq
      exact absurd heq (hfailed p ms cause timedOut)
    · rfl

/-! ### The file of a run -/

/-- Executors leave alone what a path leads to. -/
def Executors.Leave (executors : Executors) (path : FilePath) : Prop :=
  ∀ p timeout work, Table.get? p executors = some ⟨timeout, some work⟩ →
    ∀ ctx files, (work ctx files).files.item? path = files.item? path

/-- A state is behind the run: the run has noted failures on top of it, and it is held under the path,
unless nothing has been saved. -/
structure Filed (path : FilePath) (base : RunState) (saved : Buildstate) (s : RunState) : Prop where
  storable : saved.Storable
  noted : s.buildstate = saved.withFailures (unsaved s.journal)
  lost : ∀ p ∈ unsaved s.journal,
    s.status p = .failed ∧ saved.account p = base.buildstate.account p
  held : saved = base.buildstate ∧ s.files.item? path = base.files.item? path ∨
    s.files.Hold path saved

variable {c : Setup} {requested : List Phase} {base s s' : RunState} {A : Chart} {path : FilePath}
  {saved : Buildstate}

/-- A snapshot that is gained is a mapping. -/
theorem RunState.snapshot_of_gain {namespaceName : String} {reply : Reply} {given : Option Entries}
    {snapshot : Option Value} {outputs : Option Entries}
    (hg : gain c base p namespaceName reply given = .ok (snapshot, outputs)) :
    ∀ v ∈ snapshot, ∃ entries, v = .map entries := by
  unfold gain at hg
  split at hg
  · obtain ⟨keys, -, hsame⟩ := eq_ok_of_map hg
    obtain ⟨rfl, -⟩ := Prod.mk.inj hsame
    rintro v ⟨⟩
    exact ⟨_, rfl⟩
  · obtain ⟨rfl, -⟩ := Prod.mk.inj (Except.ok.inj hg)
    exact nofun

/-- **Every move** keeps a state that can be stored. -/
theorem Buildstate.Storable.move (h : s.buildstate.Storable) (hm : Move c base s s') :
    s'.buildstate.Storable := by
  cases hm with
  | skip hp hv => exact h
  | miss hp hv => exact h.markFailed _ _
  | reuse hp hv => exact h
  | ready hp hv => exact h
  | start hr hw hn he hctx => exact h
  | @succeed call task given snapshot outputs hcall hrun hintime ha hg written hsave =>
    have hmarked := h.markSucceeded call.pair.fqn call.pair.phase task.fingerprint
      (snapshot_of_gain hg) outputs
    change (c.store.save _ _ _).state.Storable
    rw [Store.save_state]
    exact hmarked.stamped _ _
  | fail hcall hrun hintime ha => exact h.markFailed _ _
  | timeout hrun hd hlate => exact h.markFailed _ _
  | late ha => exact h

/-- A pair that has failed stays failed. -/
theorem Tied.failed_kept (hc : c.Checked requested) (h : Tied c base A s) (hm : Move c base s s')
    {p : Pair} (hp : s.status p = .failed) : s'.status p = .failed := by
  obtain ⟨A', h', hsettles, -⟩ := h.move hc hm
  rw [h.shown.status] at hp
  rw [h'.shown.status, hsettles p (by rw [Standing.settled, hp]; rfl), hp]

namespace Filed

/-- Nothing is saved, and no failure is noted. -/
theorem quiet (h : Filed path base saved s)
    (hstatus : ∀ p, s.status p = .failed → s'.status p = .failed)
    (hb : s'.buildstate = s.buildstate) (hj : unsaved s'.journal = unsaved s.journal)
    (hf : s'.files.item? path = s.files.item? path) : Filed path base saved s' := by
  refine ⟨h.storable, ?_, ?_, h.held.imp (fun hsame => ⟨hsame.1, hf.trans hsame.2⟩) (·.congr hf)⟩
  · rw [hb, hj]
    exact h.noted
  · rw [hj]
    exact fun p hp => ⟨hstatus p (h.lost p hp).1, (h.lost p hp).2⟩

/-- A failure is noted. -/
theorem failed (h : Filed path base saved s) (hbase : base.buildstate.Distinct)
    (ht : Tied c base A s) (hstatus : ∀ p, s.status p = .failed → s'.status p = .failed) {x : Pair}
    (hopen : (A x).settled = false) (hx : s'.status x = .failed)
    (hb : s'.buildstate = s.buildstate.markFailed x.fqn x.phase) {e : Entry} {ms : Rat}
    {cause : String} {timedOut : Bool} (he : e.progress = .failed x ms cause timedOut)
    (hj : s'.journal = s.journal ++ [e]) (hf : s'.files = s.files) :
    Filed path base saved s' := by
  have hnew : x ∉ unsaved s.journal := by
    intro hm
    have hfailed := (h.lost x hm).1
    rw [ht.shown.status] at hfailed
    rw [Standing.settled, hfailed] at hopen
    cases hopen
  -- the saved state says of the pair what the run says, and the pair has been open until now
  have haccount : saved.account x = base.buildstate.account x := by
    rw [← Buildstate.account_withFailures hnew, ← h.noted, Buildstate.account, ht.shown.record]
    exact (A.account_record? hbase x).1 (Standing.unmarked_of_not_settled hopen)
  refine ⟨h.storable, ?_, ?_, ?_⟩
  · rw [hb, hj, unsaved_failed he, Buildstate.withFailures_append, ← h.noted]
  · rw [hj, unsaved_failed he]
    intro p hp
    rcases List.mem_append.mp hp with hp | hp
    · exact ⟨hstatus p (h.lost p hp).1, (h.lost p hp).2⟩
    · rw [List.mem_singleton.mp hp]
      exact ⟨hx, haccount⟩
  · rw [hf]
    exact h.held

/-- **Every move** keeps a saved state behind the run. -/
theorem move (hc : c.Checked requested) {folder : FilePath}
    (hfolder : c.store.folder? = some folder) (hpath : path = Store.pathIn folder c.graph.stackName)
    (hleave : c.executors.Leave path) (hbase : base.buildstate.Distinct) (ht : Tied c base A s)
    (hm : Move c base s s') (h : ∃ saved, Filed path base saved s) :
    ∃ saved, Filed path base saved s' := by
  obtain ⟨saved, h⟩ := h
  have hstatus : ∀ p, s.status p = .failed → s'.status p = .failed :=
    fun p hp => ht.failed_kept hc hm hp
  have hstorable : s'.buildstate.Storable := by
    refine Buildstate.Storable.move ?_ hm
    rw [h.noted]
    exact h.storable.withFailures _
  have hopen {x : Pair} {st : Standing} (hst : st.settled = false) (hA : A x = st) :
      (A x).settled = false := by rw [hA, hst]
  cases hm with
  | skip hp hv => exact ⟨saved, h.quiet hstatus rfl (unsaved_append (by simp)) rfl⟩
  | @miss x rest cause hp hv =>
    have ht' := ht.missed hc hp hv
    refine ⟨saved, h.failed hbase ht hstatus (hopen rfl (ht.considered hp hv).1.waiting) ?_ rfl rfl
      rfl rfl⟩
    rw [ht'.shown.status, Function.update_self]
    rfl
  | @reuse x rest digest outputs hp hv =>
    refine ⟨saved, h.quiet hstatus rfl ?_ rfl⟩
    change unsaved ((s.journal ++ [_]) ++ publication x.fqn outputs s.files) = _
    rw [List.append_assoc]
    refine unsaved_append fun e he => ?_
    rcases List.mem_append.mp he with he | he
    · rw [List.mem_singleton.mp he]
      exact ⟨nofun, nofun⟩
    · obtain ⟨fields, hfields⟩ := progress_of_mem_publication he
      rw [hfields]
      exact ⟨nofun, nofun⟩
  | ready hp hv => exact ⟨saved, h.quiet hstatus rfl rfl rfl⟩
  | start hr hw hn he hctx =>
    exact ⟨saved, h.quiet hstatus rfl (unsaved_append (by simp)) (hleave _ _ _ he _ _)⟩
  | @succeed call task given snapshot outputs hcall hrun hintime ha hg written hsave =>
    refine ⟨_, hstorable, ?_, ?_, Or.inr ?_⟩
    · have hj : unsaved ((((s.release call.pair).publish call.pair.fqn outputs).conclude c call.pair
          task.fingerprint snapshot outputs ((call.due - call.started) * 1000)).settle c.plan
            call.pair).journal = [] := unsaved_succeeded rfl
      rw [hj]
      rfl
    · have hj : unsaved ((((s.release call.pair).publish call.pair.fqn outputs).conclude c call.pair
          task.fingerprint snapshot outputs ((call.due - call.started) * 1000)).settle c.plan
            call.pair).journal = [] := unsaved_succeeded rfl
      rw [hj]
      simp
    · rw [hpath]
      exact Store.hold_save hfolder hsave
  | @fail call task cause hcall hrun hintime ha =>
    obtain ⟨ctx, hA, ht'⟩ := ht.failed hc hcall hrun hintime ha
    refine ⟨saved, h.failed hbase ht hstatus (hopen rfl hA) ?_ rfl rfl rfl rfl⟩
    rw [ht'.shown.status, Function.update_self]
    rfl
  | @timeout x task deadline hrun hd hlate =>
    obtain ⟨ctx, hA, ht'⟩ := ht.timedOut hc hrun hd hlate
    refine ⟨saved, h.failed hbase ht hstatus (hopen rfl hA) ?_ rfl rfl rfl rfl⟩
    rw [ht'.shown.status, Function.update_self]
    rfl
  | late ha => exact ⟨saved, h.quiet hstatus rfl rfl rfl⟩

end Filed

/-- **At the end of a run** there is a saved state behind it. -/
theorem Scheduler.Follows.filed {sched : Scheduler} (husable : sched.Usable) {phases : List Phase}
    {files : Files} {plan : Plan} {n : Nat} {last : RunState}
    (h : sched.Follows phases files plan n last A) {folder : FilePath}
    (hfolder : sched.store.folder? = some folder)
    (hleave : sched.executors.Leave (Store.pathIn folder sched.graph.stackName))
    (hb : sched.buildstate.Storable) :
    ∃ saved, Filed (Store.pathIn folder sched.graph.stackName)
      (sched.initial plan (requestedPhases phases) files) saved last := by
  have hbase : (sched.initial plan (requestedPhases phases) files).buildstate.Storable :=
    ⟨⟨hb.units, hb.fingerprints⟩, hb.version, hb.mapped⟩
  refine h.steps.keeps h.checked (P := fun s => ∃ saved, Filed _ _ saved s) ?_ ?_
    (tied_initial h.checked _ files husable.resolver) timely_initial ?_
  · rintro s t ⟨saved, hfiled⟩
    exact ⟨saved, hfiled.quiet (fun p hp => hp) rfl rfl rfl⟩
  · exact fun A s s' ht hm hfiled => Filed.move h.checked hfolder rfl hleave hbase.toDistinct ht hm hfiled
  · refine ⟨_, hbase, rfl, fun p hp => ?_, Or.inl ⟨rfl, rfl⟩⟩
    cases hp

end Rollout
