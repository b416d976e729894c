import Rollout.Proofs.Run.Scheduled
import Rollout.Proofs.Run.Workers

/-!
# What a halt leaves behind

A step that halts has worked on one open pair. It may have reported that the pair is reused, or what
its outputs are, but it reports no success; and it leaves alone what is known about all the settled
pairs, their fingerprints and their outputs.

So a run that has ended, in whatever way, has a last state right before its end, from which its
result differs in the open pair and in the last reports only.

**Types.** `RunState.Trails`.

**Results.**
* `trails_of_step`: a step that halts;
* `Scheduler.closes`: every run that passes the checks.
-/

namespace Rollout

open RunState

/-- The second state has reported what the first one has, and since then no success. What the first
one knows about settled pairs is known in the second one, too. -/
structure RunState.Trails (A : Chart) (s t : RunState) : Prop where
  journal : ∃ more, t.journal = s.journal ++ more ∧
    ∀ e ∈ more, e.files = s.files ∧ ∀ p ms, e.progress ≠ .succeeded p ms
  fingerprints : ∀ p, (A p).settled = true →
    Table.get? p t.fingerprints = Table.get? p s.fingerprints
  outputs : ∀ fqn outputs, s.resolver.outputs? fqn = some outputs →
    t.resolver.outputs? fqn = some outputs

variable {c : Setup} {requested : List Phase} {base s s' t : RunState} {A : Chart} {p : Pair}
  {halt : Halt}

/-- Outputs that have been recorded stay when others are recorded. -/
theorem Resolver.outputs?_record {r r' : Resolver} {fqn other : String} {outputs entries : Entries}
    (h : r.record fqn entries = .ok r') (ho : r.outputs? other = some outputs) :
    r'.outputs? other = some outputs := by
  unfold record at h
  split at h
  · cases h
  · split at h
    · cases h
    · rename_i hnone
      obtain rfl := Except.ok.inj h
      have hne : other ≠ fqn := by
        rintro rfl
        rw [ho] at hnone
        exact hnone rfl
      exact (Table.get?_set_of_ne hne entries r.recorded).trans ho

namespace RunState.Trails

theorem of_eq (hj : t.journal = s.journal) (hf : t.fingerprints = s.fingerprints)
    (hr : t.resolver = s.resolver) : Trails A s t :=
  ⟨⟨[], by rw [hj, List.append_nil], fun e he => absurd he List.not_mem_nil⟩,
    fun p _ => by rw [hf], fun fqn outputs ho => by rw [hr]; exact ho⟩

theorem refl (s : RunState) : Trails A s s := of_eq rfl rfl rfl

theorem trans {r : RunState} (h : Trails A r s) (hfiles : s.files = r.files)
    (h' : Trails A s t) : Trails A r t := by
  obtain ⟨more, hmore, hquiet⟩ := h.journal
  obtain ⟨more', hmore', hquiet'⟩ := h'.journal
  refine ⟨⟨more ++ more', by rw [hmore', hmore, List.append_assoc], ?_⟩, ?_, ?_⟩
  · rw [List.forall_mem_append]
    exact ⟨hquiet, fun e he => ⟨(hquiet' e he).1.trans hfiles, (hquiet' e he).2⟩⟩
  · exact fun p hp => (h'.fingerprints p hp).trans (h.fingerprints p hp)
  · exact fun fqn outputs ho => h'.outputs fqn outputs (h.outputs fqn outputs ho)

/-- Something other than a success is reported. -/
theorem report {progress : Progress} (h : ∀ p ms, progress ≠ .succeeded p ms) :
    Trails A s (s.report progress) := by
  refine ⟨⟨[⟨progress, s.files⟩], rfl, ?_⟩, fun _ _ => rfl, fun _ _ ho => ho⟩
  intro e he
  rw [List.mem_singleton.mp he]
  exact ⟨rfl, h⟩

theorem recordOutputs {fqn : String} {entries : Entries}
    (h : s.recordOutputs fqn entries = .ok t) : Trails A s t ∧ t.files = s.files := by
  unfold RunState.recordOutputs at h
  split at h
  · cases h
  · rename_i resolver hr
    dsimp only at h
    split at h
    · cases h
    · obtain rfl := Except.ok.inj h
      have hkept : Trails A s { s with resolver := resolver } :=
        ⟨⟨[], by simp, by simp⟩, fun _ _ => rfl,
          fun _ _ ho => Resolver.outputs?_record hr ho⟩
      exact ⟨hkept.trans rfl (report nofun), rfl⟩

theorem recordOutputs_halt {fqn : String} {entries : Entries}
    (h : s.recordOutputs fqn entries = .error halt) : Trails A s halt.state := by
  unfold RunState.recordOutputs at h
  split at h
  · rw [← Except.error.inj h]
    exact refl s
  · rename_i resolver hr
    dsimp only at h
    split at h
    · rw [← Except.error.inj h]
      exact ⟨⟨[], by simp, by simp⟩, fun _ _ => rfl, fun _ _ ho => Resolver.outputs?_record hr ho⟩
    · cases h

theorem reuse_halt {digest : String} (h : s.reuse p digest = .error halt) :
    Trails A s halt.state := by
  have hconfirmed : Trails A s (s.confirm p digest) :=
    (of_eq rfl rfl rfl : Trails A s (s.amend p _)).trans rfl (report nofun)
  rw [reuse_eq] at h
  split at h
  · exact hconfirmed.trans rfl (recordOutputs_halt h)
  · cases h

/-- The fingerprint of an open pair is noted. -/
theorem compare_halt (hp : (A p).settled = false) {n : Node} {resolved : Option Resolved}
    (h : s.compare c p n resolved = .error halt) : Trails A s halt.state := by
  unfold RunState.compare at h
  split at h
  · rw [← Except.error.inj h]
    exact refl s
  · rename_i digest _
    dsimp only at h
    split at h
    · have hnoted : Trails A s (s.note p digest) := by
        refine ⟨⟨[], by simp [note, amend], by simp⟩, fun q hq => ?_, fun _ _ ho => ho⟩
        have hne : q ≠ p := by
          rintro rfl
          rw [hp] at hq
          cases hq
        exact Table.get?_set_of_ne hne digest s.fingerprints
      exact hnoted.trans rfl (reuse_halt (eq_error_of_map h))
    · cases h

theorem consider_halt (hp : (A p).settled = false) (h : s.consider c p = .error halt) :
    Trails A s halt.state := by
  unfold RunState.consider at h
  split at h
  · cases h
  · rw [← Except.error.inj h]
    exact refl s
  · split at h
    · split at h
      · exact compare_halt hp h
      · split at h
        · cases h
        · rw [← Except.error.inj h]
          exact refl s
    · exact compare_halt hp h

theorem start_halt {item : Ready} (h : s.start c item = .error halt) : Trails A s halt.state := by
  unfold RunState.start at h
  dsimp only at h
  split at h
  · split at h
    · rw [← Except.error.inj h]
      exact refl s
    · cases h
  · rw [← Except.error.inj h]
    exact refl s
  · rw [← Except.error.inj h]
    exact refl s

theorem succeed_halt {task : Task} {call : Call} {outputs : Option Entries}
    (h : s.succeed c p task call outputs = .error halt) : Trails A s halt.state := by
  have hsave {t : RunState} {snapshot : Option Value} {outputs : Option Entries} {ms : Rat}
      (hs : saveSuccess c p task snapshot outputs ms t = .error halt) :
      Trails A t halt.state := by
    unfold saveSuccess at hs
    dsimp only at hs
    split at hs
    · rw [← Except.error.inj hs]
      exact of_eq rfl rfl rfl
    · cases hs
  rw [succeed_eq] at h
  split at h
  · cases ht : s.recordOutputs p.fqn (completed c p task.namespaceName outputs) with
    | error first =>
      rw [ht] at h
      rw [← Except.error.inj h]
      exact recordOutputs_halt ht
    | ok t =>
      rw [ht] at h
      obtain ⟨hkept, hfiles⟩ := recordOutputs (A := A) ht
      exact hkept.trans hfiles (hsave h)
  · exact hsave h

theorem deliver_halt {call : Call} (h : s.deliver c call = .error halt) :
    Trails A s halt.state := by
  unfold RunState.deliver at h
  split at h
  · cases h
  · split at h
    · cases h
    · dsimp only at h
      split at h
      · have hreleased : Trails A s { s with running := Table.erase call.pair s.running } :=
          of_eq rfl rfl rfl
        exact hreleased.trans rfl (succeed_halt (eq_error_of_map h))
      · cases h

theorem wait_halt (h : s.wait c = .error halt) : Trails A s halt.state := by
  unfold RunState.wait at h
  split at h
  · split at h
    · dsimp only at h
      refine trans ?_ ?_ (deliver_halt (eq_error_of_map h))
      · exact of_eq rfl rfl rfl
      · rfl
    · cases h
  · cases h

end RunState.Trails

theorem Next.of_eq_halted {attempt : Except Halt RunState} (h : Next.of attempt = .halted halt) :
    attempt = .error halt := by
  cases attempt with
  | ok t => cases h
  | error first => rw [Next.halted.inj h]

theorem RunState.of_next_consider {x : Pair} (h : s.next c = .consider x) :
    ∃ rest, s.promoted = x :: rest := by
  unfold next at h
  split at h
  · rename_i first rest hp
    obtain rfl : first = x := by simpa using h
    exact ⟨rest, hp⟩
  · split at h
    · cases h
    · split at h <;> cases h
  · split at h <;> cases h

/-- **A step that halts** leaves the settled pairs alone. -/
theorem trails_of_step (h : Tied c base A s) (hs : s.step c = .halted halt) :
    Trails A s halt.state := by
  rw [step_eq] at hs
  cases hn : s.next c with
  | consider x =>
    rw [hn] at hs
    obtain ⟨rest, hp⟩ := of_next_consider hn
    have hopen : (A x).settled = false := by
      rw [(h.queued.take_promoted hp).1.waiting]
      rfl
    have htaken : Trails A s { s with promoted := s.promoted.tail } := .of_eq rfl rfl rfl
    exact htaken.trans rfl (.consider_halt hopen (Next.of_eq_halted hs))
  | start item =>
    rw [hn] at hs
    have htaken : Trails A s { s with ready := s.ready.tail } := .of_eq rfl rfl rfl
    exact htaken.trans rfl (.start_halt (Next.of_eq_halted hs))
  | wait =>
    rw [hn] at hs
    exact .wait_halt (Next.of_eq_halted hs)
  | finish =>
    rw [hn] at hs
    cases hs

namespace Scheduler

variable {s : Scheduler} {phases : List Phase} {plan : Plan}

/-- **Every run that passes the checks** has a last state right before its end, which its end
trails. -/
theorem closes (h : s.Usable)
    (hcheck : checkExecutors s.executors s.graph (requestedPhases phases) = .ok ())
    (hplan : s.graph.plan (requestedPhases phases) = .ok plan) (files : Files) :
    ∃ n last A t, s.Follows phases files plan n last A ∧
      (s.run phases files).journal = t.journal ∧ (s.run phases files).scheduler = s.keep t ∧
      (∀ A, Tied (s.setup plan) (s.initial plan (requestedPhases phases) files) A last →
        Trails A last t) ∧
      ∀ report, (s.run phases files).report = .ok report →
        report = s.reportOf (requestedPhases phases) last := by
  obtain ⟨n, last, A, hfollows, ⟨hrun, -, -⟩ | ⟨halt, hrun, hstep, -⟩⟩ :=
    follows_spec h hcheck hplan files
  · rw [hrun]
    exact ⟨n, last, A, _, hfollows, rfl, rfl, fun A _ => .report nofun,
      fun report hr => (Except.ok.inj hr).symm⟩
  · rw [hrun]
    exact ⟨n, last, A, halt.state, hfollows, rfl, rfl, fun A ht => trails_of_step ht hstep,
      fun report hr => (by cases hr)⟩

end Scheduler

end Rollout
