import Rollout.Proofs.Run.Plan
import Rollout.Proofs.Run.Standing

/-!
# What is decided about one pair

When a pair is considered, the state of the run is asked for a few things only: the statuses of the
pairs that it waits for, the outputs that its unit refers to, and the fingerprints that its own
fingerprint is made of. The verdict on a pair is a function of these and of what was known before
the run. What comes out of a started pair is, besides, decided by its executor.

**Types.** `SameReads`, `Examined`, `Begun`, `Returned`, `Overran`, `Fits`.

**Operations.** `RunState.verdict`, `RunState.gain`.

**Results.** `verdict_congr`, `fits_congr`: two states in which the pair reads the same lead to the
same verdict, and fit the same standings.
-/

namespace Rollout

theorem eq_ok_of_map {ε α β : Type} {f : α → β} {attempt : Except ε α} {b : β}
    (h : attempt.map f = .ok b) : ∃ a, attempt = .ok a ∧ f a = b := by
  cases attempt with
  | ok a => exact ⟨a, rfl, Except.ok.inj h⟩
  | error fault => cases h

namespace RunState

variable (c : Setup)

/-- The keys of outputs that can be recorded for a unit in a run. -/
def accept (base : RunState) (fqn : String) (outputs : Entries) : Except RunFault (List Key) :=
  if (base.resolver.outputs? fqn).isSome then .error (.resolve (.duplicate fqn))
  else
    match sortedKeys outputs with
    | .error fault => .error (.noText fault)
    | .ok keys => .ok keys

/-- The outputs that an earlier run has left for a pair that is reused. -/
def leftover (base : RunState) (p : Pair) : Except RunFault (Option Entries) :=
  if p.phase = .deploy then
    (base.accept p.fqn ((base.buildstate.record? p.fqn).getD {}).outputs).map fun _ =>
      some ((base.buildstate.record? p.fqn).getD {}).outputs
  else .ok none

/-- The resolved configuration of a pair; only deployments have one. -/
def resolvedFor (s : RunState) (p : Pair) : Except ResolveFault (Option Resolved) :=
  if p.phase = .deploy then (s.resolver.resolve p.fqn).map some else .ok none

/-- Whether a pair is carried out although it may be current. -/
def overdue (base : RunState) (p : Pair) (digest : String) : Bool :=
  (c.forced p.phase).contains p.fqn || !base.buildstate.isCurrent p.fqn p.phase digest

/-- What is decided about a pair when it is considered, from the state before the run and the
present one. -/
def verdict (base s : RunState) (p : Pair) : Except RunFault Standing :=
  match s.blocker? c p, c.graph.node? p.fqn with
  | some b, _ => .ok (.skipped b)
  | none, none => .error (.graph (.unknownUnit p.fqn))
  | none, some n =>
    match s.resolvedFor p with
    | .error fault =>
      match fault with
      | .missingOutput .. =>
        .ok (.missing (match fault.failure? with | some f => f.message | none => ""))
      | _ => .error (.resolve fault)
    | .ok resolved =>
      match Digest.fingerprint (s.fingerprinted c p n.unit resolved) with
      | .error fault => .error (.noText fault)
      | .ok digest =>
        if overdue c base p digest then .ok (.ready digest resolved)
        else (base.leftover p).map (.reused digest)

/-- The outputs of a deployed unit: those of its executor, with a host. -/
def completed (p : Pair) (namespaceName : String) (given : Option Entries) : Entries :=
  if Entries.has hostOutput (given.getD []) then given.getD []
  else given.getD [] ++ [(Key.text hostOutput, .text (match c.graph.node? p.fqn with
    | some n => serviceHost c.releaseName n.unit namespaceName
    | none => ""))]

/-- What a successful call leaves: for a deployment a snapshot and outputs. -/
def gain (base : RunState) (p : Pair) (namespaceName : String) (reply : Reply)
    (given : Option Entries) : Except RunFault (Option Value × Option Entries) :=
  if p.phase = .deploy then
    (base.accept p.fqn (completed c p namespaceName given)).map fun _ =>
      (some (.object [("inputs", reply.inputs), ("values", reply.values)]),
        some (completed c p namespaceName given))
  else .ok (none, none)

/-! ### What a pair reads -/

/-- A pair reads the same in two states. -/
structure SameReads (p : Pair) (s t : RunState) : Prop where
  statuses : ∀ w ∈ c.waits p, s.status w = t.status w
  graph : s.resolver.graph = t.resolver.graph
  outputs : p.phase = .deploy → ∀ site ∈ s.resolver.sitesOf p.fqn,
    s.resolver.outputs? (site.reference.target s.resolver.graph.stackName) =
      t.resolver.outputs? (site.reference.target s.resolver.graph.stackName)
  build : p.phase = .deploy → s.buildDigest? p.fqn = t.buildDigest? p.fqn
  upstream : p.phase = .deploy → ∀ e ∈ c.graph.incoming p.fqn, e.kind = .deploy →
    Table.get? (⟨e.source, .deploy⟩ : Pair) s.fingerprints =
      Table.get? (⟨e.source, .deploy⟩ : Pair) t.fingerprints

end RunState

/-- Filling sites depends on the graph and on the outputs that the sites refer to. -/
theorem Resolver.fill_congr {r r' : Resolver} (hg : r.graph = r'.graph) {sites : List Site}
    (h : ∀ site ∈ sites, r.outputs? (site.reference.target r.graph.stackName) =
      r'.outputs? (site.reference.target r.graph.stackName))
    (doc : Value) (done : Table String Value) : r.fill doc done sites = r'.fill doc done sites := by
  induction sites generalizing doc done with
  | nil => rfl
  | cons site rest ih =>
    have hlookup : r.lookup site = r'.lookup site := by
      have hsite := h site List.mem_cons_self
      simp only [lookup, ← hg, hsite]
    have hrest := ih fun site hs => h site (List.mem_cons_of_mem _ hs)
    simp only [fill, ← hlookup, hrest]

/-- Resolving a unit depends on the graph and on the outputs that the unit refers to. -/
theorem Resolver.resolve_congr {r r' : Resolver} (hg : r.graph = r'.graph) {fqn : String}
    (h : ∀ site ∈ r.sitesOf fqn, r.outputs? (site.reference.target r.graph.stackName) =
      r'.outputs? (site.reference.target r.graph.stackName)) :
    r.resolve fqn = r'.resolve fqn := by
  have hsites : r'.sitesOf fqn = r.sitesOf fqn := by rw [sitesOf, ← hg, sitesOf]
  simp only [resolve, ← hg, hsites, fill_congr hg h]

namespace RunState

variable {c : Setup} {base s t : RunState} {p : Pair}

theorem SameReads.refl (p : Pair) (s : RunState) : SameReads c p s s :=
  ⟨fun _ _ => rfl, rfl, fun _ _ _ => rfl, fun _ => rfl, fun _ _ _ _ => rfl⟩

theorem SameReads.trans {r : RunState} (h : SameReads c p r s)
    (h' : SameReads c p s t) : SameReads c p r t := by
  refine ⟨fun w hw => (h.statuses w hw).trans (h'.statuses w hw), h.graph.trans h'.graph,
    fun hd site hs => ?_, fun hd => (h.build hd).trans (h'.build hd),
    fun hd e he hk => (h.upstream hd e he hk).trans (h'.upstream hd e he hk)⟩
  have hsites : s.resolver.sitesOf p.fqn = r.resolver.sitesOf p.fqn := by
    rw [Resolver.sitesOf, ← h.graph, Resolver.sitesOf]
  rw [h.outputs hd site hs, h.graph]
  exact h'.outputs hd site (hsites ▸ hs)

theorem blocker?_congr (h : SameReads c p s t) : s.blocker? c p = t.blocker? c p := by
  have hfilter : (c.waits p).filter (fun w => s.status w != .succeeded) =
      (c.waits p).filter (fun w => t.status w != .succeeded) := by
    refine List.filter_congr fun w hw => ?_
    rw [h.statuses w hw]
  rw [blocker?, hfilter, blocker?]

theorem resolvedFor_congr (h : SameReads c p s t) : s.resolvedFor p = t.resolvedFor p := by
  by_cases hp : p.phase = .deploy
  · simp only [resolvedFor, if_pos hp, Resolver.resolve_congr h.graph (h.outputs hp)]
  · simp only [resolvedFor, if_neg hp]

theorem fingerprinted_congr (h : SameReads c p s t) (u : UnitDef) (resolved : Option Resolved) :
    s.fingerprinted c p u resolved = t.fingerprinted c p u resolved := by
  by_cases hp : p.phase = .deploy
  · have hup : (((c.graph.incoming p.fqn).filter fun e => e.kind = .deploy).map fun e =>
        (e.source, Value.ofText? (Table.get? (⟨e.source, .deploy⟩ : Pair) s.fingerprints))) =
        (((c.graph.incoming p.fqn).filter fun e => e.kind = .deploy).map fun e =>
          (e.source, Value.ofText? (Table.get? (⟨e.source, .deploy⟩ : Pair) t.fingerprints))) := by
      refine List.map_congr_left fun e he => ?_
      obtain ⟨hin, hkind⟩ := List.mem_filter.mp he
      rw [h.upstream hp e hin (of_decide_eq_true hkind)]
    simp only [fingerprinted, if_pos hp, h.build hp, hup]
  · simp only [fingerprinted, if_neg hp]

/-- **The verdict on a pair** depends on what the pair reads. -/
theorem verdict_congr (h : SameReads c p s t) : verdict c base s p = verdict c base t p := by
  simp only [verdict, blocker?_congr h, resolvedFor_congr h, fingerprinted_congr h]

/-- A pair has been examined: nothing blocks it, its references are resolved, and its fingerprint
is known. -/
structure Examined (c : Setup) (s : RunState) (p : Pair) (digest : String)
    (resolved : Option Resolved) : Prop where
  clear : s.blocker? c p = none
  filled : s.resolvedFor p = .ok resolved
  compared : ∃ n, c.graph.node? p.fqn = some n ∧
    Digest.fingerprint (s.fingerprinted c p n.unit resolved) = .ok digest

/-- A verdict is a skip, a failure for a missing output, or the end of an examination. -/
theorem verdict_cases {st : Standing} (h : verdict c base s p = .ok st) :
    (∃ b, st = .skipped b ∧ s.blocker? c p = some b) ∨
      (∃ cause, st = .missing cause ∧ s.blocker? c p = none ∧
        ∃ fault, s.resolvedFor p = .error fault) ∨
      (∃ digest outputs, st = .reused digest outputs ∧ base.leftover p = .ok outputs ∧
        overdue c base p digest = false ∧ ∃ resolved, Examined c s p digest resolved) ∨
      ∃ digest resolved, st = .ready digest resolved ∧
        overdue c base p digest = true ∧ Examined c s p digest resolved := by
  unfold verdict at h
  cases hb : s.blocker? c p with
  | some b =>
    rw [hb, Except.ok.injEq] at h
    exact Or.inl ⟨b, h.symm, rfl⟩
  | none =>
    right
    cases hn : c.graph.node? p.fqn with
    | none => simp [hb, hn] at h
    | some n =>
      simp only [hb, hn] at h
      cases hr : s.resolvedFor p with
      | error fault =>
        rw [hr] at h
        cases fault with
        | missingOutput site target available =>
          rw [Except.ok.injEq] at h
          exact Or.inl ⟨_, h.symm, rfl, _, rfl⟩
        | _ => cases h
      | ok resolved =>
        right
        simp only [hr] at h
        cases hd : Digest.fingerprint (s.fingerprinted c p n.unit resolved) with
        | error fault => simp [hd] at h
        | ok digest =>
          have he : Examined c s p digest resolved := ⟨hb, hr, n, hn, hd⟩
          simp only [hd] at h
          cases ho : overdue c base p digest with
          | true =>
            rw [ho, if_pos rfl, Except.ok.injEq] at h
            exact Or.inr ⟨digest, resolved, h.symm, ho, he⟩
          | false =>
            rw [ho, if_neg (by simp)] at h
            cases hl : base.leftover p with
            | error fault => simp [hl, Except.map] at h
            | ok outputs =>
              rw [hl, Except.map, Except.ok.injEq] at h
              exact Or.inl ⟨digest, outputs, h.symm, rfl, ho, resolved, he⟩

/-- A pair that is to be started has been examined. -/
theorem examined_of_ready {digest : String} {resolved : Option Resolved}
    (h : verdict c base s p = .ok (.ready digest resolved)) :
    Examined c s p digest resolved ∧ overdue c base p digest = true := by
  rcases verdict_cases h with ⟨b, hst, -⟩ | ⟨cause, hst, -⟩ | ⟨d, outputs, hst, -⟩ |
    ⟨d, r, hst, ho, he⟩
  · cases hst
  · cases hst
  · cases hst
  · cases hst
    exact ⟨he, ho⟩

/-! ### What executors decide -/

/-- A pair has been started, with the given context. -/
def Begun (c : Setup) (base s : RunState) (p : Pair) (digest : String) (ctx : UnitContext) : Prop :=
  ∃ resolved n, verdict c base s p = .ok (.ready digest resolved) ∧
    c.graph.node? p.fqn = some n ∧ context c p n.unit resolved = .ok ctx

/-- The executor of a pair can give the reply, within its time. -/
def Returned (c : Setup) (p : Pair) (ctx : UnitContext) (reply : Reply) : Prop :=
  ∃ timeout work files, Table.get? p.phase c.executors = some ⟨timeout, some work⟩ ∧
    reply = work ctx files ∧ ∀ t ∈ timeoutSeconds timeout, reply.seconds ≤ t

/-- The executor of a pair can take all the time that it has. -/
def Overran (c : Setup) (p : Pair) (ctx : UnitContext) (limit : Rat) : Prop :=
  ∃ timeout work files, Table.get? p.phase c.executors = some ⟨timeout, some work⟩ ∧
    timeoutSeconds timeout = some limit ∧ limit ≤ (work ctx files).seconds

/-- A standing fits what a pair reads, and what its executor can do. -/
def Fits (c : Setup) (base s : RunState) (p : Pair) : Standing → Prop
  | .waiting => True
  | .running digest ctx => Begun c base s p digest ctx
  | .succeeded digest ctx snapshot outputs =>
    Begun c base s p digest ctx ∧ ∃ reply given, Returned c p ctx reply ∧
      reply.answer.result = .ok given ∧
      gain c base p ctx.namespaceName reply given = .ok (snapshot, outputs)
  | .failed digest ctx cause false =>
    Begun c base s p digest ctx ∧ ∃ reply, Returned c p ctx reply ∧
      reply.answer.result = .error cause
  | .failed digest ctx cause true =>
    Begun c base s p digest ctx ∧ ∃ limit, Overran c p ctx limit ∧ cause = timeoutCause limit
  | st => (∀ w ∈ c.waits p, (s.status w).terminal = true) ∧ verdict c base s p = .ok st

theorem begun_congr (h : SameReads c p s t) {digest : String} {ctx : UnitContext} :
    Begun c base s p digest ctx ↔ Begun c base t p digest ctx := by
  simp only [Begun, verdict_congr h]

/-- **What fits** depends on what the pair reads. -/
theorem fits_congr (h : SameReads c p s t) {st : Standing} (hs : Fits c base s p st) :
    Fits c base t p st := by
  have hterminal (hw : ∀ w ∈ c.waits p, (s.status w).terminal = true) :
      ∀ w ∈ c.waits p, (t.status w).terminal = true := by
    intro w hmem
    rw [← h.statuses w hmem]
    exact hw w hmem
  cases st with
  | waiting => trivial
  | skipped b => exact ⟨hterminal hs.1, (verdict_congr h).symm.trans hs.2⟩
  | missing cause => exact ⟨hterminal hs.1, (verdict_congr h).symm.trans hs.2⟩
  | reused digest outputs => exact ⟨hterminal hs.1, (verdict_congr h).symm.trans hs.2⟩
  | ready digest resolved => exact ⟨hterminal hs.1, (verdict_congr h).symm.trans hs.2⟩
  | running digest ctx => exact (begun_congr h).mp hs
  | succeeded digest ctx snapshot outputs => exact ⟨(begun_congr h).mp hs.1, hs.2⟩
  | failed digest ctx cause timedOut =>
    cases timedOut with
    | false => exact ⟨(begun_congr h).mp hs.1, hs.2⟩
    | true => exact ⟨(begun_congr h).mp hs.1, hs.2⟩

theorem fits_of_verdict (hw : ∀ w ∈ c.waits p, (s.status w).terminal = true) {st : Standing}
    (hv : verdict c base s p = .ok st) : Fits c base s p st := by
  rcases verdict_cases hv with ⟨b, rfl, -⟩ | ⟨cause, rfl, -⟩ | ⟨digest, outputs, rfl, -⟩ |
    ⟨digest, resolved, rfl, -⟩
  all_goals exact ⟨hw, hv⟩

/-- A pair that nothing blocks waits for pairs that have succeeded. -/
theorem blocker?_eq_none_iff :
    s.blocker? c p = none ↔ ∀ w ∈ c.waits p, s.status w = .succeeded := by
  rw [blocker?, List.head?_eq_none_iff]
  constructor
  · intro h w hw
    by_contra hne
    have hm : w ∈ (c.waits p).filter fun w => s.status w != .succeeded :=
      List.mem_filter.mpr ⟨hw, by simpa using hne⟩
    have hs : w ∈ Sorting.sort c.rankLe ((c.waits p).filter fun w => s.status w != .succeeded) :=
      Sorting.mem_sort.mpr hm
    rw [h] at hs
    cases hs
  · intro h
    rw [List.filter_eq_nil_iff.mpr fun w hw => by simp [h w hw]]
    rfl

theorem Begun.clear {digest : String} {ctx : UnitContext} (h : Begun c base s p digest ctx) :
    ∀ w ∈ c.waits p, s.status w = .succeeded := by
  obtain ⟨resolved, n, hv, -⟩ := h
  exact blocker?_eq_none_iff.mp (examined_of_ready hv).1.clear

/-- A pair with a standing waits for settled pairs only. -/
theorem Fits.waits_terminal {st : Standing} (h : Fits c base s p st) (hst : st ≠ .waiting) :
    ∀ w ∈ c.waits p, (s.status w).terminal = true := by
  have hclear (hw : ∀ w ∈ c.waits p, s.status w = .succeeded) :
      ∀ w ∈ c.waits p, (s.status w).terminal = true := by
    intro w hmem
    rw [hw w hmem]
    rfl
  cases st with
  | waiting => exact absurd rfl hst
  | skipped b => exact h.1
  | missing cause => exact h.1
  | reused digest outputs => exact h.1
  | ready digest resolved => exact h.1
  | running digest ctx => exact hclear h.clear
  | succeeded digest ctx snapshot outputs => exact hclear h.1.clear
  | failed digest ctx cause timedOut =>
    cases timedOut with
    | false => exact hclear h.1.clear
    | true => exact hclear h.1.clear

/-- A pair that left a mark in the record of its unit waited for pairs that have succeeded. -/
theorem Fits.clear {st : Standing} (h : Fits c base s p st) (hw : st ≠ .waiting)
    (hs : ∀ b, st ≠ .skipped b) : ∀ w ∈ c.waits p, s.status w = .succeeded := by
  have hverdict (hv : verdict c base s p = .ok st) : ∀ w ∈ c.waits p, s.status w = .succeeded := by
    refine blocker?_eq_none_iff.mp ?_
    rcases verdict_cases hv with ⟨b, hst, -⟩ | ⟨cause, -, hb, -⟩ | ⟨d, outputs, -, -, -, r, he⟩ |
      ⟨d, r, -, -, he⟩
    · exact absurd hst (hs b)
    · exact hb
    · exact he.clear
    · exact he.clear
  cases st with
  | waiting => exact absurd rfl hw
  | skipped b => exact absurd rfl (hs b)
  | missing cause => exact hverdict h.2
  | reused digest outputs => exact hverdict h.2
  | ready digest resolved => exact hverdict h.2
  | running digest ctx => exact Begun.clear h
  | succeeded digest ctx snapshot outputs => exact h.1.clear
  | failed digest ctx cause timedOut =>
    cases timedOut with
    | false => exact h.1.clear
    | true => exact h.1.clear

end RunState

end Rollout
