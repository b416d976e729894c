import Rollout.Proofs.Json.Unambiguous
import Rollout.Proofs.Run.Resumed

/-!
# What a run records and hashes

What a run records as the outputs of a unit was left by an earlier run, or was answered by an
executor and completed with a host. A property of outputs that both have is a property of everything
that is recorded (`Tied.outputs_of_base`, `Tied.record_of_base`).

So a run over JSON data hashes texts of JSON values only. The texts of two examinations that give
the same fingerprint are the same if SHA-256 does not collide on them, and then what was examined is
alike in its configuration, and in what a deployment is made on top of (`alike_of_fingerprinted`,
`upstream_of_fingerprinted`).

**Types.** `Executors.Plain`, `Buildstate.Plain`, `Digest.Separates`.

**Operations.** `Scheduler.hashed?`: the text that is hashed for a pair, as a run leaves it.
-/

namespace Rollout

open RunState

/-- The outputs that executors leave are JSON values under text keys. -/
def Executors.Plain (executors : Executors) : Prop :=
  ∀ p timeout work, Table.get? p executors = some ⟨timeout, some work⟩ →
    ∀ ctx files outputs, (work ctx files).answer = .succeeded (some outputs) →
      (Value.map outputs).IsPlain

theorem Executors.Plain.keyed {executors : Executors} (h : executors.Plain) : executors.Keyed :=
  fun p timeout work hp ctx files outputs ha => (h p timeout work hp ctx files outputs ha).keyed

/-- The outputs in all records are JSON values under text keys. -/
def Buildstate.Plain (b : Buildstate) : Prop :=
  ∀ fqn, (Value.map ((b.record? fqn).getD {}).outputs).IsPlain

variable {c : Setup} {requested : List Phase} {base s : RunState} {A : Chart} {p : Pair}

/-! ### Recorded outputs -/

theorem Answer.of_result {answer : Answer} {given : Option Entries}
    (h : answer.result = .ok given) : answer = .succeeded given := by
  cases answer with
  | succeeded other =>
    rw [Answer.result, Except.ok.injEq] at h
    rw [h]
  | failed cause => cases cause <;> cases h
  | foreign kind => cases h
  | raised className text => cases h

/-- What is recorded for a pair was in the record of its unit, or was answered by an executor. -/
theorem Tied.outputs_of_base (h : Tied c base A s) {Q : Entries → Prop}
    (hbase : ∀ fqn, Q ((base.buildstate.record? fqn).getD {}).outputs)
    (hgiven : ∀ p ctx reply given, p.phase = .deploy → Returned c p ctx reply →
      reply.answer.result = .ok given → Q (completed c p ctx.namespaceName given))
    {outputs : Entries} (ho : (A p).outputs? = some outputs) : Q outputs := by
  have hd : p.phase = .deploy := by
    by_contra hne
    rw [h.outputs?_of_ne hne] at ho
    cases ho
  obtain ⟨t, -, hfit⟩ := h.fit p
  cases hA : A p with
  | reused digest other =>
    rw [hA] at ho
    obtain rfl : other = some outputs := ho
    have hleft := h.leftover_of_reused hA
    have hp : p = ⟨p.fqn, .deploy⟩ := by rw [← hd]
    rw [hp] at hleft
    rw [Option.some.inj (outputs_of_leftover hleft)]
    exact hbase p.fqn
  | succeeded digest ctx snapshot other =>
    rw [hA] at hfit ho
    obtain rfl : other = some outputs := ho
    obtain ⟨-, reply, given, hreturned, ha, hg⟩ := hfit
    rw [gain, if_pos hd] at hg
    cases haccept : base.accept p.fqn (completed c p ctx.namespaceName given) with
    | error fault =>
      rw [haccept] at hg
      cases hg
    | ok keys =>
      rw [haccept] at hg
      obtain ⟨-, heq⟩ := Prod.mk.inj (Except.ok.inj hg)
      rw [← Option.some.inj heq]
      exact hgiven p ctx reply given hd hreturned ha
  | _ =>
    rw [hA] at ho
    cases ho

/-- The outputs in the record of a unit were there before, or are what was recorded for it. -/
theorem Tied.record_of_base (h : Tied c base A s) {Q : Entries → Prop}
    (hbase : ∀ fqn, Q ((base.buildstate.record? fqn).getD {}).outputs)
    (hgiven : ∀ p ctx reply given, p.phase = .deploy → Returned c p ctx reply →
      reply.answer.result = .ok given → Q (completed c p ctx.namespaceName given)) (fqn : String) :
    Q ((s.buildstate.record? fqn).getD {}).outputs := by
  cases ho : (A ⟨fqn, .deploy⟩).outputs? with
  | some outputs =>
    have hsome : (A ⟨fqn, .deploy⟩).outputs? ≠ none := by
      rw [ho]
      nofun
    have hrecord := h.outputs?_eq hsome
    rw [ho, Option.some.injEq] at hrecord
    rw [← hrecord]
    exact h.outputs_of_base hbase hgiven ho
  | none =>
    have hnone (q : Phase) : (A ⟨fqn, q⟩).outputs? = none := by
      cases q with
      | deploy => exact ho
      | init => exact h.outputs?_of_ne nofun
      | build => exact h.outputs?_of_ne nofun
    rw [h.shown.record, Chart.outputs_record? A base.buildstate hnone]
    exact hbase fqn

/-- What is recorded for a unit has the properties of what was there before and of what executors
answer. -/
theorem Tied.resolver_of_base (h : Tied c base A s) {Q : Entries → Prop}
    (hbase : ∀ fqn, Q ((base.buildstate.record? fqn).getD {}).outputs)
    (hgiven : ∀ p ctx reply given, p.phase = .deploy → Returned c p ctx reply →
      reply.answer.result = .ok given → Q (completed c p ctx.namespaceName given))
    (hfresh : ∀ fqn, base.resolver.outputs? fqn = none) {fqn : String} {outputs : Entries}
    (ho : s.resolver.outputs? fqn = some outputs) : Q outputs := by
  rw [h.shown.outputs, hfresh, Option.or_none] at ho
  exact h.outputs_of_base hbase hgiven ho

/-- Answers that are JSON values are completed to JSON values. -/
theorem Executors.Plain.completed (h : c.executors.Plain) {ctx : UnitContext} {reply : Reply}
    {given : Option Entries} (hr : Returned c p ctx reply)
    (ha : reply.answer.result = .ok given) :
    (Value.map (completed c p ctx.namespaceName given)).IsPlain := by
  obtain ⟨timeout, work, files, he, rfl, -⟩ := hr
  have hgiven : (Value.map (given.getD [])).IsPlain := by
    cases given with
    | none => trivial
    | some outputs => exact h _ _ _ he ctx files outputs (Answer.of_result ha)
  unfold RunState.completed
  split
  · exact hgiven
  · refine Value.isPlain_map.mpr (List.forall_mem_append.mpr ⟨Value.isPlain_map.mp hgiven, ?_⟩)
    simp [Value.IsPlain]

/-! ### Hashed values -/

/-- All that has been recorded are JSON values. -/
def Resolver.Plain (r : Resolver) : Prop :=
  ∀ fqn outputs, r.outputs? fqn = some outputs → (Value.map outputs).IsPlain

theorem Resolver.Plain.output {r : Resolver} (h : r.Plain) (reference : Reference) :
    (r.output reference).IsPlain :=
  output_of_recorded Value.hereditary_isPlain.null
    (fun fqn outputs ho e he => (Value.isPlain_map.mp (h fqn outputs ho) e he).2) reference

/-- **What is hashed** for a pair of a unit of JSON data is a JSON value. -/
theorem RunState.isPlain_fingerprinted (hc : s.resolver.graph = c.graph) {stack : Stack}
    (hg : c.graph.Built stack) {n : Node} (hn : c.graph.node? p.fqn = some n)
    (hu : n.unit.IsJson) (hr : s.resolver.Plain) {resolved : Option Resolved}
    (hf : s.resolvedFor p = .ok resolved) : (s.fingerprinted c p n.unit resolved).IsPlain :=
  hereditary_fingerprinted Value.hereditary_isPlain c s p hu.plain
    (hereditary_resolved Value.hereditary_isPlain hc hg hn hu.unambiguous hu.plain hr.output hf)

/-! ### Hashed texts -/

/-- SHA-256 does not collide on the texts. -/
def Digest.Separates (texts : List String) : Prop :=
  ∀ text ∈ texts, ∀ text' ∈ texts,
    sha256 text.toUTF8.toList = sha256 text'.toUTF8.toList → text = text'

theorem Digest.separates_of_nodup {texts : List String}
    (h : (texts.map fun text => sha256 text.toUTF8.toList).Nodup) : Separates texts :=
  fun _ ht _ ht' heq => List.inj_on_of_nodup_map h ht ht' heq

/-- The text that is hashed for a pair, as a run leaves what it depends on. -/
def Scheduler.hashed? (s : Scheduler) (p : Pair) : Option String :=
  (s.graph.node? p.fqn).bind fun n =>
    let state := s.initial [] [] []
    match state.resolvedFor p with
    | .error _ => none
    | .ok resolved =>
      (Digest.stableText (state.fingerprinted (s.setup []) p n.unit resolved)).toOption

/-- The texts that have been hashed for the pairs that a run reports. -/
def RunResult.hashed (r : RunResult) : List String :=
  match r.report with
  | .ok report => (Table.keys report.pairs).filterMap r.scheduler.hashed?
  | .error _ => []

/-- The fingerprints that a run leaves of the pairs that it reports. -/
def RunResult.fingerprints (r : RunResult) : List String :=
  match r.report with
  | .ok report => (Table.keys report.pairs).filterMap fun p => Table.get? p r.scheduler.fingerprints
  | .error _ => []

theorem Digest.fingerprint_eq_ok_iff {v : Value} {digest : String} :
    fingerprint v = .ok digest ↔
      ∃ text, stableText v = .ok text ∧ sha256 text.toUTF8.toList = digest := by
  rw [fingerprint]
  cases stableText v <;> simp [Except.map]

/-- The text behind a fingerprint can be recovered from what the run leaves. -/
theorem Scheduler.hashed?_keep {sched : Scheduler} {plan : Plan} {digest : String}
    {resolved : Option Resolved} (h : Examined (sched.setup plan) s p digest resolved) :
    ∃ n text, sched.graph.node? p.fqn = some n ∧
      Digest.stableText (s.fingerprinted (sched.setup plan) p n.unit resolved) = .ok text ∧
      (sched.keep s).hashed? p = some text ∧ Digest.sha256 text.toUTF8.toList = digest := by
  obtain ⟨n, hn, hd⟩ := h.compared
  obtain ⟨text, htext, hdigest⟩ := Digest.fingerprint_eq_ok_iff.mp hd
  refine ⟨n, text, hn, htext, ?_, hdigest⟩
  have hstate : ((sched.keep s).initial [] [] []).resolvedFor p = .ok resolved := h.filled
  have hvalue : ((sched.keep s).initial [] [] []).fingerprinted ((sched.keep s).setup []) p n.unit
      resolved = s.fingerprinted (sched.setup plan) p n.unit resolved := rfl
  have hnode : (sched.keep s).graph.node? p.fqn = some n := hn
  simp only [hashed?, hnode, Option.bind_some, hstate, hvalue, htext]
  rfl

/-- The texts of all planned pairs are among those that a run has hashed. -/
theorem Scheduler.mem_hashed {sched : Scheduler} {plan : Plan} {requested : List Phase}
    (h : Shown (sched.setup plan) base A s) (hp : (sched.setup plan).Planned p) {text : String}
    (ht : (sched.keep s).hashed? p = some text) : text ∈ (sched.ended requested s).hashed :=
  List.mem_filterMap.mpr ⟨p, h.keys ▸ hp, ht⟩

/-- **The fingerprints that a run leaves** in which every pair has succeeded are the digests of the
texts that it has hashed. -/
theorem Smooth.digests_hashed {sched : Scheduler} {plan : Plan}
    (h : Smooth (sched.setup plan) requested base s A) (phases : List Phase) :
    ((sched.ended phases s).hashed.map fun text => Digest.sha256 text.toUTF8.toList) =
      (sched.ended phases s).fingerprints := by
  change ((Table.keys s.outcomes).filterMap (sched.keep s).hashed?).map _ =
    (Table.keys s.outcomes).filterMap fun p => Table.get? p s.fingerprints
  rw [List.map_filterMap]
  refine List.filterMap_congr fun p hp => ?_
  have hplanned : (sched.setup plan).Planned p := by
    rw [Setup.Planned, ← h.tied.shown.keys]
    exact hp
  obtain ⟨digest, resolved, hx, -, hfingerprint⟩ := h.examined hplanned
  obtain ⟨n, text, -, -, htext, hdigest⟩ := Scheduler.hashed?_keep hx
  rw [htext, hfingerprint, Option.map_some, hdigest]

/-! ### What fingerprints are made of -/

variable {c' : Setup} {s' : RunState}

theorem get?_object_cons (name : String) (v : Value) (rest : List (String × Value))
    (key : String) : Value.get? (.object ((name, v) :: rest)) key =
      if key = name then some v else Value.get? (.object rest) key := by
  simp [Value.get?, Value.object, Entries.get?, Key.same_text]

/-- What is found in an object is found in one that is alike. -/
theorem Value.Alike.get?_object {entries entries' : List (String × Value)}
    (h : (Value.object entries).Alike (.object entries')) {name : String} {v : Value}
    (hv : (Value.object entries).get? name = some v) :
    ∃ w, (Value.object entries').get? name = some w ∧ v.Alike w := by
  refine Value.Alike.get? h ?_ hv
  intro e he
  obtain ⟨x, -, rfl⟩ := List.mem_map.mp he
  exact ⟨x.1, rfl⟩

theorem fingerprinted_config (u : UnitDef) (resolved : Option Resolved) :
    ∃ entries, s.fingerprinted c p u resolved = .object entries ∧
      (Value.object entries).get? "config" = some u.snapshot := by
  by_cases hd : p.phase = .deploy
  · simp only [fingerprinted, if_pos hd]
    exact ⟨_, rfl, by simp [get?_object_cons]⟩
  · simp only [fingerprinted, if_neg hd]
    exact ⟨_, rfl, by simp [get?_object_cons]⟩

/-- **Pairs with the same fingerprint** have units with the same configuration. -/
theorem alike_of_fingerprinted {u u' : UnitDef} {resolved resolved' : Option Resolved}
    (h : (s.fingerprinted c p u resolved).Alike (s'.fingerprinted c' p u' resolved')) :
    u.snapshot.Alike u'.snapshot := by
  obtain ⟨entries, heq, hconfig⟩ := fingerprinted_config (c := c) (s := s) (p := p) u resolved
  obtain ⟨entries', heq', hconfig'⟩ := fingerprinted_config (c := c') (s := s') (p := p) u' resolved'
  rw [heq, heq'] at h
  obtain ⟨w, hw, halike⟩ := h.get?_object hconfig
  rw [hconfig', Option.some.injEq] at hw
  rwa [hw]

/-- What stands in the fingerprint of a deployment for the deployments that its unit needs. -/
theorem fingerprinted_upstream (hd : p.phase = .deploy) (u : UnitDef)
    (resolved : Option Resolved) : ∃ entries, s.fingerprinted c p u resolved = .object entries ∧
      (Value.object entries).get? "upstream" = some (.object ((c.graph.providers p.fqn).map fun e =>
        (e.source, .ofText? (Table.get? (⟨e.source, .deploy⟩ : Pair) s.fingerprints)))) := by
  simp only [fingerprinted, if_pos hd]
  exact ⟨_, rfl, by simp [get?_object_cons, Graph.providers]⟩

/-- The fingerprint of a deployment that a unit needs. -/
theorem get?_upstream {edges : List Edge} {source : String}
    (h : source ∈ edges.map Edge.source) (fingerprints : Table Pair String) :
    (Value.object (edges.map fun e =>
      (e.source, .ofText? (Table.get? (⟨e.source, .deploy⟩ : Pair) fingerprints)))).get? source =
        some (.ofText? (Table.get? (⟨source, .deploy⟩ : Pair) fingerprints)) := by
  induction edges with
  | nil => cases h
  | cons e rest ih =>
    rw [List.map_cons, get?_object_cons]
    split
    · rename_i heq
      rw [heq]
    · rename_i hne
      refine ih ?_
      rw [List.map_cons, List.mem_cons] at h
      exact h.resolve_left hne

/-- **Deployments with the same fingerprint** are made on top of deployments with the same
fingerprints. -/
theorem upstream_of_fingerprinted (hd : p.phase = .deploy) {u u' : UnitDef}
    {resolved resolved' : Option Resolved}
    (h : (s.fingerprinted c p u resolved).Alike (s'.fingerprinted c' p u' resolved'))
    {source : String} (hedge : c'.graph.DeployEdge source p.fqn)
    (hsource : c.graph.DeployEdge source p.fqn) :
    Table.get? (⟨source, .deploy⟩ : Pair) s.fingerprints =
      Table.get? (⟨source, .deploy⟩ : Pair) s'.fingerprints := by
  obtain ⟨entries, heq, hup⟩ := fingerprinted_upstream (c := c) (s := s) hd u resolved
  obtain ⟨entries', heq', hup'⟩ := fingerprinted_upstream (c := c') (s := s') hd u' resolved'
  rw [heq, heq'] at h
  obtain ⟨w, hw, halike⟩ := h.get?_object hup
  rw [hup', Option.some.injEq] at hw
  rw [← hw] at halike
  obtain ⟨v, hv, hdigest⟩ :=
    halike.get?_object (get?_upstream (Graph.mem_providers.mpr hsource) s.fingerprints)
  rw [get?_upstream (Graph.mem_providers.mpr hedge), Option.some.injEq] at hv
  rw [← hv] at hdigest
  have hcanonical (name : Option String) :
      (Value.ofText? name).canonical = .ofText? name := by cases name <;> rfl
  rw [Value.Alike, hcanonical, hcanonical] at hdigest
  generalize Table.get? (⟨source, .deploy⟩ : Pair) s.fingerprints = a at hdigest ⊢
  generalize Table.get? (⟨source, .deploy⟩ : Pair) s'.fingerprints = b at hdigest ⊢
  cases a <;> cases b <;> simp_all [Value.ofText?]

end Rollout
