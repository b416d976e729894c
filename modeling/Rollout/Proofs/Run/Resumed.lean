import Rollout.Proofs.Graph.Kept
import Rollout.Proofs.Run.Evaluated
import Rollout.Proofs.Run.Reuse

/-!
# A run on what another one has left

After a run in which every pair has succeeded, the build state says of each planned pair that it is
current, under the fingerprint that the run has found for it; and the outputs of every deployment are
those that the run has recorded.

A later run starts from this state, perhaps after it has been stored and read. It looks at a pair of
a unit that is kept, and finds the same fingerprint, provided that what the pair reads was not
carried out again: the deployments that the unit needs and, for a deployment, the build of the unit.
So the pair is current.

**Types.** `Buildstate.Alike`, `Smooth`, `Setup.Matches`, `Resumes`, `Supplied`, `RunState.Hashes`,
`RunState.ReadsAgain`.

**Results.**
* `Smooth.examined`, `Smooth.outputs?_eq`, `Smooth.buildDigest?_eq`: what a run leaves in which
  every pair has succeeded;
* `Tied.supplied`: what a pair reads if the pairs behind it were reused;
* `Setup.Matches.hashes`: what the deployment of one unit is hashed to in two runs;
* `Smooth.examined_again`, `Smooth.reused_again`: a later run finds the same fingerprint, and
  reuses the pair;
* `Smooth.reused_of_closed`: a set of pairs that is reused, as it reads nothing else;
* `Tied.succeeded_of_unfailed`: where no pair fails, every pair succeeds.
-/

namespace Rollout

open RunState

/-- Two build states say the same about what is current, and about outputs up to the order of
entries. -/
structure Buildstate.Alike (b b' : Buildstate) : Prop where
  current : ∀ fqn p digest, b.isCurrent fqn p digest = b'.isCurrent fqn p digest
  built : ∀ fqn, (b.record? fqn).bind (fun r => r.fingerprint? .build) =
    (b'.record? fqn).bind fun r => r.fingerprint? .build
  outputs : ∀ fqn, (Value.map ((b.record? fqn).getD {}).outputs).Alike
    (.map ((b'.record? fqn).getD {}).outputs)

theorem Buildstate.alike_of_records {b b' : Buildstate} (h : ∀ fqn, b.record? fqn = b'.record? fqn) :
    b.Alike b' := by
  refine ⟨fun fqn p digest => ?_, fun fqn => by rw [h], fun fqn => ?_⟩
  · simp only [isCurrent, h]
  · rw [h]
    exact Value.Alike.refl _

/-- A pair that is current has its fingerprint in the record of its unit. -/
theorem Buildstate.fingerprint?_of_current {b : Buildstate} {fqn : String} {p : Phase}
    {digest : String} (h : b.isCurrent fqn p digest = true) :
    (b.record? fqn).bind (fun r => r.fingerprint? p) = some digest := by
  unfold Buildstate.isCurrent at h
  cases hr : b.record? fqn with
  | none =>
    rw [hr] at h
    cases h
  | some r =>
    simp only [hr, UnitRecord.isCurrent, Bool.and_eq_true, beq_iff_eq] at h
    exact h.2

variable {c c' : Setup} {requested requested' : List Phase} {base base' last s : RunState}
  {A A' : Chart} {p : Pair}

/-! ### After a run -/

/-- Only deployments have outputs. -/
theorem Tied.outputs?_of_ne (h : Tied c base A s) (hd : p.phase ≠ .deploy) :
    (A p).outputs? = none := by
  obtain ⟨t, -, hfit⟩ := h.fit p
  cases hA : A p with
  | reused digest outputs =>
    rw [hA] at hfit
    rcases verdict_cases hfit.2 with ⟨b, hst, -⟩ | ⟨cause, hst, -⟩ | ⟨d, o, hst, hleft, -⟩ |
      ⟨d, r, hst, -⟩
    · cases hst
    · cases hst
    · cases hst
      exact Tied.leftover_of_ne hd hleft
    · cases hst
  | succeeded digest ctx snapshot outputs =>
    rw [hA] at hfit
    obtain ⟨-, reply, given, -, -, hgain⟩ := hfit
    exact Tied.gain_of_ne hd hgain
  | _ => rfl

/-- What has been left for a reused pair. -/
theorem Tied.leftover_of_reused (h : Tied c base A s) {digest : String} {outputs : Option Entries}
    (hA : A p = .reused digest outputs) : base.leftover p = .ok outputs := by
  obtain ⟨t, -, hfit⟩ := h.fit p
  rw [hA] at hfit
  rcases verdict_cases hfit.2 with ⟨b, hst, -⟩ | ⟨cause, hst, -⟩ | ⟨d, o, hst, hleft, -⟩ |
    ⟨d, r, hst, -⟩
  · cases hst
  · cases hst
  · cases hst
    exact hleft
  · cases hst

/-- The outputs that are left for a deployment are those of its record. -/
theorem RunState.outputs_of_leftover {fqn : String} {outputs : Option Entries}
    (h : base.leftover ⟨fqn, .deploy⟩ = .ok outputs) :
    outputs = some ((base.buildstate.record? fqn).getD {}).outputs := by
  rw [leftover, if_pos rfl] at h
  cases ha : base.accept fqn ((base.buildstate.record? fqn).getD {}).outputs with
  | error fault =>
    rw [ha] at h
    cases h
  | ok keys =>
    rw [ha] at h
    exact (Except.ok.inj h).symm

/-- **The record of a deployed unit** holds the outputs that have been recorded for it. -/
theorem Tied.outputs?_eq (h : Tied c base A s) {fqn : String}
    (hdone : (A ⟨fqn, .deploy⟩).outputs? ≠ none) :
    (A ⟨fqn, .deploy⟩).outputs? = some ((s.buildstate.record? fqn).getD {}).outputs := by
  have hinit : (A ⟨fqn, .init⟩).outputs? = none := h.outputs?_of_ne nofun
  have hbuild : (A ⟨fqn, .build⟩).outputs? = none := h.outputs?_of_ne nofun
  rw [h.shown.record]
  simp only [Chart.record?, Phase.all, List.foldl_cons, List.foldl_nil]
  cases hA : A ⟨fqn, .deploy⟩ with
  | reused digest outputs =>
    have hleft := outputs_of_leftover (h.leftover_of_reused hA)
    rw [Standing.mark_of_unmarked rfl, Standing.outputs_mark hbuild, Standing.outputs_mark hinit]
    exact hleft
  | succeeded digest ctx snapshot outputs =>
    rw [hA] at hdone
    obtain ⟨entries, rfl⟩ := Option.ne_none_iff_exists'.mp hdone
    rfl
  | _ =>
    rw [hA] at hdone
    exact absurd rfl hdone

/-- A run of a fresh scheduler in which every planned pair has succeeded. -/
structure Smooth (c : Setup) (requested : List Phase) (base last : RunState) (A : Chart) :
    Prop where
  sound : c.Sound requested
  fresh : Fresh c base
  new : base.fingerprints = []
  tied : Tied c base A last
  done : ∀ p, c.Planned p → (A p).status = .succeeded

namespace Smooth

/-- **Every planned pair** has been examined, and is current under the fingerprint that was found. -/
theorem examined (h : Smooth c requested base last A) (hp : c.Planned p) :
    ∃ digest resolved, Examined c last p digest resolved ∧
      last.buildstate.isCurrent p.fqn p.phase digest = true ∧
      Table.get? p last.fingerprints = some digest := by
  have hdone := h.done p hp
  have hfingerprint := h.tied.shown.fingerprint p
  have hcurrent := h.tied.shown.isCurrent p
  cases hA : A p with
  | reused digest outputs =>
    obtain ⟨-, hbase⟩ := h.tied.current_of_reused hA
    obtain ⟨resolved, he⟩ := h.tied.examined_of_reused h.sound.built hA
    rw [hA] at hfingerprint
    exact ⟨digest, resolved, he, by rw [hcurrent, hA]; exact hbase, hfingerprint⟩
  | succeeded digest ctx snapshot outputs =>
    have hfit := (h.tied.fit p).fits h.sound.built
    rw [hA] at hfit hfingerprint
    obtain ⟨⟨resolved, n, hv, -⟩, -⟩ := hfit
    exact ⟨digest, resolved, (examined_of_ready hv).1, by rw [hcurrent, hA]; simp, hfingerprint⟩
  | failed digest ctx cause timedOut =>
    rw [hA] at hdone
    cases hdone
  | _ =>
    rw [hA] at hdone
    cases hdone

/-- **The outputs of a deployment** are those of the record of its unit, and have texts for names. -/
theorem outputs?_eq (h : Smooth c requested base last A) {fqn : String}
    (hp : c.Planned ⟨fqn, .deploy⟩) :
    last.resolver.outputs? fqn = some ((last.buildstate.record? fqn).getD {}).outputs ∧
      ((last.buildstate.record? fqn).getD {}).outputs.Named := by
  obtain ⟨t, -, hfit⟩ := h.tied.fit ⟨fqn, .deploy⟩
  obtain ⟨entries, hentries, hnamed⟩ := h.fresh.named_outputs hfit (h.done _ hp) rfl
  have hsome : (A ⟨fqn, .deploy⟩).outputs? ≠ none := by
    rw [hentries]
    nofun
  have hrecord := h.tied.outputs?_eq hsome
  rw [hentries, Option.some.injEq] at hrecord
  rw [h.tied.shown.outputs, hentries, ← hrecord]
  exact ⟨rfl, hnamed⟩

/-- **The fingerprint of the build of a unit** is that of the record of the unit, be the build part
of the run or not. -/
theorem buildDigest?_eq (h : Smooth c requested base last A) (fqn : String) :
    last.buildDigest? fqn =
      (last.buildstate.record? fqn).bind fun r => r.fingerprint? .build := by
  unfold RunState.buildDigest?
  by_cases hp : c.Planned ⟨fqn, .build⟩
  · obtain ⟨digest, -, -, hcurrent, hfingerprint⟩ := h.examined hp
    rw [hfingerprint, Buildstate.fingerprint?_of_current hcurrent]
  · have hnone : Table.get? (⟨fqn, .build⟩ : Pair) last.fingerprints = none := by
      rw [h.tied.shown.fingerprint, h.tied.shown.offPlan _ hp, h.new]
      rfl
    rw [hnone]

end Smooth

/-- **Outputs keep text keys** in the records that a run leaves. -/
theorem Tidy.keyed_steps (hc : c.Sound requested) (h : Tidy c base) {n : Nat}
    (hs : Steps c n base last) (ht : Tied c base A base) (htimely : Timely base) :
    last.buildstate.Keyed := by
  refine hs.keeps (P := fun s => s.buildstate.Keyed) hc.toChecked (fun s t hs => hs) ?_ ht htimely
    h.buildstate
  intro B s s' hB hm hb
  cases hm with
  | miss hp hv => exact hb.markFailed _ _
  | fail hcall hrun hintime ha => exact hb.markFailed _ _
  | timeout hrun hd hlate => exact hb.markFailed _ _
  | @succeed call task given snapshot outputs hcall hrun hintime ha hg =>
    obtain ⟨ctx, -, -, hreturned⟩ :=
      Tied.returned_of_underway (hB.queued.underway call hcall task hrun) hintime
    obtain ⟨snap, other, hgain, hkeyed⟩ := h.exists_gain (p := call.pair) task.namespaceName
      call.reply (h.keyed_given hreturned ha)
    rw [hg, Except.ok.injEq, Prod.mk.injEq] at hgain
    obtain ⟨-, rfl⟩ := hgain
    change (c.store.save _ _ _).state.Keyed
    rw [Store.save_state]
    refine hb.markSucceeded _ _ _ _ fun entries ho => ?_
    obtain rfl : outputs = some entries := ho
    by_cases hd : call.pair.phase = .deploy
    · obtain ⟨entries', heq, hk⟩ := hkeyed hd
      obtain rfl := Option.some.inj heq
      exact hk
    · cases Tied.gain_of_ne hd hg
  | _ => exact hb

/-! ### In the next run -/

/-- Two runs are over stacks of one name with the same namespaces, and for one release. -/
structure Setup.Matches (c c' : Setup) : Prop where
  ofStack : ∃ stack, Graph.ofStack stack = .ok c.graph
  ofStack' : ∃ stack, Graph.ofStack stack = .ok c'.graph
  stackName : c.graph.stackName = c'.graph.stackName
  namespaces : ∀ u u' : UnitDef, u.namespaceName = u'.namespaceName →
    c.namespaceFor u = c'.namespaceFor u'
  release : c.releaseName = c'.releaseName

/-- A run starts from what another one has left, perhaps over another graph of the same name. -/
structure Resumes (c : Setup) (last : RunState) (c' : Setup) (base' : RunState) : Prop
    extends c.Matches c' where
  buildstate : last.buildstate.Alike base'.buildstate
  fresh : Fresh c' base'
  new : base'.fingerprints = []

/-- What a deployment reads in a run is what was known before the run. -/
structure Supplied (c : Setup) (base s : RunState) (fqn : String) : Prop where
  upstream : ∀ source, c.graph.DeployEdge source fqn → ∃ digest,
    Table.get? (⟨source, .deploy⟩ : Pair) s.fingerprints = some digest ∧
      base.buildstate.isCurrent source .deploy digest = true ∧
      s.resolver.outputs? source = some ((base.buildstate.record? source).getD {}).outputs
  build : s.buildDigest? fqn = (base.buildstate.record? fqn).bind fun r => r.fingerprint? .build

/-- The build of a unit has no fingerprint in the run but that of its record, if it is not part of
the run or has been reused. -/
theorem Tied.buildDigest?_eq (h : Tied c base A s) (hnew : base.fingerprints = []) {fqn : String}
    (hb : A ⟨fqn, .build⟩ = .waiting ∨ ∃ digest outputs, A ⟨fqn, .build⟩ = .reused digest outputs) :
    s.buildDigest? fqn =
      (base.buildstate.record? fqn).bind fun r => r.fingerprint? .build := by
  have hfingerprint := h.shown.fingerprint ⟨fqn, .build⟩
  unfold RunState.buildDigest?
  rcases hb with hb | ⟨digest, outputs, hb⟩
  · rw [hb, hnew] at hfingerprint
    have hnone : Table.get? (⟨fqn, .build⟩ : Pair) s.fingerprints = none := hfingerprint
    rw [hnone, h.shown.record]
    simp only [Chart.record?, Phase.all, List.foldl_cons, List.foldl_nil, hb,
      Standing.fingerprint?_mark_of_ne (show Phase.build ≠ Phase.deploy by decide)]
    exact Standing.fingerprint?_mark_of_ne (show Phase.build ≠ Phase.init by decide) _ _
  · rw [hb] at hfingerprint
    have hsome : Table.get? (⟨fqn, .build⟩ : Pair) s.fingerprints = some digest := hfingerprint
    rw [hsome, Buildstate.fingerprint?_of_current (h.current_of_reused hb).2]

/-- **A deployment that is reused** has the fingerprint and the outputs that were known before the
run. -/
theorem Tied.known_of_reused (h : Tied c base A s) {source digest : String}
    {outputs : Option Entries} (hA : A ⟨source, .deploy⟩ = .reused digest outputs) :
    Table.get? (⟨source, .deploy⟩ : Pair) s.fingerprints = some digest ∧
      base.buildstate.isCurrent source .deploy digest = true ∧
      s.resolver.outputs? source = some ((base.buildstate.record? source).getD {}).outputs := by
  have hfingerprint := h.shown.fingerprint ⟨source, .deploy⟩
  have houtputs := h.shown.outputs source
  rw [hA] at hfingerprint houtputs
  rw [outputs_of_leftover (h.leftover_of_reused hA)] at houtputs
  exact ⟨hfingerprint, (h.current_of_reused hA).2, houtputs⟩

/-- **What a deployment reads** is what was known before the run, if the deployments that its unit
needs have been reused, and the build of the unit has been reused or is not part of the run. -/
theorem Tied.supplied (h : Tied c base A s) (hnew : base.fingerprints = []) {fqn : String}
    (hup : ∀ source, c.graph.DeployEdge source fqn →
      ∃ digest outputs, A ⟨source, .deploy⟩ = .reused digest outputs)
    (hb : A ⟨fqn, .build⟩ = .waiting ∨ ∃ digest outputs, A ⟨fqn, .build⟩ = .reused digest outputs) :
    Supplied c base s fqn := by
  refine ⟨fun source hedge => ?_, h.buildDigest?_eq hnew hb⟩
  obtain ⟨digest, outputs, hA⟩ := hup source hedge
  exact ⟨digest, h.known_of_reused hA⟩

/-- A pair that has been examined is reused if it is current and not forced. -/
theorem RunState.Examined.verdict_of_current {digest : String} {resolved : Option Resolved}
    (h : Examined c s p digest resolved) (hforced : p.fqn ∉ c.forced p.phase)
    (hcurrent : base.buildstate.isCurrent p.fqn p.phase digest = true) :
    verdict c base s p = (base.leftover p).map (.reused digest) := by
  obtain ⟨n, hn, hd⟩ := h.compared
  have hdue : overdue c base p digest = false := by
    simp [overdue, hforced, hcurrent]
  simp [verdict, h.clear, hn, h.filled, hd, hdue]

/-! ### The same text -/

/-- What a pair is hashed to in a state, whether or not anything blocks it. -/
def RunState.Hashes (c : Setup) (s : RunState) (p : Pair) (digest : String) : Prop :=
  ∃ resolved, s.resolvedFor p = .ok resolved ∧ ∃ n, c.graph.node? p.fqn = some n ∧
    Digest.fingerprint (s.fingerprinted c p n.unit resolved) = .ok digest

theorem RunState.Examined.hashes {digest : String} {resolved : Option Resolved}
    (h : Examined c s p digest resolved) : Hashes c s p digest :=
  ⟨resolved, h.filled, h.compared⟩

theorem RunState.Hashes.unique {digest other : String} (h : Hashes c s p digest)
    (h' : Hashes c s p other) : digest = other := by
  obtain ⟨resolved, hr, n, hn, hd⟩ := h
  obtain ⟨resolved', hr', n', hn', hd'⟩ := h'
  obtain rfl : resolved = resolved' := Except.ok.inj (hr.symm.trans hr')
  obtain rfl : n = n' := Option.some.inj (hn.symm.trans hn')
  exact Except.ok.inj (hd.symm.trans hd')

/-- The deployment of a unit reads in a second state what it reads in a first one: the fingerprints
of its build and of the deployments that it needs, and outputs with the same texts. -/
structure RunState.ReadsAgain (c : Setup) (s s' : RunState) (fqn : String) : Prop where
  build : s.buildDigest? fqn = s'.buildDigest? fqn
  upstream : ∀ source, c.graph.DeployEdge source fqn →
    Table.get? (⟨source, .deploy⟩ : Pair) s.fingerprints =
      Table.get? (⟨source, .deploy⟩ : Pair) s'.fingerprints
  outputs : ∀ n, c.graph.node? fqn = some n → ∀ r, Value.Mentions r n.unit.document →
    ∀ v, s.resolver.output? r = some v → ∃ w, s'.resolver.output? r = some w ∧ v.SameText w

namespace Setup.Matches

variable {s' : RunState}

/-- **Two states hash the same text** for the deployment of a unit that both runs have in common, if
it is resolved to the same text, and reads the same fingerprints. -/
theorem fingerprinted (h : c.Matches c') {n n' : Node} (hn : c.graph.node? p.fqn = some n)
    (hn' : c'.graph.node? p.fqn = some n') (halike : n.unit.snapshot.Alike n'.unit.snapshot)
    (hd : p.phase = .deploy) (hreads : ReadsAgain c s s' p.fqn) {first second : Resolved}
    (hresolved : first.toValue.SameText second.toValue) :
    (s.fingerprinted c p n.unit (some first)).SameText
      (s'.fingerprinted c' p n'.unit (some second)) := by
  obtain ⟨stack, hg⟩ := h.ofStack
  obtain ⟨stack', hg'⟩ := h.ofStack'
  have hkept : c.graph.Kept c'.graph p.fqn := ⟨n, n', hn, hn', halike⟩
  have hnamespace := h.namespaces n.unit n'.unit (UnitDef.namespaceName_of_alike halike)
  have hupstream : (Value.object ((c.graph.providers p.fqn).map fun e =>
        (e.source, .ofText? (Table.get? (⟨e.source, .deploy⟩ : Pair) s.fingerprints)))).Alike
      (.object ((c'.graph.providers p.fqn).map fun e =>
        (e.source, .ofText? (Table.get? (⟨e.source, .deploy⟩ : Pair) s'.fingerprints)))) := by
    have hnames := Graph.nodup_providers (Graph.simple_ofStack hg) p.fqn
    have hsame : (c.graph.providers p.fqn).map (fun e => (Key.text e.source,
          Value.ofText? (Table.get? (⟨e.source, .deploy⟩ : Pair) s.fingerprints))) =
        ((c.graph.providers p.fqn).map Edge.source).map fun source => (Key.text source,
          Value.ofText? (Table.get? (⟨source, .deploy⟩ : Pair) s'.fingerprints)) := by
      rw [List.map_map]
      refine List.map_congr_left fun e he => ?_
      rw [hreads.upstream e.source (Graph.mem_providers.mp (List.mem_map_of_mem he))]
      rfl
    have hother : (c'.graph.providers p.fqn).map (fun e => (Key.text e.source,
          Value.ofText? (Table.get? (⟨e.source, .deploy⟩ : Pair) s'.fingerprints))) =
        ((c'.graph.providers p.fqn).map Edge.source).map fun source => (Key.text source,
          Value.ofText? (Table.get? (⟨source, .deploy⟩ : Pair) s'.fingerprints)) := by
      rw [List.map_map]
      rfl
    simp only [Value.object, List.map_map, Function.comp_def]
    rw [hsame, hother]
    refine Value.alike_map_of_perm ((hkept.providers_perm hg hg' h.stackName).map _) ?_ ?_
    · rw [List.map_map]
      exact hnames.map fun _ _ heq => Key.text.inj heq
    · simp
  simp only [RunState.fingerprinted, if_pos hd, hreads.build, h.release, hnamespace]
  exact Value.sameText_map (.cons ⟨rfl, .refl _⟩ (.cons ⟨rfl, halike.sameText⟩
    (.cons ⟨rfl, hresolved⟩ (.cons ⟨rfl, .refl _⟩ (.cons ⟨rfl, .refl _⟩
      (.cons ⟨rfl, .refl _⟩ (.cons ⟨rfl, hupstream.sameText⟩ .nil)))))))

/-- **The deployment of a kept unit** is hashed to the same in a second run, in a state in which it
reads what it reads in the first one. -/
theorem hashes (h : c.Matches c') (hs : s.resolver.graph = c.graph)
    (hs' : s'.resolver.graph = c'.graph)
    (hu : ∀ n ∈ c.graph.nodes, n.unit.document.Unambiguous)
    (hu' : ∀ n ∈ c'.graph.nodes, n.unit.document.Unambiguous)
    (hk : c.graph.Kept c'.graph p.fqn) (hd : p.phase = .deploy)
    (hreads : ReadsAgain c s s' p.fqn) {digest : String} (hdigest : Hashes c s p digest) :
    Hashes c' s' p digest := by
  obtain ⟨stack, hg⟩ := h.ofStack
  obtain ⟨stack', hg'⟩ := h.ofStack'
  obtain ⟨resolved, hfilled, m, hm, hdigest⟩ := hdigest
  obtain ⟨n, n', hn, hn', halike⟩ := hk
  obtain rfl : n = m := Option.some.inj (hn.symm.trans hm)
  obtain ⟨first, hfirst, rfl⟩ := resolve_of_resolvedFor hfilled hd
  obtain ⟨second, hsecond, hresolved⟩ := Resolver.resolve_sameText
    (hs.symm ▸ Graph.built_ofStack hg) (hs'.symm ▸ Graph.built_ofStack hg')
    (by rw [hs]; exact hn) (by rw [hs']; exact hn') (hu n (Graph.mem_of_node? hn).1)
    (hu' n' (Graph.mem_of_node? hn').1) halike (hreads.outputs n hn) hfirst
  refine ⟨some second, by rw [resolvedFor, if_pos hd, hsecond]; rfl, n', hn', ?_⟩
  exact (h.fingerprinted hn hn' halike hd hreads hresolved).fingerprint.mp hdigest

end Setup.Matches

namespace Smooth

/-- What the deployment of a kept unit reads is found again. -/
theorem readsAgain (h : Smooth c requested base last A) (hr : Resumes c last c' base')
    (hg : s.resolver.graph = c'.graph) (hp : c.Planned p) (hd : p.phase = .deploy)
    (hk : c.graph.Kept c'.graph p.fqn) (hs : Supplied c' base' s p.fqn) :
    ReadsAgain c last s p.fqn := by
  obtain ⟨stack, hstack⟩ := hr.ofStack
  obtain ⟨stack', hstack'⟩ := hr.ofStack'
  have hbehind {source : String} (hedge : c.graph.DeployEdge source p.fqn) :
      c.Planned ⟨source, .deploy⟩ ∧ c'.graph.DeployEdge source p.fqn := by
    have hedge' := (hk.deployEdge_iff hstack hstack' hr.stackName).mp hedge
    obtain ⟨e, hmem, rfl, htarget, hkind⟩ := hedge
    exact ⟨h.sound.behind_planned (h.sound.behind_upstream hp (h.sound.deploy_requested hp hd) hmem
      htarget hkind), hedge'⟩
  refine ⟨?_, fun source hedge => ?_, fun n hn r hm v hv => ?_⟩
  · rw [h.buildDigest?_eq, hs.build, hr.buildstate.built]
  · obtain ⟨hplanned, hedge'⟩ := hbehind hedge
    obtain ⟨digest', hsome', hcurrent', -⟩ := hs.upstream source hedge'
    obtain ⟨digest, -, -, hcurrent, hsome⟩ := h.examined hplanned
    rw [hr.buildstate.current] at hcurrent
    rw [hsome, hsome', Buildstate.isCurrent_unique hcurrent hcurrent']
  · obtain ⟨e, he, rfl⟩ := UnitDef.mentions_document.mp hm
    obtain ⟨hplanned, hedge'⟩ := hbehind ((Graph.deployEdge_iff hstack).mpr ⟨n, hn, e, he, rfl⟩)
    obtain ⟨houtputs, hnamed⟩ := h.outputs?_eq hplanned
    obtain ⟨-, -, -, houtputs'⟩ := hs.upstream _ hedge'
    rw [Resolver.output?, h.tied.shown.graph, houtputs] at hv
    obtain ⟨w, hw, hvw⟩ := (hr.buildstate.outputs _).get? hnamed hv
    refine ⟨w, ?_, hvw.sameText⟩
    rw [Resolver.output?, hg, ← hr.stackName, houtputs']
    exact hw

/-- **A later run finds the same fingerprint** for a pair of a kept unit, if nothing blocks the pair
and a deployment reads what the earlier run has left. -/
theorem examined_again (h : Smooth c requested base last A) (hr : Resumes c last c' base')
    (hg : s.resolver.graph = c'.graph) (hp : c.Planned p) (hk : c.graph.Kept c'.graph p.fqn)
    (hclear : s.blocker? c' p = none) (hs : p.phase = .deploy → Supplied c' base' s p.fqn) :
    ∃ digest resolved, Examined c' s p digest resolved ∧
      base'.buildstate.isCurrent p.fqn p.phase digest = true := by
  obtain ⟨digest, resolved, he, hcurrent, -⟩ := h.examined hp
  rw [hr.buildstate.current] at hcurrent
  suffices hagain : Hashes c' s p digest by
    obtain ⟨second, hfilled, hcompared⟩ := hagain
    exact ⟨digest, second, ⟨hclear, hfilled, hcompared⟩, hcurrent⟩
  by_cases hd : p.phase = .deploy
  · exact hr.toMatches.hashes h.tied.shown.graph hg h.fresh.units hr.fresh.units hk hd
      (h.readsAgain hr hg hp hd hk (hs hd)) he.hashes
  · obtain ⟨n, n', hn, hn', halike⟩ := hk
    obtain ⟨m, hm, hdigest⟩ := he.compared
    obtain rfl : n = m := Option.some.inj (hn.symm.trans hm)
    refine ⟨none, by rw [resolvedFor, if_neg hd], n', hn', ?_⟩
    simp only [fingerprinted, if_neg hd] at hdigest ⊢
    refine (Value.Alike.fingerprint ?_).mp hdigest
    exact Value.alike_map (.cons ⟨rfl, Value.Alike.refl _⟩ (.cons ⟨rfl, halike⟩ .nil))

/-- **A pair of a kept unit is reused** in a later run that has decided about it, if nothing blocks
it, it is not forced, and a deployment reads what the earlier run has left. -/
theorem reused_again (h : Smooth c requested base last A) (hr : Resumes c last c' base')
    (hb : ∃ stack, c'.graph.Built stack) (ht : Tied c' base' A' s)
    (hclear : ∀ w ∈ c'.waits p, s.status w = .succeeded) (hdecided : A' p ≠ .waiting)
    (hp : c.Planned p) (hk : c.graph.Kept c'.graph p.fqn)
    (hforced : p.fqn ∉ c'.forced p.phase) (hs : p.phase = .deploy → Supplied c' base' s p.fqn) :
    ∃ digest outputs, A' p = .reused digest outputs := by
  obtain ⟨digest, resolved, he, hcurrent⟩ :=
    h.examined_again hr ht.shown.graph hp hk (blocker?_eq_none_iff.mpr hclear) hs
  have hverdict := he.verdict_of_current hforced hcurrent
  have hreused {st : Standing} (hv : verdict c' base' s p = .ok st) :
      ∃ digest outputs, st = .reused digest outputs := by
    rw [hverdict] at hv
    cases hleft : base'.leftover p with
    | error fault =>
      rw [hleft] at hv
      cases hv
    | ok outputs =>
      rw [hleft] at hv
      exact ⟨digest, outputs, (Except.ok.inj hv).symm⟩
  have hbegun {d : String} {ctx : UnitContext} : ¬Begun c' base' s p d ctx := by
    rintro ⟨r, n, hv, -⟩
    obtain ⟨_, _, hst⟩ := hreused hv
    cases hst
  have hfit := (ht.fit p).fits hb
  cases hA : A' p with
  | waiting => exact absurd hA hdecided
  | running d ctx =>
    rw [hA] at hfit
    exact absurd hfit hbegun
  | succeeded d ctx snapshot outputs =>
    rw [hA] at hfit
    exact absurd hfit.1 hbegun
  | failed d ctx cause timedOut =>
    rw [hA] at hfit
    cases timedOut with
    | false => exact absurd hfit.1 hbegun
    | true => exact absurd hfit.1 hbegun
  | _ =>
    rw [hA] at hfit
    exact hreused hfit.2

/-- **A set of pairs is reused** in a later run in which every pair succeeds, if all of them have
succeeded in the earlier one, their units are kept, none is forced, and the deployments among them
read only pairs of the set. -/
theorem reused_of_closed (h : Smooth c requested base last A) (hr : Resumes c last c' base')
    (hc : c'.Sound requested') (ht : Tied c' base' A' s)
    (hdone : ∀ q, c'.Planned q → (A' q).status = .succeeded) {Stays : Pair → Prop}
    (hkept : ∀ q, c'.Planned q → Stays q →
      c.Planned q ∧ c.graph.Kept c'.graph q.fqn ∧ q.fqn ∉ c'.forced q.phase)
    (hclosed : ∀ source fqn, c'.graph.DeployEdge source fqn → Stays ⟨fqn, .deploy⟩ →
      Stays ⟨source, .deploy⟩)
    (hbuild : ∀ fqn, Stays ⟨fqn, .deploy⟩ → Stays ⟨fqn, .build⟩) :
    ∀ p, c'.Planned p → Stays p → ∃ digest outputs, A' p = .reused digest outputs := by
  have hdecided {q : Pair} (hq : c'.Planned q) : A' q ≠ .waiting := by
    intro heq
    have := hdone q hq
    rw [heq] at this
    cases this
  have hclear {q : Pair} : ∀ w ∈ c'.waits q, s.status w = .succeeded := by
    intro w hw
    rw [ht.shown.status]
    exact hdone w (hc.waits_planned hw)
  have hother (q : Pair) (hq : c'.Planned q) (hd : q.phase ≠ .deploy) (hs : Stays q) :
      ∃ digest outputs, A' q = .reused digest outputs := by
    obtain ⟨hplanned, hk, hforced⟩ := hkept q hq hs
    exact h.reused_again hr hc.built ht hclear (hdecided hq) hplanned hk hforced
      fun hdeploy => absurd hdeploy hd
  intro p
  induction p using hc.wellFounded.transGen.induction with
  | _ p ih =>
    intro hp hs
    by_cases hd : p.phase = .deploy
    swap
    · exact hother p hp hd hs
    obtain ⟨fqn, phase⟩ := p
    obtain rfl : phase = .deploy := hd
    obtain ⟨hplanned, hk, hforced⟩ := hkept _ hp hs
    refine h.reused_again hr hc.built ht hclear (hdecided hp) hplanned hk hforced
      fun _ => ht.supplied hr.new ?_ ?_
    · intro source hedge
      have hbehind : c'.Behind ⟨source, .deploy⟩ ⟨fqn, .deploy⟩ := by
        obtain ⟨e, hmem, rfl, htarget, hkind⟩ := id hedge
        exact hc.behind_upstream hp (hc.deploy_requested hp rfl) hmem htarget hkind
      exact ih ⟨source, .deploy⟩ hbehind (hc.behind_planned hbehind) (hclosed source fqn hedge hs)
    · by_cases hplan : c'.Planned ⟨fqn, .build⟩
      · exact Or.inr (hother _ hplan nofun (hbuild fqn hs))
      · exact Or.inl (ht.shown.offPlan _ hplan)

end Smooth

/-- **Where no pair fails, every pair succeeds**: no pair is skipped but for another one. -/
theorem Tied.succeeded_of_unfailed (hc : c.Sound requested) (h : Tied c base A s)
    (hall : ∀ p, c.Planned p → (A p).settled = true)
    (hnone : ∀ p, c.Planned p → (A p).status ≠ .failed) :
    ∀ p, c.Planned p → (A p).status = .succeeded := by
  intro p
  induction p using hc.wellFounded.induction with
  | _ p ih =>
    intro hp
    have hsettled := hall p hp
    have hfailed := hnone p hp
    cases hA : A p with
    | skipped b =>
      -- what blocks a pair has not succeeded, and neither has it failed
      have hfit := (h.fit p).fits hc.built
      rw [hA] at hfit
      rcases verdict_cases hfit.2 with ⟨b', -, hb⟩ | ⟨cause, hst, -⟩ | ⟨d, o, hst, -⟩ |
        ⟨d, r, hst, -⟩
      · have hclear : s.blocker? c p = none := by
          rw [blocker?_eq_none_iff]
          intro w hw
          rw [h.shown.status]
          exact ih w hw (hc.waits_planned hw)
        rw [hclear] at hb
        cases hb
      · cases hst
      · cases hst
      · cases hst
    | missing cause =>
      rw [hA] at hfailed
      exact absurd rfl hfailed
    | failed d ctx cause timedOut =>
      rw [hA] at hfailed
      exact absurd rfl hfailed
    | reused d outputs => rfl
    | succeeded d ctx snapshot outputs => rfl
    | _ =>
      rw [hA] at hsettled
      cases hsettled

end Rollout
