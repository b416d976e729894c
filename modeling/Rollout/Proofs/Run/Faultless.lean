import Rollout.Proofs.Buildstate.Loaded
import Rollout.Proofs.Reference.Resolver
import Rollout.Proofs.Run.Steps

/-!
# Runs in which nothing but a save goes wrong

If the units of a graph are JSON documents, and the outputs that earlier runs and executors leave
have text keys, then every value that a run compares, hands out or records has a text. By the time a
pair is considered, all units that it refers to have recorded outputs, and every unit records its
outputs once. So a run is halted by nothing but a save that fails.

**Types.** `Executors.Keyed`, `Tidy`, `Unsaved`.

**Results.**
* `InitStep.exists_fill`, `UnitDef.exists_context`: contexts of units that have passed their check;
* `Tidy.verdict_spec`: there is a verdict on every pair that is considered;
* `Tidy.blame_spec`: what can be to blame for a halt.
-/

namespace Rollout

/-! ### Contexts -/

namespace InitStep

theorem exists_inputText {inputs : Table String Value} (hp : (Value.object inputs).IsPlain)
    {name : String} (h : Table.has name inputs = true) :
    ∃ text, inputText inputs name = .ok text := by
  obtain ⟨v, hv⟩ := Option.isSome_iff_exists.mp h
  have hplain : v.IsPlain := Value.isPlain_object.mp hp _ (Table.mem_of_get? hv)
  obtain ⟨text, ht⟩ := Value.exists_write Json.spaced hplain.keyed (Or.inr hplain)
  unfold inputText
  rw [hv]
  cases v with
  | text s => exact ⟨_, rfl⟩
  | _ => exact ⟨text, by simp only [ht]⟩

/-- **A step is filled in** when all inputs that it names are there. -/
theorem exists_fill {inputs : Table String Value} (hp : (Value.object inputs).IsPlain)
    {step : String} (h : ∀ name ∈ names step, Table.has name inputs = true) :
    ∃ filled, fill inputs step = .ok filled := by
  have hpieces (ps : List (Text.Piece String))
      (hps : ∀ name, .found name ∈ ps → Table.has name inputs = true) :
      ∃ cs, fillPieces inputs ps = .ok cs := by
    induction ps with
    | nil => exact ⟨[], rfl⟩
    | cons p rest ih =>
      obtain ⟨others, ho⟩ := ih fun name hm => hps name (List.mem_cons_of_mem _ hm)
      cases p with
      | kept c => exact ⟨c :: others, by rw [fillPieces, ho]; rfl⟩
      | found name =>
        obtain ⟨first, hf⟩ := exists_inputText hp (hps name List.mem_cons_self)
        exact ⟨first ++ others, by rw [fillPieces, hf, ho]; rfl⟩
  obtain ⟨cs, hcs⟩ := hpieces (pieces step) fun name hm =>
    h name (List.mem_filterMap.mpr ⟨.found name, hm, rfl⟩)
  exact ⟨String.ofList cs, by rw [fill, hcs]; rfl⟩

end InitStep

namespace UnitDef

variable {u : UnitDef}

/-- A unit that has passed its check has all inputs that its init steps name. -/
theorem has_of_check (h : u.check = .ok ()) {step : String} (hs : step ∈ u.initSteps) :
    ∀ name ∈ InitStep.names step, Table.has name u.inputs = true := by
  intro name hname
  simp only [check] at h
  split at h
  · cases h
  obtain ⟨-, -, h⟩ := eq_ok_of_bind h
  obtain ⟨-, -, h⟩ := eq_ok_of_bind h
  cases hf : (u.initSteps.flatMap InitStep.names).find? fun token => !Table.has token u.inputs with
  | some token =>
    rw [hf] at h
    cases h
  | none =>
    have hnot := List.find?_eq_none.mp hf name (List.mem_flatMap.mpr ⟨step, hs, hname⟩)
    simpa using hnot

/-- A unit that has passed its check has a context for every phase. -/
theorem exists_context (hu : u.IsJson) (h : u.check = .ok ()) (c : Setup) (p : Pair)
    (resolved : Option Resolved) : ∃ ctx, RunState.context c p u resolved = .ok ctx := by
  have hsteps : ∃ steps, (if p.phase = .init then u.initSteps.mapM (InitStep.fill u.inputs)
      else .ok [] : Except InitStep.Fault (List String)) = .ok steps := by
    by_cases hp : p.phase = .init
    · rw [if_pos hp]
      exact Value.exists_mapM fun step hs =>
        InitStep.exists_fill hu.inputs.plain (has_of_check h hs)
    · exact ⟨[], if_neg hp⟩
  obtain ⟨steps, hs⟩ := hsteps
  unfold RunState.context
  simp only [hs, Except.map]
  exact ⟨_, rfl⟩

end UnitDef

/-! ### Outputs -/

/-- The outputs that executors leave have text keys. -/
def Executors.Keyed (executors : Executors) : Prop :=
  ∀ p timeout work, Table.get? p executors = some ⟨timeout, some work⟩ →
    ∀ ctx files outputs, (work ctx files).answer = .succeeded (some outputs) →
      (Value.map outputs).Keyed

/-- All that a run works with are JSON documents and outputs with text keys, and no outputs have
been recorded before. -/
structure Tidy (c : Setup) (base : RunState) : Prop where
  units : ∀ n ∈ c.graph.nodes, n.unit.IsJson
  fresh : ∀ fqn, base.resolver.outputs? fqn = none
  buildstate : base.buildstate.Keyed
  executors : c.executors.Keyed

open RunState

/-- The success of an answer that has come in cannot be saved. -/
inductive Unsaved (c : Setup) (base s : RunState) (fault : StoreFault) : Prop
  | intro {call : Call} {task : Task} {given : Option Entries} {snapshot : Option Value}
      {outputs : Option Entries} (hcall : call ∈ s.calls)
      (hrun : Table.get? call.pair s.running = some task)
      (ha : call.reply.answer.result = .ok given)
      (hg : gain c base call.pair task.namespaceName call.reply given = .ok (snapshot, outputs))
      (hs : (c.store.save c.graph.stackName (s.buildstate.markSucceeded call.pair.fqn
        call.pair.phase task.fingerprint snapshot outputs) s.files).path = .error fault)

/-- What is resolved for a pair has the properties of the configuration of its unit and of the
outputs that have been recorded. -/
theorem RunState.hereditary_resolved {P : Value → Prop} {K : List Key → Prop}
    (h : Value.Hereditary P K) {c : Setup} {s : RunState} (hc : s.resolver.graph = c.graph)
    {stack : Stack} (hg : c.graph.Built stack) {p : Pair} {n : Node}
    (hn : c.graph.node? p.fqn = some n) (hunit : n.unit.document.Unambiguous)
    (hu : P n.unit.snapshot) (ho : ∀ reference, P (s.resolver.output reference))
    {resolved : Option Resolved} (hr : s.resolvedFor p = .ok resolved) :
    ∀ r ∈ resolved, P r.toValue := by
  rintro r rfl
  rw [← hc] at hg hn
  unfold resolvedFor at hr
  split at hr
  · rcases Resolver.resolve_cases hg hn hunit with ⟨other, hother, his, -⟩ | ⟨fault, -, hfault⟩
    · rw [hother] at hr
      obtain rfl : other = r := Option.some.inj (Except.ok.inj hr)
      rw [his.toValue]
      exact h.replaced ho (UnitDef.hereditary_document h hu)
    · rw [hfault] at hr
      cases hr
  · cases hr

/-- **What a pair is compared by** has the properties of the configuration of its unit, before and
after references are resolved. -/
theorem RunState.hereditary_fingerprinted {P : Value → Prop} {K : List Key → Prop}
    (h : Value.Hereditary P K) (c : Setup) (s : RunState) (p : Pair) {u : UnitDef}
    (hu : P u.snapshot) {resolved : Option Resolved} (hr : ∀ r ∈ resolved, P r.toValue) :
    P (s.fingerprinted c p u resolved) := by
  unfold fingerprinted
  split
  · have hupstream : P (Value.object (((c.graph.incoming p.fqn).filter fun e =>
        e.kind = .deploy).map fun e =>
          (e.source, Value.ofText? (Table.get? ⟨e.source, .deploy⟩ s.fingerprints)))) := by
      rw [h.object, List.forall_mem_map]
      exact fun e _ => h.ofText? _
    rw [h.object]
    simp only [List.forall_mem_cons]
    refine ⟨h.text _, hu, ?_, h.text _, h.text _, h.ofText? _, hupstream, by simp⟩
    cases resolved with
    | none => exact h.null
    | some r => exact hr r rfl
  · rw [h.object]
    simp only [List.forall_mem_cons]
    exact ⟨h.text _, hu, by simp⟩

namespace Tidy

variable {c : Setup} {requested : List Phase} {base s : RunState} {A : Chart} {p : Pair}

theorem exists_accept (h : Tidy c base) (fqn : String) {outputs : Entries}
    (ho : (Value.map outputs).Keyed) : ∃ keys, base.accept fqn outputs = .ok keys := by
  obtain ⟨keys, hk, -⟩ := exists_sortedKeys ho.named
  exact ⟨keys, by simp [accept, h.fresh fqn, hk]⟩

/-- What earlier runs have left of a pair can be reused. -/
theorem exists_leftover (h : Tidy c base) (p : Pair) :
    ∃ outputs, base.leftover p = .ok outputs ∧
      (p.phase = .deploy → ∃ entries, outputs = some entries ∧ (Value.map entries).Keyed) := by
  by_cases hd : p.phase = .deploy
  · have hkeyed : (Value.map ((base.buildstate.record? p.fqn).getD {}).outputs).Keyed := by
      cases hr : base.buildstate.record? p.fqn with
      | none => trivial
      | some r => exact h.buildstate.record hr
    obtain ⟨keys, hk⟩ := h.exists_accept p.fqn hkeyed
    exact ⟨_, by rw [leftover, if_pos hd, hk]; rfl, fun _ => ⟨_, rfl, hkeyed⟩⟩
  · exact ⟨none, by rw [leftover, if_neg hd], fun hp => absurd hp hd⟩

/-- What an executor answers has text keys. -/
theorem keyed_given (h : Tidy c base) {ctx : UnitContext} {reply : Reply}
    (hr : Returned c p ctx reply) {given : Option Entries}
    (ha : reply.answer.result = .ok given) : (Value.map (given.getD [])).Keyed := by
  obtain ⟨timeout, work, files, he, rfl, -⟩ := hr
  cases given with
  | none => trivial
  | some outputs =>
    refine h.executors _ _ _ he ctx files outputs ?_
    cases hanswer : (work ctx files).answer with
    | succeeded other =>
      rw [hanswer, Answer.result, Except.ok.injEq] at ha
      rw [ha]
    | failed cause =>
      rw [hanswer] at ha
      cases cause <;> cases ha
    | foreign kind =>
      rw [hanswer] at ha
      cases ha
    | raised className text =>
      rw [hanswer] at ha
      cases ha

/-- The outputs that an executor answers can be recorded. -/
theorem exists_gain (h : Tidy c base) (namespaceName : String) (reply : Reply)
    {given : Option Entries} (hgiven : (Value.map (given.getD [])).Keyed) :
    ∃ snapshot outputs, gain c base p namespaceName reply given = .ok (snapshot, outputs) ∧
      (p.phase = .deploy → ∃ entries, outputs = some entries ∧ (Value.map entries).Keyed) := by
  by_cases hd : p.phase = .deploy
  · have hkeyed : (Value.map (completed c p namespaceName given)).Keyed := by
      unfold completed
      split
      · exact hgiven
      · refine Value.keyed_map.mpr (List.forall_mem_append.mpr ⟨Value.keyed_map.mp hgiven, ?_⟩)
        simp [Value.Keyed]
    obtain ⟨keys, hk⟩ := h.exists_accept p.fqn hkeyed
    exact ⟨_, _, by rw [gain, if_pos hd, hk]; rfl, fun _ => ⟨_, rfl, hkeyed⟩⟩
  · exact ⟨none, none, by rw [gain, if_neg hd], fun hp => absurd hp hd⟩

/-- Deployments that have succeeded have recorded outputs. -/
theorem exists_outputs (h : Tidy c base) {st : Standing} (hf : Fits c base s p st)
    (hs : st.status = .succeeded) (hd : p.phase = .deploy) :
    ∃ entries, st.outputs? = some entries ∧ (Value.map entries).Keyed := by
  cases st with
  | reused digest outputs =>
    obtain ⟨other, hl, hkeyed⟩ := h.exists_leftover p
    rcases verdict_cases hf.2 with ⟨b, hst, -⟩ | ⟨cause, hst, -⟩ | ⟨d, o, hst, hleft, -⟩ |
      ⟨d, r, hst, -⟩
    · cases hst
    · cases hst
    · cases hst
      rw [hleft, Except.ok.injEq] at hl
      subst hl
      exact hkeyed hd
    · cases hst
  | succeeded digest ctx snapshot outputs =>
    obtain ⟨-, reply, given, hr, ha, hg⟩ := hf
    obtain ⟨snap, other, hgain, hkeyed⟩ :=
      h.exists_gain (p := p) ctx.namespaceName reply (h.keyed_given hr ha)
    rw [hg, Except.ok.injEq, Prod.mk.injEq] at hgain
    obtain ⟨-, rfl⟩ := hgain
    exact hkeyed hd
  | failed digest ctx cause timedOut => cases hs
  | _ => cases hs

/-! ### Verdicts -/

/-- Everything behind an open pair that nothing blocks has succeeded. -/
theorem succeeded_of_clear (ht : Tied c base A s) (hclear : s.blocker? c p = none) {q : Pair}
    (hb : c.Behind q p) : (A q).status = .succeeded := by
  have hone {w : Pair} (hw : w ∈ c.waits p) : (A w).status = .succeeded := by
    rw [← ht.shown.status]
    exact blocker?_eq_none_iff.mp hclear w hw
  cases hb with
  | single hw => exact hone hw
  | @tail w _ hb hw =>
    refine ht.fit.succeeded_of_behind ht.shown hb ?_ ?_
    · intro heq
      have := hone hw
      rw [heq] at this
      cases this
    · intro b heq
      have := hone hw
      rw [heq] at this
      cases this

/-- The units that a deployment refers to have recorded outputs once they have succeeded. -/
theorem provided (hc : c.Sound requested) (h : Tidy c base) (ht : Tied c base A s)
    (hp : c.Planned p) (hd : p.phase = .deploy)
    (hdone : ∀ q, c.Behind q p → (A q).status = .succeeded) :
    ∀ site ∈ s.resolver.sitesOf p.fqn, s.resolver.Provided site := by
  intro site hsite
  rw [Resolver.sitesOf, ht.shown.graph, List.mem_filter] at hsite
  have hunit : site.unit = p.fqn := by simpa using hsite.2
  have hbehind := hc.behind_site hp (hc.deploy_requested hp hd) hsite.1 hunit
  obtain ⟨t, -, hfit⟩ := ht.fit ⟨site.reference.target c.graph.stackName, .deploy⟩
  obtain ⟨entries, ho, hkeyed⟩ := h.exists_outputs hfit (hdone _ hbehind) rfl
  refine ⟨entries, ?_, hkeyed.named⟩
  rw [ht.shown.graph, ht.shown.outputs, ho]
  rfl

/-- All outputs that have been recorded have text keys. -/
theorem keyed_recorded (h : Tidy c base) (ht : Tied c base A s) (fqn : String) (outputs : Entries)
    (ho : s.resolver.outputs? fqn = some outputs) : (Value.map outputs).Keyed := by
  rw [ht.shown.outputs, h.fresh, Option.or_none] at ho
  have hdone : (A ⟨fqn, .deploy⟩).status = .succeeded := by
    cases hA : A ⟨fqn, .deploy⟩ with
    | reused digest entries => rfl
    | succeeded digest ctx snapshot entries => rfl
    | _ =>
      rw [hA] at ho
      cases ho
  obtain ⟨t, -, hfit⟩ := ht.fit ⟨fqn, .deploy⟩
  obtain ⟨entries, hentries, hkeyed⟩ := h.exists_outputs hfit hdone rfl
  rw [ho, Option.some.injEq] at hentries
  rwa [hentries]

/-- The references of a pair are resolved, or an output is missing. -/
theorem resolvedFor_spec (hc : c.Sound requested) (h : Tidy c base) (ht : Tied c base A s)
    (hp : c.Planned p) {n : Node} (hn : c.graph.node? p.fqn = some n)
    (hdone : ∀ q, c.Behind q p → (A q).status = .succeeded) :
    (∃ resolved, s.resolvedFor p = .ok resolved ∧ ∀ r ∈ resolved, r.toValue.Keyed) ∨
      ∃ site target available, s.resolvedFor p = .error (.missingOutput site target available) := by
  by_cases hd : p.phase = .deploy
  · obtain ⟨stack, hbuilt⟩ := hc.built
    have hg : s.resolver.graph.Built stack := by
      rw [ht.shown.graph]
      exact hbuilt
    have hnode : s.resolver.graph.node? p.fqn = some n := by
      rw [ht.shown.graph]
      exact hn
    rw [resolvedFor, if_pos hd]
    rcases Resolver.resolve_spec hg hnode (h.units n (Graph.mem_of_node? hn).1)
      (h.provided hc ht hp hd hdone) (h.keyed_recorded ht) with ⟨resolved, hok, hkeyed⟩ |
      ⟨site, target, available, herror⟩
    · refine Or.inl ⟨some resolved, by rw [hok]; rfl, ?_⟩
      rintro r ⟨⟩
      exact hkeyed
    · exact Or.inr ⟨site, target, available, by rw [herror]; rfl⟩
  · refine Or.inl ⟨none, by rw [resolvedFor, if_neg hd], ?_⟩
    rintro r ⟨⟩

/-- **There is a verdict** on every pair that is considered; if it fails, an output is missing. -/
theorem verdict_spec (hc : c.Sound requested) (h : Tidy c base) (ht : Tied c base A s)
    (hp : c.Planned p) : ∃ st, verdict c base s p = .ok st ∧
      ∀ cause, st = .missing cause → ∃ site target available,
        some cause = (ResolveFault.missingOutput site target available).failure?.map
          Failure.message := by
  obtain ⟨n, hn, -⟩ := hc.exists_node hp
  cases hb : s.blocker? c p with
  | some b => exact ⟨.skipped b, by rw [verdict, hb], fun cause heq => by cases heq⟩
  | none =>
    have hdone (q : Pair) (hq : c.Behind q p) := succeeded_of_clear ht hb hq
    rcases h.resolvedFor_spec hc ht hp hn hdone with ⟨resolved, hr, hkeyed⟩ |
      ⟨site, target, available, hr⟩
    · obtain ⟨digest, hd⟩ := Value.exists_fingerprint (hereditary_fingerprinted
        Value.hereditary_keyed c s p (h.units n (Graph.mem_of_node? hn).1).plain.keyed hkeyed)
      obtain ⟨outputs, hl, -⟩ := h.exists_leftover p
      refine ⟨if overdue c base p digest then .ready digest resolved else .reused digest outputs,
        ?_, fun cause heq => ?_⟩
      · simp only [verdict, hb, hn, hr, hd, hl, Except.map]
        cases overdue c base p digest <;> rfl
      · cases hover : overdue c base p digest <;> simp [hover] at heq
    · obtain ⟨f, hf⟩ : ∃ f, (ResolveFault.missingOutput site target available).failure? = some f :=
        ⟨_, rfl⟩
      refine ⟨.missing f.message, by simp only [verdict, hb, hn, hr, hf], fun cause heq => ?_⟩
      refine ⟨site, target, available, ?_⟩
      rw [hf, ← Standing.missing.inj heq]
      rfl

/-- **Nothing is to blame for a halt but a save that fails.** -/
theorem blame_spec (hc : c.Sound requested) (h : Tidy c base) (ht : Tied c base A s)
    {fault : RunFault} (hb : Blame c base s fault) :
    ∃ f, fault = .store f ∧ Unsaved c base s f := by
  cases hb with
  | save hcall hrun hintime ha hg hs => exact ⟨_, rfl, .intro hcall hrun ha hg hs⟩
  | @verdict x rest fault hp hv =>
    obtain ⟨ho, -⟩ := ht.queued.take_promoted hp
    obtain ⟨st, hst, -⟩ := h.verdict_spec hc ht ho.planned
    rw [hv] at hst
    cases hst
  | @context item rest n fault hr hn hctx =>
    obtain ⟨stack, hbuilt⟩ := hc.built
    have hm := (Graph.mem_of_node? hn).1
    obtain ⟨ctx, hok⟩ := UnitDef.exists_context (h.units n hm) (hbuilt.checked n hm) c item.pair
      item.resolved
    rw [hctx] at hok
    cases hok
  | @gain call task given fault hcall hrun hintime ha hg =>
    obtain ⟨ctx, hA, -, hreturned⟩ :=
      Tied.returned_of_underway (ht.queued.underway call hcall task hrun) hintime
    obtain ⟨snapshot, outputs, hok, -⟩ :=
      h.exists_gain (p := call.pair) task.namespaceName call.reply (h.keyed_given hreturned ha)
    rw [hg] at hok
    cases hok

end Tidy

end Rollout
