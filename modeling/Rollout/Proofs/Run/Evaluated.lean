import Rollout.Proofs.Run.Evaluation
import Rollout.Proofs.Run.Faultless
import Rollout.Proofs.Run.Scheduled

/-!
# What has happened when a deployment is evaluated

A deployment is evaluated when nothing blocks it. Every unit whose deployment it needs has then been
deployed in the same run: its outputs are recorded, and its fingerprint is known. So the references
of the deployment are resolved, or an output is missing, which is a failure of this one pair; and no
unit records its outputs twice.

Nothing is asked of what executors answer. Outputs can only be recorded if their keys have an order,
and one of them is the name of the host; so all their keys are texts.

**Types.** `Buildstate.Named`, `Fresh`, `RunState.Deployed`, `RunState.Contained`.

**Results.**
* `named_of_sortedKeys`: outputs with an order and a text key have text keys only;
* `Fresh.deployed_of_behind`: deployments behind an evaluated pair;
* `Fresh.error_of_verdict`: why there is no verdict on a pair;
* `Fresh.blame_ne_resolve`: no run halts for references or recorded outputs;
* `deployed_upstream`: the same of every run of a scheduler that is created.
-/

namespace Rollout

open RunState

/-- A fault of a changed result is one of the result. -/
theorem eq_error_of_map {ε α β : Type} {f : α → β} {attempt : Except ε α} {fault : ε}
    (h : attempt.map f = .error fault) : attempt = .error fault := by
  cases attempt with
  | error e => exact congrArg Except.error (Except.error.inj h)
  | ok a => cases h

/-! ### Names of outputs -/

/-- In every record of the state the outputs have texts for names. -/
def Buildstate.Named (b : Buildstate) : Prop :=
  ∀ fqn r, b.record? fqn = some r → r.outputs.Named

theorem Buildstate.Keyed.named {b : Buildstate} (h : b.Keyed) : b.Named :=
  fun _ _ hr => (h.record hr).named

/-- A text names no entry but its own. -/
theorem Key.eq_of_text_same {s : String} {k : Key} (h : (Key.text s).same k = true) :
    k = .text s := by
  cases k with
  | text t => exact (of_decide_eq_true h).symm
  | _ =>
    simp [same, number?] at h

theorem Json.keyClass_eq_text {k : Key} (h : keyClass k = .text) : ∃ s, k = .text s := by
  cases k with
  | text s => exact ⟨s, rfl⟩
  | _ => cases h

/-- Keys without a clash are all of one class. -/
theorem Json.keyClass_of_firstClash {a : Key} {keys : List Key}
    (h : firstClash (a :: keys) = none) : ∀ k ∈ keys, keyClass k = keyClass a := by
  induction keys generalizing a with
  | nil => simp
  | cons b rest ih =>
    rw [firstClash] at h
    split at h
    · rename_i hclass
      intro k hk
      rcases List.mem_cons.mp hk with rfl | hk
      · exact hclass.symm
      · exact (ih h k hk).trans hclass.symm
    · cases h

/-- Outputs whose keys have an order have text keys if one of their keys is a text. -/
theorem named_of_sortedKeys {outputs : Entries} {keys : List Key}
    (h : sortedKeys outputs = .ok keys) {s : String} (hs : Key.text s ∈ outputs.map Prod.fst) :
    outputs.Named := by
  have hclash : Json.firstClash (outputs.map Prod.fst) = none := by
    rw [sortedKeys, Json.sortEntries] at h
    cases hc : Json.firstClash (outputs.map Prod.fst) with
    | none => rfl
    | some clash =>
      rw [hc] at h
      cases h
  intro e he
  refine Json.keyClass_eq_text ?_
  have hk : e.1 ∈ outputs.map Prod.fst := List.mem_map_of_mem he
  cases hkeys : outputs.map Prod.fst with
  | nil =>
    rw [hkeys] at hk
    cases hk
  | cons a rest =>
    rw [hkeys] at hclash hk hs
    have hall : ∀ k ∈ a :: rest, Json.keyClass k = Json.keyClass a :=
      List.forall_mem_cons.mpr ⟨rfl, Json.keyClass_of_firstClash hclash⟩
    rw [hall _ hk, ← hall _ hs]
    rfl

/-! ### Before a run -/

/-- No mapping in a configuration names an entry twice, no outputs have been recorded, and those
that earlier runs have left have texts for names. -/
structure Fresh (c : Setup) (base : RunState) : Prop where
  units : ∀ n ∈ c.graph.nodes, n.unit.document.Unambiguous
  unrecorded : ∀ fqn, base.resolver.outputs? fqn = none
  named : base.buildstate.Named

/-- The units of a graph are those of its stack. -/
theorem Graph.unambiguous_ofStack {stack : Stack} {g : Graph} (hg : Graph.ofStack stack = .ok g)
    (hu : ∀ u ∈ stack.units, u.document.Unambiguous) :
    ∀ n ∈ g.nodes, n.unit.document.Unambiguous := by
  intro n hn
  refine hu n.unit ?_
  rw [← (Graph.built_ofStack hg).units]
  exact List.mem_map_of_mem hn

/-- A unit has been deployed in the run. -/
structure RunState.Deployed (s : RunState) (fqn : String) : Prop where
  succeeded : ∃ o, Table.get? (⟨fqn, .deploy⟩ : Pair) s.outcomes = some o ∧ o.status = .succeeded
  outputs : ∃ outputs, s.resolver.outputs? fqn = some outputs
  fingerprint : ∃ digest, Table.get? (⟨fqn, .deploy⟩ : Pair) s.fingerprints = some digest

/-- The run goes on, with the failure of one pair and the outcomes of all others as they were. -/
def RunState.Contained (c : Setup) (s : RunState) (p : Pair) (cause : Option String) : Prop :=
  ∃ s' o, s.step c = .state s' ∧ Table.get? p s'.outcomes = some o ∧ o.status = .failed ∧
    o.cause = cause ∧ ∀ q, q ≠ p → Table.get? q s'.outcomes = Table.get? q s.outcomes

variable {c : Setup} {requested : List Phase} {base s : RunState} {A : Chart} {p : Pair}

namespace Fresh

/-- What a scheduler works with that has just been created. -/
theorem of_create {stack : Stack} {g : Graph} (hg : Graph.ofStack stack = .ok g)
    (hu : ∀ u ∈ stack.units, u.document.Unambiguous) {executors : Executors} {store : Store}
    {state : Option Buildstate} {before : Files} {options : RunOptions} {chance chance' : Chance}
    {sched : Scheduler} (hs : Scheduler.create g executors store state before options chance =
      .ok (sched, chance')) (hstate : ∀ b ∈ state, b.Named) (plan : Plan) (phases : List Phase)
    (files : Files) : Fresh (sched.setup plan) (sched.initial plan phases files) := by
  obtain ⟨-, hgraph, -, -, hresolver, hknown⟩ := Scheduler.sound_create hg hs
  refine ⟨?_, ?_, ?_⟩
  · intro n hn
    change n ∈ sched.graph.nodes at hn
    rw [hgraph] at hn
    exact Graph.unambiguous_ofStack hg hu n hn
  · intro fqn
    change sched.resolver.outputs? fqn = none
    rw [hresolver]
    rfl
  · change sched.buildstate.Named
    cases state with
    | some b =>
      rw [← Except.ok.inj hknown]
      exact hstate b rfl
    | none => exact (Store.isJson_load hknown).keyed.named

/-- Outputs are accepted for their names. -/
theorem named_of_accept (h : Fresh c base) {fqn : String} {outputs : Entries} {keys : List Key}
    (ha : base.accept fqn outputs = .ok keys) {s : String}
    (hs : Key.text s ∈ outputs.map Prod.fst) : outputs.Named := by
  rw [accept, h.unrecorded, Option.isSome_none, if_neg (by simp)] at ha
  cases hk : sortedKeys outputs with
  | error fault =>
    rw [hk] at ha
    cases ha
  | ok keys => exact named_of_sortedKeys hk hs

/-- Outputs with texts for names are accepted. -/
theorem exists_accept (h : Fresh c base) (fqn : String) {outputs : Entries} (ho : outputs.Named) :
    ∃ keys, base.accept fqn outputs = .ok keys := by
  obtain ⟨keys, hk, -⟩ := exists_sortedKeys ho
  exact ⟨keys, by simp [accept, h.unrecorded, hk]⟩

/-- What earlier runs have left of a pair can be reused. -/
theorem exists_leftover (h : Fresh c base) (p : Pair) :
    ∃ outputs, base.leftover p = .ok outputs := by
  by_cases hd : p.phase = .deploy
  · have hnamed : ((base.buildstate.record? p.fqn).getD {}).outputs.Named := by
      cases hr : base.buildstate.record? p.fqn with
      | none => exact nofun
      | some r => exact h.named _ _ hr
    obtain ⟨keys, hk⟩ := h.exists_accept p.fqn hnamed
    exact ⟨_, by rw [leftover, if_pos hd, hk]; rfl⟩
  · exact ⟨none, by rw [leftover, if_neg hd]⟩

/-- The outputs of a deployed unit name its host. -/
theorem host_mem_completed (namespaceName : String) (given : Option Entries) :
    Key.text hostOutput ∈ (completed c p namespaceName given).map Prod.fst := by
  unfold completed
  split
  · rename_i hhas
    obtain ⟨v, hv⟩ := Option.isSome_iff_exists.mp hhas
    generalize given.getD [] = entries at hv
    induction entries with
    | nil => cases hv
    | cons e rest ih =>
      rw [Entries.get?] at hv
      split at hv
      · rename_i hsame
        rw [List.map_cons, Key.eq_of_text_same hsame]
        exact List.mem_cons_self
      · exact List.mem_cons_of_mem _ (ih hv)
  · simp

/-- Deployments that have succeeded have recorded outputs whose names are texts. -/
theorem named_outputs (h : Fresh c base) {st : Standing} (hf : Fits c base s p st)
    (hs : st.status = .succeeded) (hd : p.phase = .deploy) :
    ∃ entries, st.outputs? = some entries ∧ entries.Named := by
  cases st with
  | reused digest outputs =>
    rcases verdict_cases hf.2 with ⟨b, hst, -⟩ | ⟨cause, hst, -⟩ | ⟨d, o, hst, hleft, -⟩ |
      ⟨d, r, hst, -⟩
    · cases hst
    · cases hst
    · cases hst
      rw [leftover, if_pos hd] at hleft
      cases ha : base.accept p.fqn ((base.buildstate.record? p.fqn).getD {}).outputs with
      | error fault =>
        rw [ha] at hleft
        cases hleft
      | ok keys =>
        rw [ha] at hleft
        refine ⟨_, (Except.ok.inj hleft).symm, ?_⟩
        cases hr : base.buildstate.record? p.fqn with
        | none =>
          intro e he
          cases he
        | some r => exact h.named _ _ hr
    · cases hst
  | succeeded digest ctx snapshot outputs =>
    obtain ⟨-, reply, given, -, -, hg⟩ := hf
    rw [gain, if_pos hd] at hg
    cases ha : base.accept p.fqn (completed c p ctx.namespaceName given) with
    | error fault =>
      rw [ha] at hg
      cases hg
    | ok keys =>
      rw [ha] at hg
      obtain ⟨-, rfl⟩ := Prod.mk.inj (Except.ok.inj hg)
      exact ⟨_, rfl, h.named_of_accept ha (host_mem_completed _ _)⟩
  | failed digest ctx cause timedOut => cases hs
  | _ => cases hs

/-- **Deployments behind an evaluated pair** have been carried out in the run. -/
theorem deployed_of_behind (hc : c.Sound requested) (h : Fresh c base) (ht : Tied c base A s)
    (hclear : s.blocker? c p = none) {fqn : String} (hb : c.Behind ⟨fqn, .deploy⟩ p) :
    s.Deployed fqn := by
  have hdone := Tidy.succeeded_of_clear ht hclear hb
  obtain ⟨o, ho, hu⟩ := ht.shown.exists_outcome (hc.behind_planned hb)
  obtain ⟨t, -, hfit⟩ := ht.fit ⟨fqn, .deploy⟩
  obtain ⟨entries, hentries, -⟩ := h.named_outputs hfit hdone rfl
  refine ⟨⟨o, ho, ?_⟩, ⟨entries, ?_⟩, ?_⟩
  · rw [← hdone, Standing.status, ← hu]
    rfl
  · rw [ht.shown.outputs, hentries]
    rfl
  · rw [ht.shown.fingerprint]
    cases hA : A ⟨fqn, .deploy⟩ with
    | reused digest outputs => exact ⟨digest, rfl⟩
    | succeeded digest ctx snapshot outputs => exact ⟨digest, rfl⟩
    | failed digest ctx cause timedOut =>
      rw [hA] at hdone
      cases hdone
    | _ =>
      rw [hA] at hdone
      cases hdone

/-- An evaluated deployment can look up what it refers to. -/
theorem provided (hc : c.Sound requested) (h : Fresh c base) (ht : Tied c base A s)
    (hp : c.Planned p) (hd : p.phase = .deploy) (hclear : s.blocker? c p = none) :
    ∀ site ∈ s.resolver.sitesOf p.fqn, s.resolver.Provided site := by
  intro site hsite
  rw [Resolver.sitesOf, ht.shown.graph, List.mem_filter] at hsite
  have hunit : site.unit = p.fqn := by simpa using hsite.2
  have hbehind := hc.behind_site hp (hc.deploy_requested hp hd) hsite.1 hunit
  obtain ⟨t, -, hfit⟩ := ht.fit ⟨site.reference.target c.graph.stackName, .deploy⟩
  obtain ⟨entries, ho, hnamed⟩ :=
    h.named_outputs hfit (Tidy.succeeded_of_clear ht hclear hbehind) rfl
  refine ⟨entries, ?_, hnamed⟩
  rw [ht.shown.graph, ht.shown.outputs, ho]
  rfl

/-- **An evaluated deployment** is resolved, or an output is missing. -/
theorem resolve_spec (hc : c.Sound requested) (h : Fresh c base) (ht : Tied c base A s)
    (hp : c.Planned p) (hd : p.phase = .deploy) (hclear : s.blocker? c p = none) :
    (∃ resolved, s.resolver.resolve p.fqn = .ok resolved) ∨
      ∃ site target available,
        s.resolver.resolve p.fqn = .error (.missingOutput site target available) := by
  obtain ⟨stack, hbuilt⟩ := hc.built
  obtain ⟨n, hn, -⟩ := hc.exists_node hp
  have hg : s.resolver.graph.Built stack := by
    rw [ht.shown.graph]
    exact hbuilt
  have hnode : s.resolver.graph.node? p.fqn = some n := by
    rw [ht.shown.graph]
    exact hn
  exact Resolver.resolve_of_provided hg hnode (h.units n (Graph.mem_of_node? hn).1)
    (h.provided hc ht hp hd hclear)

/-- What a pair reads is resolved, or an output is missing. -/
theorem resolvedFor_spec (hc : c.Sound requested) (h : Fresh c base) (ht : Tied c base A s)
    (hp : c.Planned p) (hclear : s.blocker? c p = none) :
    (∃ resolved, s.resolvedFor p = .ok resolved) ∨
      ∃ site target available, s.resolvedFor p = .error (.missingOutput site target available) := by
  by_cases hd : p.phase = .deploy
  · rw [resolvedFor, if_pos hd]
    rcases h.resolve_spec hc ht hp hd hclear with ⟨resolved, hr⟩ | ⟨site, target, available, hr⟩
    · exact Or.inl ⟨some resolved, by rw [hr]; rfl⟩
    · exact Or.inr ⟨site, target, available, by rw [hr]; rfl⟩
  · exact Or.inl ⟨none, by rw [resolvedFor, if_neg hd]⟩

/-- **There is no verdict** on a pair only if what it is compared by has no text. -/
theorem error_of_verdict (hc : c.Sound requested) (h : Fresh c base) (ht : Tied c base A s)
    (hp : c.Planned p) {fault : RunFault} (hv : verdict c base s p = .error fault) :
    ∃ n resolved f, c.graph.node? p.fqn = some n ∧ s.resolvedFor p = .ok resolved ∧
      Digest.fingerprint (s.fingerprinted c p n.unit resolved) = .error f ∧
      fault = .noText f := by
  obtain ⟨n, hn, -⟩ := hc.exists_node hp
  unfold RunState.verdict at hv
  cases hclear : s.blocker? c p with
  | some b => simp [hclear] at hv
  | none =>
    simp only [hclear, hn] at hv
    rcases h.resolvedFor_spec hc ht hp hclear with ⟨resolved, hr⟩ | ⟨site, target, available, hr⟩
    · simp only [hr] at hv
      cases hf : Digest.fingerprint (s.fingerprinted c p n.unit resolved) with
      | error f =>
        rw [hf] at hv
        exact ⟨n, resolved, f, hn, hr, hf, (Except.error.inj hv).symm⟩
      | ok digest =>
        obtain ⟨outputs, hleft⟩ := h.exists_leftover p
        simp only [hf, hleft] at hv
        split at hv <;> cases hv
    · rw [hr] at hv
      cases hv

/-- Outputs are refused because their names have no order. -/
theorem noText_of_accept (h : Fresh c base) {fqn : String} {outputs : Entries} {fault : RunFault}
    (ha : base.accept fqn outputs = .error fault) : ∃ f, fault = .noText f := by
  rw [accept, h.unrecorded, Option.isSome_none, if_neg (by simp)] at ha
  cases hk : sortedKeys outputs with
  | error f =>
    rw [hk] at ha
    exact ⟨f, (Except.error.inj ha).symm⟩
  | ok keys =>
    rw [hk] at ha
    cases ha

/-- **No run halts** for references or recorded outputs. -/
theorem blame_ne_resolve (hc : c.Sound requested) (h : Fresh c base) (ht : Tied c base A s)
    (fault : ResolveFault) : ¬Blame c base s (.resolve fault) := by
  intro hb
  cases hb with
  | gain hcall hrun hintime ha hg =>
    unfold RunState.gain at hg
    split at hg
    · obtain ⟨f, hf⟩ := h.noText_of_accept (eq_error_of_map hg)
      cases hf
    · cases hg
  | verdict hp hv =>
    obtain ⟨n, resolved, f, -, -, -, hf⟩ :=
      h.error_of_verdict hc ht (ht.queued.take_promoted hp).1.planned hv
    cases hf

/-- A missing output is the failure of the pair that refers to it. -/
theorem contained (hc : c.Sound requested) (ht : Tied c base A s) {rest : List Pair}
    (hp : s.promoted = p :: rest) (hd : p.phase = .deploy) (hclear : s.blocker? c p = none)
    {site : Site} {target : String} {available : List String}
    (hmissing : s.resolver.resolve p.fqn = .error (.missingOutput site target available)) :
    s.Contained c p ((ResolveFault.missingOutput site target available).failure?.map
      Failure.message) := by
  have hplanned := (ht.queued.take_promoted hp).1.planned
  obtain ⟨n, hn, -⟩ := hc.exists_node hplanned
  obtain ⟨o, ho, -⟩ := ht.shown.exists_outcome hplanned
  have hblocker : ({ s with promoted := rest } : RunState).blocker? c p = none := hclear
  obtain ⟨f, hf⟩ : ∃ f, (ResolveFault.missingOutput site target available).failure? = some f :=
    ⟨_, rfl⟩
  rw [hf]
  have hstep : s.step c = .state ((({ s with promoted := rest } : RunState).fail p f.message 0
      false).settle c.plan p) := by
    simp only [step, hp, consider, hblocker, hn, if_pos hd, hmissing, hf]
    rfl
  refine ⟨_, Outcome.move .failed { o with
    cause := some f.message
    timedOut := false
    durationMs := 0 }, hstep, ?_, rfl, rfl, fun q hq => ?_⟩
  · change Table.get? p (Table.modify p _ s.outcomes) = _
    rw [Table.get?_modify, if_pos rfl, ho]
    rfl
  · change Table.get? q (Table.modify p _ s.outcomes) = _
    rw [Table.get?_modify, if_neg hq]

end Fresh

/-! ### Runs -/

/-- **A deployment is evaluated on top of deployments.** Whenever a run of a scheduler that has just
been created evaluates a deployment, all units whose deployment it needs have been deployed in this
run, and their fingerprints are part of its own. Its references are resolved, or an output is
missing, which is a failure of this pair and of nothing else. And no run ends early for references or
for outputs that are recorded twice. -/
theorem deployed_upstream {stack : Stack} {g : Graph} (hg : Graph.ofStack stack = .ok g)
    (hu : ∀ u ∈ stack.units, u.document.Unambiguous) {executors : Executors} {store : Store}
    {state : Option Buildstate} {before : Files} {options : RunOptions} {chance chance' : Chance}
    {sched : Scheduler} (hs : Scheduler.create g executors store state before options chance =
      .ok (sched, chance')) (hstate : ∀ b ∈ state, b.Named) (phases : List Phase) (files : Files) :
    (∀ plan n t p rest, checkExecutors executors g (requestedPhases phases) = .ok () →
      g.plan (requestedPhases phases) = .ok plan →
      Steps (sched.setup plan) n (sched.initial plan (requestedPhases phases) files) t →
      t.promoted = p :: rest → p.phase = .deploy → t.blocker? (sched.setup plan) p = none →
        (∀ e ∈ g.incoming p.fqn, e.kind = .deploy → t.Deployed e.source) ∧
        (∀ u resolved, ∃ digest : String → String,
          (t.fingerprinted (sched.setup plan) p u resolved).get? "upstream" =
            some (.object (((g.incoming p.fqn).filter fun e => e.kind = .deploy).map fun e =>
              (e.source, .text (digest e.source))))) ∧
        ((∃ resolved, t.resolver.resolve p.fqn = .ok resolved) ∨
          ∃ site target available,
            t.resolver.resolve p.fqn = .error (.missingOutput site target available) ∧
            t.Contained (sched.setup plan) p
              ((ResolveFault.missingOutput site target available).failure?.map
                Failure.message))) ∧
      ∀ fault, (sched.run phases files).report ≠ .error (.resolve fault) := by
  obtain ⟨hsound, rfl, rfl, -⟩ := Scheduler.sound_create hg hs
  have hfresh (plan : Plan) := Fresh.of_create hg hu hs hstate plan (requestedPhases phases) files
  refine ⟨?_, ?_⟩
  · intro plan n t p rest hcheck hplan hsteps hp hd hclear
    have hc := hsound.setup hcheck hplan
    obtain ⟨A, ht, -, -⟩ := (tied_initial hc.toChecked (requestedPhases phases) files
      hsound.resolver).steps hc.toChecked hsteps timely_initial
    have hplanned := (ht.queued.take_promoted hp).1.planned
    have hbelow (e : Edge) (he : e ∈ sched.graph.incoming p.fqn) (hk : e.kind = .deploy) :
        t.Deployed e.source := by
      obtain ⟨hedge, htarget⟩ := List.mem_filter.mp he
      exact (hfresh plan).deployed_of_behind hc ht hclear (hc.behind_upstream hplanned
        (hc.deploy_requested hplanned hd) hedge (by simpa using htarget) hk)
    refine ⟨hbelow, fun u resolved => ?_, ?_⟩
    · refine ⟨fun fqn => (Table.get? (⟨fqn, .deploy⟩ : Pair) t.fingerprints).getD "", ?_⟩
      simp only [fingerprinted, if_pos hd]
      refine congrArg (fun entries => some (Value.object entries)) (List.map_congr_left ?_)
      intro e he
      obtain ⟨hin, hk⟩ := List.mem_filter.mp he
      obtain ⟨digest, hdigest⟩ := (hbelow e hin (of_decide_eq_true hk)).fingerprint
      rw [hdigest]
      rfl
    · rcases (hfresh plan).resolve_spec hc ht hplanned hd hclear with hok |
        ⟨site, target, available, hmissing⟩
      · exact Or.inl hok
      · exact Or.inr ⟨site, target, available, hmissing, Fresh.contained hc ht hp hd hclear hmissing⟩
  · intro fault hreport
    rcases sched.run_spec hsound phases files with ⟨f, -, hrun⟩ |
      ⟨-, plan, n, last, A, hcarries, ⟨hrun, -⟩ | ⟨halt, hrun, now, hblame, -⟩⟩
    · rw [hrun] at hreport
      cases hreport
    · rw [hrun] at hreport
      cases hreport
    · rw [hrun] at hreport
      have hfault : halt.fault = .resolve fault := Except.error.inj hreport
      rw [hfault] at hblame
      exact (hfresh plan).blame_ne_resolve hcarries.sound (hcarries.tied.tick now) fault hblame

/-- The state after some steps, if the run goes on so long. -/
def RunState.after (c : Setup) : Nat → RunState → Option RunState
  | 0, s => some s
  | n + 1, s =>
    match s.step c with
    | .state s' => after c n s'
    | _ => none

/-- The state after some steps that take their digests from a function. -/
def RunState.afterBy (hash : Value → Except Json.Fault String) (c : Setup) :
    Nat → RunState → Option RunState
  | 0, s => some s
  | n + 1, s =>
    match s.stepBy hash c with
    | .state s' => afterBy hash c n s'
    | _ => none

/-- Some steps can be evaluated with digests in natural numbers. -/
theorem RunState.after_eq (c : Setup) (n : Nat) (s : RunState) :
    s.after c n = s.afterBy Digest.Natural.fingerprint c n := by
  rw [← funext Digest.fingerprint_eq]
  induction n generalizing s with
  | zero => rfl
  | succ n ih =>
    rw [after, afterBy, stepBy_fingerprint]
    cases s.step c with
    | state s' => exact ih s'
    | _ => rfl

theorem Steps.of_after {n : Nat} {s t : RunState} (h : s.after c n = some t) : Steps c n s t := by
  induction n generalizing s with
  | zero =>
    obtain rfl := Option.some.inj h
    exact .refl s
  | succ n ih =>
    rw [RunState.after] at h
    split at h
    · rename_i s' hs
      exact .next hs (ih h)
    · cases h

namespace Shop

/-- The whole shop, with room for all workers. -/
def whole : Scheduler := scheduler [database, interface] 4 (executors 7)

/-- In the shop the interface is deployed after the database. -/
def deployments : Plan :=
  [(⟨"shop.service.db", .deploy⟩, []),
    (⟨"shop.service.api", .deploy⟩, [⟨"shop.service.db", .deploy⟩])]

end Shop

/-- In the shop the interface is evaluated after three steps, on top of the database. -/
theorem deployed_upstream_shop : ∃ t,
    Graph.ofStack (Shop.stack [Shop.database, Shop.interface]) = .ok Shop.whole.graph ∧
    (∀ u ∈ (Shop.stack [Shop.database, Shop.interface]).units, u.document.Unambiguous) ∧
    Scheduler.create Shop.whole.graph (Shop.executors 7) ⟨none, "now"⟩ none [] {} default =
      .ok (Shop.whole, default) ∧
    (∀ b ∈ (none : Option Buildstate), b.Named) ∧
    checkExecutors (Shop.executors 7) Shop.whole.graph (requestedPhases [.deploy]) = .ok () ∧
    Shop.whole.graph.plan (requestedPhases [.deploy]) = .ok Shop.deployments ∧
    Steps (Shop.whole.setup Shop.deployments) 3
      (Shop.whole.initial Shop.deployments (requestedPhases [.deploy]) []) t ∧
    t.promoted = [⟨"shop.service.api", .deploy⟩] ∧
    t.blocker? (Shop.whole.setup Shop.deployments) ⟨"shop.service.api", .deploy⟩ = none ∧
    t.Deployed "shop.service.db" := by
  have hs : Scheduler.create Shop.whole.graph (Shop.executors 7) ⟨none, "now"⟩ none [] {} default =
      .ok (Shop.whole, default) := by rfl
  have hunits : ∀ u ∈ (Shop.stack [Shop.database, Shop.interface]).units,
      u.document.Unambiguous := by
    intro u hu
    rcases List.mem_pair.mp hu with rfl | rfl
    · simp [UnitDef.document, Shop.database, Value.object, Value.Unambiguous,
        Value.EntriesUnambiguous, Key.same_text]
    · simp [UnitDef.document, Shop.interface, Value.object, Value.Unambiguous,
        Value.EntriesUnambiguous, Key.same_text]
  have hstate : ∀ b ∈ (none : Option Buildstate), b.Named := by
    intro b hb
    cases hb
  have hcheck : checkExecutors (Shop.executors 7) Shop.whole.graph (requestedPhases [.deploy]) =
      .ok () := by rfl
  have hplan : Shop.whole.graph.plan (requestedPhases [.deploy]) = .ok Shop.deployments := by rfl
  have hafter : ((Shop.whole.initial Shop.deployments (requestedPhases [.deploy]) []).after
      (Shop.whole.setup Shop.deployments) 3).any (fun t =>
        t.promoted = [⟨"shop.service.api", .deploy⟩] ∧
          t.blocker? (Shop.whole.setup Shop.deployments) ⟨"shop.service.api", .deploy⟩ = none) =
      true := by decide +kernel
  cases ht : (Shop.whole.initial Shop.deployments (requestedPhases [.deploy]) []).after
      (Shop.whole.setup Shop.deployments) 3 with
  | none =>
    rw [ht] at hafter
    cases hafter
  | some t =>
    rw [ht, Option.any_some, decide_eq_true_eq] at hafter
    obtain ⟨hp, hclear⟩ := hafter
    have hsteps := Steps.of_after ht
    obtain ⟨hbelow, -⟩ := (deployed_upstream Shop.ofStack_both hunits hs hstate [.deploy] []).1
      _ _ t _ _ hcheck hplan hsteps hp rfl hclear
    have hdb : (⟨"shop.service.db", "shop.service.api", .deploy⟩ : Edge) ∈
        Shop.whole.graph.incoming "shop.service.api" := by decide +kernel
    exact ⟨t, Shop.ofStack_both, hunits, hs, hstate, hcheck, hplan, hsteps, hp, hclear,
      hbelow _ hdb rfl⟩

end Rollout
