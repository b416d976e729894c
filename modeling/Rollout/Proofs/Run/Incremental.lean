import Rollout.Proofs.Run.Evaluation
import Rollout.Proofs.Run.Hashed
import Rollout.Proofs.Run.Redeployed

/-!
# What a run over a changed stack carries out

After a run from an empty state in which every pair has succeeded, a run over another stack of the
same name carries out what is changed, and the deployments on top of it.

A pair is reused if its fingerprint is one that the earlier run has left, so the pair was planned in
that run, too, and was examined under the same fingerprint. Since SHA-256 does not collide on what
the runs hash, the same has been hashed: the unit has the same configuration, and the deployments
that it needs have the fingerprints that they had before, so that they are reused as well. In the
other direction, units that are kept, and are not deployed on top of a changed one, read nothing that
has changed.

**Results.**
* `Smooth.examined_of_current`: what is current after a run has been examined by it;
* `Renewed.kept_of_reused`, `Renewed.reused_of_reaches`: what a reused pair has in common with the
  earlier run;
* `Renewed.mem_contexts_iff`: what executors are called for;
* `executed_exactly`: what a run over a changed stack carries out.
-/

namespace Rollout

open RunState

variable {c c' : Setup} {requested requested' : List Phase} {base base' last s : RunState}
  {A A' : Chart} {p : Pair}

/-! ### What is current -/

/-- Nothing is current in an empty state. -/
theorem Buildstate.isCurrent_of_empty {b : Buildstate} (h : b.units = []) (fqn : String) (p : Phase)
    (digest : String) : b.isCurrent fqn p digest = false := by
  simp [isCurrent, record?, h]

/-- **What is current** after a run from an empty state has been examined by the run, under the
fingerprint that is current. -/
theorem Smooth.examined_of_current (h : Smooth c requested base last A)
    (hempty : base.buildstate.units = []) {digest : String}
    (hcurrent : last.buildstate.isCurrent p.fqn p.phase digest = true) :
    c.Planned p ∧ ∃ resolved, Examined c last p digest resolved := by
  by_cases hp : c.Planned p
  · obtain ⟨digest', resolved, he, hcurrent', -⟩ := h.examined hp
    obtain rfl := Buildstate.isCurrent_unique hcurrent hcurrent'
    exact ⟨hp, resolved, he⟩
  · have hbase := h.tied.shown.isCurrent p digest
    rw [hcurrent, h.tied.shown.offPlan p hp] at hbase
    have hnone := Buildstate.isCurrent_of_empty hempty p.fqn p.phase digest
    rw [hnone] at hbase
    cases hbase

/-- A pair that has succeeded under a fingerprint that was current has been reused. -/
theorem Tied.exists_reused_of_current (h : Tied c base A s) (hdone : (A p).status = .succeeded)
    (hforced : p.fqn ∉ c.forced p.phase) {digest : String}
    (hfingerprint : Table.get? p s.fingerprints = some digest)
    (hcurrent : base.buildstate.isCurrent p.fqn p.phase digest = true) :
    ∃ digest outputs, A p = .reused digest outputs := by
  have hshown := h.shown.fingerprint p
  rw [hfingerprint] at hshown
  cases hA : A p with
  | reused digest outputs => exact ⟨digest, outputs, rfl⟩
  | succeeded digest' ctx snapshot outputs =>
    rw [hA] at hshown
    have hreused := h.reused_of_current (p := p) (by rw [hA]; rfl) (by rw [hA]; exact hshown.symm)
      hforced hcurrent
    rw [hA] at hreused
    cases hreused
  | _ =>
    rw [hA] at hdone
    cases hdone

/-! ### What two examinations have in common -/

/-- **Two examinations with the same fingerprint** are of values that are alike. -/
theorem alike_of_examined {first second : Scheduler} {plan plan' : Plan} {s' : RunState}
    {digest : String} {resolved resolved' : Option Resolved}
    (h : Examined (first.setup plan) s p digest resolved)
    (h' : Examined (second.setup plan') s' p digest resolved')
    (hplain : ∀ n, first.graph.node? p.fqn = some n →
      (s.fingerprinted (first.setup plan) p n.unit resolved).IsPlain)
    (hplain' : ∀ n, second.graph.node? p.fqn = some n →
      (s'.fingerprinted (second.setup plan') p n.unit resolved').IsPlain)
    {texts : List String} (hsha : Digest.Separates texts)
    (hin : ∀ text, (first.keep s).hashed? p = some text → text ∈ texts)
    (hin' : ∀ text, (second.keep s').hashed? p = some text → text ∈ texts) :
    ∃ n n', first.graph.node? p.fqn = some n ∧ second.graph.node? p.fqn = some n' ∧
      (s.fingerprinted (first.setup plan) p n.unit resolved).Alike
        (s'.fingerprinted (second.setup plan') p n'.unit resolved') := by
  obtain ⟨n, text, hn, htext, hhashed, hdigest⟩ := Scheduler.hashed?_keep h
  obtain ⟨n', text', hn', htext', hhashed', hdigest'⟩ := Scheduler.hashed?_keep h'
  obtain rfl : text = text' := hsha text (hin text hhashed) text' (hin' text' hhashed')
    (hdigest.trans hdigest'.symm)
  exact ⟨n, n', hn, hn', Value.alike_of_text (hplain n hn) (hplain' n' hn') htext htext'⟩

/-! ### Two runs -/

/-- A run from an empty state in which every pair has succeeded, and a run on what it has left, both
over JSON data, and without a collision of what they hash. -/
structure Renewed (first second : Scheduler) (plan plan' : Plan) (requested requested' : List Phase)
    (base last base' last' : RunState) (A A' : Chart) : Prop where
  smooth : Smooth (first.setup plan) requested base last A
  empty : base.buildstate.units = []
  resumes : Resumes (first.setup plan) last (second.setup plan') base'
  sound : (second.setup plan').Sound requested'
  tied : Tied (second.setup plan') base' A' last'
  unforced : ∀ phase, second.forced phase = []
  plain : ∀ p digest resolved n, Examined (first.setup plan) last p digest resolved →
    first.graph.node? p.fqn = some n →
    (last.fingerprinted (first.setup plan) p n.unit resolved).IsPlain
  plain' : ∀ p digest resolved n, Examined (second.setup plan') last' p digest resolved →
    second.graph.node? p.fqn = some n →
    (last'.fingerprinted (second.setup plan') p n.unit resolved).IsPlain
  separates : ∃ phases phases', Digest.Separates
    ((first.ended phases last).hashed ++ (second.ended phases' last').hashed)

namespace Renewed

variable {first second : Scheduler} {plan plan' : Plan} {base base' last last' : RunState}
  (h : Renewed first second plan plan' requested requested' base last base' last' A A')

include h

/-- **A reused pair** is a pair of a unit that is kept, and the deployments that a reused deployment
needs have fingerprints that were current. -/
theorem kept_of_reused {digest : String} {outputs : Option Entries}
    (hA : A' p = .reused digest outputs) :
    first.graph.Kept second.graph p.fqn ∧
      (p.phase = .deploy → ∀ source, second.graph.DeployEdge source p.fqn → ∃ digest,
        Table.get? (⟨source, .deploy⟩ : Pair) last'.fingerprints = some digest ∧
          base'.buildstate.isCurrent source .deploy digest = true) := by
  obtain ⟨-, hcurrent⟩ := h.tied.current_of_reused hA
  obtain ⟨resolved', hx'⟩ := h.tied.examined_of_reused h.sound.built hA
  have hplanned' : (second.setup plan').Planned p :=
    h.tied.shown.planned_of_ne (by rw [hA]; nofun)
  rw [← h.resumes.buildstate.current] at hcurrent
  obtain ⟨hplanned, resolved, hx⟩ := h.smooth.examined_of_current h.empty hcurrent
  obtain ⟨phases, phases', hsha⟩ := h.separates
  obtain ⟨n, n', hn, hn', halike⟩ := alike_of_examined hx hx'
    (fun n hn => h.plain p digest resolved n hx hn)
    (fun n hn => h.plain' p digest resolved' n hx' hn) hsha
    (fun text ht => List.mem_append_left _ (Scheduler.mem_hashed h.smooth.tied.shown hplanned ht))
    (fun text ht => List.mem_append_right _ (Scheduler.mem_hashed h.tied.shown hplanned' ht))
  have hkept : first.graph.Kept second.graph p.fqn :=
    ⟨n, n', hn, hn', alike_of_fingerprinted halike⟩
  refine ⟨hkept, fun hd source hedge => ?_⟩
  obtain ⟨stack, hstack⟩ := h.resumes.ofStack
  obtain ⟨stack', hstack'⟩ := h.resumes.ofStack'
  have hedge₁ : first.graph.DeployEdge source p.fqn :=
    (hkept.deployEdge_iff hstack hstack' h.resumes.stackName).mpr hedge
  obtain ⟨e, hmem, rfl, htarget, hkind⟩ := id hedge₁
  have hbehind := h.smooth.sound.behind_upstream hplanned
    (h.smooth.sound.deploy_requested hplanned hd) hmem htarget hkind
  obtain ⟨digest', -, -, hcurrent', hsome⟩ := h.smooth.examined (h.smooth.sound.behind_planned hbehind)
  refine ⟨digest', ?_, ?_⟩
  · rw [← upstream_of_fingerprinted hd halike hedge hedge₁]
    exact hsome
  · rw [← h.resumes.buildstate.current]
    exact hcurrent'

/-- **What a reused deployment is made on top of** is reused. -/
theorem reused_of_reaches (hdone : ∀ q, (second.setup plan').Planned q → (A' q).status = .succeeded)
    {u v : String} (hreach : second.graph.Reaches [.deploy] u v)
    (hv : ∃ digest outputs, A' ⟨v, .deploy⟩ = .reused digest outputs) :
    ∃ digest outputs, A' ⟨u, .deploy⟩ = .reused digest outputs := by
  have hstep {source fqn : String} (hedge : second.graph.DeployEdge source fqn)
      (hreused : ∃ digest outputs, A' ⟨fqn, .deploy⟩ = .reused digest outputs) :
      ∃ digest outputs, A' ⟨source, .deploy⟩ = .reused digest outputs := by
    obtain ⟨digest, outputs, hA⟩ := hreused
    have hplanned : (second.setup plan').Planned ⟨fqn, .deploy⟩ :=
      h.tied.shown.planned_of_ne (by rw [hA]; nofun)
    obtain ⟨-, hup⟩ := h.kept_of_reused hA
    obtain ⟨digest', hsome, hcurrent⟩ := hup rfl source hedge
    obtain ⟨e, hmem, rfl, htarget, hkind⟩ := hedge
    have hbehind := h.sound.behind_upstream hplanned (h.sound.deploy_requested hplanned rfl) hmem
      htarget hkind
    refine h.tied.exists_reused_of_current (hdone _ (h.sound.behind_planned hbehind)) ?_ hsome
      hcurrent
    change e.source ∉ second.forced .deploy
    rw [h.unforced]
    exact List.not_mem_nil
  induction hreach with
  | single hjoins => exact hstep (Graph.joins_deploy.mp hjoins) hv
  | tail _ hjoins ih => exact ih (hstep (Graph.joins_deploy.mp hjoins) hv)

/-- **A pair is reused** if its unit is kept and, for a deployment, all units are kept that
deployments lead to it from. -/
theorem reused_of_kept (hdone : ∀ q, (second.setup plan').Planned q → (A' q).status = .succeeded)
    (hphases : ∀ phase, phase ∈ requested' → phase ∈ requested)
    (hp : (second.setup plan').Planned p) (hk : first.graph.Kept second.graph p.fqn)
    (hup : p.phase = .deploy → ∀ u, second.graph.Reaches [.deploy] u p.fqn →
      first.graph.Kept second.graph u) :
    ∃ digest outputs, A' p = .reused digest outputs := by
  refine @Smooth.reused_of_closed _ _ _ _ _ _ _ _ _ _ h.smooth h.resumes h.sound h.tied hdone
    (fun q => first.graph.Kept second.graph q.fqn ∧ (q.phase = .deploy → ∀ u,
      second.graph.Reaches [.deploy] u q.fqn → first.graph.Kept second.graph u)) ?_ ?_ ?_ p hp
      ⟨hk, hup⟩
  · rintro q hq ⟨hkept, -⟩
    obtain ⟨n', hn', hrequested, happlies⟩ := (Graph.mem_keys_plan h.sound.plan).mp hq
    obtain ⟨n, m', hn, hm', -⟩ := id hkept
    obtain rfl : n' = m' := Option.some.inj (hn'.symm.trans hm')
    obtain ⟨stack, hstack⟩ := h.resumes.ofStack
    obtain ⟨stack', hstack'⟩ := h.resumes.ofStack'
    refine ⟨(Graph.mem_keys_plan h.smooth.sound.plan).mpr ⟨n, hn, hphases _ hrequested, ?_⟩, hkept, ?_⟩
    · rw [Graph.kind_eq_of_node? hstack hstack' h.resumes.stackName hn hn']
      exact happlies
    · change q.fqn ∉ second.forced q.phase
      rw [h.unforced]
      exact List.not_mem_nil
  · rintro source fqn hedge ⟨-, hreaches⟩
    have hjoins := Graph.joins_deploy.mpr hedge
    exact ⟨hreaches rfl source (.single hjoins), fun _ u hu => hreaches rfl u (hu.tail hjoins)⟩
  · rintro fqn ⟨hkept, -⟩
    exact ⟨hkept, nofun⟩

/-- **The pairs that are reused** are those of kept units, without the deployments that are made on
top of a changed one. -/
theorem reused_iff_unaffected
    (hdone : ∀ q, (second.setup plan').Planned q → (A' q).status = .succeeded)
    (hphases : ∀ phase, phase ∈ requested' → phase ∈ requested)
    (hp : (second.setup plan').Planned p) :
    (∃ digest outputs, A' p = .reused digest outputs) ↔
      ¬(first.graph.Changed second.graph p.fqn ∨ p.phase = .deploy ∧
        ∃ u, first.graph.Changed second.graph u ∧ second.graph.Reaches [.deploy] u p.fqn) := by
  constructor
  · rintro ⟨digest, outputs, hA⟩ (hchanged | ⟨hd, u, hchanged, hreach⟩)
    · obtain ⟨n', hn', -⟩ := id hchanged
      exact (Graph.changed_iff hn').mp hchanged (h.kept_of_reused hA).1
    · obtain ⟨fqn, phase⟩ := p
      obtain rfl : phase = .deploy := hd
      obtain ⟨n', hn', -⟩ := id hchanged
      obtain ⟨digest', outputs', hu⟩ := h.reused_of_reaches hdone hreach ⟨digest, outputs, hA⟩
      exact (Graph.changed_iff hn').mp hchanged (h.kept_of_reused hu).1
  · intro hnot
    have hkept {u : String} {n' : Node} (hn' : second.graph.node? u = some n')
        (hunchanged : ¬first.graph.Changed second.graph u) : first.graph.Kept second.graph u :=
      not_not.mp fun hno => hunchanged ((Graph.changed_iff hn').mpr hno)
    obtain ⟨n', hn', -⟩ := h.sound.exists_node hp
    refine h.reused_of_kept hdone hphases hp (hkept hn' fun hin => hnot (Or.inl hin)) ?_
    intro hd u hreach
    obtain ⟨stack', hbuilt⟩ := h.sound.built
    obtain ⟨m, hm⟩ := Graph.exists_node?_of_has (Graph.has_of_reaches hbuilt.ends hreach)
    exact hkept hm fun hin => hnot (Or.inr ⟨hd, u, hin, hreach⟩)

/-- **Executors are called** for the planned pairs of changed units, and for the planned deployments
that are made on top of a changed unit. -/
theorem mem_contexts_iff
    (hdone : ∀ q, (second.setup plan').Planned q → (A' q).status = .succeeded)
    (hphases : ∀ phase, phase ∈ requested' → phase ∈ requested) :
    p ∈ last'.contexts.map UnitContext.pair ↔ (second.setup plan').Planned p ∧
      (first.graph.Changed second.graph p.fqn ∨ p.phase = .deploy ∧
        ∃ u, first.graph.Changed second.graph u ∧ second.graph.Reaches [.deploy] u p.fqn) := by
  constructor
  · intro hm
    have hp := h.tied.planned_of_mem_contexts hm
    refine ⟨hp, not_not.mp fun hnot => ?_⟩
    exact (h.tied.mem_contexts_iff (hdone p hp)).mp hm
      ((h.reused_iff_unaffected hdone hphases hp).mpr hnot)
  · rintro ⟨hp, haffected⟩
    refine (h.tied.mem_contexts_iff (hdone p hp)).mpr fun hreused => ?_
    exact (h.reused_iff_unaffected hdone hphases hp).mp hreused haffected

end Renewed

/-- A stack that pins a release name is released under it, unless another one is given. -/
theorem Scheduler.chooseRelease_pinned {g : Graph} {stack : Stack} (hg : g.stack = some stack)
    {release : String} (hr : stack.releaseName = some release) (hne : release ≠ "")
    (given previous : Option String) (chance : Chance) :
    (chooseRelease g given previous chance).1 = given.getD release := by
  cases given with
  | some name => rfl
  | none => simp [chooseRelease, hg, Stack.releaseFor, hr, nonEmpty?, hne]

/-- The release name of a scheduler over the graph of a stack that pins one. -/
theorem Scheduler.releaseName_pinned {stack : Stack} {g : Graph} (hg : Graph.ofStack stack = .ok g)
    {release : String} (hrelease : stack.releaseName = some release) (hpinned : release ≠ "")
    {executors : Executors} {store : Store} {state : Option Buildstate} {files : Files}
    {options : RunOptions} {chance chance' : Chance} {sched : Scheduler}
    (hs : create g executors store state files options chance = .ok (sched, chance')) :
    sched.releaseName = options.releaseName.getD release := by
  have hchosen := congrArg Prod.fst (of_create hs).2.2
  rwa [chooseRelease_pinned (Graph.built_ofStack hg).stack hrelease hpinned] at hchosen

/-- What a run leaves of a state with plain outputs has plain outputs. -/
theorem Scheduler.plain_run {sched : Scheduler} (hb : sched.buildstate.Plain)
    (he : sched.executors.Plain) {phases : List Phase} {files : Files} {plan : Plan} {n : Nat}
    (hc : sched.Carries phases files plan n last A) : last.buildstate.Plain :=
  hc.tied.record_of_base (Q := fun outputs => (Value.map outputs).IsPlain) hb
    fun _ _ _ _ _ hr ha => Executors.Plain.completed (c := sched.setup plan) he hr ha

/-- What a run over JSON data hashes are texts of JSON values. -/
theorem Scheduler.isPlain_fingerprinted {stack : Stack} {sched : Scheduler}
    (hg : Graph.ofStack stack = .ok sched.graph) (hu : ∀ u ∈ stack.units, u.IsJson)
    (hb : sched.buildstate.Plain) (he : sched.executors.Plain)
    (hr : ∀ fqn, sched.resolver.outputs? fqn = none) {phases : List Phase} {files : Files}
    {plan : Plan} {n : Nat} (hc : sched.Carries phases files plan n last A) :
    ∀ p digest resolved n, Examined (sched.setup plan) last p digest resolved →
      sched.graph.node? p.fqn = some n →
      (last.fingerprinted (sched.setup plan) p n.unit resolved).IsPlain := by
  intro p digest resolved n hx hn
  have hbuilt := Graph.built_ofStack hg
  have hunit : n.unit ∈ stack.units := by
    rw [← hbuilt.units]
    exact List.mem_map_of_mem (Graph.mem_of_node? hn).1
  refine RunState.isPlain_fingerprinted hc.tied.shown.graph hbuilt hn (hu _ hunit) ?_ hx.filled
  intro fqn outputs ho
  exact hc.tied.resolver_of_base (Q := fun outputs => (Value.map outputs).IsPlain) hb
    (fun _ _ _ _ _ hr ha => Executors.Plain.completed (c := sched.setup plan) he hr ha) hr ho

/-- **What a run over a changed stack carries out.** Two stacks of JSON data have one name, one
namespace and one pinned release name. Phases have been run over the first one from an empty state,
and every pair has succeeded. A run of the same phases over the second one, on the state that has
been left and without forcing anything, reports, unless a save fails. If no pair fails, and SHA-256
does not collide on what the two runs hash, then executors are called for the planned pairs of the
units that are new or have another configuration, for the deployments of all units that deployments
lead to from them, each once, and for nothing else; all other pairs are reused. -/
theorem executed_exactly {stack stack' : Stack} {g g' : Graph} (hg : Graph.ofStack stack = .ok g)
    (hg' : Graph.ofStack stack' = .ok g') (hu : ∀ u ∈ stack.units, u.IsJson)
    (hu' : ∀ u ∈ stack'.units, u.IsJson) (hname : stack.name = stack'.name)
    (hnamespace : stack.namespaceName = stack'.namespaceName) {release : String}
    (hrelease : stack.releaseName = some release) (hrelease' : stack'.releaseName = some release)
    (hpinned : release ≠ "") {executors executors' : Executors} (hexecutors : executors.Plain)
    (hexecutors' : executors'.Plain) {store store' : Store} {state : Option Buildstate}
    {before before' : Files} {options options' : RunOptions}
    (hgiven : options.releaseName = options'.releaseName)
    (hunforced : ∀ phase, options'.forced phase = []) {chance chance₁ chance' chance₁' : Chance}
    {first second : Scheduler} (hs : Scheduler.create g executors store state before options chance =
      .ok (first, chance₁)) (hempty : first.buildstate.units = [])
    {phases : List Phase} {files files' : Files} {report : Report}
    (hr : (first.run phases files).report = .ok report)
    (hall : ∀ e ∈ report.pairs, e.2.status = .succeeded)
    (hs' : Scheduler.create g' executors' store'
      (some (first.run phases files).scheduler.buildstate) before' options' chance' =
        .ok (second, chance₁'))
    (hcheck : checkExecutors executors' g' (requestedPhases phases) = .ok ()) :
    ((∃ report', (second.run phases files').report = .ok report') ∨
      ∃ fault, (second.run phases files').report = .error (.store fault)) ∧
    ∀ report', (second.run phases files').report = .ok report' →
      (∀ e ∈ report'.pairs, e.2.status ≠ .failed) →
      Digest.Separates ((first.run phases files).hashed ++ (second.run phases files').hashed) →
      ((second.run phases files').contexts.map UnitContext.pair).Nodup ∧
      (∀ p, p ∈ (second.run phases files').contexts.map UnitContext.pair ↔
        (∃ n, g'.node? p.fqn = some n ∧ p.phase ∈ phases ∧
          p.phase.appliesTo n.unit.kind = true) ∧
        (g.Changed g' p.fqn ∨ p.phase = .deploy ∧
          ∃ u, g.Changed g' u ∧ g'.Reaches [.deploy] u p.fqn)) ∧
      ∀ e ∈ report'.pairs, e.1 ∉ (second.run phases files').contexts.map UnitContext.pair →
        e.2.status = .succeeded ∧ e.2.reused = true := by
  have hstate : ∀ b ∈ state, b.Keyed := by
    rintro b ⟨⟩
    obtain ⟨-, -, -, -, -, hknown⟩ := Scheduler.sound_create hg hs
    obtain rfl : b = first.buildstate := Except.ok.inj hknown
    intro e he
    rw [hempty] at he
    cases he
  obtain ⟨hsound, rfl, rfl, -, hresolver, -⟩ := Scheduler.sound_create hg hs
  obtain ⟨hsound', rfl, rfl, -, hresolver', hknown'⟩ := Scheduler.sound_create hg' hs'
  obtain ⟨plan, n, last, A, hcarries, hrun, hsmooth⟩ :=
    Smooth.of_create hg (fun u hm => (hu u hm).unambiguous) hs (fun b hb => (hstate b hb).named) hr hall
  have hkeyed := Scheduler.keyed_run hg hu hexecutors.keyed hstate hs hcarries
  have hleft : (first.run phases files).scheduler.buildstate = last.buildstate := by
    rw [hrun]
    rfl
  rw [hleft] at hs' hknown'
  have hsecond : second.buildstate = last.buildstate := (Except.ok.inj hknown').symm
  have hkeyed' : ∀ b ∈ some last.buildstate, b.Keyed := by
    rintro b ⟨⟩
    exact hkeyed
  refine ⟨Scheduler.reports_or_store hg' hu' hexecutors'.keyed hkeyed' hs' hcheck files', ?_⟩
  intro report' hr' hnone hsha
  obtain ⟨plan', n', last', A', hcarries', hrun', rfl, hsettled⟩ := second.report_spec hsound' hr'
  have hdone := hcarries'.succeeded_of_unfailed hsettled hnone
  have hfirst : first.buildstate.Plain := by
    intro fqn
    have hnone : first.buildstate.record? fqn = none := by
      rw [Buildstate.record?, hempty]
      rfl
    rw [hnone]
    trivial
  have hplain := Scheduler.plain_run hfirst hexecutors hcarries
  have h : Renewed first second plan plan' (requestedPhases phases) (requestedPhases phases)
      (first.initial plan (requestedPhases phases) files) last
      (second.initial plan' (requestedPhases phases) files') last' A A' := by
    refine ⟨hsmooth, hempty, ?_, hcarries'.sound, hcarries'.tied, ?_, ?_, ?_, ?_⟩
    · refine Resumes.of_stacks hg hg' hname hnamespace (fun u hm => (hu' u hm).unambiguous) hs'
        (fun b hb => (hkeyed' b hb).named) ?_ ?_ plan' _ files'
      · change second.releaseName = first.releaseName
        rw [Scheduler.releaseName_pinned hg hrelease hpinned hs,
          Scheduler.releaseName_pinned hg' hrelease' hpinned hs', hgiven]
      · rw [hsecond]
        exact Buildstate.alike_of_records fun _ => rfl
    · intro phase
      rw [(Scheduler.of_create hs').2.1]
      exact hunforced phase
    · exact Scheduler.isPlain_fingerprinted hg hu hfirst hexecutors
        (by rw [hresolver]; exact fun _ => rfl) hcarries
    · exact Scheduler.isPlain_fingerprinted hg' hu' (by rw [hsecond]; exact hplain) hexecutors'
        (by rw [hresolver']; exact fun _ => rfl) hcarries'
    · exact ⟨requestedPhases phases, requestedPhases phases, by rw [← hrun, ← hrun']; exact hsha⟩
  rw [hrun']
  refine ⟨hcarries'.tied.shown.once, fun p => ?_, ?_⟩
  · exact (h.mem_contexts_iff hdone fun _ => id).trans
      (and_congr_left fun _ => hcarries'.sound.planned_iff)
  · exact fun e he hnot => hcarries'.tied.reported_reused hcarries'.sound hdone he hnot

namespace Shop

/-- The database with another size. -/
def larger : UnitDef := { database with inputs := [("size", .int 2)] }

/-- A shop without an interface. -/
def small : Scheduler := scheduler [database] 4 (executors 7)

/-- The first deployment of the database. -/
def opening : RunResult := small.run [.deploy] []

/-- The shop with the larger database, on the state that the first deployment has left. -/
def enlarged : Scheduler :=
  { scheduler [larger] 4 (executors 7) with buildstate := opening.scheduler.buildstate }

theorem ofStack_larger : Graph.ofStack (stack [larger]) = .ok (graph [larger]) := by rfl

theorem isJson_larger : larger.IsJson := by
  refine ⟨?_, ?_⟩
  · simp [UnitDef.snapshot, UnitDef.configWith, larger, database, Value.object, Value.texts,
      Value.ofText?, Value.IsPlain, Value.ArePlain, Value.EntriesPlain]
  · simp [UnitDef.snapshot, UnitDef.configWith, larger, database, Value.object, Value.texts,
      Value.ofText?, Value.Distinct, Value.AreDistinct, Value.EntriesDistinct]

theorem plain_executors (seconds : Rat) : (executors seconds).Plain := by
  intro p timeout work he ctx files outputs ha
  have hanswer {limit : Value} {answer : Answer}
      (he : some (executor limit seconds answer) = some ⟨timeout, some work⟩) :
      answer = .succeeded (some outputs) := by
    cases he
    exact ha
  cases p with
  | init => cases hanswer he
  | build => cases he
  | deploy =>
    cases hanswer he
    simp [Value.IsPlain, Value.EntriesPlain]

theorem changed_larger : small.graph.Changed enlarged.graph "shop.service.db" := by
  obtain ⟨n, hn, hunit⟩ : ∃ n, small.graph.node? "shop.service.db" = some n ∧
      n.unit = database := ⟨_, rfl, rfl⟩
  obtain ⟨n', hn', hunit'⟩ : ∃ n, enlarged.graph.node? "shop.service.db" = some n ∧
      n.unit = larger := ⟨_, rfl, rfl⟩
  refine ⟨n', hn', fun m hm halike => ?_⟩
  obtain rfl : n = m := Option.some.inj (hn.symm.trans hm)
  rw [hunit, hunit'] at halike
  exact absurd (show database.snapshot.canonical = larger.snapshot.canonical from halike)
    (by decide +kernel)

end Shop

/-- In the shop a larger database is deployed again. -/
theorem executed_exactly_shop : ∃ report report',
    Graph.ofStack (Shop.stack [Shop.database]) = .ok Shop.small.graph ∧
    Graph.ofStack (Shop.stack [Shop.larger]) = .ok Shop.enlarged.graph ∧
    (∀ u ∈ (Shop.stack [Shop.database]).units, u.IsJson) ∧
    (∀ u ∈ (Shop.stack [Shop.larger]).units, u.IsJson) ∧
    (Shop.stack [Shop.database]).name = (Shop.stack [Shop.larger]).name ∧
    (Shop.stack [Shop.database]).namespaceName = (Shop.stack [Shop.larger]).namespaceName ∧
    (Shop.stack [Shop.database]).releaseName = some "blue" ∧
    (Shop.stack [Shop.larger]).releaseName = some "blue" ∧ "blue" ≠ "" ∧
    (Shop.executors 7).Plain ∧
    Scheduler.create Shop.small.graph (Shop.executors 7) ⟨none, "now"⟩ none [] {} default =
      .ok (Shop.small, default) ∧
    Shop.small.buildstate.units = [] ∧ Shop.opening.report = .ok report ∧
    (∀ e ∈ report.pairs, e.2.status = .succeeded) ∧
    Scheduler.create Shop.enlarged.graph (Shop.executors 7) ⟨none, "now"⟩
      (some Shop.opening.scheduler.buildstate) [] {} default = .ok (Shop.enlarged, default) ∧
    checkExecutors (Shop.executors 7) Shop.enlarged.graph (requestedPhases [.deploy]) = .ok () ∧
    (Shop.enlarged.run [.deploy] []).report = .ok report' ∧
    (∀ e ∈ report'.pairs, e.2.status ≠ .failed) ∧
    Digest.Separates (Shop.opening.hashed ++ (Shop.enlarged.run [.deploy] []).hashed) ∧
    ⟨"shop.service.db", .deploy⟩ ∈
      (Shop.enlarged.run [.deploy] []).contexts.map UnitContext.pair := by
  have hunits : ∀ u ∈ (Shop.stack [Shop.database]).units, u.IsJson := by
    intro u hu
    rw [List.mem_singleton.mp hu]
    exact Shop.isJson_database
  have hunits' : ∀ u ∈ (Shop.stack [Shop.larger]).units, u.IsJson := by
    intro u hu
    rw [List.mem_singleton.mp hu]
    exact Shop.isJson_larger
  have hs : Scheduler.create Shop.small.graph (Shop.executors 7) ⟨none, "now"⟩ none [] {} default =
      .ok (Shop.small, default) := by rfl
  have hs' : Scheduler.create Shop.enlarged.graph (Shop.executors 7) ⟨none, "now"⟩
      (some Shop.opening.scheduler.buildstate) [] {} default = .ok (Shop.enlarged, default) := by rfl
  have hcheck : checkExecutors (Shop.executors 7) Shop.enlarged.graph (requestedPhases [.deploy]) =
      .ok () := by rfl
  have hplain := Shop.plain_executors 7
  have hempty : Shop.small.buildstate.units = [] := by rfl
  have hblue : "blue" ≠ "" := by decide
  have hstate : ∀ b ∈ (none : Option Buildstate), b.Keyed := by
    intro b hb
    cases hb
  -- both runs are evaluated at once, as their fingerprints are what takes time
  have hevaluated : (Shop.opening.report.toOption.any fun report =>
        report.pairs.all fun e => e.2.status == .succeeded) = true ∧
      ((Shop.enlarged.run [.deploy] []).report.toOption.any fun report =>
        report.pairs.all fun e => e.2.status == .succeeded) = true ∧
      (Shop.opening.fingerprints ++ (Shop.enlarged.run [.deploy] []).fingerprints).Nodup := by
    simp only [Shop.opening, Scheduler.run, Scheduler.carryOut, RunState.run_eq]
    decide +kernel
  obtain ⟨hsucceeded, hsucceeded', hdigests⟩ := hevaluated
  obtain ⟨report, hr, hsucceeded⟩ := exists_of_any hsucceeded
  obtain ⟨report', hr', hsucceeded'⟩ := exists_of_any hsucceeded'
  have hall : ∀ e ∈ report.pairs, e.2.status = .succeeded := by simpa using hsucceeded
  have hall' : ∀ e ∈ report'.pairs, e.2.status = .succeeded := by simpa using hsucceeded'
  have hnone : ∀ e ∈ report'.pairs, e.2.status ≠ .failed := by
    intro e he
    rw [hall' e he]
    decide
  -- the digests of what the runs have hashed are the fingerprints that they leave
  obtain ⟨plan, n, last, A, hcarries, hrun, hsmooth⟩ := Smooth.of_create Shop.ofStack_database
    (fun u hm => (hunits u hm).unambiguous) hs (fun b hb => (hstate b hb).named) hr hall
  have hkeyed : Shop.opening.scheduler.buildstate.Keyed := by
    have hlast := Scheduler.keyed_run Shop.ofStack_database hunits hplain.keyed hstate hs hcarries
    rw [Shop.opening, hrun]
    exact hlast
  obtain ⟨plan', n', last', A', -, hrun', hsmooth'⟩ := Smooth.of_create Shop.ofStack_larger
    (fun u hm => (hunits' u hm).unambiguous) hs' (by rintro b ⟨⟩; exact hkeyed.named)
    hr' hall'
  have hsha : Digest.Separates (Shop.opening.hashed ++ (Shop.enlarged.run [.deploy] []).hashed) := by
    refine Digest.separates_of_nodup ?_
    rw [List.map_append, Shop.opening, hrun, hrun', hsmooth.digests_hashed, hsmooth'.digests_hashed,
      ← hrun, ← hrun', ← Shop.opening]
    exact hdigests
  obtain ⟨-, hexact⟩ := executed_exactly Shop.ofStack_database Shop.ofStack_larger hunits hunits' rfl
    rfl rfl rfl hblue hplain hplain rfl (fun _ => rfl) hs hempty hr hall hs' hcheck
  obtain ⟨-, hcontexts, -⟩ := hexact report' hr' hnone hsha
  refine ⟨report, report', Shop.ofStack_database, Shop.ofStack_larger, hunits, hunits', rfl, rfl, rfl,
    rfl, hblue, hplain, hs, hempty, hr, hall, hs', hcheck, hr', hnone, hsha, ?_⟩
  refine (hcontexts _).mpr ⟨?_, Or.inl Shop.changed_larger⟩
  obtain ⟨n, hn, hkind⟩ : ∃ n, Shop.enlarged.graph.node? "shop.service.db" = some n ∧
      n.unit.kind = .service := ⟨_, rfl, rfl⟩
  exact ⟨n, hn, List.mem_singleton_self _, by rw [hkind]; rfl⟩

end Rollout
