import Rollout.Proofs.Buildstate.Lasting
import Rollout.Proofs.Run.Outputs
import Rollout.Proofs.Run.Repeated

/-!
# Fingerprints on outputs that have been saved

A run deploys a unit, or reuses it, and another unit refers to one of its outputs. Some state of the
run is saved after that, and a later run over what is loaded reuses the first unit. Then the outputs
of the first unit are those of the earlier run, as they are read again. So the deployment of the
other unit, if nothing else about it has changed, has the fingerprint of the earlier run, provided
that the outputs that it refers to last.

The states of one run follow one another, whichever two of them are compared. So it does not matter
whether the state that is saved comes before or after the one in which the fingerprint is found.

**Types.** `Store.BringsBack`, `RunState.SameDeployment`.

**Results.**
* `Tied.examined_of_fingerprint`: a fingerprint that has been found is that of an examination;
* `Scheduler.Passes.deployed_alike`: two moments of one run agree about what has been deployed;
* `Store.BringsBack.reloaded`: what is loaded after a save;
* `RunState.readsAgain_of_same`: what a deployment reads when its providers have been read again;
* `fingerprint_of_saved_outputs`: the fingerprint of a deployment on outputs that have been saved;
* `moment_refingerprinted`: a moment among the outputs, which does not last.
-/

namespace Rollout

open RunState

section Runs

variable {c : Setup} {requested : List Phase} {base s t u : RunState} {A : Chart} {p : Pair}
  {fqn digest : String}

/-! ### Moments of one run -/

/-- **A fingerprint that has been found** for a pair is that of an examination, which comes out the
same now. -/
theorem Tied.examined_of_fingerprint (hb : ∃ stack, c.graph.Built stack) (h : Tied c base A s)
    (hnew : base.fingerprints = []) (hdigest : Table.get? p s.fingerprints = some digest) :
    ∃ resolved, Examined c s p digest resolved := by
  have hbegun {d : String} {ctx : UnitContext} (hbegun : Begun c base s p d ctx) :
      ∃ resolved, Examined c s p d resolved := by
    obtain ⟨resolved, n, hv, -⟩ := hbegun
    exact ⟨resolved, (examined_of_ready hv).1⟩
  have hfit := (h.fit p).fits hb
  rw [h.shown.fingerprint, hnew] at hdigest
  cases hA : A p with
  | reused d outputs =>
    rw [hA] at hdigest
    cases hdigest
    exact h.examined_of_reused hb hA
  | ready d resolved =>
    rw [hA] at hdigest hfit
    cases hdigest
    exact ⟨resolved, (examined_of_ready hfit.2).1⟩
  | running d ctx =>
    rw [hA] at hdigest hfit
    cases hdigest
    exact hbegun hfit
  | succeeded d ctx snapshot outputs =>
    rw [hA] at hdigest hfit
    cases hdigest
    exact hbegun hfit.1
  | failed d ctx cause timedOut =>
    rw [hA] at hdigest hfit
    cases hdigest
    cases timedOut with
    | false => exact hbegun hfit.1
    | true => exact hbegun hfit.1
  | _ =>
    rw [hA] at hdigest
    cases hdigest

/-- Two states that a run passes through follow one another. -/
theorem Steps.comparable {n m : Nat} (ht : Steps c n s t) (hu : Steps c m s u) :
    (∃ k, Steps c k t u) ∨ ∃ k, Steps c k u t := by
  induction ht generalizing m with
  | refl s => exact Or.inl ⟨m, hu⟩
  | @next n s s' t hstep ht ih =>
    cases hu with
    | refl => exact Or.inr ⟨n + 1, .next hstep ht⟩
    | next hstep' hu =>
      obtain rfl := Next.state.inj (hstep.symm.trans hstep')
      exact ih hu

/-- What has been deployed keeps its outputs and its fingerprint. -/
theorem Steps.deployed_kept (hc : c.Checked requested) {n : Nat} (hs : Steps c n s t)
    (h : Tied c base A s) (htimely : Timely s) (hdone : s.status ⟨fqn, .deploy⟩ = .succeeded) :
    Table.get? (⟨fqn, .deploy⟩ : Pair) s.fingerprints =
        Table.get? (⟨fqn, .deploy⟩ : Pair) t.fingerprints ∧
      s.resolver.outputs? fqn = t.resolver.outputs? fqn := by
  obtain ⟨B, hB, hsettles, -⟩ := h.steps hc hs htimely
  have hsettled : (A ⟨fqn, .deploy⟩).settled = true := by
    rw [Standing.settled, ← h.shown.status, hdone]
    rfl
  have hsame := hsettles _ hsettled
  rw [h.shown.fingerprint, hB.shown.fingerprint, h.shown.outputs, hB.shown.outputs, hsame]
  exact ⟨rfl, rfl⟩

namespace Scheduler.Passes

variable {sched : Scheduler} {phases : List Phase} {files : Files} {plan : Plan}

/-- **Two moments of one run** agree about what has been deployed at both of them. -/
theorem deployed_alike (husable : sched.Usable) (hs : sched.Passes phases files plan s)
    (ht : sched.Passes phases files plan t) (hdone : s.status ⟨fqn, .deploy⟩ = .succeeded)
    (hdone' : t.status ⟨fqn, .deploy⟩ = .succeeded) :
    Table.get? (⟨fqn, .deploy⟩ : Pair) s.fingerprints =
        Table.get? (⟨fqn, .deploy⟩ : Pair) t.fingerprints ∧
      s.resolver.outputs? fqn = t.resolver.outputs? fqn := by
  have hc := hs.checked husable
  obtain ⟨n, hsteps⟩ := hs.steps
  obtain ⟨m, hsteps'⟩ := ht.steps
  rcases hsteps.comparable hsteps' with ⟨k, hafter⟩ | ⟨k, hafter⟩
  · obtain ⟨A, hA, htimely⟩ := hs.tied husable
    exact hafter.deployed_kept hc hA htimely hdone
  · obtain ⟨A, hA, htimely⟩ := ht.tied husable
    obtain ⟨hfingerprint, houtputs⟩ := hafter.deployed_kept hc hA htimely hdone'
    exact ⟨hfingerprint.symm, houtputs.symm⟩

/-- The names of units and of fingerprints stay apart. -/
theorem distinct (husable : sched.Usable) (h : sched.Passes phases files plan t)
    (hb : sched.buildstate.Distinct) : t.buildstate.Distinct := by
  obtain ⟨n, hsteps⟩ := h.steps
  have hc := h.checked husable
  exact hsteps.keeps hc (P := fun s => s.buildstate.Distinct) (fun _ _ hs => hs)
    (fun _ _ _ _ hm hs => hm.distinct hs)
    (tied_initial hc (requestedPhases phases) files husable.resolver) timely_initial
    ⟨hb.units, hb.fingerprints⟩

end Scheduler.Passes

/-! ### From one run to another -/

/-- The store saves a state, and loads another one from the files that the save leaves. -/
def Store.BringsBack (store : Store) (stack : String) (b b' : Buildstate) : Prop :=
  ∃ folder files path, store.folder? = some folder ∧ (store.save stack b files).path = .ok path ∧
    store.load stack (store.save stack b files).files = .ok b'

/-- **What is loaded after a save** says what has been saved. -/
theorem Store.BringsBack.reloaded {store : Store} {stack : String} {b b' : Buildstate}
    (h : store.BringsBack stack b b') (hb : b.Distinct) : b.Reloaded b' := by
  obtain ⟨folder, files, path, hfolder, hsave, hload⟩ := h
  have hdistinct : (store.save stack b files).state.Distinct := by
    rw [save_state]
    exact ⟨hb.units, hb.fingerprints⟩
  have hreloaded := reloaded_of_load hfolder (hold_save hfolder hsave) hdistinct hload
  rw [save_state] at hreloaded
  exact ⟨hreloaded.release, hreloaded.record⟩

/-- A state of the current version is brought back if what is saved is read as it. -/
theorem Store.bringsBack_of_reread {store : Store} {folder : FilePath} {stack : String}
    {files : Files} {path : Option FilePath} {b saved b' : Buildstate}
    (hfolder : store.folder? = some folder) (hsave : (store.save stack b files).path = .ok path)
    (hsaved : (store.save stack b files).state = saved)
    (hb' : Buildstate.ofValue saved.toValue.reread = .ok b')
    (hversion : b'.version = Buildstate.currentVersion) : store.BringsBack stack b b' :=
  ⟨folder, files, path, hfolder, hsave,
    load_of_hold hfolder (hsaved ▸ hold_save hfolder hsave) hb' hversion⟩

/-- **An output that lasts** is found again, with the same text, in what is read again. -/
theorem Value.Lasting.get?_reread {outputs entries : Entries} (ho : outputs.Named)
    (hn : (outputs.map Prod.fst).Nodup) (h : Value.map entries = (Value.map outputs).reread)
    {name : String} {v : Value} (hv : Entries.get? (.text name) outputs = some v)
    (hlasting : v.Lasting) : ∃ w, Entries.get? (.text name) entries = some w ∧ v.SameText w :=
  ⟨v.reread, by rw [get?_of_reread ho hn h, hv]; rfl, hlasting.sameText_reread⟩

/-- A pair that is reported as reused stands so. -/
theorem Shown.exists_reused (h : Shown c base A s) {o : Outcome}
    (ho : Table.get? p s.outcomes = some o) (hr : o.reused = true) :
    ∃ digest outputs, A p = .reused digest outputs := by
  obtain ⟨-, hu⟩ := h.untimed_of_get? ho
  have hshown : o.untimed.reused = true := hr
  rw [hu] at hshown
  cases hA : A p with
  | reused digest outputs => exact ⟨digest, outputs, rfl⟩
  | _ =>
    rw [hA] at hshown
    cases hshown

/-- **What a deployment needs** has been deployed, once its fingerprint has been found. -/
theorem Tied.succeeded_upstream (hc : c.Sound requested) (h : Tied c base A s)
    (hnew : base.fingerprints = []) (hd : p.phase = .deploy)
    (hdigest : Table.get? p s.fingerprints = some digest) {source : String}
    (hedge : c.graph.DeployEdge source p.fqn) : s.status ⟨source, .deploy⟩ = .succeeded := by
  obtain ⟨resolved, he⟩ := h.examined_of_fingerprint hc.built hnew hdigest
  have hp : c.Planned p := by
    refine h.shown.planned_of_ne fun hwaiting => ?_
    rw [h.shown.fingerprint, hwaiting, hnew] at hdigest
    cases hdigest
  obtain ⟨e, hmem, rfl, htarget, hkind⟩ := hedge
  rw [h.shown.status]
  exact Tidy.succeeded_of_clear h he.clear
    (hc.behind_upstream hp (hc.deploy_requested hp hd) hmem htarget hkind)

/-- **What is saved of a deployed unit**: its outputs as they are read again, and its fingerprint. -/
theorem Scheduler.Passes.saved_spec {sched : Scheduler} {phases : List Phase} {files : Files}
    {plan : Plan} (husable : sched.Usable) (hnew : sched.resolver.outputs? fqn = none)
    (hs : sched.Passes phases files plan s) (hu : sched.Passes phases files plan u)
    (hdone : s.status ⟨fqn, .deploy⟩ = .succeeded) (hdone' : u.status ⟨fqn, .deploy⟩ = .succeeded)
    {b : Buildstate} (hb : u.buildstate.Reloaded b) :
    ∃ digest outputs, Table.get? (⟨fqn, .deploy⟩ : Pair) s.fingerprints = some digest ∧
      s.resolver.outputs? fqn = some outputs ∧ b.isCurrent fqn .deploy digest = true ∧
      Value.map ((b.record? fqn).getD {}).outputs = (Value.map outputs).reread := by
  obtain ⟨hfingerprint, houtputs⟩ := hs.deployed_alike husable hu hdone hdone'
  obtain ⟨A, hA, -⟩ := hu.tied husable
  rw [hA.shown.status] at hdone'
  obtain ⟨digest, hdigest, hcurrent⟩ := hA.exists_current hdone'
  obtain ⟨outputs, hsome⟩ := Option.isSome_iff_exists.mp (hA.isSome_outputs?_iff.mpr hdone')
  rw [← hA.outputs?_resolver hnew] at hsome
  obtain ⟨r, hr, rfl⟩ := hA.exists_record_of_outputs hnew hsome
  refine ⟨digest, r.outputs, hfingerprint.trans hdigest, houtputs.trans hsome, ?_, ?_⟩
  · rw [← hb.isCurrent]
    exact hcurrent
  · have hrecord := hb.record fqn
    rw [hr] at hrecord
    generalize b.record? fqn = r' at hrecord ⊢
    cases hrecord with
    | some hreloaded => exact hreloaded.outputs

/-- Two states know the same deployment: it has one fingerprint in both, and the second state has the
outputs of the first one as they are read again. -/
structure RunState.SameDeployment (s t : RunState) (fqn digest : String) (known read : Entries) :
    Prop where
  first : Table.get? (⟨fqn, .deploy⟩ : Pair) s.fingerprints = some digest
  second : Table.get? (⟨fqn, .deploy⟩ : Pair) t.fingerprints = some digest
  outputs : s.resolver.outputs? fqn = some known
  outputs' : t.resolver.outputs? fqn = some read
  reread : Value.map read = (Value.map known).reread

/-- **A deployment reads again** what it has read, if both states know the deployments that it needs,
and the outputs that it refers to last. -/
theorem RunState.readsAgain_of_same {c' : Setup} (h : c.Matches c') (hs : s.resolver.graph = c.graph)
    (ht : t.resolver.graph = c'.graph) (hbuild : s.buildDigest? fqn = t.buildDigest? fqn)
    (hsame : ∀ source, c.graph.DeployEdge source fqn →
      ∃ digest known read, SameDeployment s t source digest known read)
    (houtputs : ∀ source, c.graph.DeployEdge source fqn → ∀ outputs,
      s.resolver.outputs? source = some outputs → outputs.Named ∧ (outputs.map Prod.fst).Nodup)
    (hlasting : ∀ n, c.graph.node? fqn = some n → ∀ r, Value.Mentions r n.unit.document → ∀ v,
      s.resolver.output? r = some v → v.Lasting) : ReadsAgain c s t fqn := by
  obtain ⟨stack, hg⟩ := h.ofStack
  refine ⟨hbuild, fun source hedge => ?_, fun n hn r hm v hv => ?_⟩
  · obtain ⟨digest, known, read, hsame⟩ := hsame source hedge
    rw [hsame.first, hsame.second]
  · have hlasts := hlasting n hn r hm v hv
    obtain ⟨e, he, rfl⟩ := UnitDef.mentions_document.mp hm
    have hedge := (Graph.deployEdge_iff hg).mpr ⟨n, hn, e, he, rfl⟩
    obtain ⟨digest, known, read, hsame⟩ := hsame _ hedge
    obtain ⟨hnamed, hnodup⟩ := houtputs _ hedge known hsame.outputs
    rw [Resolver.output?, hs, hsame.outputs] at hv
    rw [Resolver.output?, ht, ← h.stackName, hsame.outputs']
    exact hlasts.get?_reread hnamed hnodup hsame.reread hv

/-- **Outputs that have been saved** are as good as fresh ones, if they last. In a run of a scheduler
over the graph of a stack the fingerprint of a deployment has been found. The outputs of the units
that it refers to have texts for names, each once, and those that it refers to last. At some moment
of the run at which these units have been deployed, the state is saved, and loaded again from what has
been saved. A second scheduler is created over the graph of a stack of the same name and namespace,
which has the unit with the same configuration, and starts from what has been loaded, with the same
release name.

At every moment of a run of this scheduler at which the units that the deployment refers to have been
reused, and the build of the unit has the fingerprint that it had in the first run, the deployment is
hashed to the fingerprint of the first run; and if a fingerprint has been found for it, this is the
one. -/
theorem fingerprint_of_saved_outputs {stack stack' : Stack} {g g' : Graph}
    (hg : Graph.ofStack stack = .ok g) (hg' : Graph.ofStack stack' = .ok g')
    (hname : stack.name = stack'.name) (hnamespace : stack.namespaceName = stack'.namespaceName)
    (hunits : ∀ u ∈ stack.units, u.document.Unambiguous)
    (hunits' : ∀ u ∈ stack'.units, u.document.Unambiguous) {executors executors' : Executors}
    {store store' storing : Store} {state state' : Option Buildstate} {before before' : Files}
    {options options' : RunOptions} {chance chance₁ chance' chance₁' : Chance}
    {first second : Scheduler} (hfirst : Scheduler.create g executors store state before options
      chance = .ok (first, chance₁)) (hstate : ∀ b ∈ state, b.Distinct) {phases phases' : List Phase}
    {files files' : Files} {plan plan' : Plan} (hs : first.Passes phases files plan s)
    (hdigest : Table.get? (⟨fqn, .deploy⟩ : Pair) s.fingerprints = some digest)
    (houtputs : ∀ source, g.DeployEdge source fqn → ∀ outputs,
      s.resolver.outputs? source = some outputs → outputs.Named ∧ (outputs.map Prod.fst).Nodup)
    (hlasting : ∀ n, g.node? fqn = some n → ∀ r, Value.Mentions r n.unit.document → ∀ v,
      s.resolver.output? r = some v → v.Lasting)
    (hu : first.Passes phases files plan u)
    (hdeployed : ∀ source, g.DeployEdge source fqn → u.status ⟨source, .deploy⟩ = .succeeded)
    (hsecond : Scheduler.create g' executors' store' state' before' options' chance' =
      .ok (second, chance₁')) (hsaved : storing.BringsBack g.stackName u.buildstate second.buildstate)
    (hrelease : first.releaseName = second.releaseName) (hkept : g.Kept g' fqn)
    (ht : second.Passes phases' files' plan' t)
    (hreused : ∀ source, g'.DeployEdge source fqn → ∃ o,
      Table.get? (⟨source, .deploy⟩ : Pair) t.outcomes = some o ∧ o.reused = true)
    (hbuild : s.buildDigest? fqn = t.buildDigest? fqn) :
    Hashes (second.setup plan') t ⟨fqn, .deploy⟩ digest ∧
      ∀ other, Table.get? (⟨fqn, .deploy⟩ : Pair) t.fingerprints = some other → other = digest := by
  obtain ⟨hsound, rfl, -, -, hresolver, hknown⟩ := Scheduler.sound_create hg hfirst
  obtain ⟨hsound', rfl, -⟩ := Scheduler.sound_create hg' hsecond
  have hnew := (Scheduler.of_create hfirst).1
  have hnew' := (Scheduler.of_create hsecond).1
  have hdistinct : first.buildstate.Distinct := by
    cases state with
    | some b => exact Except.ok.inj hknown ▸ hstate b rfl
    | none => exact (Store.isJson_load hknown).toDistinct
  have hreloaded := hsaved.reloaded (hu.distinct hsound.usable hdistinct)
  obtain ⟨A, hA, -⟩ := hs.tied hsound.usable
  obtain ⟨B, hB, -⟩ := ht.tied hsound'.usable
  have hc := hsound.setup hs.check hs.planned
  have hc' := hsound'.setup ht.check ht.planned
  have hmatches : (first.setup plan).Matches (second.setup plan') :=
    .of_stacks hg hg' hname hnamespace hrelease
  -- both runs know the units that the deployment refers to
  have hsame (source : String) (hedge : first.graph.DeployEdge source fqn) :
      ∃ digest known read, SameDeployment s t source digest known read := by
    obtain ⟨digest', known, hfound, ho, hcurrent, hread⟩ := hs.saved_spec hsound.usable
      (by rw [hresolver]; rfl) hu (hA.succeeded_upstream hc hnew rfl hdigest hedge)
      (hdeployed source hedge) hreloaded
    obtain ⟨o, hget, hyes⟩ := hreused source
      ((hkept.deployEdge_iff hg hg' hmatches.stackName).mp hedge)
    obtain ⟨other, left, hstands⟩ := hB.shown.exists_reused hget hyes
    obtain ⟨hfound', hcurrent', ho'⟩ := hB.known_of_reused hstands
    obtain rfl := Buildstate.isCurrent_unique hcurrent hcurrent'
    exact ⟨digest', known, _, hfound, hfound', ho, ho', hread⟩
  have hreads : ReadsAgain (first.setup plan) s t fqn := readsAgain_of_same hmatches hA.shown.graph
    hB.shown.graph hbuild hsame houtputs hlasting
  obtain ⟨resolved, hexamined⟩ := hA.examined_of_fingerprint hc.built hnew hdigest
  have hagain : Hashes (second.setup plan') t ⟨fqn, .deploy⟩ digest :=
    hmatches.hashes (p := ⟨fqn, .deploy⟩) hA.shown.graph hB.shown.graph
      (Graph.unambiguous_ofStack hg hunits) (Graph.unambiguous_ofStack hg' hunits') hkept rfl hreads
      hexamined.hashes
  refine ⟨hagain, fun other hother => ?_⟩
  obtain ⟨resolved', hexamined'⟩ := hB.examined_of_fingerprint hc'.built hnew' hother
  exact hexamined'.hashes.unique hagain

end Runs

namespace Shop

/-- An interface whose inputs refer to the day or moment since which the database is there. -/
def notice : UnitDef :=
  ⟨"api", .service, none, [("since", .text "self.service.db.output.since")], [], .names [], none,
    none, none, [], []⟩

/-- What is answered for a unit that is there since a day or moment. -/
def dating (since : Value) : Entries := [(.text "since", since), (.text "host", .text "db")]

/-- Executors that answer since when a unit is there. -/
def founding (since : Value) : Executors :=
  [(.deploy, executor (.int 60) 7 (.succeeded (some (dating since))))]

/-- A scheduler for the database and the interface, which keeps its state in a file. -/
def founded (since : Value) (b : Buildstate) : Scheduler :=
  { scheduler [database, notice] 4 (founding since) with store := kept, buildstate := b }

def day : Value := .date ⟨2024, 1, 1⟩

def moment : Value := .timestamp ⟨⟨2024, 1, 1⟩, 0, 0, 0, 0⟩

/-- What is known about a unit that has been deployed. -/
def established (digest : String) (inputs outputs : Entries) : UnitRecord :=
  { deployed := true
    fingerprints := [("deploy", digest)]
    outputs := outputs
    snapshot := some (.object [("inputs", .map inputs), ("values", .object [])]) }

/-- What is known about units after something has been saved. -/
def recorded (units : Table String UnitRecord) : Buildstate :=
  { stack := "shop", releaseName := some "blue", updatedAt := some "now", units := units }

/-- The state in which the database has been deployed on a day. -/
def opened : Buildstate :=
  recorded [("shop.service.db", established digest [] (dating day))]

/-- The same state, when it has been stored and loaded again. -/
def reopened : Buildstate :=
  recorded [("shop.service.db",
    established digest [] [("host", .text "db"), ("since", .text "2024-01-01")])]

/-- The state after some steps of deploying both units. -/
def foundedAfter (since : Value) (b : Buildstate) (n : Nat) : Option RunState :=
  ((founded since b).initial deployments (requestedPhases [.deploy]) bare).after
    ((founded since b).setup deployments) n

theorem passes_founded {since : Value} {b : Buildstate} {n : Nat} {t : RunState}
    (h : foundedAfter since b n = some t) : (founded since b).Passes [.deploy] bare deployments t :=
  ⟨by rfl, by rfl, n, Steps.of_after h⟩

theorem ofStack_notice :
    Graph.ofStack (stack [database, notice]) = .ok (graph [database, notice]) := by rfl

theorem unambiguous_notice : ∀ u ∈ (stack [database, notice]).units, u.document.Unambiguous := by
  intro u hu
  rcases List.mem_pair.mp hu with rfl | rfl
  · exact isJson_database.unambiguous
  · simp [UnitDef.document, notice, Value.object, Value.Unambiguous, Value.EntriesUnambiguous,
      Key.same_text]

theorem create_founded (since : Value) : Scheduler.create (graph [database, notice])
    (founding since) kept none bare {} default =
      .ok (founded since (Buildstate.empty "shop"), default) := by rfl

/-- The interface needs the database. -/
theorem deployEdge_notice {source : String}
    (h : (graph [database, notice]).DeployEdge source "shop.service.api") :
    source = "shop.service.db" := by
  obtain ⟨e, he, rfl, -⟩ := h
  have hedges : (graph [database, notice]).edges =
      [⟨"shop.service.db", "shop.service.api", .deploy⟩] := by decide +kernel
  rw [hedges, List.mem_singleton] at he
  rw [he]

/-- The interface refers to one output. -/
theorem mentions_notice {n : Node} (hn : (graph [database, notice]).node? "shop.service.api" = some n)
    {r : Reference} (hm : Value.Mentions r n.unit.document) : r = ⟨.service, "db", "since"⟩ := by
  have hunit : (graph [database, notice]).node? "shop.service.api" =
      some ⟨"shop.service.api", notice, 1⟩ := by rfl
  have hreferences : (Graph.unitReferences notice).map Prod.snd = [⟨.service, "db", "since"⟩] := by
    decide +kernel
  obtain rfl := Option.some.inj (hunit.symm.trans hn)
  obtain ⟨e, he, rfl⟩ := UnitDef.mentions_document.mp hm
  have hmem := List.mem_map_of_mem (f := Prod.snd) he
  rw [hreferences] at hmem
  exact List.mem_singleton.mp hmem

/-- After four steps the database has been deployed, and the fingerprint of the interface is known. -/
theorem founds : (foundedAfter day (Buildstate.empty "shop") 4).any (fun s =>
    s.buildstate = opened ∧ s.status ⟨"shop.service.db", .deploy⟩ = .succeeded ∧
      (Table.get? (⟨"shop.service.api", .deploy⟩ : Pair) s.fingerprints).isSome = true ∧
      s.resolver.outputs? "shop.service.db" = some (dating day) ∧
      s.resolver.graph.stackName = "shop" ∧ s.buildDigest? "shop.service.api" = none) = true := by
  rw [foundedAfter, after_eq]
  decide +kernel

/-- In the next run the database is reused, and the fingerprint of the interface is known after two
steps. -/
theorem refounds : (foundedAfter day reopened 2).any (fun t =>
    (Table.get? (⟨"shop.service.db", .deploy⟩ : Pair) t.outcomes).any Outcome.reused = true ∧
      (Table.get? (⟨"shop.service.api", .deploy⟩ : Pair) t.fingerprints).isSome = true ∧
      t.buildDigest? "shop.service.api" = none) = true := by
  rw [foundedAfter, after_eq]
  decide +kernel

theorem bringsBack_opened : kept.BringsBack "shop" opened reopened := by
  have hsave : (kept.save "shop" opened bare).path.isOk = true := by decide +kernel
  obtain ⟨path, hsave⟩ := exists_of_isOk hsave
  exact Store.bringsBack_of_reread rfl hsave (Store.save_state _ _ _ _) (by rfl) rfl

end Shop

/-- In the shop the interface refers to the day since which the database is there. The state is saved
once the database is deployed, and the next run reuses the database and finds the fingerprint
again. -/
theorem fingerprint_of_saved_outputs_shop : ∃ s t digest o,
    Graph.ofStack (Shop.stack [Shop.database, Shop.notice]) =
      .ok (Shop.graph [Shop.database, Shop.notice]) ∧
    (∀ u ∈ (Shop.stack [Shop.database, Shop.notice]).units, u.document.Unambiguous) ∧
    Scheduler.create (Shop.graph [Shop.database, Shop.notice]) (Shop.founding Shop.day) Shop.kept
      none Shop.bare {} default = .ok (Shop.founded Shop.day (Buildstate.empty "shop"), default) ∧
    (∀ b ∈ (none : Option Buildstate), b.Distinct) ∧
    (Shop.founded Shop.day (Buildstate.empty "shop")).Passes [.deploy] Shop.bare Shop.deployments s ∧
    Table.get? ⟨"shop.service.api", .deploy⟩ s.fingerprints = some digest ∧
    s.resolver.output? ⟨.service, "db", "since"⟩ = some Shop.day ∧ Shop.day.Lasting ∧
    s.status ⟨"shop.service.db", .deploy⟩ = .succeeded ∧
    Scheduler.create (Shop.graph [Shop.database, Shop.notice]) (Shop.founding Shop.day) Shop.kept
      (some Shop.reopened) Shop.bare {} default =
        .ok (Shop.founded Shop.day Shop.reopened, default) ∧
    Shop.kept.BringsBack "shop" s.buildstate Shop.reopened ∧
    (Shop.founded Shop.day Shop.reopened).Passes [.deploy] Shop.bare Shop.deployments t ∧
    Table.get? ⟨"shop.service.db", .deploy⟩ t.outcomes = some o ∧ o.reused = true ∧
    s.buildDigest? "shop.service.api" = t.buildDigest? "shop.service.api" ∧
    Table.get? ⟨"shop.service.api", .deploy⟩ t.fingerprints = some digest := by
  obtain ⟨s, hs, hfound⟩ := (Option.any_eq_true _ _).mp Shop.founds
  obtain ⟨t, ht, hagain⟩ := (Option.any_eq_true _ _).mp Shop.refounds
  obtain ⟨hstate, hdone, hsome, houtputs, hname, hbuild⟩ := of_decide_eq_true hfound
  obtain ⟨hreused, hsome', hbuild'⟩ := of_decide_eq_true hagain
  obtain ⟨digest, hdigest⟩ := Option.isSome_iff_exists.mp hsome
  obtain ⟨other, hother⟩ := Option.isSome_iff_exists.mp hsome'
  obtain ⟨o, ho, hyes⟩ := (Option.any_eq_true _ _).mp hreused
  have hcreate' : Scheduler.create (Shop.graph [Shop.database, Shop.notice])
      (Shop.founding Shop.day) Shop.kept (some Shop.reopened) Shop.bare {} default =
        .ok (Shop.founded Shop.day Shop.reopened, default) := by rfl
  have hdistinct : ∀ b ∈ (none : Option Buildstate), b.Distinct := nofun
  have hfield : s.resolver.output? ⟨.service, "db", "since"⟩ = some Shop.day := by
    rw [Resolver.output?, hname]
    exact congrArg (fun outputs => outputs.bind (Entries.get? "since")) houtputs
  have hlasting : Shop.day.Lasting := trivial
  have hsaved : Shop.kept.BringsBack "shop" s.buildstate Shop.reopened := by
    rw [hstate]
    exact Shop.bringsBack_opened
  have hnode : ((Shop.graph [Shop.database, Shop.notice]).node? "shop.service.api").isSome := by rfl
  obtain ⟨n, hn⟩ := Option.isSome_iff_exists.mp hnode
  have hpasses := Shop.passes_founded hs
  have hpasses' := Shop.passes_founded ht
  obtain ⟨-, hsame⟩ := fingerprint_of_saved_outputs Shop.ofStack_notice Shop.ofStack_notice rfl rfl
    Shop.unambiguous_notice Shop.unambiguous_notice (Shop.create_founded _) hdistinct hpasses hdigest
    (fun source hedge outputs ho => by
      rw [Shop.deployEdge_notice hedge, houtputs] at ho
      cases ho
      exact ⟨by simp [Shop.dating, Entries.Named], by decide⟩)
    (fun n hn r hm v hv => by
      rw [Shop.mentions_notice hn hm, hfield] at hv
      cases hv
      exact hlasting)
    hpasses (fun source hedge => by rw [Shop.deployEdge_notice hedge]; exact hdone) hcreate' hsaved
    rfl ⟨n, n, hn, hn, .refl _⟩ hpasses'
    (fun source hedge => by rw [Shop.deployEdge_notice hedge]; exact ⟨o, ho, hyes⟩)
    (hbuild.trans hbuild'.symm)
  obtain rfl := hsame other hother
  exact ⟨s, t, other, o, Shop.ofStack_notice, Shop.unambiguous_notice, Shop.create_founded _,
    hdistinct, hpasses, hdigest, hfield, hlasting, hdone, hcreate', hsaved, hpasses', ho, hyes,
    hbuild.trans hbuild'.symm, hother⟩

namespace Shop

/-- The fingerprint of the interface, on top of a database that is there since the moment. -/
def momentDigest : String := "ddbc299fa81151e4853907ee282e10b9c8c8884ce81b3ec79264631dad6516e7"

/-- The state in which both units have been deployed at the moment. -/
def timed : Buildstate :=
  recorded [("shop.service.db", established digest [] (dating moment)),
    ("shop.service.api", established momentDigest [("since", moment)] (dating moment))]

/-- The same state, when it has been stored and loaded again. -/
def retimed : Buildstate :=
  let since : Value := .text "2024-01-01T00:00:00"
  recorded [("shop.service.api",
      established momentDigest [("since", since)] [("host", .text "db"), ("since", since)]),
    ("shop.service.db", established digest [] [("host", .text "db"), ("since", since)])]

/-- Both units are deployed. -/
theorem times : ((founded moment (Buildstate.empty "shop")).run [.deploy] bare).report.toOption.any
      (fun report => (report.pairs.all fun e => e.2.status == .succeeded) &&
        ((Table.get? ⟨"shop.service.api", .deploy⟩ report.pairs).any fun o =>
          o.fingerprint == some momentDigest)) = true ∧
    ((founded moment (Buildstate.empty "shop")).run [.deploy] bare).scheduler.buildstate = timed := by
  simp only [Scheduler.run, Scheduler.carryOut, RunState.run_eq]
  decide +kernel

/-- The database is reused, and the interface has another fingerprint and is deployed again. -/
theorem retimes : ((founded moment retimed).run [.deploy] ((founded moment
      (Buildstate.empty "shop")).run [.deploy] bare).files).report.toOption.any
    (fun report => ((Table.get? ⟨"shop.service.db", .deploy⟩ report.pairs).any Outcome.reused) &&
      ((Table.get? ⟨"shop.service.api", .deploy⟩ report.pairs).any fun o =>
        o.fingerprint.any (· != momentDigest) && !o.reused)) = true := by
  simp only [Scheduler.run, Scheduler.carryOut, RunState.run_eq]
  decide +kernel

end Shop

/-- In the shop a moment is among the outputs that the interface refers to. Both units are deployed,
and a run on the state that has been stored and loaded again reuses the database, but finds another
fingerprint for the interface, which is deployed again. -/
theorem moment_refingerprinted : ∃ first second report report' b known o o' digest,
    Graph.ofStack (Shop.stack [Shop.database, Shop.notice]) =
      .ok (Shop.graph [Shop.database, Shop.notice]) ∧
    (Shop.stack [Shop.database, Shop.notice]).releaseName = some "blue" ∧
    Scheduler.create (Shop.graph [Shop.database, Shop.notice]) (Shop.founding Shop.moment) Shop.kept
      none Shop.bare {} default = .ok (first, default) ∧
    (first.run [.deploy] Shop.bare).report = .ok report ∧
    (∀ e ∈ report.pairs, e.2.status = .succeeded) ∧
    Table.get? ⟨"shop.service.api", .deploy⟩ report.pairs = some known ∧
    known.fingerprint = some digest ∧
    Shop.kept.load "shop" (first.run [.deploy] Shop.bare).files = .ok b ∧
    Scheduler.create (Shop.graph [Shop.database, Shop.notice]) (Shop.founding Shop.moment) Shop.kept
      (some b) (first.run [.deploy] Shop.bare).files {} default = .ok (second, default) ∧
    (second.run [.deploy] (first.run [.deploy] Shop.bare).files).report = .ok report' ∧
    Table.get? ⟨"shop.service.db", .deploy⟩ report'.pairs = some o ∧ o.reused = true ∧
    Table.get? ⟨"shop.service.api", .deploy⟩ report'.pairs = some o' ∧ o'.reused = false ∧
    ∃ other, o'.fingerprint = some other ∧ other ≠ digest := by
  obtain ⟨hany, hleft⟩ := Shop.times
  obtain ⟨report, hr, hreport⟩ := exists_of_any hany
  obtain ⟨hsucceeded, hknown⟩ := Bool.and_eq_true_iff.mp hreport
  have hall : ∀ e ∈ report.pairs, e.2.status = .succeeded := by simpa using hsucceeded
  obtain ⟨known, hget, hdigest⟩ := (Option.any_eq_true _ _).mp hknown
  have hload := Scheduler.load_run Shop.ofStack_notice Shop.unambiguous_notice rfl
    (Shop.create_founded _) hr hall hleft (by decide) Shop.retimed (by rfl) rfl
  obtain ⟨report', hr', hagain⟩ := exists_of_any Shop.retimes
  obtain ⟨hreused, hother⟩ := Bool.and_eq_true_iff.mp hagain
  obtain ⟨o, ho, hyes⟩ := (Option.any_eq_true _ _).mp hreused
  obtain ⟨o', ho', hother⟩ := (Option.any_eq_true _ _).mp hother
  obtain ⟨hother, hno⟩ := Bool.and_eq_true_iff.mp hother
  obtain ⟨other, hfound, hne⟩ := (Option.any_eq_true _ _).mp hother
  exact ⟨_, Shop.founded Shop.moment Shop.retimed, report, report', _, known, o, o', _,
    Shop.ofStack_notice, rfl, Shop.create_founded _, hr, hall, hget, beq_iff_eq.mp hdigest, hload,
    by rfl, hr', ho, hyes, ho', by simpa using hno, other, hfound, by simpa using hne⟩

end Rollout
