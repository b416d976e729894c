import Rollout.Proofs.Run.Contained
import Rollout.Proofs.Run.Evaluation
import Rollout.Proofs.Run.Filed

/-!
# Which failures reach the file

A run starts from the state that is loaded from the file of its stack, and notes every failure in its
own state. The file learns of a failure only from a save, so only if another pair succeeds later in
the run. Where the failure comes last, a state that is loaded after the run says of the failed pair
what the file said before the run: if the pair was done then, it is done still, and a later run
reuses what has failed.

**Results.**
* `failure_saved_iff`: what is loaded after a run says of a failed pair;
* `failure_not_saved`: a shop whose failed database is loaded as current.
-/

namespace Rollout

open RunState

variable {c : Setup} {requested : List Phase} {base last s : RunState} {A : Chart} {p : Pair}

/-- A state that is read again gives the same account of every pair. -/
theorem Buildstate.Reloaded.account {b b' : Buildstate} (h : b.Reloaded b') (p : Pair) :
    b'.account p = b.account p := by
  have hrecord := h.record p.fqn
  rw [Buildstate.account, Buildstate.account]
  generalize b.record? p.fqn = r, b'.record? p.fqn = r' at hrecord ⊢
  cases hrecord with
  | none => rfl
  | some hr => simp [UnitRecord.account, hr.done, hr.fingerprint]

/-- **A state is loaded after a run**, and says of every pair what the state behind the run says. -/
theorem Filed.exists_load {sched : Scheduler} {folder : FilePath} {saved : Buildstate}
    {plan : Plan} {phases : List Phase} {files : Files}
    (h : Filed (Store.pathIn folder sched.graph.stackName) (sched.initial plan phases files) saved
      last) (hfolder : sched.store.folder? = some folder)
    (hfirst : sched.store.load sched.graph.stackName files = .ok sched.buildstate) :
    ∃ b, sched.store.load sched.graph.stackName last.files = .ok b ∧
      ∀ p, b.account p = saved.account p := by
  rcases h.held with ⟨hsaved, hitem⟩ | hheld
  · refine ⟨sched.buildstate, (Store.load_congr hfolder hitem).trans hfirst, fun p => ?_⟩
    rw [hsaved]
    rfl
  · obtain ⟨b, hload, -⟩ := Store.exists_load hfolder h.storable hheld
    have hreloaded := Store.reloaded_of_load hfolder hheld h.storable.toDistinct hload
    exact ⟨b, hload, hreloaded.account⟩

/-- **Which failures reach the file.** A scheduler over any graph starts from what its store keeps in
a file, for any command and with any units forced, and executors leave the file alone. It carries out
a run that reports. The run notes the failure of a pair in its own state, whatever happens. A state is
loaded from the store after the run. It has the failed pair open, without a fingerprint, if and only
if a pair has succeeded after the failure or the pair was open and without a fingerprint before the
run; otherwise it says of the pair what the file said before. -/
theorem failure_saved_iff {g : Graph} {executors : Executors} {store : Store} {folder : FilePath}
    (hfolder : store.folder? = some folder)
    (hleave : executors.Leave (Store.pathIn folder g.stackName)) {files : Files}
    {options : RunOptions} {chance chance' : Chance} {sched : Scheduler}
    (hs : Scheduler.create g executors store none files options chance = .ok (sched, chance'))
    {phases : List Phase} {report : Report} (hr : (sched.run phases files).report = .ok report)
    {p : Pair} (hp : report.statusOf? p = some .failed) :
    (sched.run phases files).scheduler.buildstate.account p = (false, none) ∧
    ∃ b, store.load g.stackName (sched.run phases files).files = .ok b ∧
      (b.account p = (false, none) ↔
        p ∉ unsaved (sched.run phases files).journal ∨ sched.buildstate.account p = (false, none)) ∧
      (p ∈ unsaved (sched.run phases files).journal → b.account p = sched.buildstate.account p) := by
  obtain ⟨husable, rfl, rfl, rfl, -, hknown⟩ := Scheduler.usable_create hs
  have hfirst : sched.store.load sched.graph.stackName files = .ok sched.buildstate := hknown
  obtain ⟨plan, n, last, A, hfollows, hrun, rfl, hall⟩ := Scheduler.settled_spec husable hr
  have hstorable := Store.storable_load hfirst
  obtain ⟨saved, hfiled⟩ := hfollows.filed husable hfolder hleave hstorable
  have hjournal : unsaved (sched.run phases files).journal = unsaved last.journal := by
    rw [hrun]
    exact unsaved_append (by simp)
  obtain ⟨-, hfailed⟩ := hfollows.tied.shown.statusOf?_eq_some_iff.mp hp
  have hlast : last.buildstate.account p = (false, none) := by
    rw [Buildstate.account, hfollows.tied.shown.record]
    exact (A.account_record? ⟨hstorable.units, hstorable.fingerprints⟩ p).2 hfailed
  have hbase : (sched.initial plan (requestedPhases phases) files).buildstate.account p =
      sched.buildstate.account p := rfl
  obtain ⟨b, hload, hloaded⟩ := hfiled.exists_load hfolder hfirst
  refine ⟨by rw [hrun]; exact hlast, b, by rw [hrun]; exact hload, ?_⟩
  rw [hjournal, hloaded]
  by_cases hlost : p ∈ unsaved last.journal
  · have haccount := (hfiled.lost p hlost).2
    rw [haccount, hbase]
    exact ⟨⟨Or.inr, fun h => h.resolve_left (not_not.mpr hlost)⟩, fun _ => rfl⟩
  · have haccount : saved.account p = (false, none) := by
      rw [← Buildstate.account_withFailures hlost, ← hfiled.noted]
      exact hlast
    exact ⟨⟨fun _ => Or.inl hlost, fun _ => haccount⟩, fun h => absurd h hlost⟩

/-- Whether a text can be read as a state. -/
def Buildstate.reads (text : String) (b : Buildstate) : Bool :=
  (Json.read text).toOption.any fun v =>
    match Buildstate.ofValue v with
    | .ok b' => b' == b
    | .bad _ => false

/-- A state is loaded from a file whose text can be read as the state. -/
theorem Store.load_of_reads {store : Store} {folder : FilePath} {stack : String} {files : Files}
    {b : Buildstate} (hfolder : store.folder? = some folder) (text : String)
    (hitem : files.item? (pathIn folder stack) = some (.file (Text.encode text)))
    (hreads : Buildstate.reads text b = true) (hversion : b.version = Buildstate.currentVersion) :
    store.load stack files = .ok b := by
  obtain ⟨v, hread, hb⟩ := exists_of_any hreads
  cases hv : Buildstate.ofValue v with
  | bad issues => simp [hv] at hb
  | ok b' =>
    obtain rfl : b' = b := by simpa [hv] using hb
    exact load_of_read hfolder hitem hread hv hversion

namespace Shop

/-- A store in the directory of the shop. -/
def kept : Store := ⟨some (FilePath.ofText "/shop"), "now"⟩

/-- The fingerprint of the deployment of the database. -/
def digest : String := "e54d39842e0b6517d0cb8cc5447d673775db0c77b4dfb9ad3f4acc3a712921c3"

/-- What the file of the shop holds once the database is deployed. -/
def record : String :=
  "\x7b\"version\":1,\"stack\":\"shop\",\"units\":\x7b\"shop.service.db\":\x7b\"deployed\":true," ++
    "\"fingerprints\":\x7b\"deploy\":\"" ++ digest ++ "\"\x7d\x7d\x7d\x7d"

def disk : Files :=
  [(["shop"], .folder), (["shop", ".stackctl_buildstate"], .folder),
    (["shop", ".stackctl_buildstate", "shop.json"], .file (Text.encode record))]

/-- The state that is loaded from the file. -/
def deployed : Buildstate :=
  { stack := "shop"
    units := [("shop.service.db", { deployed := true, fingerprints := [("deploy", digest)] })] }

/-- A scheduler that starts from the file; the executor of deployments fails. -/
def deploying (forced : List String) : Scheduler :=
  { scheduler [database] 4 failing with
    store := kept
    forced := fun _ => forced
    buildstate := deployed }

theorem load_disk : kept.load "shop" disk = .ok deployed :=
  Store.load_of_reads (by rfl) record (by rfl) (by decide +kernel) rfl

theorem create_deploying (forced : List String) :
    Scheduler.create (graph [database]) failing kept none disk { forced := fun _ => forced }
      default = .ok (deploying forced, default) := by
  have hname : (graph [database]).stackName = "shop" := by rfl
  rw [Scheduler.create_of_load (hname ▸ load_disk)]
  rfl

/-- The forced deployment of the database fails, and no file is written. -/
theorem fails_deploying :
    ((deploying ["shop.service.db"]).run [.deploy] disk).files = disk ∧
      (((deploying ["shop.service.db"]).run [.deploy] disk).report.toOption.any fun r =>
        r.statusOf? ⟨"shop.service.db", .deploy⟩ == some .failed) = true := by
  simp only [Scheduler.run, Scheduler.carryOut, RunState.run_eq]
  decide +kernel

end Shop

/-- The deployment of the database fails in the shop, and the file of the shop has it as done still.
The next run starts from that file, and reuses it. -/
theorem failure_not_saved : ∃ sched next chance report later b o,
    Scheduler.create (Shop.graph [Shop.database]) Shop.failing Shop.kept none Shop.disk
      { forced := fun _ => ["shop.service.db"] } default = .ok (sched, chance) ∧
    (sched.run [.deploy] Shop.disk).report = .ok report ∧
    report.statusOf? ⟨"shop.service.db", .deploy⟩ = some .failed ∧
    Shop.kept.load "shop" (sched.run [.deploy] Shop.disk).files = .ok b ∧
    b.account ⟨"shop.service.db", .deploy⟩ = (true, some Shop.digest) ∧
    Scheduler.create (Shop.graph [Shop.database]) Shop.failing Shop.kept none
      (sched.run [.deploy] Shop.disk).files {} default = .ok (next, chance) ∧
    (next.run [.deploy] (sched.run [.deploy] Shop.disk).files).report = .ok later ∧
    Table.get? ⟨"shop.service.db", .deploy⟩ later.pairs = some o ∧ o.reused = true := by
  obtain ⟨hfiles, hany⟩ := Shop.fails_deploying
  obtain ⟨report, hr, hfailed⟩ := exists_of_any hany
  have hnext : (((Shop.deploying []).run [.deploy] Shop.disk).report.toOption.any fun r =>
      (Table.get? ⟨"shop.service.db", .deploy⟩ r.pairs).map Outcome.reused == some true) = true := by
    simp only [Scheduler.run, Scheduler.carryOut, RunState.run_eq]
    decide +kernel
  obtain ⟨later, hlater, hreused⟩ := exists_of_any hnext
  obtain ⟨o, ho, hreused⟩ := Option.map_eq_some_iff.mp (beq_iff_eq.mp hreused)
  refine ⟨_, Shop.deploying [], _, report, later, Shop.deployed, o, Shop.create_deploying _, hr,
    beq_iff_eq.mp hfailed, ?_, ?_, ?_, ?_, ho, hreused⟩
  · rw [hfiles]
    exact Shop.load_disk
  · rfl
  · rw [hfiles]
    exact Shop.create_deploying []
  · rw [hfiles]
    exact hlater

/-- In the shop the failure of the database comes last: it is noted, and stays unsaved. -/
theorem failure_saved_iff_shop : ∃ folder sched chance report b,
    Shop.kept.folder? = some folder ∧
    Shop.failing.Leave (Store.pathIn folder (Shop.graph [Shop.database]).stackName) ∧
    Scheduler.create (Shop.graph [Shop.database]) Shop.failing Shop.kept none Shop.disk
      { forced := fun _ => ["shop.service.db"] } default = .ok (sched, chance) ∧
    (sched.run [.deploy] Shop.disk).report = .ok report ∧
    report.statusOf? ⟨"shop.service.db", .deploy⟩ = some .failed ∧
    (sched.run [.deploy] Shop.disk).scheduler.buildstate.account ⟨"shop.service.db", .deploy⟩ =
      (false, none) ∧
    Shop.kept.load (Shop.graph [Shop.database]).stackName (sched.run [.deploy] Shop.disk).files =
      .ok b ∧
    ⟨"shop.service.db", .deploy⟩ ∈ unsaved (sched.run [.deploy] Shop.disk).journal := by
  have hleave : Shop.failing.Leave (Store.pathIn ((Shop.kept.folder?).getD default)
      (Shop.graph [Shop.database]).stackName) := by
    intro p timeout work he ctx files
    cases p with
    | build => cases he
    | _ =>
      cases he
      rfl
  obtain ⟨hfiles, hany⟩ := Shop.fails_deploying
  obtain ⟨report, hr, hfailed⟩ := exists_of_any hany
  have hfailed := beq_iff_eq.mp hfailed
  have hcreate := Shop.create_deploying ["shop.service.db"]
  have hfolder : Shop.kept.folder? = some ((Shop.kept.folder?).getD default) := rfl
  have hload : Shop.kept.load (Shop.graph [Shop.database]).stackName
      ((Shop.deploying ["shop.service.db"]).run [.deploy] Shop.disk).files = .ok Shop.deployed := by
    rw [hfiles]
    exact Shop.load_disk
  obtain ⟨hnoted, b, hb, hiff, -⟩ := failure_saved_iff hfolder hleave hcreate hr hfailed
  obtain rfl : Shop.deployed = b := Except.ok.inj (hload.symm.trans hb)
  refine ⟨_, _, _, report, _, hfolder, hleave, hcreate, hr, hfailed, hnoted, hload, ?_⟩
  by_contra hsaved
  have hopen := hiff.mpr (Or.inl hsaved)
  cases hopen

end Rollout
