import Rollout.Proofs.Graph.Reach
import Rollout.Proofs.Run.Contained

/-!
# Failures reach what depends on a unit

When the first phases of a unit fail, the units that depend on it are skipped, and those that depend
on them, and so on. A failure goes from unit to unit: the first pair of a unit waits for gates of
the units that it depends on directly, and a unit without a pair in the run has no gate. So a failure
goes as far as there is a path whose inner units take part in the run. If units are initialized or
deployed, all units take part. If they are only built, services do not, and a failed build does not
keep a project from being built that depends on it by way of a service.

**Types.** `Graph.Passes`.

**Results.**
* `Setup.behind_of_passes`: a failed pair stands behind the pairs along such paths;
* `downstream_skipped`: what depends on a failed unit is skipped;
* `built_beyond_service`: a build that goes on beyond a service.
-/

namespace Rollout

open RunState

/-- A path of one or more edges leads from a unit to another one, and the units between them take
part. -/
inductive Graph.Passes (g : Graph) (takesPart : String → Prop) : String → String → Prop
  | edge {a b : String} (h : g.Joins EdgeKind.all a b) : Passes g takesPart a b
  | step {a m b : String} (h : Passes g takesPart a m) (hm : takesPart m)
      (hj : g.Joins EdgeKind.all m b) : Passes g takesPart a b

/-- If all units take part that edges start from, a failure passes along every path. -/
theorem Graph.passes_of_reaches {g : Graph} {takesPart : String → Prop}
    (hall : ∀ e ∈ g.edges, takesPart e.source) {a b : String}
    (h : g.Reaches EdgeKind.all a b) : g.Passes takesPart a b := by
  induction h with
  | single hj => exact .edge hj
  | tail _ hj ih =>
    obtain ⟨e, he, rfl, -⟩ := id hj
    exact .step ih (hall e he) hj

namespace Setup

variable {c : Setup} {requested : List Phase}

/-- A unit that is to be initialized or built, or takes part for another reason, has a gate for every
edge from it. -/
theorem exists_gate (hc : c.Checked requested) {e : Edge} {p : Phase} (hp : p ∈ requested)
    (hd : p ≠ .deploy) {q : Phase} (hq : c.Planned ⟨e.source, q⟩) :
    ∃ w, c.graph.gate? requested e = some w ∧ w.fqn = e.source ∧ c.Planned w ∧
      (c.Planned ⟨e.source, p⟩ → p.index ≤ w.phase.index) := by
  obtain ⟨n, hn, hqr, hqa⟩ := hc.exists_node hq
  have hlow : p.index ≤ Phase.build.index := by cases p <;> simp_all [Phase.index]
  have hlast : Phase.build.index ≤ (Graph.lastPhase e n).index := by
    unfold Graph.lastPhase
    split <;> simp [Phase.index]
  -- the phase itself can be asked for, unless it is the build of a service
  have hsome : ∃ r ∈ requested, r.appliesTo n.unit.kind = true ∧
      r.index ≤ (Graph.lastPhase e n).index := by
    by_cases hpa : p.appliesTo n.unit.kind = true
    · exact ⟨p, hp, hpa, hlow.trans hlast⟩
    · have hservice : n.unit.kind ≠ .project := by
        intro hk
        rw [hk] at hpa
        cases p <;> exact hpa rfl
      refine ⟨q, hqr, hqa, ?_⟩
      rw [Graph.lastPhase, if_neg fun h => hservice h.2]
      cases q <;> simp [Phase.index]
  cases hg : c.graph.gate? requested e with
  | none =>
    exfalso
    obtain ⟨r, hr, hra, hri⟩ := hsome
    have hmem : r ∈ requested.filter fun p =>
        p.appliesTo n.unit.kind && decide (p.index ≤ (Graph.lastPhase e n).index) :=
      List.mem_filter.mpr ⟨hr, by simp [hra, hri]⟩
    simp only [Graph.gate?, hn, Option.map_eq_none_iff, List.getLast?_eq_none_iff] at hg
    exact List.not_mem_nil (hg ▸ hmem)
  | some w =>
    obtain ⟨m, hm, hname, ⟨hwr, hwa, -⟩, hlatest⟩ := (Graph.gate?_eq_some_iff hc.sorted).mp hg
    obtain rfl : n = m := Option.some.inj (hn.symm.trans hm)
    refine ⟨w, rfl, hname, (Graph.mem_keys_plan hc.plan).mpr ⟨n, hname ▸ hn, hwr, hwa⟩, ?_⟩
    intro hplanned
    obtain ⟨m, hm, -, hpa⟩ := hc.exists_node hplanned
    obtain rfl : n = m := Option.some.inj (hn.symm.trans hm)
    exact hlatest p hp hpa (hlow.trans hlast)

/-- **A pair that is no deployment** stands behind the pairs of all units that a failure of it
passes to. -/
theorem behind_of_passes (hc : c.Checked requested) {a b : String} {p : Phase} (hd : p ≠ .deploy)
    (hp : c.Planned ⟨a, p⟩)
    (h : c.graph.Passes (fun m => ∃ q, c.Planned ⟨m, q⟩) a b) {q : Pair} (hq : c.Planned q)
    (hb : q.fqn = b) : c.Behind ⟨a, p⟩ q := by
  obtain ⟨-, -, hrequested, -⟩ := hc.exists_node hp
  induction h generalizing q with
  | edge hj =>
    obtain ⟨e, he, rfl, rfl, -⟩ := hj
    obtain ⟨w, hgate, hname, hw, hle⟩ := exists_gate hc hrequested hd hp
    have hbehind := behind_gate hc.sorted hc.plan hq he hb.symm hgate
    rcases Nat.lt_or_eq_of_le (hle hp) with hlt | heq
    · refine Relation.TransGen.trans ?_ hbehind
      have hwpair : w = ⟨e.source, w.phase⟩ := Pair.eq_of_fields hname rfl
      rw [hwpair] at hw ⊢
      exact behind_earlier hc.sorted hc.plan hw hp hlt
    · rwa [Pair.eq_of_fields (q := w) hname.symm (Phase.index_injective heq)]
  | step _ hm hj ih =>
    obtain ⟨r, hr⟩ := hm
    obtain ⟨e, he, rfl, rfl, -⟩ := hj
    obtain ⟨w, hgate, hname, hw, -⟩ := exists_gate hc hrequested hd hr
    exact (ih hw hname).trans (behind_gate hc.sorted hc.plan hq he hb.symm hgate)

end Setup

/-- **What depends on a failed unit is skipped.** If a unit has failed before its deployment, then in
a run that reports, all pairs of the units are skipped, and never started, to which a path leads whose
inner units take part in the run. If units are initialized or deployed, these are all units that
depend on it, directly or indirectly. -/
theorem downstream_skipped {s : Scheduler} (hs : s.Sound) {phases : List Phase} {files : Files}
    {report : Report} (hr : (s.run phases files).report = .ok report) {a : String} {p : Phase}
    (hp : p ≠ .deploy) (hfailed : report.statusOf? ⟨a, p⟩ = some .failed) :
    (∀ b, s.graph.Passes (fun m => ∃ q, ⟨m, q⟩ ∈ Table.keys report.pairs) a b →
      ∀ q ∈ Table.keys report.pairs, q.fqn = b → report.statusOf? q = some .skipped ∧
        q ∉ (s.run phases files).contexts.map UnitContext.pair) ∧
    (.init ∈ phases ∨ .deploy ∈ phases → ∀ b, s.graph.Reaches EdgeKind.all a b →
      ∀ q ∈ Table.keys report.pairs, q.fqn = b → report.statusOf? q = some .skipped ∧
        q ∉ (s.run phases files).contexts.map UnitContext.pair) := by
  obtain ⟨plan, n, last, A, hcarries, hrun, rfl, hall⟩ := Scheduler.report_spec hs hr
  have hc := hcarries.sound
  have ht := hcarries.tied
  have hkeys : Table.keys (s.reportOf (requestedPhases phases) last).pairs = Table.keys plan :=
    ht.shown.keys
  obtain ⟨hfirst, hfailed⟩ := ht.shown.statusOf?_eq_some_iff.mp hfailed
  have hpassed (b : String)
      (hb : s.graph.Passes (fun m => ∃ q, (s.setup plan).Planned ⟨m, q⟩) a b) (q : Pair)
      (hq : (s.setup plan).Planned q) (hqb : q.fqn = b) :
      (s.reportOf (requestedPhases phases) last).statusOf? q = some .skipped ∧
        q ∉ (s.run phases files).contexts.map UnitContext.pair := by
    have hskipped := (ht.skipped_iff hc.toChecked (hall q hq)).mpr
      ⟨⟨a, p⟩, Setup.behind_of_passes hc.toChecked hp hfirst hb hq hqb, hfailed⟩
    refine ⟨by rw [ht.shown.statusOf? s (requestedPhases phases) hq, hskipped], ?_⟩
    rw [hrun]
    refine ht.shown.not_called ?_
    cases hA : A q with
    | skipped b => rfl
    | _ =>
      rw [hA] at hskipped
      cases hskipped
  rw [hkeys]
  refine ⟨hpassed, fun hphases b hreach q hq hqb => hpassed b ?_ q hq hqb⟩
  obtain ⟨stack, hbuilt⟩ := hc.built
  refine Graph.passes_of_reaches (fun e he => ?_) hreach
  obtain ⟨m, hm⟩ := Graph.exists_node?_of_has (hbuilt.ends e he).1
  rcases hphases with h | h
  · exact ⟨.init, (Graph.mem_keys_plan hc.plan).mpr ⟨m, hm, mem_requestedPhases.mpr h, rfl⟩⟩
  · exact ⟨.deploy, (Graph.mem_keys_plan hc.plan).mpr ⟨m, hm, mem_requestedPhases.mpr h, rfl⟩⟩

/-! ### A stack with a service between two projects -/

namespace Relay

def script : BuildBlock := ⟨none, none, none, none, some "build.sh"⟩

def assets : UnitDef :=
  ⟨"assets", .project, none, [], [], .names [], some script, none, none, [], []⟩

def proxy : UnitDef :=
  ⟨"proxy", .service, none, [], [], .names ["assets"], none, none, none, [], []⟩

def site : UnitDef :=
  ⟨"site", .project, none, [], [], .names ["proxy"], some script, none, none, [], []⟩

def stack : Stack := { Shop.stack [proxy] with projects := [assets, site] }

def graph : Graph :=
  match Graph.ofStack stack with
  | .ok g => g
  | .error _ => default

theorem ofStack : Graph.ofStack stack = .ok graph := by rfl

/-- An executor that fails for one unit. -/
def executor : Executor :=
  ⟨.null, some fun ctx files => Reply.plain ctx files
    (if ctx.name = "assets" then .failed (some "no compiler") else .succeeded none)⟩

def scheduler : Scheduler :=
  { Shop.scheduler [] 1 [(.init, Shop.executor .null 1 (.succeeded none)), (.build, executor),
      (.deploy, executor)] with
    graph := graph
    resolver := Resolver.start graph }

theorem sound : scheduler.Sound := ⟨⟨stack, ofStack⟩, rfl, by decide⟩

/-- The site depends on the assets by way of the proxy. -/
theorem reaches_site :
    scheduler.graph.Reaches EdgeKind.all "shop.project.assets" "shop.project.site" := by
  refine Relation.TransGen.head (b := "shop.service.proxy") ?_ (Relation.TransGen.single ?_)
  · exact ⟨⟨"shop.project.assets", "shop.service.proxy", .artifact⟩, by decide +kernel, rfl, rfl,
      by decide⟩
  · exact ⟨⟨"shop.service.proxy", "shop.project.site", .artifact⟩, by decide +kernel, rfl, rfl,
      by decide⟩

end Relay

/-- When everything is deployed, the site is skipped as a whole after the build of the assets has
failed. -/
theorem downstream_skipped_relay :
    Relay.scheduler.Sound ∧ Phase.build ≠ .deploy ∧
    ∃ report, (Relay.scheduler.run [.init, .build, .deploy] []).report = .ok report ∧
      report.statusOf? ⟨"shop.project.assets", .build⟩ = some .failed ∧
      ∀ q ∈ Table.keys report.pairs, q.fqn = "shop.project.site" →
        report.statusOf? q = some .skipped ∧
          q ∉ (Relay.scheduler.run [.init, .build, .deploy] []).contexts.map UnitContext.pair := by
  have hany : ((Relay.scheduler.run [.init, .build, .deploy] []).report.toOption.any fun r =>
      r.statusOf? ⟨"shop.project.assets", .build⟩ == some .failed) = true := by decide +kernel
  obtain ⟨report, hr, hfailed⟩ := exists_of_any hany
  rw [beq_iff_eq] at hfailed
  exact ⟨Relay.sound, by decide, report, hr, hfailed,
    (downstream_skipped Relay.sound hr (by decide) hfailed).2 (Or.inl (by decide)) _
      Relay.reaches_site⟩

/-- **A build goes on beyond a service.** When everything is only built, the proxy has no pair, and
the site is built although it depends on the assets, whose build has failed. -/
theorem built_beyond_service :
    Relay.scheduler.graph.Reaches EdgeKind.all "shop.project.assets" "shop.project.site" ∧
    ∃ report, (Relay.scheduler.run [.build] []).report = .ok report ∧
      report.statusOf? ⟨"shop.project.assets", .build⟩ = some .failed ∧
      report.statusOf? ⟨"shop.project.site", .build⟩ = some .succeeded ∧
      ⟨"shop.project.site", .build⟩ ∈
        (Relay.scheduler.run [.build] []).contexts.map UnitContext.pair := by
  have hany : ((Relay.scheduler.run [.build] []).report.toOption.any fun r =>
      r.statusOf? ⟨"shop.project.assets", .build⟩ == some .failed &&
        r.statusOf? ⟨"shop.project.site", .build⟩ == some .succeeded) = true := by decide +kernel
  obtain ⟨report, hr, hstatus⟩ := exists_of_any hany
  simp only [Bool.and_eq_true, beq_iff_eq] at hstatus
  exact ⟨Relay.reaches_site, report, hr, hstatus.1, hstatus.2, by decide +kernel⟩

end Rollout
