import Rollout.Proofs.Graph.Descendants
import Rollout.Proofs.Run.Plan

/-!
# The entries of a plan

However a graph without a cycle has grown, it has a plan for any phases that are asked for. The plan
has one entry for each unit and each requested phase that the unit has, and an entry waits only for
pairs whose entries stand in front of it: no entry waits for ever, and none waits for a pair that the
plan does not know.

A plan goes through the units in their order, and through the phases of each unit in theirs, so the
places of its pairs grow from entry to entry. What a pair waits for has an earlier place, and so its
entry cannot stand behind.

**Types.** `Phase.Latest`, `Graph.Requests`, `Graph.Opens`.

**Results.**
* `pairwise_place`, `waits_in_front`: how the entries of a plan follow each other;
* `eq_previous`, `eq_gates`: what the entry of a later phase and that of a first phase wait for;
* `nodup_gates`, `exists_gate_iff`, `latest_of_gate`: the gates of a unit, one for each dependency;
* `assembled_plan_spec`: the plan of a graph without a cycle.
-/

namespace Rollout

/-- The latest of the phases that something is true of. -/
def Phase.Latest (P : Phase → Prop) (p : Phase) : Prop := P p ∧ ∀ q, P q → q.index ≤ p.index

namespace Graph

variable {g : Graph} {requested : List Phase} {plan : Plan}

/-- The phase of the pair is asked for, and its unit has such a phase. -/
def Requests (g : Graph) (phases : List Phase) (p : Pair) : Prop :=
  ∃ n, g.node? p.fqn = some n ∧ p.phase ∈ phases ∧ p.phase.appliesTo n.unit.kind = true

/-- A requested phase of the source of an edge that is not after the one that the edge asks for: the
build of a project whose artifact is needed, and the deployment otherwise. -/
def Opens (g : Graph) (phases : List Phase) (e : Edge) (p : Phase) : Prop :=
  g.Requests phases ⟨e.source, p⟩ ∧
    ∃ n, g.node? e.source = some n ∧ p.index ≤ (lastPhase e n).index

/-! ### How entries follow each other -/

/-- The pairs of a plan, unit by unit. -/
theorem keys_planAlong (names : List String) :
    Table.keys (g.planAlong requested names) = names.flatMap fun fqn =>
      ((g.node? fqn).elim [] (phasesOf requested)).map (Pair.mk fqn) := by
  induction names with
  | nil => rfl
  | cons fqn rest ih =>
    rw [planAlong, Table.keys, List.map_append, ← Table.keys, ← Table.keys, ih, List.flatMap_cons]
    congr 1
    cases g.node? fqn with
    | none => rfl
    | some n => exact keys_unitPlan _ _ _

/-- Different names stand in a list in the order of their places. -/
theorem pairwise_idxOf {names : List String} (h : names.Nodup) :
    names.Pairwise fun a b => names.idxOf a < names.idxOf b := by
  rw [List.pairwise_iff_getElem]
  intro i j hi hj hlt
  rwa [h.idxOf_getElem i hi, h.idxOf_getElem j hj]

/-- The places of the pairs of a plan grow. -/
theorem pairwise_place (hr : requested.Pairwise fun p q => p.index < q.index) {names : List String}
    (hn : names.Nodup) : (Table.keys (g.planAlong requested names)).Pairwise fun p q =>
      place names p < place names q := by
  rw [keys_planAlong, List.pairwise_flatMap]
  constructor
  · intro fqn _
    rw [List.pairwise_map]
    cases g.node? fqn with
    | none => exact List.Pairwise.nil
    | some n => exact (hr.filter _).imp fun hlt => Nat.add_lt_add_left hlt _
  · refine (pairwise_idxOf hn).imp fun {a b} hlt p hp q hq => ?_
    obtain ⟨p, -, rfl⟩ := List.mem_map.mp hp
    obtain ⟨q, -, rfl⟩ := List.mem_map.mp hq
    have hindex : p.index ≤ 2 := by cases p <;> simp [Phase.index]
    simp only [place]
    omega

/-- In a list that grows, what is less than an element stands in front of it. -/
theorem mem_front_of_lt {α : Type} {f : α → Nat} {before after : List α} {p w : α}
    (h : (before ++ p :: after).Pairwise fun a b => f a < f b) (hw : w ∈ before ++ p :: after)
    (hlt : f w < f p) : w ∈ before := by
  rw [List.pairwise_append, List.pairwise_cons] at h
  rcases List.mem_append.mp hw with hw | hw
  · exact hw
  rcases List.mem_cons.mp hw with rfl | hw
  · exact absurd hlt (Nat.lt_irrefl _)
  · exact absurd (h.2.1.1 w hw) (Nat.lt_asymm hlt)

/-- **An entry waits for pairs whose entries stand in front of it.** -/
theorem waits_in_front (hr : requested.Pairwise fun p q => p.index < q.index)
    (h : g.plan requested = .ok plan) {before after : Plan} {p : Pair} {waits : List Pair}
    (hsplit : plan = before ++ (p, waits) :: after) : ∀ w ∈ waits, w ∈ Table.keys before := by
  intro w hw
  have he : (p, waits) ∈ plan := by rw [hsplit]; simp
  obtain ⟨names, ho, hplan⟩ := exists_order_of_plan h
  have hgrows : (Table.keys before ++ p :: Table.keys after).Pairwise fun a b =>
      place names a < place names b := by
    have := pairwise_place (g := g) hr (placed_order ho).nodup
    rwa [← hplan, hsplit, Table.keys, List.map_append, List.map_cons] at this
  refine mem_front_of_lt hgrows ?_ (place_lt_of_mem_waits hr ho h he hw)
  have hmem := waits_subset hr h he w hw
  rwa [hsplit, Table.keys, List.map_append, List.map_cons] at hmem

/-! ### What entries wait for -/

/-- The requested phases of a unit, as the phases that are gone through for it. -/
theorem mem_phasesOf {fqn : String} {n : Node} (hn : g.node? fqn = some n) {p : Phase} :
    p ∈ phasesOf requested n ↔ g.Requests requested ⟨fqn, p⟩ := by
  rw [phasesOf, List.mem_filter]
  constructor
  · exact fun h => ⟨n, hn, h⟩
  · rintro ⟨m, hm, h⟩
    obtain rfl : n = m := Option.some.inj (hn.symm.trans hm)
    exact h

/-- **A later phase** of a unit waits for the requested phase of the unit before it. -/
theorem eq_previous (hr : requested.Pairwise fun p q => p.index < q.index)
    (h : g.plan requested = .ok plan) {p : Pair} {waits : List Pair} (he : (p, waits) ∈ plan)
    {r : Phase} (hrequests : g.Requests requested ⟨p.fqn, r⟩) (hearlier : r.index < p.phase.index) :
    ∃ q, Phase.Latest (fun q => g.Requests requested ⟨p.fqn, q⟩ ∧ q.index < p.phase.index) q ∧
      waits = [⟨p.fqn, q⟩] := by
  obtain ⟨n, hn, before, after, hphases, hwaits⟩ := (mem_plan h).mp he
  have hgrows : (before ++ p.phase :: after).Pairwise fun a b => a.index < b.index := by
    rw [← hphases]
    exact hr.filter _
  have hmem {q : Phase} (hq : g.Requests requested ⟨p.fqn, q⟩) : q ∈ before ++ p.phase :: after := by
    rw [← hphases]
    exact (mem_phasesOf hn).mpr hq
  have hfront : r ∈ before := mem_front_of_lt hgrows (hmem hrequests) hearlier
  obtain ⟨q, hq⟩ := Option.ne_none_iff_exists'.mp
    (mt List.getLast?_eq_none_iff.mp (List.ne_nil_of_mem hfront))
  rw [hq, Option.map_some, Option.getD_some] at hwaits
  have hsorted := (List.pairwise_append.mp hgrows).1
  obtain ⟨hin, hmost⟩ := (getLast?_eq_some_iff hsorted).mp hq
  refine ⟨q, ⟨⟨?_, ?_⟩, ?_⟩, hwaits⟩
  · rw [← mem_phasesOf hn, hphases]
    exact List.mem_append_left _ hin
  · exact (List.pairwise_append.mp hgrows).2.2 q hin p.phase List.mem_cons_self
  · rintro s ⟨hs, hlt⟩
    exact hmost s (mem_front_of_lt hgrows (hmem hs) hlt)

/-- **The first phase** of a unit waits for the gates of the unit. -/
theorem eq_gates (hr : requested.Pairwise fun p q => p.index < q.index)
    (h : g.plan requested = .ok plan) {p : Pair} {waits : List Pair} (he : (p, waits) ∈ plan)
    (hfirst : ∀ q, g.Requests requested ⟨p.fqn, q⟩ → p.phase.index ≤ q.index) :
    waits = g.gates requested p.fqn := by
  obtain ⟨n, hn, before, after, hphases, hwaits⟩ := (mem_plan h).mp he
  have hgrows : (before ++ p.phase :: after).Pairwise fun a b => a.index < b.index := by
    rw [← hphases]
    exact hr.filter _
  have hnone : before = [] := by
    refine List.eq_nil_iff_forall_not_mem.mpr fun q hq => ?_
    have hlt := (List.pairwise_append.mp hgrows).2.2 q hq p.phase List.mem_cons_self
    have hle := hfirst q ((mem_phasesOf hn).mp (by rw [hphases]; exact List.mem_append_left _ hq))
    omega
  rw [hwaits, hnone]
  rfl

/-! ### Gates -/

/-- The gates of a unit belong to the units that it depends on. -/
theorem map_fqn_gates (fqn : String) : (g.gates requested fqn).map Pair.fqn =
    ((g.incoming fqn).filter fun e => (g.gate? requested e).isSome).map Edge.source := by
  have hfqn {e : Edge} {w : Pair} (hw : g.gate? requested e = some w) : w.fqn = e.source := by
    unfold gate? at hw
    split at hw
    · cases hw
    · obtain ⟨p, -, rfl⟩ := Option.map_eq_some_iff.mp hw
      rfl
  rw [gates]
  induction g.incoming fqn with
  | nil => rfl
  | cons e rest ih =>
    cases hw : g.gate? requested e with
    | none => rw [List.filterMap_cons_none hw, List.filter_cons_of_neg (by simp [hw]), ih]
    | some w =>
      rw [List.filterMap_cons_some hw, List.filter_cons_of_pos (by simp [hw]), List.map_cons,
        List.map_cons, ih, hfqn hw]

/-- **One gate at most for each dependency.** -/
theorem nodup_gates (hg : g.Simple) (fqn : String) :
    ((g.gates requested fqn).map Pair.fqn).Nodup := by
  rw [map_fqn_gates]
  exact (hg.nodup_sources fqn).sublist (List.filter_sublist.map _)

/-- The gate of an edge is the latest phase that the edge can wait for. -/
theorem latest_of_gate (hr : requested.Pairwise fun p q => p.index < q.index) {e : Edge} {w : Pair}
    (hw : g.gate? requested e = some w) :
    w.fqn = e.source ∧ Phase.Latest (g.Opens requested e) w.phase := by
  obtain ⟨n, hn, hname, ⟨hin, hkind, hle⟩, hmost⟩ := (gate?_eq_some_iff hr).mp hw
  refine ⟨hname, ⟨⟨n, hn, hin, hkind⟩, n, hn, hle⟩, ?_⟩
  rintro q ⟨⟨m, hm, hq, hqkind⟩, m', hm', hqle⟩
  obtain rfl : n = m := Option.some.inj (hn.symm.trans hm)
  obtain rfl : n = m' := Option.some.inj (hn.symm.trans hm')
  exact hmost q hq hqkind hqle

/-- An edge has a gate exactly if there is a phase that it can wait for. -/
theorem exists_gate_iff (hr : requested.Pairwise fun p q => p.index < q.index) {e : Edge} :
    (g.gate? requested e).isSome = true ↔ ∃ q, g.Opens requested e q := by
  constructor
  · intro h
    obtain ⟨w, hw⟩ := Option.isSome_iff_exists.mp h
    exact ⟨w.phase, (latest_of_gate hr hw).2.1⟩
  · rintro ⟨q, ⟨n, hn, hin, hkind⟩, m, hm, hle⟩
    obtain rfl : n = m := Option.some.inj (hn.symm.trans hm)
    have hq : q ∈ requested.filter fun p =>
        p.appliesTo n.unit.kind && decide (p.index ≤ (lastPhase e n).index) :=
      List.mem_filter.mpr ⟨hin, by simpa [hkind] using hle⟩
    have hgate : g.gate? requested e = (requested.filter fun p =>
        p.appliesTo n.unit.kind && decide (p.index ≤ (lastPhase e n).index)).getLast?.map
          (Pair.mk e.source) := by
      unfold gate?
      rw [hn]
      rfl
    rw [hgate, Option.isSome_map, Option.isSome_iff_ne_none]
    exact mt List.getLast?_eq_none_iff.mp (List.ne_nil_of_mem hq)

/-- The phases that are gone through are the ones that were asked for. -/
theorem requests_requestedPhases (phases : List Phase) {p : Pair} :
    g.Requests (requestedPhases phases) p ↔ g.Requests phases p := by
  simp only [Requests, mem_requestedPhases]

theorem opens_requestedPhases (phases : List Phase) {e : Edge} :
    g.Opens (requestedPhases phases) e = g.Opens phases e := by
  funext p
  simp only [Opens, requests_requestedPhases]

/-- **Plans of graphs without a cycle.** However such a graph has grown, and whatever phases are asked
for, there is a plan. It has one entry for each unit and each requested phase that the unit has. An
entry waits for pairs only whose entries stand in front of it. A later phase of a unit waits for the
previous requested one alone. The first phase waits for one pair of each unit that it depends on and
that has a requested phase not after the build, if an artifact of a project is needed, or not after
the deployment otherwise: for the latest of these. -/
theorem assembled_plan_spec (stackName : String) (stack : Option Stack) (changes : List Change)
    (phases : List Phase) (hacyclic : (assemble stackName stack changes).Acyclic) :
    ∃ plan, (assemble stackName stack changes).plan (requestedPhases phases) = .ok plan ∧
      (Table.keys plan).Nodup ∧
      (∀ p, p ∈ Table.keys plan ↔ (assemble stackName stack changes).Requests phases p) ∧
      ∀ before p waits after, plan = before ++ (p, waits) :: after →
        (∀ w ∈ waits, w ∈ Table.keys before) ∧
        ((∃ q, Phase.Latest (fun q => (assemble stackName stack changes).Requests phases ⟨p.fqn, q⟩ ∧
            q.index < p.phase.index) q ∧ waits = [⟨p.fqn, q⟩]) ∨
          (∀ q, (assemble stackName stack changes).Requests phases ⟨p.fqn, q⟩ →
            p.phase.index ≤ q.index) ∧
          (waits.map Pair.fqn).Nodup ∧
          (∀ source, source ∈ waits.map Pair.fqn ↔
            ∃ e ∈ (assemble stackName stack changes).edges, e.source = source ∧ e.target = p.fqn ∧
              ∃ q, (assemble stackName stack changes).Opens phases e q) ∧
          ∀ w ∈ waits, ∃ e ∈ (assemble stackName stack changes).edges, e.source = w.fqn ∧
            e.target = p.fqn ∧
            Phase.Latest ((assemble stackName stack changes).Opens phases e) w.phase) := by
  have hg := simple_assemble stackName stack changes
  have hconsistent := consistent_assemble stackName stack changes
  generalize assemble stackName stack changes = g at *
  have hr := sorted_requestedPhases phases
  obtain ⟨names, ho⟩ := exists_order hconsistent.ends hconsistent.names
    ((findCycle_eq_none_iff hconsistent.ends).mpr hacyclic)
  have hplan : g.plan (requestedPhases phases) = .ok (g.planAlong (requestedPhases phases) names) := by
    rw [plan, ho]
    rfl
  refine ⟨_, hplan, nodup_keys_plan hr hplan, fun p => ?_, fun before p waits after hsplit => ?_⟩
  · rw [mem_keys_plan hplan, ← requests_requestedPhases phases]
    rfl
  have he : (p, waits) ∈ g.planAlong (requestedPhases phases) names := by rw [hsplit]; simp
  refine ⟨waits_in_front hr hplan hsplit, ?_⟩
  simp only [← requests_requestedPhases phases, ← opens_requestedPhases phases]
  by_cases hfirst : ∀ q, g.Requests (requestedPhases phases) ⟨p.fqn, q⟩ → p.phase.index ≤ q.index
  · refine Or.inr ⟨hfirst, ?_⟩
    rw [eq_gates hr hplan he hfirst]
    refine ⟨nodup_gates hg _, fun source => ?_, fun w hw => ?_⟩
    · rw [map_fqn_gates]
      simp only [List.mem_map, List.mem_filter, incoming, beq_iff_eq, exists_gate_iff hr]
      constructor
      · rintro ⟨e, ⟨⟨hedge, htarget⟩, hopens⟩, hsource⟩
        exact ⟨e, hedge, hsource, htarget, hopens⟩
      · rintro ⟨e, hedge, hsource, htarget, hopens⟩
        exact ⟨e, ⟨⟨hedge, htarget⟩, hopens⟩, hsource⟩
    · obtain ⟨e, hedge, hgate⟩ := List.mem_filterMap.mp hw
      obtain ⟨hin, htarget⟩ := List.mem_filter.mp hedge
      obtain ⟨hname, hlatest⟩ := latest_of_gate hr hgate
      exact ⟨e, hin, hname.symm, by simpa using htarget, hlatest⟩
  · simp only [not_forall, not_le] at hfirst
    obtain ⟨r, hrequests, hearlier⟩ := hfirst
    exact Or.inl (eq_previous hr hplan he hrequests hearlier)

/-- A service, a project whose artifact is needed, and a project that needs both. -/
def printshop : List Change :=
  [.node { (default : UnitDef) with name := "posters", kind := .project },
    .node { (default : UnitDef) with name := "press" },
    .node { (default : UnitDef) with name := "plates", kind := .project },
    .edge "shop.project.plates" "shop.project.posters" .artifact,
    .edge "shop.service.press" "shop.project.posters" .artifact]

/-- With builds and deployments, in whatever order they are asked for, the posters are built when the
plates are built and the press is deployed. -/
theorem planned_printshop : (assemble "shop" none printshop).Acyclic ∧
    ∃ before after, (assemble "shop" none printshop).plan
        (requestedPhases [.deploy, .build, .deploy]) = .ok (before ++
          (⟨"shop.project.posters", .build⟩,
            [⟨"shop.project.plates", .build⟩, ⟨"shop.service.press", .deploy⟩]) :: after) ∧
      ⟨"shop.project.plates", .build⟩ ∈ Table.keys before ∧
      ⟨"shop.service.press", .deploy⟩ ∈ Table.keys before := by
  have hacyclic : (assemble "shop" none printshop).Acyclic :=
    (findCycle_eq_none_iff (consistent_assemble "shop" none printshop).ends).mp (by rfl)
  obtain ⟨plan, hplan, -, -, hentries⟩ :=
    assembled_plan_spec "shop" none printshop [.deploy, .build, .deploy] hacyclic
  have hfound : (assemble "shop" none printshop).plan (requestedPhases [.deploy, .build, .deploy]) =
      .ok ([(⟨"shop.service.press", .deploy⟩, []), (⟨"shop.project.plates", .build⟩, []),
        (⟨"shop.project.plates", .deploy⟩, [⟨"shop.project.plates", .build⟩])] ++
        (⟨"shop.project.posters", .build⟩,
          [⟨"shop.project.plates", .build⟩, ⟨"shop.service.press", .deploy⟩]) ::
        [(⟨"shop.project.posters", .deploy⟩, [⟨"shop.project.posters", .build⟩])]) := by rfl
  have hsplit := Except.ok.inj (hplan.symm.trans hfound)
  obtain ⟨hfront, -⟩ := hentries _ _ _ _ hsplit
  exact ⟨hacyclic, _, _, hfound, hfront _ (by simp), hfront _ (by simp)⟩

end Graph

end Rollout
