import Rollout.Proofs.Run.Ends
import Rollout.Proofs.Run.Ordering

/-!
# Failures stay behind what they block

A pair is skipped if something behind it in the plan has failed, and for no other reason; all other
pairs are decided on their own. A skipped pair names the first of the pairs that it waits for and
that have not succeeded, by phase and then by declaration. That pair has failed or is skipped
itself, so whoever goes from blocker to blocker comes to a failed pair.

This holds over any graph and whatever was known before the run, since it depends on the statuses of
the pairs that a pair waits for, and on nothing else that a pair reads.

**Types.** `Outcome.OnItsOwn`, `Traced`.

**Operations.** `Report.statusOf?`, `Report.blocker?`, `Report.follow`.

**Results.**
* `blocker?_spec`: which pair blocks another one;
* `Tied.exists_traced`, `Tied.skipped_iff`: what stands behind a skipped pair;
* `Tied.follow_traced`: the texts of a report lead where the blockers lead;
* `failures_contained`: what a run makes of every pair of its plan.
-/

namespace Rollout

open RunState

/-! ### What reports say about pairs -/

namespace Report

def statusOf? (r : Report) (p : Pair) : Option PairStatus :=
  (Table.get? p r.pairs).map Outcome.status

/-- The pair that is named by a text. -/
def pairOf? (r : Report) (text : String) : Option Pair :=
  (Table.keys r.pairs).find? fun p => p.text == text

/-- The pair that a pair is said to be blocked by. -/
def blocker? (r : Report) (p : Pair) : Option Pair :=
  (Table.get? p r.pairs).bind fun o => o.blockedBy.bind r.pairOf?

/-- Go from a pair to what blocks it, a number of times. -/
def follow (r : Report) : Nat → Pair → Option Pair
  | 0, p => some p
  | n + 1, p => (r.blocker? p).bind (r.follow n)

end Report

/-- How a pair is decided that is not skipped: its executor is called once; or it is not called, and
what an earlier run left is reused, or the pair fails. -/
inductive Outcome.OnItsOwn (o : Outcome) (calls : Nat) : Prop
  | executed (hcalls : calls = 1) (hstatus : o.status = .succeeded ∨ o.status = .failed)
      (hreused : o.reused = false)
  | reused (hcalls : calls = 0) (hstatus : o.status = .succeeded) (hreused : o.reused = true)
  | failed (hcalls : calls = 0) (hstatus : o.status = .failed) (hreused : o.reused = false)

/-- The text of a phase ends in a character of its own. -/
theorem Phase.eq_of_getLast {p q : Phase}
    (h : p.text.toList.getLast? = q.text.toList.getLast?) : p = q := by
  revert h
  cases p <;> cases q <;> decide

/-- **The text of a pair** names one pair only. -/
theorem Pair.text_injective {p q : Pair} (h : p.text = q.text) : p = q := by
  have hlist : p.fqn.toList ++ ":".toList ++ p.phase.text.toList =
      q.fqn.toList ++ ":".toList ++ q.phase.text.toList := by
    rw [← String.toList_append, ← String.toList_append, ← String.toList_append,
      ← String.toList_append]
    exact congrArg String.toList h
  have hphase : p.phase = q.phase := by
    refine Phase.eq_of_getLast ?_
    have hne (r : Phase) : r.text.toList ≠ [] := by cases r <;> decide
    have hlast := congrArg List.getLast? hlist
    rwa [List.getLast?_append_of_ne_nil _ (hne _), List.getLast?_append_of_ne_nil _ (hne _)]
      at hlast
  rw [hphase, List.append_left_inj, List.append_left_inj] at hlist
  exact Pair.eq_of_fields (String.toList_injective hlist) hphase

variable {c : Setup} {requested : List Phase} {base s last : RunState} {A : Chart} {p b q : Pair}

/-! ### What blocks a pair -/

theorem Setup.rankLe_iff {a b : Pair} : c.rankLe a b = true ↔ a.phase.index < b.phase.index ∨
    a.phase.index = b.phase.index ∧ c.index a.fqn ≤ c.index b.fqn := by
  simp [rankLe]

/-- **What blocks a pair** is the first of the pairs that it waits for and that have not
succeeded. -/
theorem RunState.blocker?_spec (h : s.blocker? c p = some b) :
    b ∈ c.waits p ∧ s.status b ≠ .succeeded ∧
      ∀ w ∈ c.waits p, s.status w ≠ .succeeded → c.rankLe b w = true := by
  have htotal (a b : Pair) : c.rankLe a b ∨ c.rankLe b a := by
    rw [Setup.rankLe_iff, Setup.rankLe_iff]
    omega
  have htrans (a b d : Pair) : c.rankLe a b → c.rankLe b d → c.rankLe a d := by
    rw [Setup.rankLe_iff, Setup.rankLe_iff, Setup.rankLe_iff]
    omega
  have hopen {w : Pair} : w ∈ (c.waits p).filter (fun w => s.status w != .succeeded) ↔
      w ∈ c.waits p ∧ s.status w ≠ .succeeded := by
    rw [List.mem_filter, bne_iff_ne]
  obtain ⟨rest, hsort⟩ := List.head?_eq_some_iff.mp h
  have hsorted := Sorting.pairwise_sort htotal htrans
    ((c.waits p).filter fun w => s.status w != .succeeded)
  have hmem {w : Pair} :
      w ∈ Sorting.sort c.rankLe ((c.waits p).filter fun w => s.status w != .succeeded) ↔
        w ∈ (c.waits p).filter fun w => s.status w != .succeeded := Sorting.mem_sort
  rw [hsort] at hsorted hmem
  obtain ⟨hb, hstatus⟩ := hopen.mp (hmem.mp List.mem_cons_self)
  refine ⟨hb, hstatus, fun w hw hne => ?_⟩
  rcases List.mem_cons.mp (hmem.mpr (hopen.mpr ⟨hw, hne⟩)) with rfl | hrest
  · rw [Setup.rankLe_iff]
    omega
  · exact (List.pairwise_cons.mp hsorted).1 w hrest

/-- A skipped pair is blocked by the first of the pairs that it waits for and that have not
succeeded. -/
theorem Tied.blocked (h : Tied c base A s) (hA : A p = .skipped b) :
    b ∈ c.waits p ∧ (A b).settled = true ∧ (A b).status ≠ .succeeded ∧
      ∀ w ∈ c.waits p, (A w).status ≠ .succeeded → c.rankLe b w = true := by
  obtain ⟨t, hlasts, hfit⟩ := h.fit p
  have hstatus {w : Pair} (hw : w ∈ c.waits p) : t.status w = (A w).status := by
    rw [hlasts.statuses w hw, h.shown.status]
  rw [hA] at hfit
  obtain ⟨hterminal, hverdict⟩ := hfit
  rcases verdict_cases hverdict with ⟨b', hst, hblocker⟩ | ⟨cause, hst, -⟩ |
    ⟨digest, outputs, hst, -⟩ | ⟨digest, resolved, hst, -⟩
  · cases hst
    obtain ⟨hb, hne, hleast⟩ := blocker?_spec hblocker
    refine ⟨hb, ?_, hstatus hb ▸ hne, fun w hw hopen => hleast w hw ?_⟩
    · rw [Standing.settled, ← hstatus hb]
      exact hterminal b hb
    · rwa [hstatus hw]
  · cases hst
  · cases hst
  · cases hst

/-- From a pair one comes to another one in so many steps, each from a skipped pair to what blocks
it. -/
inductive Traced (A : Chart) : Nat → Pair → Pair → Prop
  | here (p : Pair) : Traced A 0 p p
  | next {n : Nat} {p b q : Pair} (hA : A p = .skipped b) (h : Traced A n b q) :
      Traced A (n + 1) p q

/-- Where one comes from a skipped pair stands behind the pair. -/
theorem Traced.behind (ht : Tied c base A s) {n : Nat} (h : Traced A n p q) :
    p = q ∨ c.Behind q p := by
  induction h with
  | here p => exact Or.inl rfl
  | @next n p b q hA _ ih =>
    have hb : c.Behind b p := Relation.TransGen.single (ht.blocked hA).1
    rcases ih with rfl | hq
    · exact Or.inr hb
    · exact Or.inr (hq.trans hb)

/-- **From every skipped pair** one comes to a failed one. -/
theorem Tied.exists_traced (hc : c.Checked requested) (h : Tied c base A s)
    (hA : A p = .skipped b) : ∃ n q, Traced A n p q ∧ (A q).status = .failed := by
  induction p using hc.wellFounded.induction generalizing b with
  | _ p ih =>
    obtain ⟨hb, hsettled, hne, -⟩ := h.blocked hA
    cases hB : A b with
    | skipped b' =>
      obtain ⟨n, q, htraced, hq⟩ := ih b hb hB
      exact ⟨n + 1, q, .next hA htraced, hq⟩
    | missing cause => exact ⟨1, b, .next hA (.here b), by rw [hB]; rfl⟩
    | failed digest ctx cause timedOut => exact ⟨1, b, .next hA (.here b), by rw [hB]; rfl⟩
    | reused digest outputs =>
      rw [hB] at hne
      exact absurd rfl hne
    | succeeded digest ctx snapshot outputs =>
      rw [hB] at hne
      exact absurd rfl hne
    | _ =>
      rw [hB] at hsettled
      cases hsettled

/-- A settled pair is skipped if something behind it has failed, and only then. -/
theorem Tied.skipped_iff (hc : c.Checked requested) (h : Tied c base A s)
    (hp : (A p).settled = true) :
    (A p).status = .skipped ↔ ∃ q, c.Behind q p ∧ (A q).status = .failed := by
  constructor
  · intro hskipped
    obtain ⟨b, hA⟩ : ∃ b, A p = .skipped b := by
      cases hA : A p with
      | skipped b => exact ⟨b, rfl⟩
      | _ =>
        rw [hA] at hskipped
        cases hskipped
    obtain ⟨n, q, htraced, hq⟩ := h.exists_traced hc hA
    rcases htraced.behind h with rfl | hbehind
    · rw [hskipped] at hq
      cases hq
    · exact ⟨q, hbehind, hq⟩
  · rintro ⟨q, hbehind, hq⟩
    by_contra hnot
    have hne : A p ≠ .waiting := by
      rintro hA
      rw [hA] at hp
      cases hp
    have hskip (b : Pair) : A p ≠ .skipped b := by
      rintro hA
      rw [hA] at hnot
      exact hnot rfl
    rw [h.fit.succeeded_of_behind h.shown hbehind hne hskip] at hq
    cases hq

/-! ### What a report makes of it -/

/-- A settled pair is skipped, or decided on its own. -/
theorem Tied.onItsOwn (h : Tied c base A s) (hp : (A p).settled = true)
    {o : Outcome} (ho : Table.get? p s.outcomes = some o) (hs : o.status ≠ .skipped) :
    o.OnItsOwn ((s.contexts.map UnitContext.pair).count p) := by
  have hcalls := h.count_contexts ho
  rw [Outcome.eq_of_untimed (h.shown.untimed_of_get? ho).2] at hcalls hs ⊢
  cases hA : A p with
  | skipped b =>
    rw [hA] at hs
    exact absurd rfl hs
  | reused digest outputs =>
    rw [hA] at hcalls
    exact .reused hcalls rfl rfl
  | missing cause =>
    rw [hA] at hcalls
    exact .failed hcalls rfl rfl
  | succeeded digest ctx snapshot outputs =>
    rw [hA] at hcalls
    exact .executed hcalls (Or.inl rfl) rfl
  | failed digest ctx cause timedOut =>
    rw [hA] at hcalls
    exact .executed hcalls (Or.inr rfl) rfl
  | _ =>
    rw [hA] at hp
    cases hp

variable {sched : Scheduler} {phases : List Phase} {files : Files} {plan : Plan}

/-- The statuses of a report are those of the last state. -/
theorem Shown.statusOf? (h : Shown c base A last) (sched : Scheduler) (phases : List Phase)
    (hp : c.Planned p) : (sched.reportOf phases last).statusOf? p = some (A p).status := by
  obtain ⟨o, ho, hu⟩ := h.exists_outcome hp
  rw [Report.statusOf?, Scheduler.reportOf, ho, Standing.status, ← hu]
  rfl

/-- A report says of a pair how it stands, if the pair is planned. -/
theorem Shown.statusOf?_eq_some_iff (h : Shown c base A last) {sched : Scheduler}
    {phases : List Phase} {status : PairStatus} :
    (sched.reportOf phases last).statusOf? p = some status ↔
      c.Planned p ∧ (A p).status = status := by
  constructor
  · intro hp
    obtain ⟨o, ho, -⟩ := Option.map_eq_some_iff.mp hp
    obtain ⟨hplanned, -⟩ := h.untimed_of_get? ho
    rw [h.statusOf? sched phases hplanned, Option.some.injEq] at hp
    exact ⟨hplanned, hp⟩
  · rintro ⟨hplanned, hstatus⟩
    rw [h.statusOf? sched phases hplanned, hstatus]

/-- A planned pair is named by its text. -/
theorem Shown.pairOf? (h : Shown c base A last) (sched : Scheduler) (phases : List Phase)
    (hp : c.Planned p) : (sched.reportOf phases last).pairOf? p.text = some p := by
  have hmem : p ∈ Table.keys (sched.reportOf phases last).pairs := by
    change p ∈ Table.keys last.outcomes
    rwa [h.keys]
  cases hfind : (sched.reportOf phases last).pairOf? p.text with
  | none =>
    have := List.find?_eq_none.mp hfind p hmem
    simp at this
  | some q =>
    have htext := List.find?_some hfind
    rw [Pair.text_injective (beq_iff_eq.mp htext)]

/-- The report of a skipped pair names its blocker. -/
theorem Tied.blocker?_report (hc : c.Checked requested) (h : Tied c base A last)
    (sched : Scheduler) (phases : List Phase) (hA : A p = .skipped b) :
    (sched.reportOf phases last).blocker? p = some b := by
  obtain ⟨o, ho, hu⟩ := h.shown.exists_outcome (h.shown.planned_of_ne (p := p) (by simp [hA]))
  have hblocked : o.blockedBy = some b.text := by
    rw [Outcome.eq_of_untimed hu, hA]
    rfl
  rw [Report.blocker?, Scheduler.reportOf, ho, Option.bind_some, hblocked, Option.bind_some]
  exact h.shown.pairOf? sched phases (hc.waits_planned (h.blocked hA).1)

/-- **The texts of a report** lead where the blockers lead. -/
theorem Tied.follow_traced (hc : c.Checked requested) (h : Tied c base A last)
    (sched : Scheduler) (phases : List Phase) {n : Nat} (ht : Traced A n p q) :
    (sched.reportOf phases last).follow n p = some q := by
  induction ht with
  | here p => rfl
  | next hA _ ih =>
    rw [Report.follow, h.blocker?_report hc sched phases hA]
    exact ih

/-- **Failures are contained.** In a run that reports, a pair of the plan is skipped if something
behind it has failed, and only then; every other pair is decided on its own. A skipped pair is never
started. It names the first of the pairs that it waits for and that have not succeeded, and going on
from what it names leads to a failed pair. -/
theorem failures_contained {s : Scheduler} (hs : s.Usable) {phases : List Phase} {files : Files}
    {report : Report} (hr : (s.run phases files).report = .ok report) :
    ∃ plan, s.graph.plan (requestedPhases phases) = .ok plan ∧
      Table.keys report.pairs = Table.keys plan ∧
      ∀ p waits, (p, waits) ∈ plan → ∃ o, Table.get? p report.pairs = some o ∧
        (o.status = .skipped ↔
          ∃ q, (s.setup plan).Behind q p ∧ report.statusOf? q = some .failed) ∧
        (o.status ≠ .skipped →
          o.OnItsOwn (((s.run phases files).contexts.map UnitContext.pair).count p)) ∧
        (o.status = .skipped →
          p ∉ (s.run phases files).contexts.map UnitContext.pair ∧
          (∃ b ∈ waits, o.blockedBy = some b.text ∧ report.statusOf? b ≠ some .succeeded ∧
            ∀ w ∈ waits, report.statusOf? w ≠ some .succeeded →
              b.phase.index < w.phase.index ∨ b.phase.index = w.phase.index ∧
                (s.setup plan).index b.fqn ≤ (s.setup plan).index w.fqn) ∧
          ∃ n q, report.follow n p = some q ∧ report.statusOf? q = some .failed) := by
  obtain ⟨plan, n, last, A, hfollows, hrun, rfl, hall⟩ := Scheduler.settled_spec hs hr
  have hc := hfollows.checked
  have ht := hfollows.tied
  have hcontexts : (s.run phases files).contexts = last.contexts := by
    rw [hrun]
    rfl
  have hstatus {q : Pair} (hq : (s.setup plan).Planned q) :=
    ht.shown.statusOf? s (requestedPhases phases) hq
  refine ⟨plan, hc.plan, ht.shown.keys, fun p waits he => ?_⟩
  have hp : (s.setup plan).Planned p := List.mem_map_of_mem (f := Prod.fst) he
  have hwaits : (s.setup plan).waits p = waits := Setup.waits_of_mem hc.nodup he
  obtain ⟨o, ho, hu⟩ := ht.shown.exists_outcome hp
  have hsame : o.status = (A p).status := by
    rw [Standing.status, ← hu]
    rfl
  refine ⟨o, ho, ?_, ?_, ?_⟩
  · rw [hsame, ht.skipped_iff hc (hall p hp)]
    refine exists_congr fun q => and_congr_right fun hq => ?_
    rw [hstatus (hc.behind_planned hq), Option.some.injEq]
  · rw [hcontexts]
    exact ht.onItsOwn (hall p hp) ho
  · intro hskipped
    obtain ⟨b, hA⟩ : ∃ b, A p = .skipped b := by
      rw [hsame] at hskipped
      cases hA : A p with
      | skipped b => exact ⟨b, rfl⟩
      | _ =>
        rw [hA] at hskipped
        cases hskipped
    obtain ⟨hb, -, hne, hleast⟩ := ht.blocked hA
    refine ⟨?_, ⟨b, hwaits ▸ hb, ?_, ?_, ?_⟩, ?_⟩
    · rw [hcontexts]
      exact ht.shown.not_called (by rw [hA]; rfl)
    · rw [Outcome.eq_of_untimed hu, hA]
      rfl
    · rw [hstatus (hc.waits_planned hb), ne_eq, Option.some.injEq]
      exact hne
    · intro w hw hopen
      rw [← hwaits] at hw
      rw [hstatus (hc.waits_planned hw), ne_eq, Option.some.injEq] at hopen
      exact Setup.rankLe_iff.mp (hleast w hw hopen)
    · obtain ⟨k, q, htraced, hq⟩ := ht.exists_traced hc hA
      refine ⟨k, q, ht.follow_traced hc s (requestedPhases phases) htraced, ?_⟩
      rw [hstatus (ht.shown.planned_of_ne ?_), hq]
      rintro hwaiting
      rw [hwaiting] at hq
      cases hq

/-- Executors whose deployments fail. -/
def Shop.failing : Executors :=
  [(.init, Shop.executor .null 1 (.succeeded none)),
    (.deploy, Shop.executor (.int 60) 1 (.failed (some "no space left")))]

/-- In the shop the deployment of the database fails; from the deployment of the interface, which is
skipped, one comes to it. -/
theorem failures_contained_shop :
    (Shop.scheduler [Shop.database, Shop.interface] 2 Shop.failing).Usable ∧
    ∃ report o, ((Shop.scheduler [Shop.database, Shop.interface] 2 Shop.failing).run
        [.init, .deploy] []).report = .ok report ∧
      report.statusOf? ⟨"shop.service.db", .deploy⟩ = some .failed ∧
      Table.get? ⟨"shop.service.api", .deploy⟩ report.pairs = some o ∧ o.status = .skipped ∧
      o.blockedBy = some "shop.service.api:init" ∧
      ∃ n q, report.follow n ⟨"shop.service.api", .deploy⟩ = some q ∧
        report.statusOf? q = some .failed := by
  have hs : (Shop.scheduler [Shop.database, Shop.interface] 2 Shop.failing).Usable :=
    ⟨rfl, by decide⟩
  have hany : (((Shop.scheduler [Shop.database, Shop.interface] 2 Shop.failing).run
      [.init, .deploy] []).report.toOption.any fun r =>
        r.statusOf? ⟨"shop.service.db", .deploy⟩ == some .failed &&
          r.statusOf? ⟨"shop.service.api", .deploy⟩ == some .skipped) = true := by
    decide +kernel
  obtain ⟨report, hr, hstatus⟩ := exists_of_any hany
  simp only [Bool.and_eq_true, beq_iff_eq] at hstatus
  obtain ⟨plan, hplan, -, hpairs⟩ := failures_contained hs hr
  have hshop : (Shop.graph [Shop.database, Shop.interface]).plan
      (requestedPhases [.init, .deploy]) = .ok
        [(⟨"shop.service.db", .init⟩, []),
          (⟨"shop.service.db", .deploy⟩, [⟨"shop.service.db", .init⟩]),
          (⟨"shop.service.api", .init⟩, [⟨"shop.service.db", .deploy⟩]),
          (⟨"shop.service.api", .deploy⟩, [⟨"shop.service.api", .init⟩])] := by rfl
  obtain rfl := Except.ok.inj (hplan.symm.trans hshop)
  obtain ⟨o, ho, -, -, hskipped⟩ :=
    hpairs ⟨"shop.service.api", .deploy⟩ [⟨"shop.service.api", .init⟩] (by simp)
  have hst : o.status = .skipped := by
    have := hstatus.2
    rwa [Report.statusOf?, ho, Option.map_some, Option.some.injEq] at this
  obtain ⟨-, ⟨b, hb, hblocked, -⟩, hfollow⟩ := hskipped hst
  obtain rfl := List.mem_singleton.mp hb
  exact ⟨hs, report, o, hr, hstatus.1, ho, hst, hblocked, hfollow⟩

end Rollout
