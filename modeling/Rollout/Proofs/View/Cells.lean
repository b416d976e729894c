import Rollout.Proofs.Run.Told
import Rollout.View.Board

/-!
# The cells of a board

A board keeps a word for every pair of a unit and a phase that it has heard of. News about a pair
changes the word of this pair and nothing else, so what a board says of a pair in the end is the last
word that it has heard about it.

**Types.** `PhaseWord`, `Board.Clear`.

**Operations.** `Board.phase?`, `Board.cells`, `Progress.word?`, `Progress.failure?`,
`Board.expect`, `Board.hear`.

**Results.**
* `Board.mem_cells`, `Board.nodup_cells`: the cells of a board with different keys;
* `Board.phase?_apply`, `Board.failures_apply`, `Board.runEnd_apply`: a board after a piece of news;
* `Board.phase?_hear`, `Board.failures_hear`, `Board.runEnd_hear`: a board after all news;
* `Board.phase?_expect`: a board after the plan of a run.
-/

namespace Rollout

open View

/-- What a board says of one phase of a unit. -/
structure PhaseWord where
  unit : String
  phase : String
  word : String
  deriving DecidableEq

namespace View.Board

/-- The word that a board has for a phase of a unit. -/
def phase? (b : Board) (unit phase : String) : Option String :=
  (Table.get? unit b.units).bind fun r => Table.get? phase r.phases

/-- Everything that a board says of phases of units. -/
def cells (b : Board) : List PhaseWord :=
  b.units.flatMap fun u => u.2.phases.map fun p => ⟨u.1, p.1, p.2⟩

/-- A board has one row for a unit, and one word in it for a phase. -/
structure Clear (b : Board) : Prop where
  units : (Table.keys b.units).Nodup
  phases : ∀ u ∈ b.units, (Table.keys u.2.phases).Nodup

theorem mem_cells {b : Board} (h : b.Clear) (c : PhaseWord) :
    c ∈ b.cells ↔ b.phase? c.unit c.phase = some c.word := by
  obtain ⟨unit, phase, word⟩ := c
  simp only [cells, List.mem_flatMap, List.mem_map, phase?, Option.bind_eq_some_iff,
    PhaseWord.mk.injEq]
  constructor
  · rintro ⟨⟨unit, r⟩, hu, ⟨phase, word⟩, hp, rfl, rfl, rfl⟩
    exact ⟨r, (Table.get?_eq_some_iff h.units).mpr hu,
      (Table.get?_eq_some_iff (h.phases _ hu)).mpr hp⟩
  · rintro ⟨r, hu, hp⟩
    exact ⟨_, Table.mem_of_get? hu, _, Table.mem_of_get? hp, rfl, rfl, rfl⟩

theorem nodup_cells {b : Board} (h : b.Clear) : b.cells.Nodup := by
  refine List.nodup_flatMap.mpr ⟨fun u hu => ?_, ?_⟩
  · have hnodup := h.phases u hu
    rw [Table.keys, List.nodup_iff_pairwise_ne, List.pairwise_map] at hnodup
    rw [List.nodup_iff_pairwise_ne, List.pairwise_map]
    exact hnodup.imp fun hne heq => hne (PhaseWord.mk.inj heq).2.1
  · have hnodup := h.units
    rw [Table.keys, List.nodup_iff_pairwise_ne, List.pairwise_map] at hnodup
    refine hnodup.imp fun hne => ?_
    simp only [Function.onFun, List.disjoint_left, List.mem_map]
    rintro _ ⟨p, -, rfl⟩ ⟨q, -, heq⟩
    exact hne (PhaseWord.mk.inj heq).1.symm

/-! ### Changes of a row -/

/-- A change of a row that leaves the phases alone or sets one of them. -/
theorem Clear.changeRow {b : Board} (h : b.Clear) (unit : String) {f : UnitRow → UnitRow}
    (hf : ∀ r, (Table.keys r.phases).Nodup → (Table.keys (f r).phases).Nodup) :
    (b.changeRow unit f).Clear := by
  have hnew : (Table.keys (Table.setNew unit {} b.units)).Nodup := Table.nodup_keys_setNew h.units
  have hkeys : (Table.keys (b.changeRow unit f).units).Nodup := by
    rwa [View.Board.changeRow, Table.keys_modify]
  refine ⟨hkeys, fun u hu => ?_⟩
  have hget := (Table.get?_eq_some_iff hkeys).mpr hu
  have hrow (r : UnitRow) (hr : Table.get? u.1 (Table.setNew unit {} b.units) = some r) :
      (Table.keys r.phases).Nodup := by
    rw [Table.get?_setNew] at hr
    split at hr
    · cases hold : Table.get? unit b.units with
      | none =>
        rw [hold, Option.getD_none, Option.some.injEq] at hr
        rw [← hr]
        exact List.nodup_nil
      | some old =>
        rw [hold, Option.getD_some, Option.some.injEq] at hr
        rw [← hr]
        exact h.phases _ (Table.mem_of_get? hold)
    · exact h.phases _ (Table.mem_of_get? hr)
  rw [View.Board.changeRow, Table.get?_modify] at hget
  split at hget
  · obtain ⟨r, hr, hru⟩ := Option.map_eq_some_iff.mp hget
    rw [← hru]
    exact hf r (hrow r hr)
  · exact hrow _ hget

/-- What a changed row says, and that no other row changes. -/
theorem phase?_changeRow (b : Board) (unit other phase : String) (f : UnitRow → UnitRow) :
    (b.changeRow unit f).phase? other phase =
      if other = unit then
        Table.get? phase (f ((Table.get? unit b.units).getD {})).phases
      else b.phase? other phase := by
  unfold phase? View.Board.changeRow
  rw [Table.get?_modify, Table.get?_setNew]
  split <;> rfl

/-- A change of a row that leaves the phases alone. -/
theorem phase?_changeRow_of_same {f : UnitRow → UnitRow}
    (h : ∀ r, (f r).phases = r.phases) (b : Board) (unit other phase : String) :
    (b.changeRow unit f).phase? other phase = b.phase? other phase := by
  rw [phase?_changeRow]
  split
  · rename_i heq
    subst heq
    rw [h, phase?]
    cases Table.get? other b.units <;> rfl
  · rfl

theorem phase?_setPhase (b : Board) (unit phase word other q : String) :
    (b.setPhase unit phase word).phase? other q =
      if other = unit ∧ q = phase then some word else b.phase? other q := by
  rw [setPhase, phase?_changeRow]
  by_cases hu : other = unit
  · subst hu
    rw [if_pos rfl]
    by_cases hq : q = phase
    · rw [hq, Table.get?_set_self, if_pos ⟨rfl, rfl⟩]
    · rw [Table.get?_set_of_ne hq, if_neg fun h => hq h.2, phase?]
      cases Table.get? other b.units <;> rfl
  · rw [if_neg hu, if_neg fun h => hu h.1]

theorem phase?_endPhase (b : Board) (unit phase word : String) (ms : Rat) (other q : String) :
    (b.endPhase unit phase word ms).phase? other q =
      if other = unit ∧ q = phase then some word else b.phase? other q := by
  exact (phase?_changeRow_of_same (fun _ => by rfl) ..).trans (phase?_setPhase ..)

theorem Clear.setPhase {b : Board} (h : b.Clear) (unit phase word : String) :
    (b.setPhase unit phase word).Clear :=
  h.changeRow unit fun _ hr => Table.nodup_keys_set hr

theorem Clear.endPhase {b : Board} (h : b.Clear) (unit phase word : String) (ms : Rat) :
    (b.endPhase unit phase word ms).Clear :=
  (h.setPhase unit phase word).changeRow unit fun _ hr => hr

end View.Board

/-! ### News -/

namespace Progress

/-- The word that is heard about a pair. -/
def word? : Progress → Option String
  | .started _ => some "running"
  | .succeeded .. => some "succeeded"
  | .reused .. => some "reused"
  | .failed .. => some "failed"
  | .skipped .. => some "skipped"
  | .planned .. | .outputs .. | .finished .. => none

/-- The failure that is heard of. -/
def failure? : Progress → Option UnitFailure
  | .failed p _ cause timedOut => some ⟨p.fqn, p.phase.text, cause, timedOut⟩
  | _ => none

/-- What is heard about a phase of a unit. -/
def wordOn? (unit phase : String) (e : Progress) : Option String :=
  if e.pair?.any fun p => p.fqn = unit ∧ p.phase.text = phase then e.word? else none

end Progress

namespace View.Board

variable {command : String} {e : Progress}

/-- The word for a pair, as a board and as a piece of news about the pair say it. -/
theorem word_eq {p : Pair} {word : String} (hp : e.pair? = some p) (hw : e.word? = some word)
    (unit phase : String) (old : Option String) :
    (if unit = p.fqn ∧ phase = p.phase.text then some word else old) =
      (e.wordOn? unit phase).or old := by
  rw [Progress.wordOn?, hp, hw, Option.any_some]
  simp only [decide_eq_true_eq]
  by_cases h : p.fqn = unit ∧ p.phase.text = phase
  · rw [if_pos h, if_pos ⟨h.1.symm, h.2.symm⟩, Option.some_or]
  · rw [if_neg h, if_neg fun h' => h ⟨h'.1.symm, h'.2.symm⟩, Option.none_or]

/-- **A piece of news** changes the word of the pair that it is about. -/
theorem phase?_apply (h : e.isNews = true) (b : Board) (unit phase : String) :
    (b.apply (.of command e.body)).phase? unit phase =
      (e.wordOn? unit phase).or (b.phase? unit phase) := by
  cases e with
  | planned _ _ _ _ => cases h
  | finished _ _ _ => cases h
  | outputs fqn fields => rfl
  | started p => exact (phase?_setPhase ..).trans (word_eq rfl rfl ..)
  | succeeded p ms => exact (phase?_endPhase ..).trans (word_eq rfl rfl ..)
  | reused p digest => exact (phase?_setPhase ..).trans (word_eq rfl rfl ..)
  | failed p ms cause timedOut =>
    have hnote := phase?_changeRow_of_same (f := fun r => { r with note := some (redact cause) })
      (fun _ => rfl) (b.endPhase p.fqn p.phase.text "failed" ms) p.fqn unit phase
    exact (hnote.trans (phase?_endPhase ..)).trans (word_eq rfl rfl ..)
  | skipped p blocker =>
    have hnote := phase?_changeRow_of_same
      (f := fun r => { r with note := orNote r.note ("blocked by " ++ blocker.text) })
      (fun _ => rfl) (b.setPhase p.fqn p.phase.text "skipped") p.fqn unit phase
    exact (hnote.trans (phase?_setPhase ..)).trans (word_eq rfl rfl ..)

theorem Clear.apply {b : Board} (hb : b.Clear) (h : e.isNews = true) :
    (b.apply (.of command e.body)).Clear := by
  cases e with
  | planned _ _ _ _ => cases h
  | finished _ _ _ => cases h
  | outputs fqn fields => exact hb
  | started p => exact hb.setPhase ..
  | succeeded p ms => exact hb.endPhase ..
  | reused p digest => exact hb.setPhase ..
  | failed p ms cause timedOut =>
    have hnoted := (hb.endPhase p.fqn p.phase.text "failed" ms).changeRow p.fqn
      (f := fun r => { r with note := some (redact cause) }) fun _ hr => hr
    exact ⟨hnoted.units, hnoted.phases⟩
  | skipped p blocker => exact (hb.setPhase ..).changeRow p.fqn fun _ hr => hr

theorem failures_apply (h : e.isNews = true) (b : Board) :
    (b.apply (.of command e.body)).failures = b.failures ++ e.failure?.toList := by
  cases e with
  | planned _ _ _ _ => cases h
  | finished _ _ _ => cases h
  | failed p ms cause timedOut => rfl
  | _ => exact (List.append_nil _).symm

theorem runEnd_apply (h : e.isNews = true) (b : Board) :
    (b.apply (.of command e.body)).runEnd = b.runEnd := by
  cases e <;> first | rfl | cases h

/-! ### All news -/

/-- The board after pieces of news. -/
def hear (command : String) (b : Board) (news : List Progress) : Board :=
  (news.map fun e => Event.of command e.body).foldl View.Board.apply b

variable {news : List Progress}

theorem hear_cons (b : Board) : hear command b (e :: news) =
    hear command (b.apply (.of command e.body)) news := rfl

theorem Clear.hear {b : Board} (hb : b.Clear) (h : ∀ e ∈ news, e.isNews = true) :
    (hear command b news).Clear := by
  induction news generalizing b with
  | nil => exact hb
  | cons e news ih =>
    obtain ⟨he, hnews⟩ := List.forall_mem_cons.mp h
    exact ih (hb.apply he) hnews

/-- **What a board says in the end** is the last word that it has heard. -/
theorem phase?_hear (h : ∀ e ∈ news, e.isNews = true) (b : Board) (unit phase : String) :
    (hear command b news).phase? unit phase =
      (news.filterMap (Progress.wordOn? unit phase)).getLast?.or (b.phase? unit phase) := by
  induction news generalizing b with
  | nil => rfl
  | cons e news ih =>
    obtain ⟨he, hnews⟩ := List.forall_mem_cons.mp h
    rw [hear_cons, ih hnews, phase?_apply he]
    cases hw : e.wordOn? unit phase with
    | none => rw [List.filterMap_cons_none hw, Option.none_or]
    | some word =>
      rw [List.filterMap_cons_some hw, List.getLast?_cons]
      cases (news.filterMap (Progress.wordOn? unit phase)).getLast? <;> rfl

/-- The failures of a board in the end are those that it has heard of. -/
theorem failures_hear (h : ∀ e ∈ news, e.isNews = true) (b : Board) :
    (hear command b news).failures = b.failures ++ news.filterMap Progress.failure? := by
  induction news generalizing b with
  | nil => exact (List.append_nil _).symm
  | cons e news ih =>
    obtain ⟨he, hnews⟩ := List.forall_mem_cons.mp h
    rw [hear_cons, ih hnews, failures_apply he, List.append_assoc]
    cases hf : e.failure? with
    | none => rw [List.filterMap_cons_none hf]; rfl
    | some f => rw [List.filterMap_cons_some hf]; rfl

theorem runEnd_hear (h : ∀ e ∈ news, e.isNews = true) (b : Board) :
    (hear command b news).runEnd = b.runEnd := by
  induction news generalizing b with
  | nil => rfl
  | cons e news ih =>
    obtain ⟨he, hnews⟩ := List.forall_mem_cons.mp h
    rw [hear_cons, ih hnews, runEnd_apply he]

/-! ### The plan and the end -/

/-- The board after the plan of a run. -/
def expect (b : Board) (pairs : List Pair) : Board :=
  pairs.foldl (fun b p => b.setPhase p.fqn p.phase.text "pending") b

theorem Clear.expect {b : Board} (hb : b.Clear) (pairs : List Pair) : (b.expect pairs).Clear := by
  induction pairs generalizing b with
  | nil => exact hb
  | cons p pairs ih => exact ih (hb.setPhase ..)

/-- The pairs of a plan are expected, and no others. -/
theorem phase?_expect (b : Board) (pairs : List Pair) (unit phase : String) :
    (b.expect pairs).phase? unit phase =
      if ∃ p ∈ pairs, p.fqn = unit ∧ p.phase.text = phase then some "pending"
      else b.phase? unit phase := by
  induction pairs generalizing b with
  | nil => simp [expect]
  | cons p pairs ih =>
    have hcons : b.expect (p :: pairs) = (b.setPhase p.fqn p.phase.text "pending").expect pairs := rfl
    rw [hcons, ih, phase?_setPhase]
    by_cases hrest : ∃ q ∈ pairs, q.fqn = unit ∧ q.phase.text = phase
    · rw [if_pos hrest, if_pos ((List.exists_mem_cons_iff ..).mpr (Or.inr hrest))]
    · rw [if_neg hrest]
      refine if_congr ?_ rfl rfl
      rw [List.exists_mem_cons_iff, or_iff_left hrest, eq_comm, @eq_comm _ phase]

theorem failures_expect (b : Board) (pairs : List Pair) :
    (b.expect pairs).failures = b.failures := by
  induction pairs generalizing b with
  | nil => rfl
  | cons p pairs ih => exact ih _

theorem apply_planned (b : Board) (phases : List Phase) (pairs : List Pair) (release : String)
    (workers : Value) :
    b.apply (.of command (Progress.planned phases pairs release workers).body) =
      { b with releaseName := some release }.expect pairs := by
  change (pairs.map fun p => (⟨p.fqn, p.phase.text⟩ : PairLine)).foldl _ _ = _
  rw [List.foldl_map]
  rfl

end View.Board

end Rollout
