import Mathlib.Data.List.Dedup
import Rollout.Proofs.View.Cells

/-!
# The tally of a board

Whoever has followed a run can count it up: how many phases have succeeded, failed, been skipped and
been reused, and whether all units, some or none are done. A reused phase counts as one that has
succeeded. The tally does not depend on the order of the cells.

A report is counted up in the same way, from the cells that it would fill.

**Operations.** `PhaseWord.done`, `PhaseWord.tally`, `PhaseWord.verdict`, `Outcome.word`,
`Report.cells`.

**Results.**
* `PhaseWord.tally_perm`, `PhaseWord.verdict_perm`: the order of the cells does not matter;
* `Report.counts_eq_tally`, `Report.status_eq_verdict`: counts and status of a report.
-/

namespace Rollout

namespace PhaseWord

/-- Whether the phase is done. -/
def done (c : PhaseWord) : Bool := c.word == "succeeded" || c.word == "reused"

/-- How many cells are done, failed, skipped and reused. -/
def tally (cells : List PhaseWord) : Table String Int :=
  [("succeeded", cells.countP done),
    ("failed", cells.countP fun c => c.word == "failed"),
    ("skipped", cells.countP fun c => c.word == "skipped"),
    ("reused", cells.countP fun c => c.word == "reused")]

/-- Whether all cells of a unit are done. -/
def unitDone (cells : List PhaseWord) (unit : String) : Bool :=
  cells.all fun c => c.unit != unit || c.done

/-- Whether all units are done, some or none. -/
def verdict (cells : List PhaseWord) : String :=
  let units := (cells.map PhaseWord.unit).dedup
  let done := units.countP (unitDone cells)
  if done = units.length then "succeeded" else if done = 0 then "failed" else "partial_failure"

variable {cells cells' : List PhaseWord}

/-- The order of the cells does not matter for the tally. -/
theorem tally_perm (h : cells.Perm cells') : tally cells = tally cells' := by
  simp only [tally, h.countP_eq]

/-- The order of the cells does not matter for the verdict. -/
theorem verdict_perm (h : cells.Perm cells') : verdict cells = verdict cells' := by
  have hunits := (h.map PhaseWord.unit).dedup
  have hdone : unitDone cells = unitDone cells' := funext fun u => h.all_eq
  simp only [verdict, hunits.length_eq, hunits.countP_eq, hdone]

end PhaseWord

/-- The word for an outcome. -/
def Outcome.word (o : Outcome) : String := if o.reused then "reused" else o.status.text

namespace Report

/-- The cells that a report fills. -/
def cells (r : Report) : List PhaseWord := r.pairs.map fun e => ⟨e.1.fqn, e.1.phase.text, e.2.word⟩

/-- Whatever is reused has succeeded. -/
def ReusedSucceeded (r : Report) : Prop :=
  ∀ e ∈ r.pairs, e.2.reused = true → e.2.status = .succeeded

theorem done_word {o : Outcome} (h : o.reused = true → o.status = .succeeded) (unit phase : String) :
    (⟨unit, phase, o.word⟩ : PhaseWord).done = (o.status == .succeeded) := by
  unfold PhaseWord.done Outcome.word
  cases hr : o.reused with
  | true => simp [h hr]
  | false => cases o.status <;> rfl

theorem failed_word {o : Outcome} (h : o.reused = true → o.status = .succeeded) :
    (o.word == "failed") = (o.status == .failed) := by
  unfold Outcome.word
  cases hr : o.reused with
  | true => simp [h hr]
  | false => cases o.status <;> rfl

theorem skipped_word {o : Outcome} (h : o.reused = true → o.status = .succeeded) :
    (o.word == "skipped") = (o.status == .skipped) := by
  unfold Outcome.word
  cases hr : o.reused with
  | true => simp [h hr]
  | false => cases o.status <;> rfl

theorem reused_word (o : Outcome) : (o.word == "reused") = o.reused := by
  unfold Outcome.word
  cases o.reused with
  | true => rfl
  | false => cases o.status <;> rfl

variable {r : Report}

/-- The cells of a report that a word singles out. -/
theorem countP_cells {p : PhaseWord → Bool} {q : Outcome → Bool}
    (h : ∀ e ∈ r.pairs, p ⟨e.1.fqn, e.1.phase.text, e.2.word⟩ = q e.2) :
    r.cells.countP p = (r.pairs.filter fun e => q e.2).length := by
  rw [cells, List.countP_map, ← List.countP_eq_length_filter]
  exact List.countP_congr fun e he => by rw [Function.comp_apply, h e he]

/-- **The counts of a report** are the tally of its cells. -/
theorem counts_eq_tally (h : r.ReusedSucceeded) : r.counts = PhaseWord.tally r.cells := by
  rw [PhaseWord.tally,
    countP_cells (q := fun o => o.status == .succeeded) fun e he => done_word (h e he) _ _,
    countP_cells (q := fun o => o.status == .failed) fun e he => failed_word (h e he),
    countP_cells (q := fun o => o.status == .skipped) fun e he => skipped_word (h e he),
    countP_cells (q := fun o => o.reused) fun e _ => reused_word e.2]
  rfl

/-- Keys that are given values one after the other. -/
theorem foldl_setNew (f : String → PairStatus) (fqns : List String) {t : Table String PairStatus}
    (ht : (Table.keys t).Nodup) (hf : ∀ e ∈ t, e.2 = f e.1) :
    (Table.keys (fqns.foldl (fun t u => Table.setNew u (f u) t) t)).Nodup ∧
      (∀ e ∈ fqns.foldl (fun t u => Table.setNew u (f u) t) t, e.2 = f e.1) ∧
      ∀ u, u ∈ Table.keys (fqns.foldl (fun t u => Table.setNew u (f u) t) t) ↔
        u ∈ Table.keys t ∨ u ∈ fqns := by
  induction fqns generalizing t with
  | nil => exact ⟨ht, hf, by simp⟩
  | cons v fqns ih =>
    have hnew : ∀ e ∈ Table.setNew v (f v) t, e.2 = f e.1 := by
      intro e he
      unfold Table.setNew at he
      split at he
      · exact hf e he
      · rcases Table.mem_of_mem_set he with rfl | he
        · rfl
        · exact hf e he
    obtain ⟨hnodup, hvalues, hkeys⟩ := ih (Table.nodup_keys_setNew ht) hnew
    refine ⟨hnodup, hvalues, fun u => ?_⟩
    rw [List.foldl_cons, hkeys, Table.keys_setNew, List.mem_cons]
    split
    · rename_i hv
      refine ⟨Or.imp_right Or.inr, ?_⟩
      rintro (h | rfl | h)
      · exact Or.inl h
      · exact Or.inl hv
      · exact Or.inr h
    · rw [List.mem_append, List.mem_singleton, or_assoc]

/-- The units of a report: each one once, with its status. -/
theorem units_spec (r : Report) :
    (Table.keys r.units).Perm (r.pairs.map fun e => e.1.fqn).dedup ∧
      ∀ e ∈ r.units, e.2 = r.unitStatus e.1 := by
  have hunits : r.units = (r.pairs.map fun e => e.1.fqn).foldl
      (fun t u => Table.setNew u (r.unitStatus u) t) [] := by
    rw [List.foldl_map]
    rfl
  obtain ⟨hnodup, hvalues, hkeys⟩ := foldl_setNew r.unitStatus (r.pairs.map fun e => e.1.fqn)
    (t := []) List.nodup_nil (by simp)
  rw [hunits]
  refine ⟨(List.perm_ext_iff_of_nodup hnodup (List.nodup_dedup _)).mpr fun u => ?_, hvalues⟩
  rw [hkeys u, List.mem_dedup]
  simp [Table.keys]

/-- A unit has succeeded when all its cells are done. -/
theorem unitStatus_eq_succeeded (h : r.ReusedSucceeded) {unit : String}
    (hu : unit ∈ r.pairs.map fun e => e.1.fqn) :
    (r.unitStatus unit == .succeeded) = PhaseWord.unitDone r.cells unit := by
  have hall : PhaseWord.unitDone r.cells unit = (r.statusesOf unit).all (· == .succeeded) := by
    rw [Bool.eq_iff_iff, PhaseWord.unitDone, statusesOf, cells]
    simp only [List.all_map, List.all_eq_true, List.mem_filter, Function.comp_apply, Bool.or_eq_true,
      bne_iff_ne, beq_iff_eq, and_imp]
    refine forall₂_congr fun e he => ?_
    rw [done_word (h e he), beq_iff_eq, ← imp_iff_not_or]
  have hne : (r.statusesOf unit).isEmpty = false := by
    obtain ⟨e, he, rfl⟩ := List.mem_map.mp hu
    rw [List.isEmpty_eq_false_iff, statusesOf, ne_eq, List.map_eq_nil_iff, List.filter_eq_nil_iff]
    exact fun hnone => hnone e he (beq_self_eq_true _)
  rw [hall, unitStatus]
  cases hfailed : (r.statusesOf unit).contains .failed with
  | true =>
    rw [if_pos rfl, eq_comm, beq_eq_false_iff_ne.mpr (by simp), List.all_eq_false]
    exact ⟨_, List.contains_iff_mem.mp hfailed, by decide⟩
  | false =>
    cases hskipped : (r.statusesOf unit).contains .skipped with
    | true =>
      rw [if_neg (by simp), if_pos rfl, eq_comm, beq_eq_false_iff_ne.mpr (by simp), List.all_eq_false]
      exact ⟨_, List.contains_iff_mem.mp hskipped, by decide⟩
    | false =>
      rw [hne]
      cases (r.statusesOf unit).all (· == .succeeded) <;> rfl

/-- **The status of a report** is the verdict on its cells. -/
theorem status_eq_verdict (h : r.ReusedSucceeded) : r.status.text = PhaseWord.verdict r.cells := by
  obtain ⟨hkeys, hvalues⟩ := r.units_spec
  have hcells : r.cells.map PhaseWord.unit = r.pairs.map fun e => e.1.fqn := by
    rw [cells, List.map_map]
    rfl
  have hlength : r.units.length = (r.cells.map PhaseWord.unit).dedup.length := by
    rw [hcells, ← hkeys.length_eq, Table.keys, List.length_map]
  have hdone : (r.units.filter fun e => e.2 == .succeeded).length =
      (r.cells.map PhaseWord.unit).dedup.countP (PhaseWord.unitDone r.cells) := by
    rw [hcells, ← hkeys.countP_eq, Table.keys, List.countP_map, ← List.countP_eq_length_filter]
    refine List.countP_congr fun e he => ?_
    have hunit : e.1 ∈ r.pairs.map fun e => e.1.fqn := by
      rw [← List.mem_dedup, ← hkeys.mem_iff]
      exact List.mem_map_of_mem he
    rw [hvalues e he, unitStatus_eq_succeeded h hunit, Function.comp_apply]
  simp only [status, PhaseWord.verdict, hlength, hdone]
  split
  · rfl
  · split <;> rfl

end Report

end Rollout
