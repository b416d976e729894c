import Mathlib.Data.List.Perm.Subperm
import Mathlib.Logic.Relation
import Rollout.Graph.Affected
import Rollout.Proofs.Graph.Edges
import Rollout.Proofs.Graph.Order

/-!
# What a search from some units reaches

The search keeps a work list and what it has seen. What it has seen is reached from the units it
started with; and an edge to a unit that has not been seen starts at a unit of the work list. Each
unit is put on the work list at most once after the beginning, so a search that may take a round for
every first unit and for every unit of the graph comes to its end. Which unit of the work list a
round takes does not matter for any of this.

**Types.** `Graph.Reaches`, `Graph.Searched`, `Graph.Frontier`.

**Results.**
* `Searched.rounds_le`: how many rounds a search can have;
* `Searched.mem_seen`: what a search has seen when its work list is empty;
* `mem_descendants`: what a search from known units returns;
* `mem_redeployForce`: the units that are to be built and deployed again.
-/

namespace Rollout.Graph

variable {g : Graph} {kinds : List EdgeKind}

/-- A path of one or more edges of the kinds leads from a unit to another one. -/
def Reaches (g : Graph) (kinds : List EdgeKind) : String → String → Prop :=
  Relation.TransGen (g.Joins kinds)

/-- The units that the next unit of the work list leads to and that have not been seen. -/
def unseenTargets (g : Graph) (kinds : List EdgeKind) (v : String) (seen : List String) :
    List String :=
  ((g.outgoing v).filter fun e => kinds.contains e.kind && !seen.contains e.target).map Edge.target

theorem reach_cons (fuel : Nat) (v : String) (work seen : List String) :
    g.reach kinds (fuel + 1) (v :: work) seen =
      g.reach kinds fuel (g.unseenTargets kinds v seen ++ work)
        (seen ++ g.unseenTargets kinds v seen) := rfl

theorem mem_unseenTargets {v t : String} {seen : List String} :
    t ∈ g.unseenTargets kinds v seen ↔ g.Joins kinds v t ∧ t ∉ seen := by
  simp only [unseenTargets, outgoing, Joins, List.mem_map, List.mem_filter, beq_iff_eq,
    Bool.and_eq_true, List.contains_eq_mem, decide_eq_true_eq, Bool.not_eq_true',
    decide_eq_false_iff_not]
  constructor
  · rintro ⟨e, ⟨⟨he, hs⟩, hk, hnew⟩, rfl⟩
    exact ⟨⟨e, he, hs, rfl, hk⟩, hnew⟩
  · rintro ⟨⟨e, he, hs, rfl, hk⟩, hnew⟩
    exact ⟨e, ⟨⟨he, hs⟩, hk, hnew⟩, rfl⟩

theorem nodup_unseenTargets (hg : g.Simple) (v : String) (seen : List String) :
    (g.unseenTargets kinds v seen).Nodup :=
  (hg.nodup_targets v).sublist (List.filter_sublist.map _)

/-- Where a search from some units can stand after some rounds: the units that it has still to work
on and those that it has seen. A round takes any unit off the work list; what that unit leads to and
has not been seen is put on the list, in any place. -/
inductive Searched (g : Graph) (kinds : List EdgeKind) (roots : List String) :
    Nat → List String → List String → Prop
  | start : Searched g kinds roots 0 roots []
  | round {rounds : Nat} {work seen rest work' : List String} {v : String}
      (before : Searched g kinds roots rounds work seen) (taken : work.Perm (v :: rest))
      (put : work'.Perm (g.unseenTargets kinds v seen ++ rest)) :
      Searched g kinds roots (rounds + 1) work' (seen ++ g.unseenTargets kinds v seen)

/-- What holds wherever a search stands. -/
structure Frontier (g : Graph) (kinds : List EdgeKind) (roots work seen : List String) : Prop where
  sound : ∀ t ∈ seen, ∃ r ∈ roots, g.Reaches kinds r t
  waiting : ∀ v ∈ work, v ∈ roots ∨ v ∈ seen
  closed : ∀ v, v ∈ roots ∨ v ∈ seen → v ∉ work → ∀ t, g.Joins kinds v t → t ∈ seen
  nodup : seen.Nodup

/-- What a unit leads to is reached from a root, if the unit is one or is reached from one. -/
theorem Frontier.reaches {roots work seen : List String} (h : g.Frontier kinds roots work seen)
    {v t : String} (hv : v ∈ roots ∨ v ∈ seen) (hjoins : g.Joins kinds v t) :
    ∃ r ∈ roots, g.Reaches kinds r t := by
  rcases hv with hroot | hseen
  · exact ⟨v, hroot, .single hjoins⟩
  · obtain ⟨r, hr, hpath⟩ := h.sound v hseen
    exact ⟨r, hr, hpath.tail hjoins⟩

/-- One round keeps what holds of a search. -/
theorem Frontier.round (hg : g.Simple) {roots work seen rest work' : List String} {v : String}
    (h : g.Frontier kinds roots work seen) (taken : work.Perm (v :: rest))
    (put : work'.Perm (g.unseenTargets kinds v seen ++ rest)) :
    g.Frontier kinds roots work' (seen ++ g.unseenTargets kinds v seen) := by
  have hv : v ∈ roots ∨ v ∈ seen := h.waiting v (taken.mem_iff.mpr List.mem_cons_self)
  refine ⟨fun t ht => ?_, fun w hw => ?_, fun w hw hdone t hjoins => ?_, ?_⟩
  · rcases List.mem_append.mp ht with hold | hfresh
    · exact h.sound t hold
    · exact h.reaches hv (mem_unseenTargets.mp hfresh).1
  · rcases List.mem_append.mp (put.mem_iff.mp hw) with hfresh | hrest
    · exact Or.inr (List.mem_append_right _ hfresh)
    · exact (h.waiting w (taken.mem_iff.mpr (List.mem_cons_of_mem _ hrest))).imp_right
        (List.mem_append_left _)
  · by_cases hold : t ∈ seen
    · exact List.mem_append_left _ hold
    rw [put.mem_iff, List.mem_append, not_or] at hdone
    have hbefore : w ∈ roots ∨ w ∈ seen :=
      hw.imp_right fun hw => (List.mem_append.mp hw).resolve_right hdone.1
    -- a unit whose edges lead to something new was still waiting, and can only be the one taken
    have hwaiting : w ∈ v :: rest :=
      taken.mem_iff.mp (by_contra fun hnot => hold (h.closed w hbefore hnot t hjoins))
    obtain rfl : w = v := (List.mem_cons.mp hwaiting).resolve_right hdone.2
    exact List.mem_append_right _ (mem_unseenTargets.mpr ⟨hjoins, hold⟩)
  · rw [List.nodup_append]
    refine ⟨h.nodup, nodup_unseenTargets hg v seen, fun a ha b hb hab => ?_⟩
    exact (mem_unseenTargets.mp hb).2 (hab ▸ ha)

/-- **Wherever a search stands**, what it has seen is reached from a root, and only units of its
work list lead to what it has not seen. -/
theorem Searched.frontier (hg : g.Simple) {roots work seen : List String} {rounds : Nat}
    (h : g.Searched kinds roots rounds work seen) : g.Frontier kinds roots work seen := by
  induction h with
  | start =>
    refine ⟨by simp, fun _ => Or.inl, fun v hv hdone => absurd ?_ hdone, List.nodup_nil⟩
    exact hv.resolve_right List.not_mem_nil
  | round _ taken put ih => exact ih.round hg taken put

/-- The units of the graph that have not been seen. -/
def unseen (g : Graph) (seen : List String) : List String :=
  (g.nodes.map Node.fqn).filter fun fqn => !seen.contains fqn

/-- Units that come into sight are unseen no longer. -/
theorem length_unseen (hg : g.Simple) (hends : g.EndsKnown) (hn : (g.nodes.map Node.fqn).Nodup)
    (v : String) (seen : List String) :
    (g.unseenTargets kinds v seen).length +
      (g.unseen (seen ++ g.unseenTargets kinds v seen)).length ≤ (g.unseen seen).length := by
  rw [← List.length_append]
  refine (List.subperm_of_subset ?_ ?_).length_le
  · rw [List.nodup_append]
    refine ⟨nodup_unseenTargets hg v seen, hn.filter _, fun a ha b hb hab => ?_⟩
    have hnot := (List.mem_filter.mp hb).2
    rw [← hab] at hnot
    simp [ha] at hnot
  · intro t ht
    rcases List.mem_append.mp ht with ht | ht
    · obtain ⟨⟨e, he, -, rfl, -⟩, hnew⟩ := mem_unseenTargets.mp ht
      exact List.mem_filter.mpr ⟨has_iff_mem_names.mp (hends e he).2, by simpa using hnew⟩
    · obtain ⟨hm, hnot⟩ := List.mem_filter.mp ht
      simp only [List.contains_append, Bool.not_or, Bool.and_eq_true] at hnot
      exact List.mem_filter.mpr ⟨hm, hnot.1⟩

/-- **A search comes to its end**: it has a round for each of its first units and for each unit that
comes into sight, whatever it takes off its work list. -/
theorem Searched.rounds_le (hg : g.Simple) (hends : g.EndsKnown)
    (hn : (g.nodes.map Node.fqn).Nodup) {roots work seen : List String} {rounds : Nat}
    (h : g.Searched kinds roots rounds work seen) :
    rounds + work.length + (g.unseen seen).length ≤ roots.length + g.nodes.length := by
  induction h with
  | start =>
    have := List.length_filter_le (fun fqn => !([] : List String).contains fqn)
      (g.nodes.map Node.fqn)
    rw [List.length_map] at this
    rw [Nat.zero_add]
    exact Nat.add_le_add_left this _
  | @round rounds work seen rest work' v _ taken put ih =>
    have hless : (g.unseenTargets kinds v seen).length +
        (g.unseen (seen ++ g.unseenTargets kinds v seen)).length ≤ (g.unseen seen).length :=
      length_unseen hg hends hn v seen
    have htaken : work.length = rest.length + 1 := taken.length_eq
    have hput : work'.length = (g.unseenTargets kinds v seen).length + rest.length := by
      rw [put.length_eq, List.length_append]
    omega

/-- **What a search has seen in the end** are the units that paths from its roots lead to. -/
theorem Searched.mem_seen (hg : g.Simple) {roots seen : List String} {rounds : Nat}
    (h : g.Searched kinds roots rounds [] seen) {t : String} :
    t ∈ seen ↔ ∃ r ∈ roots, g.Reaches kinds r t := by
  have hfrontier := h.frontier hg
  constructor
  · exact hfrontier.sound t
  · rintro ⟨r, hr, hpath⟩
    induction hpath with
    | single hjoins => exact hfrontier.closed r (Or.inl hr) List.not_mem_nil _ hjoins
    | tail _ hjoins ih => exact hfrontier.closed _ (Or.inr ih) List.not_mem_nil _ hjoins

/-- A search that is carried on for as long as it can have rounds is at its end. -/
theorem Searched.reach (hg : g.Simple) (hends : g.EndsKnown) (hn : (g.nodes.map Node.fqn).Nodup)
    {roots work seen : List String} {rounds fuel : Nat}
    (h : g.Searched kinds roots rounds work seen)
    (hfuel : roots.length + g.nodes.length = rounds + fuel) :
    ∃ rounds, g.Searched kinds roots rounds [] (g.reach kinds fuel work seen) := by
  induction fuel generalizing work seen rounds with
  | zero =>
    have hle := h.rounds_le hg hends hn
    obtain rfl : work = [] := List.length_eq_zero_iff.mp (by omega)
    exact ⟨rounds, h⟩
  | succ fuel ih =>
    cases work with
    | nil => exact ⟨rounds, h⟩
    | cons v rest =>
      rw [reach_cons]
      exact ih (h.round (.refl _) (.refl _)) (by omega)

/-- The descendants of units are what a search from them has seen in the end. -/
theorem searched_descendants (hg : g.Simple) (hends : g.EndsKnown)
    (hn : (g.nodes.map Node.fqn).Nodup) {roots units : List String}
    (h : g.descendants roots kinds = .ok units) :
    ∃ rounds, g.Searched kinds roots rounds [] units := by
  unfold descendants at h
  split at h
  · cases h
  rw [Except.ok.injEq] at h
  subst h
  exact Searched.start.reach hg hends hn (Nat.zero_add _).symm

/-- **The descendants of known units** are the ends of paths that lead away from them. -/
theorem mem_descendants (hg : g.Simple) (hends : g.EndsKnown) (hn : (g.nodes.map Node.fqn).Nodup)
    {roots units : List String} (h : g.descendants roots kinds = .ok units) {t : String} :
    t ∈ units ↔ ∃ r ∈ roots, g.Reaches kinds r t := by
  obtain ⟨rounds, hsearch⟩ := searched_descendants hg hends hn h
  exact hsearch.mem_seen hg

/-- Known units have descendants. -/
theorem exists_descendants {roots : List String} (h : ∀ r ∈ roots, g.has r = true) :
    ∃ units, g.descendants roots kinds = .ok units := by
  have hnone : roots.find? (fun r => !g.has r) = none := by
    rw [List.find?_eq_none]
    intro r hr
    simp [h r hr]
  exact ⟨_, by rw [descendants, hnone]⟩

/-- **What is to be worked on again**: touched units are built and deployed, and so is everything
that is deployed on top of them. -/
theorem mem_redeployForce (hg : g.Simple) (hends : g.EndsKnown) (hn : (g.nodes.map Node.fqn).Nodup)
    {touched : List String} (h : ∀ fqn ∈ touched, g.has fqn = true) {fqn : String} :
    (fqn ∈ (g.redeployForce touched).build ↔ fqn ∈ touched) ∧
      (fqn ∈ (g.redeployForce touched).deploy ↔
        fqn ∈ touched ∨ ∃ t ∈ touched, g.Reaches [.deploy] t fqn) := by
  obtain ⟨units, hunits⟩ : ∃ units, g.descendants touched [.deploy] = .ok units :=
    exists_descendants h
  refine ⟨Iff.rfl, ?_⟩
  simp only [redeployForce, hunits, List.mem_append, List.mem_filter, List.contains_eq_mem,
    Bool.not_eq_true', decide_eq_false_iff_not, mem_descendants hg hends hn hunits]
  by_cases ht : fqn ∈ touched <;> simp [ht]

/-- What leads to a unit is a unit. -/
theorem has_of_reaches (hends : g.EndsKnown) {kinds : List EdgeKind} {u v : String}
    (h : g.Reaches kinds u v) : g.has u = true := by
  induction h with
  | single hjoins =>
    obtain ⟨e, he, rfl, -⟩ := hjoins
    exact (hends e he).1
  | tail _ _ ih => exact ih

/-- Touched units are units of the graph. -/
theorem has_of_touched {directory : FilePath} {changed : List String}
    {roots : Option (List String)} {fqn : String} (h : fqn ∈ g.touched directory changed roots) :
    g.has fqn = true := by
  obtain ⟨n, hm, rfl⟩ := List.mem_map.mp h
  exact has_of_mem (List.mem_filter.mp hm).1

end Rollout.Graph
