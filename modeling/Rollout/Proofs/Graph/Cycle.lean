import Mathlib.Data.List.Chain
import Mathlib.Data.List.TakeWhile
import Rollout.Proofs.Graph.Reach

/-!
# Cycles of a graph

The search for a cycle goes along edges: the units on the way to the one that is visited form a path,
and an edge back to one of them closes it. A search that finds no cycle has put all units into a row
in which edges only lead on, so that no path comes back to where it began.

**Types.** `Graph.Acyclic`, `Graph.ClosedWalk`.

**Results.**
* `closedWalk_of_findCycle`: what the search finds;
* `findCycle_eq_none_iff`: the search finds no cycle exactly if there is none.
-/

namespace Rollout.Graph

variable {g : Graph}

/-- No path of edges leads from a unit back to itself. -/
def Acyclic (g : Graph) : Prop := ∀ v, ¬g.Reaches EdgeKind.all v v

theorem mem_targets_iff {v t : String} : t ∈ g.targets v ↔ g.Joins EdgeKind.all v t := by
  simp only [targets, outgoing, joins_all, List.mem_map, List.mem_filter, beq_iff_eq, and_assoc]

/-! ### What is found is a cycle -/

/-- The units on the way to a unit, and the unit itself, form a path. -/
def OnTheWay (g : Graph) (before : List String) (v : String) : Prop :=
  (before ++ [v]).IsChain (g.Joins EdgeKind.all)

theorem OnTheWay.start (v : String) : g.OnTheWay [] v := List.isChain_singleton v

/-- The way goes on along an edge. -/
theorem OnTheWay.next {before : List String} {v t : String} (h : g.OnTheWay before v)
    (ht : t ∈ g.targets v) : g.OnTheWay (before ++ [v]) t := by
  refine List.isChain_append.mpr ⟨h, List.isChain_singleton t, ?_⟩
  intro x hx y hy
  rw [List.getLast?_concat, Option.mem_some_iff] at hx
  rw [List.head?_singleton, Option.mem_some_iff] at hy
  subst hx hy
  exact mem_targets_iff.mp ht

/-- From every unit on the way a path leads to the last one. -/
theorem OnTheWay.leads {before : List String} {v u : String} (h : g.OnTheWay before v)
    (hu : u ∈ before ++ [v]) : Relation.ReflTransGen (g.Joins EdgeKind.all) u v := by
  induction before generalizing u with
  | nil =>
    rw [List.nil_append, List.mem_singleton] at hu
    rw [hu]
  | cons x rest ih =>
    have hrest : g.OnTheWay rest v := List.IsChain.tail h
    rcases List.mem_cons.mp hu with rfl | hu
    · cases rest with
      | nil => exact Relation.ReflTransGen.single (List.isChain_pair.mp h)
      | cons y others =>
        have hedge : g.Joins EdgeKind.all u y := List.IsChain.rel h
        exact Relation.ReflTransGen.head hedge (ih hrest List.mem_cons_self)
    · exact ih hrest hu

/-- A walk of one or more edges that ends where it begins and passes no other unit twice. -/
structure ClosedWalk (g : Graph) (walk : List String) : Prop where
  long : 2 ≤ walk.length
  edges : walk.IsChain (g.Joins EdgeKind.all)
  closed : walk.head? = walk.getLast?
  distinct : walk.dropLast.Nodup

/-- An edge back to a unit on the way closes a walk: what is cut out of the way begins with that unit
and goes on to the last one. -/
theorem OnTheWay.closedWalk {before : List String} {v t : String} (h : g.OnTheWay before v)
    (hnodup : (before ++ [v]).Nodup) (hback : t ∈ before ++ [v]) (ht : t ∈ g.targets v) :
    g.ClosedWalk ((before ++ [v]).dropWhile (· != t) ++ [t]) := by
  obtain ⟨rest, hcut⟩ : ∃ rest, (before ++ [v]).dropWhile (· != t) = t :: rest := by
    cases hdrop : (before ++ [v]).dropWhile (· != t) with
    | nil => exact absurd (List.dropWhile_eq_nil_iff.mp hdrop t hback) (by simp)
    | cons x rest =>
      have hx := List.head_dropWhile_not (l := before ++ [v]) (· != t) (by simp [hdrop])
      simp only [hdrop, List.head_cons, bne_eq_false_iff_eq] at hx
      exact ⟨rest, by rw [hx]⟩
  have hsuffix : t :: rest <:+ before ++ [v] := by
    rw [← hcut]
    exact List.dropWhile_suffix _
  have hlast : (t :: rest).getLast? = some v := by
    obtain ⟨front, hfront⟩ := hsuffix
    have hend := List.getLast?_append_of_ne_nil front (List.cons_ne_nil t rest)
    rw [← hend, hfront, List.getLast?_concat]
  rw [hcut]
  refine ⟨by simp, ?_, ?_, ?_⟩
  · refine List.isChain_append.mpr ⟨h.suffix hsuffix, List.isChain_singleton t, ?_⟩
    intro x hx y hy
    rw [hlast, Option.mem_some_iff] at hx
    rw [List.head?_singleton, Option.mem_some_iff] at hy
    subst hx hy
    exact mem_targets_iff.mp ht
  · rw [List.getLast?_concat, List.cons_append, List.head?_cons]
  · rw [List.dropLast_concat]
    exact hnodup.sublist hsuffix.sublist

/-- Along a closed walk a path comes back to where it began. -/
theorem ClosedWalk.reaches {walk : List String} (h : g.ClosedWalk walk) :
    ∃ u, g.Reaches EdgeKind.all u u := by
  obtain ⟨hlong, hedges, hclosed, -⟩ := h
  match walk, hlong with
  | u :: v :: rest, _ =>
    have hedge : g.Joins EdgeKind.all u v := hedges.rel
    obtain ⟨front, last, hend⟩ := (List.eq_nil_or_concat (v :: rest)).resolve_left (by simp)
    rw [List.concat_eq_append] at hend
    have hlast : last = u := by
      rw [hend, List.head?_cons, ← List.cons_append, List.getLast?_concat] at hclosed
      exact (Option.some.inj hclosed).symm
    have hway : g.OnTheWay front last := by
      rw [OnTheWay, ← hend]
      exact hedges.tail
    have hleads := hway.leads (u := v) (by rw [← hend]; exact List.mem_cons_self)
    exact ⟨u, Relation.TransGen.head' hedge (hlast ▸ hleads)⟩

/-- A cycle that ends a search over some units was found from one of them. -/
theorem exists_of_foldl_cycle {f : List String → String → Search} {todo units walk : List String}
    (h : todo.foldl (Search.andThen f) (.finished units) = .cycle walk) :
    ∃ t ∈ todo, ∃ units, f units t = .cycle walk := by
  induction todo generalizing units with
  | nil => cases h
  | cons t rest ih =>
    rw [List.foldl_cons] at h
    cases hstep : f units t with
    | cycle found =>
      rw [show Search.andThen f (.finished units) t = .cycle found from hstep, foldl_cycle] at h
      exact ⟨t, List.mem_cons_self, units, hstep.trans h⟩
    | finished next =>
      rw [show Search.andThen f (.finished units) t = .finished next from hstep] at h
      obtain ⟨t', ht', hfound⟩ := ih h
      exact ⟨t', List.mem_cons_of_mem _ ht', hfound⟩

/-- What a visit finds is a closed walk. -/
theorem closedWalk_of_visit {fuel : Nat} {before units walk : List String} {v : String}
    (hway : g.OnTheWay before v) (hnodup : (before ++ [v]).Nodup)
    (h : g.visit fuel before units v = .cycle walk) : g.ClosedWalk walk := by
  induction fuel generalizing before units v with
  | zero => cases h
  | succ fuel ih =>
    rw [visit_succ] at h
    cases hfold : (g.targets v).foldl (Search.andThen (g.searchFrom fuel (before ++ [v])))
        (.finished units) with
    | finished units' =>
      rw [hfold] at h
      cases h
    | cycle walk' =>
      rw [hfold, Search.cycle.injEq] at h
      subst h
      obtain ⟨t, ht, units', hfound⟩ := exists_of_foldl_cycle hfold
      unfold searchFrom at hfound
      split at hfound
      · rename_i hback
        rw [Search.cycle.injEq] at hfound
        subst hfound
        exact hway.closedWalk hnodup (by simpa using hback) ht
      rename_i hnew
      split at hfound
      · cases hfound
      · refine ih (hway.next ht) ?_ hfound
        exact List.nodup_append.mpr ⟨hnodup, by simp, by
          intro a ha b hb hab
          rw [List.mem_singleton] at hb
          rw [hab, hb] at ha
          simp [ha] at hnew⟩

/-- **What the search finds is a closed walk.** -/
theorem closedWalk_of_findCycle {walk : List String} (h : g.findCycle = some walk) :
    g.ClosedWalk walk := by
  unfold findCycle at h
  split at h
  · rename_i walk' hs
    rw [Option.some.injEq] at h
    subst h
    rw [searchAll_eq] at hs
    obtain ⟨t, -, units, hfound⟩ := exists_of_foldl_cycle hs
    split at hfound
    · cases hfound
    · exact closedWalk_of_visit (OnTheWay.start t) (by simp) hfound
  · cases h

/-! ### Where nothing is found there is no cycle -/

/-- Paths from a unit of a closed list stay in the list. -/
theorem Closed.mem_of_reaches {units : List String} (h : g.Closed units) {v t : String}
    (hv : v ∈ units) (hpath : g.Reaches EdgeKind.all v t) : t ∈ units := by
  induction hpath with
  | single hedge => exact h.mem_of_target hv (mem_targets_iff.mpr hedge)
  | tail _ hedge ih => exact h.mem_of_target ih (mem_targets_iff.mpr hedge)

/-- No path comes back to a unit of a closed list: a path from the first unit goes on behind it. -/
theorem Closed.acyclic {units : List String} (h : g.Closed units) {v : String} (hv : v ∈ units) :
    ¬g.Reaches EdgeKind.all v v := by
  induction units with
  | nil => cases hv
  | cons x rest ih =>
    intro hpath
    rcases List.mem_cons.mp hv with rfl | hv
    · obtain ⟨t, hedge, hback⟩ := Relation.TransGen.head'_iff.mp hpath
      have ht : t ∈ rest := h.1 t (mem_targets_iff.mpr hedge)
      have hv : v ∈ rest := by
        rcases Relation.reflTransGen_iff_eq_or_transGen.mp hback with rfl | hback
        · exact ht
        · exact h.2.mem_of_reaches ht hback
      exact ih h.2 hv hpath
    · exact ih h.2 hv hpath

/-- **The search finds no cycle exactly if there is none.** -/
theorem findCycle_eq_none_iff (hends : g.EndsKnown) : g.findCycle = none ↔ g.Acyclic := by
  constructor
  · intro h v hpath
    obtain ⟨units, hclosed, hall⟩ := closed_of_findCycle hends h
    obtain ⟨t, ⟨e, he, hs, -, -⟩, -⟩ := Relation.TransGen.head'_iff.mp hpath
    obtain ⟨n, hn⟩ := exists_node?_of_has (hends e he).1
    obtain ⟨hmem, hname⟩ := mem_of_node? hn
    have hv : v ∈ units := by
      rw [← hs, ← hname]
      exact hall n hmem
    exact hclosed.acyclic hv hpath
  · intro h
    rw [Option.eq_none_iff_forall_ne_some]
    intro walk hw
    obtain ⟨u, hu⟩ := (closedWalk_of_findCycle hw).reaches
    exact h u hu

end Rollout.Graph
