import Mathlib.Data.List.Nodup
import Rollout.Proofs.Reference.Path

/-!
# Where the text leaves of a value stand

A text stands at a path of keys and positions, and of two paths into the same value one stands before
the other: at the first step where they part, the order of the items or of the entries decides. The
leaves of a value are the texts in it, in this order. If no mapping names an entry twice, then no
path stands before itself, so that no leaf is listed twice.

**Types.** `Value.TextAt`, `Value.Before`.

**Results.**
* `Value.mem_leaves`, `Value.mem_references`: the leaves are the texts that stand in the value, and
  the references those among them that are read as references;
* `Value.TextAt.mapLeaves`, `Value.TextAt.unique`: changed leaves stay at their places, and there is
  one text at a place;
* `Value.leaves_ordered`: leaves are listed in document order;
* `Value.Before.ne`: a path does not stand before itself.
-/

namespace Rollout.Value

/-- A text stands at the end of a path into a value. -/
inductive TextAt : Value → Path → String → Prop
  | here {s : String} : TextAt (.text s) [] s
  | item {items : List Value} {i : Nat} {v : Value} {p : Path} {s : String}
      (hv : items[i]? = some v) (h : TextAt v p s) : TextAt (.list items) (.int i :: p) s
  | entry {entries : Entries} {e : Key × Value} {p : Path} {s : String}
      (he : e ∈ entries) (h : TextAt e.2 p s) : TextAt (.map entries) (e.1 :: p) s

/-- Of two paths into a value, the first one stands before the second one in the document. -/
inductive Before : Value → Path → Path → Prop
  | items {items : List Value} {i j : Nat} {p q : Path} (h : i < j) :
      Before (.list items) (.int i :: p) (.int j :: q)
  | item {items : List Value} {i : Nat} {v : Value} {p q : Path}
      (hv : items[i]? = some v) (h : Before v p q) :
      Before (.list items) (.int i :: p) (.int i :: q)
  | entries {entries : Entries} {e e' : Key × Value} {p q : Path} (h : [e, e'].Sublist entries) :
      Before (.map entries) (e.1 :: p) (e'.1 :: q)
  | entry {entries : Entries} {e : Key × Value} {p q : Path}
      (he : e ∈ entries) (h : Before e.2 p q) : Before (.map entries) (e.1 :: p) (e.1 :: q)

/-- **The leaves of a value** are the texts that stand in it. -/
theorem mem_leaves {v : Value} {path p : Path} {s : String} :
    (p, s) ∈ v.leaves path ↔ ∃ q, p = path ++ q ∧ v.TextAt q s := by
  induction v using rises generalizing path with
  | text t =>
    rw [leaves, List.mem_singleton, Prod.mk.injEq]
    constructor
    · rintro ⟨rfl, rfl⟩
      exact ⟨[], by simp, .here⟩
    · rintro ⟨q, rfl, h⟩
      cases h
      simp
  | list items ih =>
    rw [leaves_list, List.mem_flatMap]
    constructor
    · rintro ⟨e, he, hmem⟩
      have hv : items[e.2]? = some e.1 := List.mem_zipIdx_iff_getElem?.mp he
      obtain ⟨q, rfl, hq⟩ := (ih e.1 (List.mem_of_getElem? hv)).mp hmem
      exact ⟨.int e.2 :: q, by simp, .item hv hq⟩
    · rintro ⟨q, rfl, h⟩
      cases h with
      | @item _ i v p _ hv h =>
        refine ⟨(v, i), List.mem_zipIdx_iff_getElem?.mpr hv, ?_⟩
        exact (ih v (List.mem_of_getElem? hv)).mpr ⟨p, by simp, h⟩
  | map entries ih =>
    rw [leaves_map, List.mem_flatMap]
    constructor
    · rintro ⟨e, he, hmem⟩
      obtain ⟨q, rfl, hq⟩ := (ih e he).mp hmem
      exact ⟨e.1 :: q, by simp, .entry he hq⟩
    · rintro ⟨q, rfl, h⟩
      cases h with
      | @entry _ e p _ he h => exact ⟨e, he, (ih e he).mpr ⟨p, by simp, h⟩⟩
  | _ =>
    refine ⟨fun h => (List.not_mem_nil h).elim, ?_⟩
    rintro ⟨q, -, h⟩
    cases h

/-- The references in a value are the texts in it that are read as references. -/
theorem mem_references {v : Value} {path p : Path} {r : Reference} :
    (p, r) ∈ v.references path ↔
      ∃ q s, p = path ++ q ∧ v.TextAt q s ∧ Reference.parse? s = some r := by
  rw [references, List.mem_filterMap]
  constructor
  · rintro ⟨⟨p', s⟩, hmem, h⟩
    obtain ⟨r', hr, heq⟩ := Option.map_eq_some_iff.mp h
    obtain ⟨rfl, rfl⟩ := Prod.mk.inj heq
    obtain ⟨q, rfl, htext⟩ := mem_leaves.mp hmem
    exact ⟨q, s, rfl, htext, hr⟩
  · rintro ⟨q, s, rfl, htext, hr⟩
    exact ⟨(path ++ q, s), mem_leaves.mpr ⟨q, rfl, htext⟩,
      Option.map_eq_some_iff.mpr ⟨r, hr, rfl⟩⟩

/-- A text that is changed to another one leaves it at its place. -/
theorem TextAt.mapLeaves {f : Value → Value} {v : Value} {p : Path} {s t : String}
    (h : v.TextAt p s) (hf : f (.text s) = .text t) : (v.mapLeaves f).TextAt p t := by
  induction h with
  | here =>
    rw [Value.mapLeaves, hf]
    · exact .here
    all_goals
      intro _ heq
      cases heq
  | @item items i v p s hv _ ih =>
    rw [Value.mapLeaves, mapItems_eq]
    exact .item (by rw [List.getElem?_map, hv]; rfl) (ih hf)
  | @entry entries e p s he _ ih =>
    rw [Value.mapLeaves, mapEntries_eq]
    exact .entry (e := (e.1, e.2.mapLeaves f))
      (List.mem_map_of_mem (f := fun e : Key × Value => (e.1, e.2.mapLeaves f)) he) (ih hf)

/-- A path leads to one text only, where every key names one entry. -/
theorem TextAt.unique {v : Value} (hv : v.Unambiguous) {p : Path} {s t : String}
    (h : v.TextAt p s) (h' : v.TextAt p t) : s = t := by
  induction h with
  | here =>
    cases h'
    rfl
  | item hget _ ih =>
    cases h' with
    | item hget' h' =>
      rw [hget, Option.some.injEq] at hget'
      subst hget'
      exact ih (unambiguous_list.mp hv _ (List.mem_of_getElem? hget)) h'
  | @entry entries e p s he _ ih =>
    obtain ⟨hkeys, hvalues⟩ := unambiguous_map.mp hv
    have hnodup : (entries.map Prod.fst).Nodup := by
      refine hkeys.imp fun {a b} hab heq => ?_
      rw [heq, Key.same_self] at hab
      cases hab
    generalize hpath : e.1 :: p = path at h'
    cases h' with
    | @entry _ e' p' _ he' h' =>
      obtain ⟨hkey, rfl⟩ := List.cons.inj hpath
      obtain rfl : e = e' := List.inj_on_of_nodup_map hnodup he he' hkey
      exact ih (hvalues e he) h'

/-- Two leaves stand in a value in the order of their paths. -/
def LeavesBefore (v : Value) (path : Path) (a b : Path × String) : Prop :=
  ∃ p q, a.1 = path ++ p ∧ b.1 = path ++ q ∧ v.Before p q

/-- Leaves below a common key keep their order in the whole. -/
theorem LeavesBefore.under {v w : Value} {path : Path} {k : Key} {a b : Path × String}
    (h : v.LeavesBefore (path ++ [k]) a b)
    (hw : ∀ p q, v.Before p q → w.Before (k :: p) (k :: q)) : w.LeavesBefore path a b := by
  obtain ⟨p, q, ha, hb, hpq⟩ := h
  exact ⟨k :: p, k :: q, by simp [ha], by simp [hb], hw p q hpq⟩

/-- **Leaves are listed in document order.** -/
theorem leaves_ordered (v : Value) (path : Path) :
    (v.leaves path).Pairwise (v.LeavesBefore path) := by
  induction v using rises generalizing path with
  | text t => exact List.pairwise_singleton _ _
  | list items ih =>
    rw [leaves_list, List.pairwise_flatMap]
    constructor
    · intro e he
      have hv : items[e.2]? = some e.1 := List.mem_zipIdx_iff_getElem?.mp he
      refine (ih e.1 (List.mem_of_getElem? hv) _).imp fun hab => ?_
      exact hab.under fun p q hpq => .item hv hpq
    · have hpositions : items.zipIdx.Pairwise fun e e' => e.2 < e'.2 := by
        refine List.pairwise_map.mp ?_
        rw [List.zipIdx_map_snd]
        exact List.pairwise_lt_range'
      refine hpositions.imp fun {e e'} hlt a ha b hb => ?_
      obtain ⟨p, hp, -⟩ := mem_leaves.mp ha
      obtain ⟨q, hq, -⟩ := mem_leaves.mp hb
      exact ⟨.int e.2 :: p, .int e'.2 :: q, by simp [hp], by simp [hq], .items hlt⟩
  | map entries ih =>
    rw [leaves_map, List.pairwise_flatMap]
    constructor
    · intro e he
      refine (ih e he _).imp fun hab => ?_
      exact hab.under fun p q hpq => .entry he hpq
    · refine List.pairwise_iff_forall_sublist.mpr fun {e e'} hsub a ha b hb => ?_
      obtain ⟨p, hp, -⟩ := mem_leaves.mp ha
      obtain ⟨q, hq, -⟩ := mem_leaves.mp hb
      exact ⟨e.1 :: p, e'.1 :: q, by simp [hp], by simp [hq], .entries hsub⟩
  | _ => exact List.Pairwise.nil

/-- A path stands before other paths only, where every key names one entry. -/
theorem Before.ne {v : Value} {p q : Path} (h : v.Before p q) (hv : v.Unambiguous) : p ≠ q := by
  induction h with
  | items hlt =>
    intro heq
    have hij := (List.cons.inj heq).1
    rw [Key.int.injEq] at hij
    omega
  | item hget _ ih =>
    intro heq
    exact ih (unambiguous_list.mp hv _ (List.mem_of_getElem? hget)) (List.cons.inj heq).2
  | @entries entries e e' _ _ hsub =>
    intro heq
    have hkeys := (unambiguous_map.mp hv).1
    have hdiffer : e'.1.same e.1 = false :=
      List.pairwise_iff_forall_sublist.mp hkeys (hsub.map Prod.fst)
    rw [(List.cons.inj heq).1, Key.same_self] at hdiffer
    cases hdiffer
  | entry he _ ih =>
    intro heq
    exact ih ((unambiguous_map.mp hv).2 _ he) (List.cons.inj heq).2

end Rollout.Value
