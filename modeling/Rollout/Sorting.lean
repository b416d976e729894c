/-!
# Sorting

Insertion into a sorted list, by a Boolean order. Items that the order does not tell apart keep
their places.

**Results.**
* `sort_perm`: sorting permutes;
* `pairwise_sort`: the result is sorted, for a total and transitive order;
* `mem_sort`: sorting keeps the members.
-/

namespace Rollout.Sorting

variable {α : Type}

/-- Put an item before the first one that it does not come after. -/
def insert (le : α → α → Bool) (x : α) : List α → List α
  | [] => [x]
  | y :: rest => if le x y then x :: y :: rest else y :: insert le x rest

/-- The items in the given order. -/
def sort (le : α → α → Bool) (items : List α) : List α :=
  items.foldr (insert le) []

/-- Texts in the order of their code points. -/
def texts (items : List String) : List String :=
  sort (fun a b => decide (a ≤ b)) items

theorem insert_perm (le : α → α → Bool) (x : α) (items : List α) :
    (insert le x items).Perm (x :: items) := by
  induction items with
  | nil => exact List.Perm.refl _
  | cons y rest ih =>
    by_cases h : le x y
    · simp [insert, h]
    · simpa [insert, h] using (List.Perm.cons y ih).trans (List.Perm.swap x y rest)

theorem sort_perm (le : α → α → Bool) (items : List α) : (sort le items).Perm items := by
  induction items with
  | nil => exact List.Perm.refl _
  | cons x rest ih => exact (insert_perm le x _).trans (List.Perm.cons x ih)

theorem mem_sort {le : α → α → Bool} {x : α} {items : List α} :
    x ∈ sort le items ↔ x ∈ items :=
  (sort_perm le items).mem_iff

theorem pairwise_insert {le : α → α → Bool}
    (total : ∀ a b, le a b ∨ le b a) (trans : ∀ a b c, le a b → le b c → le a c)
    (x : α) {items : List α} (h : items.Pairwise (fun a b => le a b)) :
    (insert le x items).Pairwise (fun a b => le a b) := by
  induction items with
  | nil => simp [insert]
  | cons y rest ih =>
    rw [List.pairwise_cons] at h
    by_cases hxy : le x y
    · simp only [insert, hxy, if_true, List.pairwise_cons]
      refine ⟨?_, h.1, h.2⟩
      intro z hz
      rcases List.mem_cons.1 hz with rfl | hz
      · exact hxy
      · exact trans _ _ _ hxy (h.1 z hz)
    · have hyx : le y x := (total x y).resolve_left hxy
      simp only [insert, hxy, Bool.false_eq_true, if_false, List.pairwise_cons]
      refine ⟨?_, ih h.2⟩
      intro z hz
      rcases List.mem_cons.1 ((insert_perm le x rest).mem_iff.1 hz) with rfl | hz
      · exact hyx
      · exact h.1 z hz

theorem pairwise_sort {le : α → α → Bool}
    (total : ∀ a b, le a b ∨ le b a) (trans : ∀ a b c, le a b → le b c → le a c)
    (items : List α) : (sort le items).Pairwise (fun a b => le a b) := by
  induction items with
  | nil => simp [sort]
  | cons x rest ih => exact pairwise_insert total trans x ih

end Rollout.Sorting
