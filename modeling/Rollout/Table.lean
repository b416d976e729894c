/-!
# Tables

A table is a list of entries in the order in which their keys were first set.
Writing to a key that is present keeps its place; a new key goes to the end.

**Operations.** `get?`, `has`, `set`, `erase`, `keys`, `values`.

**Results.**
* `get?_set_self`, `get?_set_of_ne`: reading after a write;
* `get?_erase_self`, `get?_erase_of_ne`: reading after a removal;
* `keys_set`: a write adds at most its own key, at the end.
-/

namespace Rollout

/-- Entries in the order in which their keys were first set. -/
abbrev Table (κ : Type) (α : Type) := List (κ × α)

namespace Table

variable {κ α : Type} [DecidableEq κ]

/-- The value stored under a key. -/
def get? (key : κ) : Table κ α → Option α
  | [] => none
  | (k, v) :: rest => if k = key then some v else get? key rest

/-- Whether a key is present. -/
def has (key : κ) (t : Table κ α) : Bool :=
  (get? key t).isSome

/-- Store a value under a key; a present key keeps its place. -/
def set (key : κ) (value : α) : Table κ α → Table κ α
  | [] => [(key, value)]
  | (k, v) :: rest => if k = key then (k, value) :: rest else (k, v) :: set key value rest

/-- Drop a key and its value. -/
def erase (key : κ) : Table κ α → Table κ α
  | [] => []
  | (k, v) :: rest => if k = key then rest else (k, v) :: erase key rest

/-- Store a value only when the key is absent. -/
def setNew (key : κ) (value : α) (t : Table κ α) : Table κ α :=
  if has key t then t else set key value t

/-- Change the value of a present key; an absent key stays absent. -/
def modify (key : κ) (f : α → α) : Table κ α → Table κ α
  | [] => []
  | (k, v) :: rest => if k = key then (k, f v) :: rest else (k, v) :: modify key f rest

omit [DecidableEq κ] in
/-- The keys, in order. -/
def keys (t : Table κ α) : List κ := t.map Prod.fst

omit [DecidableEq κ] in
/-- The values, in order. -/
def values (t : Table κ α) : List α := t.map Prod.snd

/-- A later entry overrides an earlier one with the same key, in the earlier one's place. -/
def ofEntries (entries : List (κ × α)) : Table κ α :=
  entries.foldl (fun t e => set e.1 e.2 t) []

@[simp] theorem get?_nil (key : κ) : get? key ([] : Table κ α) = none := rfl

theorem get?_set_self (key : κ) (value : α) (t : Table κ α) :
    get? key (set key value t) = some value := by
  induction t with
  | nil => simp [set, get?]
  | cons e rest ih => by_cases h : e.1 = key <;> simp [set, get?, h, ih]

theorem get?_set_of_ne {key other : κ} (h : other ≠ key) (value : α) (t : Table κ α) :
    get? other (set key value t) = get? other t := by
  induction t with
  | nil => simp [set, get?, Ne.symm h]
  | cons e rest ih =>
    by_cases he : e.1 = key
    · have : e.1 ≠ other := fun h' => h (h'.symm.trans he)
      simp [set, get?, he, Ne.symm h]
    · by_cases ho : e.1 = other
      · subst ho
        simp [set, get?, he]
      · simp [set, get?, he, ho, ih]

theorem get?_erase_of_ne {key other : κ} (h : other ≠ key) (t : Table κ α) :
    get? other (erase key t) = get? other t := by
  induction t with
  | nil => rfl
  | cons e rest ih =>
    by_cases he : e.1 = key
    · simp [erase, get?, he, Ne.symm h]
    · by_cases ho : e.1 = other
      · subst ho
        simp [erase, get?, he]
      · simp [erase, get?, he, ho, ih]

theorem get?_eq_none_iff {key : κ} {t : Table κ α} : get? key t = none ↔ key ∉ keys t := by
  induction t with
  | nil => simp [keys]
  | cons e rest ih =>
    by_cases he : e.1 = key
    · simp [get?, keys, he]
    · have : key ≠ e.1 := fun h => he h.symm
      simp [get?, keys, he, this] at ih ⊢
      exact ih

theorem get?_erase_self {key : κ} {t : Table κ α} (h : (keys t).Nodup) :
    get? key (erase key t) = none := by
  induction t with
  | nil => rfl
  | cons e rest ih =>
    have hn : e.1 ∉ keys rest ∧ (keys rest).Nodup := List.nodup_cons.1 h
    by_cases he : e.1 = key
    · subst he
      simpa [erase] using get?_eq_none_iff.2 hn.1
    · simp [erase, get?, he, ih hn.2]

theorem keys_set (key : κ) (value : α) (t : Table κ α) :
    keys (set key value t) = if key ∈ keys t then keys t else keys t ++ [key] := by
  induction t with
  | nil => simp [set, keys]
  | cons e rest ih =>
    by_cases he : e.1 = key
    · simp [set, keys, he]
    · have hne : key ≠ e.1 := fun h => he h.symm
      simp only [keys] at ih
      by_cases hm : key ∈ List.map Prod.fst rest <;> simp_all [set, keys]

end Table

end Rollout
