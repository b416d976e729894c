import Mathlib.Data.List.Basic
import Mathlib.Data.List.Induction
import Rollout.Table

/-!
# Reading tables after changes

Companions of the equations beside the definition of tables: what a table says after one value has
been changed or one key dropped, and how reading relates to membership when no key occurs twice.

**Results.**
* `get?_modify`: a change reaches the value under its own key only;
* `get?_setNew`, `keys_setNew`: a table that has been given a key unless it was there;
* `keys_modify`, `keys_erase`: the keys after a change and after a removal;
* `erase_of_get?_eq_none`: the removal of what is not there;
* `set_of_get?`, `set_set`, `erase_set_of_get?_eq_none`: a value that is written again, one that is
  replaced, and a key that is dropped again;
* `get?_eq_some_iff`: with keys that are all different, reading is membership;
* `get?_map_keys`, `set_map_keys`: tables that give every key a value of its own;
* `perm_flatMap_filter`: what a list holds under some keys;
* `get?_ofEntries_iff`, `ofEntries_eq_iff`: the table that is made of entries keeps the last value
  under each key, and all entries exactly if their keys are different;
* `get?_map_key`, `modify_map_snd`, `set_map_snd`, `erase_map_snd`: what becomes of reading and of
  every change when all values are replaced.
-/

namespace Rollout.Table

variable {κ α : Type} [DecidableEq κ]

/-- A change reaches the value under its own key only. -/
theorem get?_modify (key other : κ) (f : α → α) (t : Table κ α) :
    get? other (modify key f t) = if other = key then (get? other t).map f else get? other t := by
  induction t with
  | nil => simp [modify]
  | cons e rest ih =>
    by_cases he : e.1 = key
    · by_cases ho : other = key
      · subst ho
        simp [modify, get?, he]
      · simp [modify, get?, he, ho, Ne.symm ho]
    · by_cases ho : e.1 = other
      · have hne : other ≠ key := fun h => he (ho.trans h)
        simp [modify, get?, ho, hne]
      · simpa [modify, get?, he, ho] using ih

/-- A key that has been given a value keeps the one that it had. -/
theorem get?_setNew (key other : κ) (value : α) (t : Table κ α) :
    get? other (setNew key value t) =
      if other = key then some ((get? key t).getD value) else get? other t := by
  unfold setNew has
  by_cases ho : other = key
  · subst ho
    cases hv : get? other t with
    | some v => simp [hv]
    | none => simp [get?_set_self]
  · rw [if_neg ho]
    split
    · rfl
    · exact get?_set_of_ne ho value t

/-- A key that has been given a value is the last one unless it was there. -/
theorem keys_setNew (key : κ) (value : α) (t : Table κ α) :
    keys (setNew key value t) = if key ∈ keys t then keys t else keys t ++ [key] := by
  unfold setNew has
  by_cases hm : key ∈ keys t
  · have hsome : get? key t ≠ none := fun h => get?_eq_none_iff.mp h hm
    rw [if_pos (Option.isSome_iff_ne_none.mpr hsome), if_pos hm]
  · rw [get?_eq_none_iff.mpr hm, if_neg (by simp), keys_set, if_neg hm]

private theorem nodup_addKey {key : κ} {ks : List κ} (h : ks.Nodup) :
    (if key ∈ ks then ks else ks ++ [key]).Nodup := by
  split
  · exact h
  · rename_i hm
    exact List.nodup_append.mpr ⟨h, List.pairwise_singleton _ _, by
      rintro a ha b hb rfl
      exact hm (List.mem_singleton.mp hb ▸ ha)⟩

theorem has_iff {key : κ} {t : Table κ α} : has key t = true ↔ key ∈ keys t := by
  rw [has, Option.isSome_iff_ne_none, ne_eq, get?_eq_none_iff, not_not]

theorem mem_keys_set {key other : κ} {value : α} {t : Table κ α} :
    other ∈ keys (set key value t) ↔ other = key ∨ other ∈ keys t := by
  rw [keys_set]
  split
  · rename_i hm
    exact (or_iff_right_of_imp fun h => h ▸ hm).symm
  · rw [List.mem_append, List.mem_singleton, or_comm]

/-- A write leaves the keys different. -/
theorem nodup_keys_set {key : κ} {value : α} {t : Table κ α} (h : (keys t).Nodup) :
    (keys (set key value t)).Nodup := by
  rw [keys_set]
  exact nodup_addKey h

/-- A key that is given a value leaves the keys different. -/
theorem nodup_keys_setNew {key : κ} {value : α} {t : Table κ α} (h : (keys t).Nodup) :
    (keys (setNew key value t)).Nodup := by
  rw [keys_setNew]
  exact nodup_addKey h

/-- A change of a value keeps the keys. -/
@[simp] theorem keys_modify (key : κ) (f : α → α) (t : Table κ α) :
    keys (modify key f t) = keys t := by
  induction t with
  | nil => rfl
  | cons e rest ih =>
    simp only [keys] at ih
    by_cases he : e.1 = key <;> simp [modify, keys, he, ih]

/-- Two changes under one key are one change. -/
theorem modify_modify (key : κ) (f g : α → α) (t : Table κ α) :
    modify key g (modify key f t) = modify key (g ∘ f) t := by
  induction t with
  | nil => rfl
  | cons e rest ih =>
    by_cases he : e.1 = key
    · simp [modify, he]
    · simp [modify, he, ih]

/-- The keys that are left when one has been dropped. -/
theorem keys_erase (key : κ) (t : Table κ α) : keys (erase key t) = (keys t).erase key := by
  induction t with
  | nil => rfl
  | cons e rest ih =>
    simp only [keys] at ih
    by_cases he : e.1 = key
    · simp [erase, keys, he]
    · simp [erase, keys, he, ih]

/-- There is nothing to remove under an absent key. -/
theorem erase_of_get?_eq_none {key : κ} {t : Table κ α} (h : get? key t = none) :
    erase key t = t := by
  induction t with
  | nil => rfl
  | cons e rest ih =>
    by_cases he : e.1 = key
    · simp [get?, he] at h
    · rw [get?, if_neg he] at h
      rw [erase, if_neg he, ih h]

/-- Writing what is there changes nothing. -/
theorem set_of_get? {key : κ} {value : α} {t : Table κ α} (h : get? key t = some value) :
    set key value t = t := by
  induction t with
  | nil => cases h
  | cons e rest ih =>
    obtain ⟨k, v⟩ := e
    rw [get?] at h
    rw [set]
    split at h
    · rename_i hk
      rw [if_pos hk, Option.some.inj h]
    · rename_i hk
      rw [if_neg hk, ih h]

/-- The later one of two writes under one key counts. -/
theorem set_set (key : κ) (value other : α) (t : Table κ α) :
    set key value (set key other t) = set key value t := by
  induction t with
  | nil => simp [set]
  | cons e rest ih => by_cases he : e.1 = key <;> simp [set, he, ih]

/-- A key that was not there is dropped again. -/
theorem erase_set_of_get?_eq_none {key : κ} {t : Table κ α} (h : get? key t = none) (value : α) :
    erase key (set key value t) = t := by
  induction t with
  | nil => simp [set, erase]
  | cons e rest ih =>
    by_cases he : e.1 = key
    · simp [get?, he] at h
    · rw [get?, if_neg he] at h
      simp [set, erase, he, ih h]

/-- What is read after a removal is read before, under another key. -/
theorem get?_of_get?_erase {key other : κ} {value : α} {t : Table κ α} (hn : (keys t).Nodup)
    (h : get? other (erase key t) = some value) : other ≠ key ∧ get? other t = some value := by
  have hne : other ≠ key := by
    rintro rfl
    rw [get?_erase_self hn] at h
    cases h
  rw [get?_erase_of_ne hne] at h
  exact ⟨hne, h⟩

/-- What is read under a key is an entry of the table. -/
theorem mem_of_get? {key : κ} {value : α} {t : Table κ α} (h : get? key t = some value) :
    (key, value) ∈ t := by
  induction t with
  | nil => cases h
  | cons e rest ih =>
    by_cases he : e.1 = key
    · have hv : e.2 = value := by simpa [get?, he] using h
      exact List.mem_cons.mpr (Or.inl (by rw [← he, ← hv]))
    · exact List.mem_cons_of_mem _ (ih (by simpa [get?, he] using h))

/-- With keys that are all different, reading is membership. -/
theorem get?_eq_some_iff {key : κ} {value : α} {t : Table κ α} (hn : (keys t).Nodup) :
    get? key t = some value ↔ (key, value) ∈ t := by
  refine ⟨mem_of_get?, ?_⟩
  intro hm
  induction t with
  | nil => cases hm
  | cons e rest ih =>
    have hne : e.1 ∉ keys rest ∧ (keys rest).Nodup := List.nodup_cons.mp hn
    rcases List.mem_cons.mp hm with rfl | hm
    · simp [get?]
    · have hk : e.1 ≠ key := fun h => hne.1 (h ▸ List.mem_map_of_mem (f := Prod.fst) hm)
      simpa [get?, hk] using ih hne.2 hm

/-- A key of a table leads to a value. -/
theorem exists_get?_of_mem {key : κ} {t : Table κ α} (h : key ∈ keys t) :
    ∃ value, get? key t = some value := by
  cases hv : get? key t with
  | none => exact absurd h (get?_eq_none_iff.mp hv)
  | some value => exact ⟨value, rfl⟩

/-- An entry of a table after a write is the written one, or was there before. -/
theorem mem_of_mem_set {key : κ} {value : α} {t : Table κ α}
    {e : κ × α} (h : e ∈ set key value t) : e = (key, value) ∨ e ∈ t := by
  induction t with
  | nil => exact Or.inl (List.mem_singleton.mp h)
  | cons x rest ih =>
    rw [set] at h
    split at h
    · rename_i hkey
      rcases List.mem_cons.mp h with rfl | h
      · exact Or.inl (by rw [hkey])
      · exact Or.inr (List.mem_cons_of_mem _ h)
    · rcases List.mem_cons.mp h with rfl | h
      · exact Or.inr List.mem_cons_self
      · exact (ih h).imp_right (List.mem_cons_of_mem _)

/-- Values that tell their own keys are found by them. -/
theorem find?_values {p : α → Bool} {key : κ} {t : Table κ α}
    (h : ∀ e ∈ t, p e.2 = decide (e.1 = key)) : (values t).find? p = get? key t := by
  induction t with
  | nil => rfl
  | cons e rest ih =>
    obtain ⟨k, v⟩ := e
    have hp : p v = decide (k = key) := h _ List.mem_cons_self
    have hrest := ih fun e he => h e (List.mem_cons_of_mem _ he)
    rw [values, List.map_cons, List.find?_cons, get?, hp, ← hrest]
    by_cases hk : k = key <;> simp [hk, values]

/-- Reading after the entries under some keys have been dropped. -/
theorem get?_filter (f : κ → Bool) (key : κ) (t : Table κ α) :
    get? key (t.filter fun e => f e.1) = if f key then get? key t else none := by
  induction t with
  | nil => simp
  | cons e rest ih =>
    obtain ⟨k, v⟩ := e
    by_cases hk : k = key
    · subst hk
      cases hf : f k <;> simp [get?, hf, ih]
    · cases hf : f k <;> simp [get?, hf, hk, ih]

/-! ### Tables that give every key a value of its own -/

omit [DecidableEq κ] in
@[simp] theorem keys_map_keys (f : κ → α) (names : List κ) :
    keys (names.map fun k => (k, f k)) = names := by
  rw [keys, List.map_map]
  exact List.map_id' _

theorem get?_map_keys (f : κ → α) (key : κ) (names : List κ) :
    get? key (names.map fun k => (k, f k)) = if key ∈ names then some (f key) else none := by
  induction names with
  | nil => simp
  | cons k rest ih =>
    by_cases hk : k = key
    · simp [get?, hk]
    · simp [get?, hk, Ne.symm hk, ih]

/-- A write changes the value of its own key. -/
theorem set_map_keys {names : List κ} (hn : names.Nodup) {key : κ} (h : key ∈ names) (f : κ → α)
    (value : α) : set key value (names.map fun k => (k, f k)) =
      names.map fun k => (k, if k = key then value else f k) := by
  induction names with
  | nil => cases h
  | cons k rest ih =>
    obtain ⟨hnew, hrest⟩ := List.nodup_cons.mp hn
    rw [List.map_cons, List.map_cons, set]
    by_cases hk : k = key
    · subst hk
      rw [if_pos rfl, if_pos rfl]
      congr 1
      refine List.map_congr_left fun j hj => ?_
      have hne : j ≠ k := fun heq => hnew (heq ▸ hj)
      rw [if_neg hne]
    · rw [if_neg hk, if_neg hk, ih hrest ((List.mem_cons.mp h).resolve_left (Ne.symm hk))]

/-- What a list holds under some keys can be gathered key by key. -/
theorem perm_flatMap_filter {β : Type} {key : α → Option κ}
    {f : α → Option β} {keys : List κ} (hk : keys.Nodup) {l : List α}
    (h : ∀ a ∈ l, (f a).isSome → ∃ k ∈ keys, key a = some k) :
    (l.filterMap f).Perm (keys.flatMap fun k => (l.filter fun a => key a = some k).filterMap f) := by
  induction keys generalizing l with
  | nil =>
    have hnone : l.filterMap f = [] := List.filterMap_eq_nil_iff.mpr fun a ha => by
      by_contra hne
      obtain ⟨k, hk, -⟩ := h a ha (Option.isSome_iff_ne_none.mpr hne)
      cases hk
    rw [hnone, List.flatMap_nil]
  | cons k keys ih =>
    obtain ⟨hnot, hnodup⟩ := List.nodup_cons.mp hk
    have hrest : ∀ a ∈ l.filter fun a => !decide (key a = some k), (f a).isSome →
        ∃ k' ∈ keys, key a = some k' := by
      intro a ha hf
      obtain ⟨hal, hne⟩ := List.mem_filter.mp ha
      obtain ⟨k', hk', hkey⟩ := h a hal hf
      rcases List.mem_cons.mp hk' with rfl | hk'
      · simp [hkey] at hne
      · exact ⟨k', hk', hkey⟩
    have hsame : (keys.flatMap fun k' => ((l.filter fun a => !decide (key a = some k)).filter
        fun a => key a = some k').filterMap f) =
        keys.flatMap fun k' => (l.filter fun a => key a = some k').filterMap f := by
      refine List.flatMap_congr fun k' hk' => ?_
      rw [List.filter_filter]
      refine congrArg _ (List.filter_congr fun a _ => ?_)
      have hne : k' ≠ k := fun heq => hnot (heq ▸ hk')
      by_cases hkey : key a = some k' <;> simp [hkey, hne]
    have hsplit := (List.filter_append_perm (fun a => decide (key a = some k)) l).symm.filterMap f
    rw [List.filterMap_append] at hsplit
    rw [List.flatMap_cons, ← hsame]
    exact hsplit.trans ((ih hnodup hrest).append_left _)

/-! ### Tables that are made of entries -/

/-- A new key goes to the end. -/
theorem set_of_not_mem {key : κ} {t : Table κ α} (h : key ∉ keys t) (value : α) :
    set key value t = t ++ [(key, value)] := by
  induction t with
  | nil => rfl
  | cons e rest ih =>
    rw [keys, List.map_cons, List.mem_cons, not_or] at h
    rw [set, if_neg (Ne.symm h.1), ih h.2, List.cons_append]

theorem ofEntries_concat (entries : List (κ × α)) (e : κ × α) :
    ofEntries (entries ++ [e]) = set e.1 e.2 (ofEntries entries) := by
  rw [ofEntries, List.foldl_append]
  rfl

/-- The keys of a table that is made of entries are different. -/
theorem nodup_keys_ofEntries (entries : List (κ × α)) : (keys (ofEntries entries)).Nodup := by
  induction entries using List.reverseRecOn with
  | nil => exact List.nodup_nil
  | append_singleton entries e ih =>
    rw [ofEntries_concat]
    exact nodup_keys_set ih

/-- Entries are the table that is made of them exactly if their keys are different. -/
theorem ofEntries_eq_iff {entries : List (κ × α)} :
    ofEntries entries = entries ↔ (keys entries).Nodup := by
  constructor
  · intro h
    rw [← h]
    exact nodup_keys_ofEntries entries
  · intro h
    induction entries using List.reverseRecOn with
    | nil => rfl
    | append_singleton entries e ih =>
      rw [keys, List.map_append, List.nodup_append] at h
      obtain ⟨hnodup, -, hdisjoint⟩ := h
      have hnew : e.1 ∉ keys entries := fun hm => hdisjoint e.1 hm e.1 (by simp) rfl
      rw [ofEntries_concat, ih hnodup, set_of_not_mem hnew]

/-- An element of a list is its last one, or stands in front of that. -/
private theorem concat_eq_append_cons {β : Type} {l before after : List β} {last x : β}
    (h : l ++ [last] = before ++ x :: after) :
    (x = last ∧ after = []) ∨ ∃ rest, after = rest ++ [last] ∧ l = before ++ x :: rest := by
  obtain rfl | ⟨rest, y, rfl⟩ := after.eq_nil_or_concat
  · obtain ⟨-, hlast⟩ := List.append_inj' h rfl
    exact Or.inl ⟨(List.head_eq_of_cons_eq hlast).symm, rfl⟩
  · rw [List.concat_eq_append] at h ⊢
    rw [← List.cons_append, ← List.append_assoc] at h
    obtain ⟨hfront, hlast⟩ := List.append_inj' h rfl
    obtain rfl := List.head_eq_of_cons_eq hlast
    exact Or.inr ⟨rest, rfl, hfront⟩

/-- A table that is made of entries has the last value under a key. -/
theorem get?_ofEntries_iff {entries : List (κ × α)} {key : κ} {value : α} :
    get? key (ofEntries entries) = some value ↔
      ∃ before after, entries = before ++ (key, value) :: after ∧ key ∉ keys after := by
  induction entries using List.reverseRecOn with
  | nil => simp [ofEntries]
  | append_singleton entries e ih =>
    rw [ofEntries_concat]
    by_cases hkey : key = e.1
    · subst hkey
      rw [get?_set_self, Option.some.injEq]
      constructor
      · rintro rfl
        exact ⟨entries, [], rfl, by simp [keys]⟩
      · rintro ⟨before, after, hsplit, hnot⟩
        obtain ⟨hlast, -⟩ | ⟨rest, rfl, -⟩ := concat_eq_append_cons hsplit
        · exact (congrArg Prod.snd hlast).symm
        · simp [keys] at hnot
    · rw [get?_set_of_ne hkey, ih]
      constructor
      · rintro ⟨before, after, rfl, hnot⟩
        exact ⟨before, after ++ [e], by simp, by simpa [keys, hkey] using hnot⟩
      · rintro ⟨before, after, hsplit, hnot⟩
        obtain ⟨rfl, -⟩ | ⟨rest, rfl, rfl⟩ := concat_eq_append_cons hsplit
        · exact absurd rfl hkey
        · refine ⟨before, rest, rfl, fun hm => hnot ?_⟩
          rw [keys, List.map_append]
          exact List.mem_append_left _ hm

/-! ### Values that are replaced throughout -/

variable {β : Type}

theorem get?_map_key (f : κ → α → β) (key : κ) (t : Table κ α) :
    get? key (t.map fun e => (e.1, f e.1 e.2)) = (get? key t).map (f key) := by
  induction t with
  | nil => rfl
  | cons e rest ih =>
    rw [List.map_cons, get?, get?, ih]
    split
    · rename_i heq
      rw [heq]
      rfl
    · rfl

theorem get?_map_snd (f : α → β) (key : κ) (t : Table κ α) :
    get? key (t.map fun e => (e.1, f e.2)) = (get? key t).map f :=
  get?_map_key (fun _ => f) key t

theorem modify_map_snd {f : α → β} {g : α → α} {g' : β → β} (h : ∀ a, f (g a) = g' (f a))
    (key : κ) (t : Table κ α) : (modify key g t).map (fun e => (e.1, f e.2)) =
      modify key g' (t.map fun e => (e.1, f e.2)) := by
  induction t with
  | nil => rfl
  | cons e rest ih =>
    rw [List.map_cons, modify, modify]
    split
    · rw [List.map_cons, h]
    · rw [List.map_cons, ih]

theorem set_map_snd (f : α → β) (key : κ) (value : α) (t : Table κ α) :
    (set key value t).map (fun e => (e.1, f e.2)) =
      set key (f value) (t.map fun e => (e.1, f e.2)) := by
  induction t with
  | nil => rfl
  | cons e rest ih =>
    rw [List.map_cons, set, set]
    split
    · rw [List.map_cons]
    · rw [List.map_cons, ih]

theorem erase_map_snd (f : α → β) (key : κ) (t : Table κ α) :
    (erase key t).map (fun e => (e.1, f e.2)) = erase key (t.map fun e => (e.1, f e.2)) := by
  induction t with
  | nil => rfl
  | cons e rest ih =>
    rw [List.map_cons, erase, erase]
    split
    · rfl
    · rw [List.map_cons, ih]

end Rollout.Table
