import Rollout.Buildstate.Document
import Rollout.Proofs.Json.Alike

/-!
# Stored values

Whatever a value holds, what is stored for it is a JSON document: text keys, each once, no calendar
values and no numbers that are not finite. Values of this kind are stored as they are.

**Types.** `Value.IsFinite`, `Value.IsStrict`.

**Results.**
* `Value.isStrict_stored`: what is stored is a JSON document with finite numbers;
* `Value.stored_eq`: such documents are stored as they are;
* `Value.IsStrict.alike_reread`: and read again up to the order of entries;
* `Value.reread_map`, `Value.reread_object`: what is read again for mappings with different texts.
-/

namespace Rollout

namespace Value

mutual

/-- All numbers are finite, at every depth. -/
def IsFinite : Value → Prop
  | .float x => x.isFinite = true
  | .list items => AreFinite items
  | .map entries => EntriesFinite entries
  | _ => True

/-- All numbers in the items are finite. -/
def AreFinite : List Value → Prop
  | [] => True
  | v :: rest => v.IsFinite ∧ AreFinite rest

/-- All numbers in the values of the entries are finite. -/
def EntriesFinite : List (Key × Value) → Prop
  | [] => True
  | (_, v) :: rest => v.IsFinite ∧ EntriesFinite rest

end

theorem isFinite_list {items : List Value} :
    (Value.list items).IsFinite ↔ ∀ v ∈ items, v.IsFinite := by
  rw [IsFinite]
  induction items with
  | nil => simp [AreFinite]
  | cons v rest ih => simp [AreFinite, ih]

theorem isFinite_map {entries : Entries} :
    (Value.map entries).IsFinite ↔ ∀ e ∈ entries, e.2.IsFinite := by
  rw [IsFinite]
  induction entries with
  | nil => simp [EntriesFinite]
  | cons e rest ih => simp [EntriesFinite, ih]

/-- A JSON document with finite numbers only. -/
structure IsStrict (v : Value) : Prop extends IsJson v where
  finite : v.IsFinite

theorem isStrict_list {items : List Value} :
    (Value.list items).IsStrict ↔ ∀ v ∈ items, v.IsStrict := by
  constructor
  · rintro ⟨hj, hf⟩ v hv
    exact ⟨isJson_list.mp hj v hv, isFinite_list.mp hf v hv⟩
  · intro h
    exact ⟨isJson_list.mpr fun v hv => (h v hv).toIsJson,
      isFinite_list.mpr fun v hv => (h v hv).finite⟩

theorem isStrict_map {entries : Entries} : (Value.map entries).IsStrict ↔
    (entries.map Prod.fst).Nodup ∧ ∀ e ∈ entries, (∃ s, e.1 = .text s) ∧ e.2.IsStrict := by
  constructor
  · rintro ⟨hj, hf⟩
    obtain ⟨hn, h⟩ := isJson_map.mp hj
    exact ⟨hn, fun e he => ⟨(h e he).1, (h e he).2, isFinite_map.mp hf e he⟩⟩
  · rintro ⟨hn, h⟩
    exact ⟨isJson_map.mpr ⟨hn, fun e he => ⟨(h e he).1, (h e he).2.toIsJson⟩⟩,
      isFinite_map.mpr fun e he => (h e he).2.finite⟩

/-! ### What is stored -/

theorem storedAll_eq (items : List Value) : storedAll items = items.map stored := by
  induction items with
  | nil => rfl
  | cons v rest ih => rw [storedAll, ih, List.map_cons]

/-- The entries that are stored have text keys, and what the stored values have in common. -/
theorem forall_storedEntries {P : Value → Prop} {done : Entries}
    (hdone : ∀ e ∈ done, (∃ s, e.1 = .text s) ∧ P e.2) {rest : Entries}
    (hrest : ∀ e ∈ rest, P e.2.stored) :
    ∀ e ∈ storedEntries done rest, (∃ s, e.1 = .text s) ∧ P e.2 := by
  induction rest generalizing done with
  | nil => exact hdone
  | cons e rest ih =>
    rw [storedEntries]
    exact ih (Entries.forall_set hdone _ (hrest e List.mem_cons_self))
      fun e he => hrest e (List.mem_cons_of_mem _ he)

/-- A write of a JSON document under a text key. -/
theorem IsStrict.set {entries : Entries} (h : (Value.map entries).IsStrict) (key : String) {v : Value}
    (hv : v.IsStrict) : (Value.map (Entries.set key v entries)).IsStrict := by
  obtain ⟨hn, he⟩ := isStrict_map.mp h
  exact isStrict_map.mpr ⟨Entries.nodup_set (fun e hm => (he e hm).1) hn key v,
    Entries.forall_set he key hv⟩

/-- **What is stored** is a JSON document with finite numbers only. -/
theorem isStrict_stored (v : Value) : v.stored.IsStrict := by
  have hleaf {v : Value} (hp : v.IsPlain) (hd : v.Distinct) (hf : v.IsFinite) : v.IsStrict :=
    ⟨⟨hp, hd⟩, hf⟩
  induction v using rises with
  | float x =>
    rw [stored]
    split
    · rename_i hx
      exact hleaf trivial trivial hx
    · exact hleaf trivial trivial trivial
  | list items ih =>
    rw [stored, storedAll_eq, isStrict_list, List.forall_mem_map]
    exact ih
  | map entries ih =>
    rw [stored]
    have hentries (done : Entries) (hdone : (Value.map done).IsStrict) (rest : Entries)
        (hrest : ∀ e ∈ rest, e.2.stored.IsStrict) :
        (Value.map (storedEntries done rest)).IsStrict := by
      induction rest generalizing done with
      | nil => exact hdone
      | cons e rest ih =>
        rw [storedEntries]
        exact ih _ (hdone.set _ (hrest e List.mem_cons_self))
          fun e he => hrest e (List.mem_cons_of_mem _ he)
    exact hentries [] (hleaf trivial ⟨List.nodup_nil, trivial⟩ trivial) entries ih
  | _ => exact hleaf trivial trivial trivial

/-- How mappings are stored whose keys have different texts. -/
theorem stored_map_of_nodup {entries : Entries} (hn : (entries.map fun e => e.1.stored).Nodup) :
    (Value.map entries).stored = .map (entries.map fun e => (.text e.1.stored, e.2.stored)) := by
  have hentries (done rest : Entries) (hdone : ∀ e ∈ done, ∃ s, e.1 = .text s)
      (hn : (done.map Prod.fst ++ rest.map fun e => Key.text e.1.stored).Nodup) :
      storedEntries done rest = done ++ rest.map fun e => (.text e.1.stored, e.2.stored) := by
    induction rest generalizing done with
    | nil => simp [storedEntries]
    | cons e rest ih =>
      have habsent : Key.text e.1.stored ∉ done.map Prod.fst := by
        intro hm
        rw [List.nodup_append] at hn
        exact hn.2.2 _ hm _ List.mem_cons_self rfl
      obtain ⟨k, v⟩ := e
      rw [storedEntries, Entries.set_absent hdone habsent,
        ih (done ++ [(.text k.stored, v.stored)]) (List.forall_mem_append.mpr ⟨hdone, by simp⟩)
          (by simpa using hn)]
      simp
  have htexts : (entries.map fun e => Key.text e.1.stored).Nodup := by
    have hmap := hn.map fun (a b : String) (h : Key.text a = Key.text b) => Key.text.inj h
    rwa [List.map_map] at hmap
  rw [stored, hentries [] entries (by simp) htexts, List.nil_append]

/-- How mappings with different text keys are stored. -/
theorem stored_map {entries : Entries} (ht : ∀ e ∈ entries, ∃ s, e.1 = .text s)
    (hn : (entries.map Prod.fst).Nodup) :
    (Value.map entries).stored = .map (entries.map fun e => (e.1, e.2.stored)) := by
  have hkey : ∀ e ∈ entries, Key.text e.1.stored = e.1 := by
    intro e he
    obtain ⟨s, hs⟩ := ht e he
    rw [hs, Key.stored]
  have hnodup : (entries.map fun e => e.1.stored).Nodup := by
    refine List.Nodup.of_map Key.text ?_
    rw [List.map_map]
    exact (List.map_congr_left hkey).symm ▸ hn
  rw [stored_map_of_nodup hnodup, List.map_congr_left fun e he => by rw [hkey e he]]

/-- **JSON documents with finite numbers** are stored as they are. -/
theorem stored_eq {v : Value} (h : v.IsStrict) : v.stored = v := by
  induction v using rises with
  | float x =>
    have hx : x.isFinite = true := h.finite
    rw [stored, if_pos hx]
  | list items ih =>
    rw [isStrict_list] at h
    rw [stored, storedAll_eq, List.map_congr_left fun v hv => ih v hv (h v hv), List.map_id']
  | map entries ih =>
    obtain ⟨hn, he⟩ := isStrict_map.mp h
    rw [stored_map (fun e hm => (he e hm).1) hn,
      List.map_congr_left fun e hm => by rw [ih e hm (he e hm).2], List.map_id']
  | date d => exact h.plain.elim
  | timestamp t => exact h.plain.elim
  | _ => rfl

/-- The value that is read again for a value that has been stored. -/
def reread (v : Value) : Value := v.stored.canonical

/-- **A JSON document with finite numbers** is read again up to the order of entries. -/
theorem IsStrict.alike_reread {v : Value} (h : v.IsStrict) : v.Alike v.reread := by
  rw [Alike, reread, stored_eq h, canonical_canonical]

/-- What is read again for a mapping with different text keys. -/
theorem reread_map {entries : Entries} (ht : ∀ e ∈ entries, ∃ s, e.1 = .text s)
    (hn : (entries.map Prod.fst).Nodup) : (Value.map entries).reread =
      .map (Json.sorted (entries.map fun e => (e.1, e.2.reread))) := by
  rw [reread, stored_map ht hn, canonical_map, ← Json.sorted_map, List.map_map]
  rfl

/-- **The entry of a name** in what is read again. -/
theorem get?_of_reread {outputs entries : Entries} (ht : ∀ e ∈ outputs, ∃ s, e.1 = .text s)
    (hn : (outputs.map Prod.fst).Nodup) (h : Value.map entries = (Value.map outputs).reread)
    (name : String) : Entries.get? (.text name) entries =
      (Entries.get? (.text name) outputs).map reread := by
  have htexts : ∀ e ∈ outputs.map (fun e => (e.1, e.2.reread)), ∃ s, e.1 = .text s :=
    List.forall_mem_map.mpr ht
  rw [reread_map ht hn] at h
  obtain rfl := Value.map.inj h
  rw [get?_sorted htexts, get?_mapValues]

/-- **What is read again for an object** with different names. -/
theorem reread_object {fields : List (String × Value)} (hn : (fields.map Prod.fst).Nodup) :
    (Value.object fields).reread =
      .map (Json.sorted (fields.map fun e => (Key.text e.1, e.2.reread))) := by
  have hkeys : ((fields.map fun e => (Key.text e.1, e.2)).map Prod.fst).Nodup := by
    rw [List.map_map]
    have := hn.map fun (a b : String) (h : Key.text a = Key.text b) => Key.text.inj h
    rwa [List.map_map] at this
  rw [object, reread_map (List.forall_mem_map.mpr fun e _ => ⟨e.1, rfl⟩) hkeys, List.map_map]
  rfl

end Value

end Rollout
