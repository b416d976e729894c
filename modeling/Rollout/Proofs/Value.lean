import Rollout.Text.Digest

/-!
# Values with text keys

Mappings with text keys only, at every depth, can be sorted and written as JSON.

**Types.** `Value.Keyed`, `Value.Distinct`, `Value.IsJson`, `Value.Hereditary`.

**Results.** `exists_write`, `exists_fingerprint`: values with text keys can be written, and have a
fingerprint.
-/

namespace Rollout

/-- What is found under a key stands in an entry. -/
theorem Entries.exists_mem_of_get? {entries : Entries} {key : Key} {v : Value}
    (h : get? key entries = some v) : ∃ e ∈ entries, e.2 = v := by
  induction entries with
  | nil => cases h
  | cons e rest ih =>
    rw [get?] at h
    split at h
    · exact ⟨e, List.mem_cons_self, Option.some.inj h⟩
    · obtain ⟨e', he', hv⟩ := ih h
      exact ⟨e', List.mem_cons_of_mem _ he', hv⟩

namespace Value

/-- Induction over values: lists by their items, mappings by the values of their entries. -/
theorem rises {P : Value → Prop} (null : P .null) (bool : ∀ b, P (.bool b))
    (int : ∀ i, P (.int i)) (float : ∀ x, P (.float x)) (text : ∀ s, P (.text s))
    (date : ∀ d, P (.date d)) (timestamp : ∀ t, P (.timestamp t))
    (list : ∀ items, (∀ v ∈ items, P v) → P (.list items))
    (map : ∀ entries, (∀ e ∈ entries, P e.2) → P (.map entries)) (v : Value) : P v := by
  refine @Value.rec P (fun items => ∀ v ∈ items, P v) (fun entries => ∀ e ∈ entries, P e.2)
    (fun e => P e.2) null bool int float text date timestamp list map ?_ ?_ ?_ ?_ ?_ v
  · simp
  · intro v rest hv hrest
    simpa using ⟨hv, hrest⟩
  · simp
  · intro e rest he hrest
    exact List.forall_mem_cons.mpr ⟨he, hrest⟩
  · intro k v hv
    exact hv

mutual

/-- All keys are texts, at every depth. -/
def Keyed : Value → Prop
  | .list items => AreKeyed items
  | .map entries => EntriesKeyed entries
  | _ => True

/-- All keys in the items are texts. -/
def AreKeyed : List Value → Prop
  | [] => True
  | v :: rest => v.Keyed ∧ AreKeyed rest

/-- All keys of the entries and in their values are texts. -/
def EntriesKeyed : List (Key × Value) → Prop
  | [] => True
  | (k, v) :: rest => (∃ s, k = .text s) ∧ v.Keyed ∧ EntriesKeyed rest

end

mutual

/-- No mapping has a key twice, at any depth. -/
def Distinct : Value → Prop
  | .list items => AreDistinct items
  | .map entries => (entries.map Prod.fst).Nodup ∧ EntriesDistinct entries
  | _ => True

/-- No mapping in the items has a key twice. -/
def AreDistinct : List Value → Prop
  | [] => True
  | v :: rest => v.Distinct ∧ AreDistinct rest

/-- No mapping in the values of the entries has a key twice. -/
def EntriesDistinct : List (Key × Value) → Prop
  | [] => True
  | (_, v) :: rest => v.Distinct ∧ EntriesDistinct rest

end

/-- A JSON document: text keys, each once in its mapping, and no calendar values. -/
structure IsJson (v : Value) : Prop where
  plain : v.IsPlain
  distinct : v.Distinct

@[simp] theorem keyed_list {items : List Value} :
    (Value.list items).Keyed ↔ ∀ v ∈ items, v.Keyed := by
  rw [Keyed]
  induction items with
  | nil => simp [AreKeyed]
  | cons v rest ih => simp [AreKeyed, ih]

@[simp] theorem keyed_map {entries : Entries} :
    (Value.map entries).Keyed ↔ ∀ e ∈ entries, (∃ s, e.1 = .text s) ∧ e.2.Keyed := by
  rw [Keyed]
  induction entries with
  | nil => simp [EntriesKeyed]
  | cons e rest ih => simp [EntriesKeyed, ih, and_assoc]

theorem isPlain_list {items : List Value} :
    (Value.list items).IsPlain ↔ ∀ v ∈ items, v.IsPlain := by
  rw [IsPlain]
  induction items with
  | nil => simp [ArePlain]
  | cons v rest ih => simp [ArePlain, ih]

theorem isPlain_map {entries : Entries} :
    (Value.map entries).IsPlain ↔ ∀ e ∈ entries, (∃ s, e.1 = .text s) ∧ e.2.IsPlain := by
  rw [IsPlain]
  induction entries with
  | nil => simp [EntriesPlain]
  | cons e rest ih => simp [EntriesPlain, ih, and_assoc]

theorem distinct_list {items : List Value} :
    (Value.list items).Distinct ↔ ∀ v ∈ items, v.Distinct := by
  rw [Distinct]
  induction items with
  | nil => simp [AreDistinct]
  | cons v rest ih => simp [AreDistinct, ih]

theorem distinct_map {entries : Entries} :
    (Value.map entries).Distinct ↔
      (entries.map Prod.fst).Nodup ∧ ∀ e ∈ entries, e.2.Distinct := by
  rw [Distinct]
  have hvalues : EntriesDistinct entries ↔ ∀ e ∈ entries, e.2.Distinct := by
    induction entries with
    | nil => simp [EntriesDistinct]
    | cons e rest ih => simp [EntriesDistinct, ih]
  rw [hvalues]

theorem isJson_list {items : List Value} :
    (Value.list items).IsJson ↔ ∀ v ∈ items, v.IsJson := by
  constructor
  · rintro ⟨hp, hd⟩ v hv
    exact ⟨isPlain_list.mp hp v hv, distinct_list.mp hd v hv⟩
  · intro h
    exact ⟨isPlain_list.mpr fun v hv => (h v hv).plain,
      distinct_list.mpr fun v hv => (h v hv).distinct⟩

theorem isJson_map {entries : Entries} : (Value.map entries).IsJson ↔
    (entries.map Prod.fst).Nodup ∧ ∀ e ∈ entries, (∃ s, e.1 = .text s) ∧ e.2.IsJson := by
  constructor
  · rintro ⟨hp, hd⟩
    rw [isPlain_map] at hp
    rw [distinct_map] at hd
    exact ⟨hd.1, fun e he => ⟨(hp e he).1, (hp e he).2, hd.2 e he⟩⟩
  · rintro ⟨hn, h⟩
    exact ⟨isPlain_map.mpr fun e he => ⟨(h e he).1, (h e he).2.plain⟩,
      distinct_map.mpr ⟨hn, fun e he => (h e he).2.distinct⟩⟩

/-- What is found under a key of a JSON document is one. -/
theorem IsJson.get? {entries : Entries} (h : (Value.map entries).IsJson) {key : Key} {v : Value}
    (hv : Entries.get? key entries = some v) : v.IsJson := by
  obtain ⟨e, he, rfl⟩ := Entries.exists_mem_of_get? hv
  exact ((isJson_map.mp h).2 e he).2

/-- JSON values have text keys. -/
theorem IsPlain.keyed {v : Value} (h : v.IsPlain) : v.Keyed := by
  induction v using rises with
  | list items ih =>
    rw [isPlain_list] at h
    exact keyed_list.mpr fun v hv => ih v hv (h v hv)
  | map entries ih =>
    rw [isPlain_map] at h
    exact keyed_map.mpr fun e he => ⟨(h e he).1, ih e he (h e he).2⟩
  | _ => trivial

/-! ### Properties of values and their parts -/

/-- A property that values share with their parts: lists have it by their items, and mappings by
their keys and by what stands under them. Texts have it, and as keys, too. -/
structure Hereditary (P : Value → Prop) (K : List Key → Prop) : Prop where
  null : P .null
  text : ∀ s, P (.text s)
  list : ∀ {items}, P (.list items) ↔ ∀ v ∈ items, P v
  map : ∀ {entries : Entries}, P (.map entries) ↔
    K (entries.map Prod.fst) ∧ ∀ e ∈ entries, P e.2
  keys : ∀ {keys : List Key}, (∀ k ∈ keys, ∃ s, k = .text s) → K keys

namespace Hereditary

variable {P : Value → Prop} {K : List Key → Prop}

theorem object (h : Hereditary P K) {entries : List (String × Value)} :
    P (.object entries) ↔ ∀ e ∈ entries, P e.2 := by
  have hkeys : K ((entries.map fun e => (Key.text e.1, e.2)).map Prod.fst) := by
    refine h.keys ?_
    rw [List.map_map, List.forall_mem_map]
    exact fun e _ => ⟨e.1, rfl⟩
  rw [Value.object, h.map, and_iff_right hkeys, List.forall_mem_map]

theorem ofText? (h : Hereditary P K) (text : Option String) : P (Value.ofText? text) := by
  cases text with
  | none => exact h.null
  | some s => exact h.text s

/-- What is found under a key has the property of the mapping. -/
theorem get? (h : Hereditary P K) {entries : Entries} (hm : P (.map entries)) {key : Key}
    {v : Value} (hv : Entries.get? key entries = some v) : P v := by
  obtain ⟨e, he, rfl⟩ := Entries.exists_mem_of_get? hv
  exact (h.map.mp hm).2 e he

end Hereditary

/-- A property that asks for texts as keys. -/
theorem hereditary_of_text {P : Value → Prop} (null : P .null) (text : ∀ s, P (.text s))
    (list : ∀ {items}, P (.list items) ↔ ∀ v ∈ items, P v)
    (map : ∀ {entries : Entries}, P (.map entries) ↔
      ∀ e ∈ entries, (∃ s, e.1 = .text s) ∧ P e.2) :
    Hereditary P fun keys => ∀ k ∈ keys, ∃ s, k = .text s := by
  refine ⟨null, text, list, ?_, id⟩
  intro entries
  rw [map, List.forall_mem_map]
  exact ⟨fun h => ⟨fun e he => (h e he).1, fun e he => (h e he).2⟩,
    fun h e he => ⟨h.1 e he, h.2 e he⟩⟩

theorem hereditary_keyed : Hereditary Keyed fun keys => ∀ k ∈ keys, ∃ s, k = .text s :=
  hereditary_of_text trivial (fun _ => trivial) keyed_list keyed_map

theorem hereditary_isPlain : Hereditary IsPlain fun keys => ∀ k ∈ keys, ∃ s, k = .text s :=
  hereditary_of_text trivial (fun _ => trivial) isPlain_list isPlain_map

@[simp] theorem keyed_object {entries : List (String × Value)} :
    (Value.object entries).Keyed ↔ ∀ e ∈ entries, e.2.Keyed :=
  hereditary_keyed.object

theorem isPlain_object {entries : List (String × Value)} :
    (Value.object entries).IsPlain ↔ ∀ e ∈ entries, e.2.IsPlain :=
  hereditary_isPlain.object

/-! ### Writing -/

theorem exists_mapM {ε α β : Type} {f : α → Except ε β} {items : List α}
    (h : ∀ a ∈ items, ∃ b, f a = .ok b) : ∃ written, items.mapM f = .ok written := by
  induction items with
  | nil => exact ⟨[], rfl⟩
  | cons a rest ih =>
    obtain ⟨b, hb⟩ := h a List.mem_cons_self
    obtain ⟨others, ho⟩ := ih fun a ha => h a (List.mem_cons_of_mem _ ha)
    exact ⟨b :: others, by rw [List.mapM_cons, hb, ho]; rfl⟩

theorem writeItems_eq (style : Json.Style) (items : List Value) :
    Json.writeItems style items = items.mapM (Json.write style) := by
  induction items with
  | nil => rfl
  | cons v rest ih => rw [Json.writeItems, List.mapM_cons, ih]

theorem writeEntries_eq (style : Json.Style) (entries : Entries) :
    Json.writeEntries style entries = entries.map fun e => (e.1, Json.write style e.2) := by
  induction entries with
  | nil => rfl
  | cons e rest ih => rw [Json.writeEntries, ih, List.map_cons]

/-- **Values with text keys can be written**, in a style that allows for what calendar values they
hold. -/
theorem exists_write (style : Json.Style) {v : Value} (h : v.Keyed)
    (hc : style.calendar = true ∨ v.IsPlain) : ∃ text, Json.write style v = .ok text := by
  induction v using rises with
  | null => exact ⟨_, rfl⟩
  | bool b => exact ⟨_, rfl⟩
  | int i => exact ⟨_, rfl⟩
  | float x => exact ⟨_, rfl⟩
  | text s => exact ⟨_, rfl⟩
  | date d =>
    have hstyle := hc.resolve_right (by simp [IsPlain])
    exact ⟨_, by rw [Json.write, if_pos hstyle]⟩
  | timestamp t =>
    have hstyle := hc.resolve_right (by simp [IsPlain])
    exact ⟨_, by rw [Json.write, if_pos hstyle]⟩
  | list items ih =>
    rw [keyed_list] at h
    rw [isPlain_list] at hc
    obtain ⟨texts, ht⟩ : ∃ texts, items.mapM (Json.write style) = .ok texts :=
      exists_mapM fun v hv => ih v hv (h v hv) (hc.imp_right fun hp => hp v hv)
    exact ⟨_, by rw [Json.write, writeItems_eq, ht]; rfl⟩
  | map entries ih =>
    rw [keyed_map] at h
    rw [isPlain_map] at hc
    have hkeys : ∀ e ∈ Json.writeEntries style entries, ∃ s, e.1 = Key.text s := by
      rw [writeEntries_eq, List.forall_mem_map]
      exact fun e he => (h e he).1
    obtain ⟨texts, ht⟩ : ∃ texts, (Sorting.sort (fun x y => Json.keyLe x.1 y.1)
        (Json.writeEntries style entries)).mapM (Json.entryText style) = .ok texts := by
      refine exists_mapM fun e he => ?_
      rw [Sorting.mem_sort, writeEntries_eq] at he
      obtain ⟨⟨k, v⟩, hm, rfl⟩ := List.mem_map.mp he
      obtain ⟨s, rfl⟩ := (h _ hm).1
      obtain ⟨text, hv⟩ := ih _ hm (h _ hm).2 (hc.imp_right fun hp => (hp _ hm).2)
      exact ⟨_, by rw [Json.entryText, hv]; rfl⟩
    exact ⟨_, by simp only [Json.write, Json.sortEntries_text hkeys, ht, bind, Except.bind]; rfl⟩

/-- Values with text keys have a fingerprint. -/
theorem exists_fingerprint {v : Value} (h : v.Keyed) :
    ∃ digest, Digest.fingerprint v = .ok digest := by
  obtain ⟨text, ht⟩ := exists_write Json.stable h (Or.inl rfl)
  exact ⟨_, by rw [Digest.fingerprint, Digest.stableText, ht]; rfl⟩

end Value

end Rollout
