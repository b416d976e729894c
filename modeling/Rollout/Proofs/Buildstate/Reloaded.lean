import Rollout.Proofs.Buildstate.Loaded
import Rollout.Proofs.Buildstate.Stored
import Rollout.Proofs.Json.RoundTrip

/-!
# Build states that are saved and loaded again

A save puts the text of a state where the path of its file leads to. A store makes such a text only if
the values of the state keep to two limits, on values that stand inside one another and on the digits
of integers. The reader has the second limit too, and a wider first one, so it never refuses a text
that has been made for a state.

What is loaded from there says the same about every unit: which phases are done, and under which
fingerprints. The outputs are those that have been saved, as they are read from JSON text; the
snapshots do not matter to a run.

**Types.** `Files.Hold`, `UnitRecord.Reloaded`, `Buildstate.Reloaded`.

**Results.**
* `Value.depth_stored_le`: what is stored has no more values inside one another;
* `Store.read_of_hold`: what a file holds is read;
* `Store.hold_save`: after a save the file of the stack holds the state;
* `Value.get?_reread`: the fields of an object that is read again;
* `Store.reloaded_of_load`: a state that is loaded from a file that holds another one.
-/

namespace Rollout

namespace Files

variable {files : Files} {target : List String}

/-- What is put where a path leads to does not stand in the way of the path. -/
theorem walk_put {place : List String} {names : List String}
    (h : files.walk place names = some target) (ht : files.at? target ≠ some .folder)
    (item : Item) : (files.put target item).walk place names = some target := by
  induction names generalizing place with
  | nil => exact h
  | cons n rest ih =>
    rw [walk] at h ⊢
    split at h
    · rename_i hplace
      have hkept : (files.put target item).at? place = some .folder := by
        cases place with
        | nil => rfl
        | cons m above =>
          rw [at?_put files item (List.cons_ne_nil m above), if_neg, hplace]
          rintro rfl
          exact ht hplace
      rw [if_pos hkept]
      exact ih h
    · cases h

/-- **What is put where a path leads to** is found under the path. -/
theorem item?_put {p : FilePath} (h : files.locate? p = some target)
    (ht : files.at? target ≠ some .folder) (item : Item) :
    (files.put target item).item? p = some item := by
  have hne : target ≠ [] := by
    rintro rfl
    exact ht rfl
  have hlocate : (files.put target item).locate? p = some target := walk_put h ht item
  rw [item?, hlocate, Option.bind_some, at?_put files item hne, if_pos rfl]

/-- Under a path there is the text that has been made for a state. -/
def Hold (files : Files) (path : FilePath) (b : Buildstate) : Prop :=
  ∃ text, Store.payload b = .ok text ∧ files.item? path = some (.file (Text.encode text))

/-- The path is left alone. -/
theorem Hold.congr {path : FilePath} {b : Buildstate} (h : files.Hold path b) {files' : Files}
    (hf : files'.item? path = files.item? path) : files'.Hold path b := by
  obtain ⟨text, htext, hitem⟩ := h
  exact ⟨text, htext, hf.trans hitem⟩

end Files

/-! ### Limits -/

namespace Value

variable {fields : List (String × Value)}

theorem depth_object_le {n : Nat} :
    (Value.object fields).depth ≤ n + 1 ↔ ∀ e ∈ fields, e.2.depth ≤ n := by
  rw [object, depth_map_le, List.forall_mem_map]

/-- **What is stored** has no more values inside one another. -/
theorem depth_stored_le (v : Value) : v.stored.depth ≤ v.depth := by
  induction v using rises with
  | float x =>
    rw [stored]
    split <;> exact Nat.le_refl 1
  | list items ih =>
    have hdepth : (Value.list items).depth = depthAll items + 1 := by rw [depth]
    rw [stored, storedAll_eq, hdepth, depth_list_le, List.forall_mem_map]
    intro v hv
    have hlt := depth_lt_of_mem hv
    rw [hdepth, Nat.lt_succ_iff] at hlt
    exact (ih v hv).trans hlt
  | map entries ih =>
    have hdepth : (Value.map entries).depth = depthEntries entries + 1 := by rw [depth]
    have hstored : ∀ e ∈ entries, e.2.stored.depth ≤ depthEntries entries := by
      intro e he
      have hlt := depth_lt_of_entry he
      rw [hdepth, Nat.lt_succ_iff] at hlt
      exact (ih e he).trans hlt
    rw [stored, hdepth, depth_map_le]
    have hall := forall_storedEntries (P := fun v => v.depth ≤ depthEntries entries)
      (List.forall_mem_nil _) hstored
    exact fun e he => (hall e he).2
  | _ => exact Nat.le_refl 1

end Value

/-- The document of a record holds its fields inside one more pair of brackets. -/
theorem UnitRecord.depth_toValue_le {r : UnitRecord} (h : r.isShallow = true) :
    r.toValue.depth ≤ depthLimit + 1 := by
  simp only [isShallow, Bool.and_eq_true, decide_eq_true_eq] at h
  have hscalar {v : Value} (hv : v.depth = 1) : v.depth ≤ depthLimit := by
    rw [hv]
    decide
  have hfingerprints :
      (Value.object (r.fingerprints.map fun e => (e.1, .text e.2))).depth ≤ depthLimit := by
    refine Nat.le_trans (Value.depth_object_le (n := 1).mpr ?_) (by decide)
    rw [List.forall_mem_map]
    exact fun e _ => Nat.le_refl 1
  rw [toValue, Value.depth_object_le]
  simp only [List.forall_mem_cons]
  exact ⟨hscalar rfl, hscalar rfl, hscalar rfl, hfingerprints, h.1, h.2, List.forall_mem_nil _⟩

/-- The document of a state holds the records of the units inside two more. -/
theorem Buildstate.depth_toValue_le {b : Buildstate}
    (h : ∀ e ∈ b.units, e.2.isShallow = true) :
    b.toValue.depth ≤ UnitRecord.depthLimit + 1 + 1 + 1 := by
  have hscalar {v : Value} (hv : v.depth = 1) : v.depth ≤ UnitRecord.depthLimit + 1 + 1 := by
    rw [hv]
    decide
  have htext (s : Option String) : (Value.ofText? s).depth = 1 := by
    cases s <;> rfl
  have hunits : (Value.object (b.units.map fun e => (e.1, e.2.toValue))).depth ≤
      UnitRecord.depthLimit + 1 + 1 := by
    rw [Value.depth_object_le, List.forall_mem_map]
    exact fun e he => UnitRecord.depth_toValue_le (h e he)
  rw [toValue, Value.depth_object_le]
  simp only [List.forall_mem_cons]
  exact ⟨hscalar rfl, hscalar rfl, hscalar (htext _), hscalar (htext _), hunits,
    List.forall_mem_nil _⟩

/-! ### Saving and loading -/

namespace Store

variable {store : Store} {folder : FilePath} {stack : String}

/-- A state that is written keeps to the limits of what can be stored. -/
theorem payload_eq_ok_iff {b : Buildstate} {text : String} : payload b = .ok text ↔
    (b.units.all fun e => e.2.isShallow) = true ∧ b.toValue.stored.isLegible = true ∧
      b.text = .ok text := by
  unfold payload
  cases b.units.all fun e => e.2.isShallow with
  | false => simp
  | true =>
    cases b.toValue.stored.isLegible with
    | false => simp
    | true => cases b.text <;> simp [Except.mapError]

/-- **What is stored for a state** that has a text keeps to the limits of the reader. -/
theorem fits_of_payload {b : Buildstate} {text : String}
    (h : payload b = .ok text) : b.toValue.stored.Fits 0 := by
  obtain ⟨hshallow, hlegible, -⟩ := payload_eq_ok_iff.mp h
  have hdepth : b.toValue.stored.depth ≤ UnitRecord.depthLimit + 1 + 1 + 1 :=
    (Value.depth_stored_le _).trans (Buildstate.depth_toValue_le (List.all_eq_true.mp hshallow))
  refine ⟨?_, hlegible⟩
  rw [Nat.zero_add]
  exact hdepth.trans (by decide)

/-- **What a file holds** is read as it is stored. -/
theorem read_of_hold {path : FilePath} {files : Files} {b : Buildstate} (h : files.Hold path b) :
    ∃ text, Json.read text = .ok b.toValue.reread ∧
      files.item? path = some (.file (Text.encode text)) := by
  obtain ⟨text, htext, hitem⟩ := h
  rcases Json.read_stableText (Value.isStrict_stored b.toValue).toIsJson
    (payload_eq_ok_iff.mp htext).2.2 with hread | ⟨hlimits, -⟩
  · exact ⟨text, hread, hitem⟩
  · exact absurd (fits_of_payload htext) hlimits

/-- What comes of a save that succeeds in writing the text of the state. -/
theorem place_eq_ok {token text : String} {files : Files} {path : Option FilePath}
    (h : (place folder stack token text files).2 = .ok path) :
    ∃ target, files.locate? (pathIn folder stack) = some target ∧
      files.at? target ≠ some .folder ∧
      (place folder stack token text files).1 = files.put target (.file (Text.encode text)) := by
  unfold place at h ⊢
  dsimp only at h ⊢
  split at h
  · cases h
  · split at h
    · cases h
    · rename_i target htarget
      split at h
      · cases h
      · rename_i hfree
        exact ⟨target, htarget, hfree, by rw [if_neg hfree]⟩

/-- **A save that succeeds** leaves a file that holds the state. -/
theorem hold_save (hfolder : store.folder? = some folder) {b : Buildstate} {files : Files}
    {path : Option FilePath} (h : (store.save stack b files).path = .ok path) :
    (store.save stack b files).files.Hold (pathIn folder stack)
      (store.save stack b files).state := by
  unfold save saveBy at h ⊢
  rw [hfolder] at h ⊢
  dsimp only at h ⊢
  split at h
  · cases h
  · rename_i text htext
    split at h
    · cases h
    · obtain ⟨target, htarget, hfree, hfiles⟩ := place_eq_ok h
      refine ⟨text, htext, ?_⟩
      dsimp only
      rw [hfiles]
      exact Files.item?_put htarget hfree _

/-- What is loaded depends on the file of the stack only. -/
theorem load_congr (hfolder : store.folder? = some folder) {files files' : Files}
    (h : files.item? (pathIn folder stack) = files'.item? (pathIn folder stack)) :
    store.load stack files = store.load stack files' := by
  rw [load, load, hfolder]
  dsimp only
  rw [h]

/-- A file whose text reads as a state is loaded as that state. -/
theorem load_of_read (hfolder : store.folder? = some folder) {text : String} {files : Files}
    (hitem : files.item? (pathIn folder stack) = some (.file (Text.encode text))) {v : Value}
    (hread : Json.read text = .ok v) {b : Buildstate} (hb : Buildstate.ofValue v = .ok b)
    (hversion : b.version = Buildstate.currentVersion) : store.load stack files = .ok b := by
  simp only [load, hfolder, hitem, ofContent, Text.decode_encode, hread, hb, if_pos hversion]

end Store

/-! ### What is read again -/

namespace Value

/-- **The fields of an object** with different names, after the object has been stored and read. -/
theorem get?_reread (fields : List (String × Value)) (hn : (fields.map Prod.fst).Nodup) :
    ∃ es, (Value.object fields).reread = .map es ∧
      ∀ name : String, Entries.get? name es = (Table.get? name fields).map reread := by
  refine ⟨_, reread_object hn, fun name => ?_⟩
  rw [get?_sorted (by simpa using fun a _ x _ _ hkey _ => ⟨x, hkey.symm⟩)]
  clear hn
  induction fields with
  | nil => rfl
  | cons e rest ih =>
    rw [List.map_cons, Entries.get?, Key.same_text, ih]
    simp only [Table.get?, Key.text.injEq, decide_eq_true_eq, eq_comm (a := name)]
    split <;> rfl

end Value

/-- What is read entry by entry is read under every name. -/
theorem Check.Entrywise.get? {α : Type} {read : Value → Check α} {es : Entries} {t : Table String α}
    (h : Entrywise read es t) (name : String) :
    Option.Rel (fun v a => read v = .ok a) (Entries.get? name es) (Table.get? name t) := by
  induction h with
  | nil => exact .none
  | @cons other v a es t hv _ ih =>
    rw [Entries.get?, Table.get?, Key.same_text]
    by_cases hname : other = name
    · simpa [hname] using Option.Rel.some hv
    · simpa [hname, Ne.symm hname] using ih

/-- Reading a field of an object that has been stored. -/
theorem Check.of_field_reread {α : Type} {fields : List (String × Value)} {es : Entries}
    (hes : ∀ name : String, Entries.get? name es = (Table.get? name fields).map Value.reread)
    {name : String} {v : Value} (hv : Table.get? name fields = some v) {missing a : α}
    {read : Value → Check α} (h : field [name] missing read es = .ok a) : read v.reread = .ok a :=
  eq_ok_of_field (by rw [hes, hv]; rfl) h

/-- Reading a table that has been stored as an object. -/
theorem Check.of_dict_reread {α β : Type} {t : Table String α} {f : α → Value}
    (hn : (Table.keys t).Nodup) {read : Value → Check β} {t' : Table String β}
    (h : dict read (Value.object (t.map fun e => (e.1, f e.2))).reread = .ok t') (name : String) :
    Option.Rel (fun a b => read (f a).reread = .ok b) (Table.get? name t) (Table.get? name t') := by
  obtain ⟨es, hobject, hes⟩ := Value.get?_reread (t.map fun e => (e.1, f e.2))
    (by rw [List.map_map]; exact hn)
  obtain ⟨es', heq, hentries⟩ := of_dict h
  obtain rfl : es = es' := Value.map.inj (hobject.symm.trans heq)
  have hget := hentries.get? name
  have hfields : Table.get? name (t.map fun e => (e.1, f e.2)) = (Table.get? name t).map f := by
    clear hn h hobject hes heq hentries hget
    induction t with
    | nil => rfl
    | cons e rest ih =>
      rw [List.map_cons, Table.get?, Table.get?, ih]
      split <;> rfl
  rw [hes, hfields] at hget
  generalize Table.get? name t' = found at hget ⊢
  cases ht : Table.get? name t with
  | none =>
    rw [ht] at hget
    cases hget
    exact .none
  | some a =>
    rw [ht] at hget
    cases hget with
    | some hread => exact .some hread

/-- A record says what another one does, whose outputs have been stored and read. -/
structure UnitRecord.Reloaded (r r' : UnitRecord) : Prop where
  done : ∀ p, r'.done p = r.done p
  fingerprint : ∀ p, r'.fingerprint? p = r.fingerprint? p
  outputs : Value.map r'.outputs = (Value.map r.outputs).reread

/-- A state says what another one does, whose outputs have been stored and read. -/
structure Buildstate.Reloaded (b b' : Buildstate) : Prop where
  release : b'.releaseName = b.releaseName
  record : ∀ fqn, Option.Rel UnitRecord.Reloaded (b.record? fqn) (b'.record? fqn)

/-- **A record that is read again** says what it said when it was stored. -/
theorem UnitRecord.reloaded_of_ofValue {r r' : UnitRecord} (hr : (Table.keys r.fingerprints).Nodup)
    (h : ofValue r.toValue.reread = .ok r') : r.Reloaded r' := by
  obtain ⟨es, hobject, hes⟩ := Value.get?_reread [
    ("initialized", .bool r.initialized), ("built", .bool r.built), ("deployed", .bool r.deployed),
    ("fingerprints", .object (r.fingerprints.map fun e => (e.1, .text e.2))),
    ("snapshot", r.snapshot.getD .null), ("outputs", .map r.outputs)] (by simp)
  obtain ⟨es', heq, hinitialized, hbuilt, hdeployed, hfingerprints, houtputs⟩ := fields_of_ofValue h
  obtain rfl : es = es' := Value.map.inj (hobject.symm.trans heq)
  have hinitialized := Check.of_field_reread hes (by rfl) hinitialized
  have hbuilt := Check.of_field_reread hes (by rfl) hbuilt
  have hdeployed := Check.of_field_reread hes (by rfl) hdeployed
  have hfingerprints := Check.of_field_reread hes (by rfl) hfingerprints
  have houtputs := Check.of_field_reread hes (by rfl) houtputs
  refine ⟨?_, ?_, (eq_of_readEntries houtputs).symm⟩
  · intro p
    cases p with
    | init => exact (Check.ok.inj hinitialized).symm
    | build => exact (Check.ok.inj hbuilt).symm
    | deploy => exact (Check.ok.inj hdeployed).symm
  · intro p
    have hget := Check.of_dict_reread hr hfingerprints p.text
    rw [fingerprint?, fingerprint?]
    generalize Table.get? p.text r.fingerprints = digest, Table.get? p.text r'.fingerprints = digest'
      at hget ⊢
    cases hget with
    | none => rfl
    | some hread => rw [Check.ok.inj hread]

/-- The fields of a state, stored and read. -/
theorem Buildstate.get?_reread_toValue (b : Buildstate) : ∃ es, b.toValue.reread = .map es ∧
    ∀ name : String, Entries.get? name es = (Table.get? name [
      ("version", Value.int b.version), ("stack", .text b.stack),
      ("release_name", .ofText? b.releaseName), ("updated_at", .ofText? b.updatedAt),
      ("units", .object (b.units.map fun e => (e.1, e.2.toValue)))]).map Value.reread :=
  Value.get?_reread _ (by simp)

/-- A state that is read again has the release name that was stored. -/
theorem Buildstate.releaseName_of_ofValue {b b' : Buildstate}
    (h : ofValue b.toValue.reread = .ok b') : b'.releaseName = b.releaseName := by
  obtain ⟨es, hobject, hes⟩ := b.get?_reread_toValue
  obtain ⟨es', heq, hrelease, -⟩ := fields_of_ofValue h
  obtain rfl : es = es' := Value.map.inj (hobject.symm.trans heq)
  have hrelease := Check.of_field_reread hes (by rfl) hrelease
  cases hname : b.releaseName with
  | none =>
    rw [hname] at hrelease
    exact (Check.ok.inj hrelease).symm
  | some name =>
    rw [hname] at hrelease
    exact (Check.ok.inj hrelease).symm

/-- **A state that is read again** says what it said when it was stored. -/
theorem Buildstate.reloaded_of_ofValue {b b' : Buildstate} (hb : b.Distinct)
    (h : ofValue b.toValue.reread = .ok b') : b.Reloaded b' := by
  refine ⟨releaseName_of_ofValue h, fun fqn => ?_⟩
  obtain ⟨es, hobject, hes⟩ := b.get?_reread_toValue
  obtain ⟨es', heq, -, hunits⟩ := fields_of_ofValue h
  obtain rfl : es = es' := Value.map.inj (hobject.symm.trans heq)
  have hunits := Check.of_field_reread hes (by rfl) hunits
  have hget := Check.of_dict_reread hb.units hunits fqn
  rw [record?, record?]
  generalize Table.get? fqn b'.units = found at hget ⊢
  cases hr : Table.get? fqn b.units with
  | none =>
    rw [hr] at hget
    cases hget
    exact .none
  | some r =>
    rw [hr] at hget
    cases hget with
    | some hread =>
      exact .some (UnitRecord.reloaded_of_ofValue (hb.record hr) hread)

namespace Store

variable {store : Store} {folder : FilePath} {stack : String} {files : Files} {b b' : Buildstate}

/-- What is loaded from a file that holds a state is the state read again. -/
theorem ofValue_of_load (hfolder : store.folder? = some folder)
    (hheld : files.Hold (pathIn folder stack) b) (h : store.load stack files = .ok b') :
    Buildstate.ofValue b.toValue.reread = .ok b' := by
  obtain ⟨text, hread, hitem⟩ := read_of_hold hheld
  simp only [load, hfolder, hitem, ofContent, Text.decode_encode, hread] at h
  split at h
  · cases h
  · rename_i b₂ hvalue
    split at h
    · rw [← Except.ok.inj h]
      exact hvalue
    · cases h

/-- **A state that is loaded** from a file that holds another one says what that one says. -/
theorem reloaded_of_load (hfolder : store.folder? = some folder)
    (hheld : files.Hold (pathIn folder stack) b) (hb : b.Distinct)
    (h : store.load stack files = .ok b') : b.Reloaded b' :=
  Buildstate.reloaded_of_ofValue hb (ofValue_of_load hfolder hheld h)

/-- A state is loaded from a file that holds another one, if it is of the current version and what
is stored for the other one is read as it. -/
theorem load_of_hold (hfolder : store.folder? = some folder)
    (hheld : files.Hold (pathIn folder stack) b)
    (hb' : Buildstate.ofValue b.toValue.reread = .ok b')
    (hversion : b'.version = Buildstate.currentVersion) : store.load stack files = .ok b' := by
  obtain ⟨text, hread, hitem⟩ := read_of_hold hheld
  exact load_of_read hfolder hitem hread hb' hversion

end Store

end Rollout
