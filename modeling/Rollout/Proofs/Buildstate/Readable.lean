import Rollout.Proofs.Buildstate.Reloaded

/-!
# Build states that can be read again

A state of the current version can be read from what is stored for it, if its snapshots are mappings
and no unit and no fingerprint occurs twice in it. Everything else is stored in a way that its
reader accepts, whatever it is: outputs are stored with texts for keys. States that have been loaded
are of this kind.

Since the reader takes every text that has been made for a state, such a state is loaded from a file
that holds it.

**Types.** `Buildstate.Storable`, `UnitRecord.Restored`, `Buildstate.Restored`.

**Results.**
* `Buildstate.Storable.exists_reread`: what is stored for a state can be read;
* `Store.exists_load`: so a state is loaded from a file that holds one;
* `Store.storable_load`: states that have been loaded can be stored.
-/

namespace Rollout

/-! ### Reading what is there -/

namespace Check

variable {α β : Type}

/-- A field is read from the entry under its name. -/
theorem field_of_get? {name : String} {missing a : α} {read : Value → Check α} {es : Entries}
    {v : Value} (hv : Entries.get? name es = some v) (h : read v = .ok a) :
    field [name] missing read es = .ok a := by
  simp only [field, present?, List.findSome?_cons, hv, Option.map_some, h, inside]

/-- A field of an object that has been stored is read from what is stored under its name. -/
theorem field_of_reread {fields : List (String × Value)} {es : Entries}
    (hes : ∀ name : String, Entries.get? name es = (Table.get? name fields).map Value.reread)
    {name : String} {v : Value} (hv : Table.get? name fields = some v) {missing a : α}
    {read : Value → Check α} (h : read v.reread = .ok a) :
    field [name] missing read es = .ok a :=
  field_of_get? (by rw [hes, hv]; rfl) h

/-- A mapping whose keys are texts can be read if all its values can. -/
theorem exists_dict (read : Value → Check α) {es : Entries}
    (h : ∀ e ∈ es, (∃ s, e.1 = .text s) ∧ ∃ a, read e.2 = .ok a) :
    ∃ t, dict read (.map es) = .ok t := by
  change ∃ t, entries read es = .ok t
  induction es with
  | nil => exact ⟨[], rfl⟩
  | cons e rest ih =>
    obtain ⟨k, v⟩ := e
    obtain ⟨⟨s, hs⟩, a, ha⟩ := h (k, v) List.mem_cons_self
    obtain rfl : k = .text s := hs
    obtain ⟨t, ht⟩ := ih fun e he => h e (List.mem_cons_of_mem _ he)
    have ha : read v = .ok a := ha
    refine ⟨(s, a) :: t, ?_⟩
    rw [entries, ht, ha]
    rfl

/-- A table that has been stored as an object can be read if all its values can. -/
theorem exists_dict_reread (read : Value → Check β) {t : Table String α} {f : α → Value}
    (hn : (Table.keys t).Nodup) (h : ∀ e ∈ t, ∃ b, read (f e.2).reread = .ok b) :
    ∃ t', dict read (Value.object (t.map fun e => (e.1, f e.2))).reread = .ok t' := by
  rw [Value.reread_object (by rw [List.map_map]; exact hn)]
  refine exists_dict read fun e he => ?_
  obtain ⟨field, hfield, rfl⟩ := List.mem_map.mp (Json.mem_sorted.mp he)
  obtain ⟨entry, hentry, rfl⟩ := List.mem_map.mp hfield
  exact ⟨⟨entry.1, rfl⟩, h entry hentry⟩

end Check

/-- A text, or null for none, is read as it was stored. -/
theorem Check.optional_text_reread (s : Option String) :
    optional text (Value.ofText? s).reread = .ok s := by
  cases s <;> rfl

/-- A mapping of any kind is stored with texts for keys, and can be read. -/
theorem UnitRecord.exists_readEntries (entries : Entries) :
    ∃ es, readEntries (Value.map entries).reread = .ok es := by
  have hstored := Value.isStrict_stored (Value.map entries)
  rw [Value.reread]
  rw [Value.stored] at hstored ⊢
  have hkeys := (Value.isStrict_map.mp hstored).2
  rw [Value.canonical_map]
  have hvalues : ∀ e ∈ (Json.sorted (Value.storedEntries [] entries)).map
      (fun e => (e.1, e.2.canonical)), (∃ s, e.1 = .text s) ∧ ∃ a, Check.any e.2 = .ok a := by
    intro e he
    obtain ⟨e', he', rfl⟩ := List.mem_map.mp he
    exact ⟨(hkeys e' (Json.mem_sorted.mp he')).1, _, rfl⟩
  obtain ⟨t, ht⟩ := Check.exists_dict Check.any hvalues
  exact ⟨_, congrArg (Check.map _) ht⟩

/-! ### States that can be read again -/

/-- A record whose snapshot is a mapping, if there is one. -/
def UnitRecord.Mapped (r : UnitRecord) : Prop := ∀ v ∈ r.snapshot, ∃ entries, v = .map entries

/-- A state of the current version in which nothing occurs twice and every snapshot is a mapping. -/
structure Buildstate.Storable (b : Buildstate) : Prop extends Distinct b where
  version : b.version = currentVersion
  mapped : ∀ e ∈ b.units, e.2.Mapped

/-- A record is what has been stored for another one and read again. -/
structure UnitRecord.Restored (r r' : UnitRecord) : Prop where
  initialized : r'.initialized = r.initialized
  built : r'.built = r.built
  deployed : r'.deployed = r.deployed
  fingerprints : ∀ name, Table.get? name r'.fingerprints = Table.get? name r.fingerprints
  snapshot : r'.snapshot = r.snapshot.map Value.reread
  outputs : Value.map r'.outputs = (Value.map r.outputs).reread

/-- A state is what has been stored for another one and read again. -/
structure Buildstate.Restored (b b' : Buildstate) : Prop where
  version : b'.version = b.version
  stack : b'.stack = b.stack
  release : b'.releaseName = b.releaseName
  updated : b'.updatedAt = b.updatedAt
  record : ∀ fqn, Option.Rel UnitRecord.Restored (b.record? fqn) (b'.record? fqn)

/-- A snapshot that is a mapping, if there is one, is read as it has been stored. -/
theorem UnitRecord.Mapped.snapshot_reread {r : UnitRecord} (h : r.Mapped) :
    Check.optional (fun v => Check.map Value.map (readEntries v)) (r.snapshot.getD .null).reread =
      .ok (r.snapshot.map Value.reread) := by
  cases hs : r.snapshot with
  | none => rfl
  | some v =>
    obtain ⟨entries, rfl⟩ := h v hs
    obtain ⟨es, hread⟩ := exists_readEntries entries
    have hmap := eq_of_readEntries hread
    change Check.map some (Check.map Value.map (readEntries (Value.map entries).reread)) = _
    rw [hread, Option.map_some, hmap]
    rfl

/-- **What is stored for a record** can be read. -/
theorem UnitRecord.Mapped.exists_reread {r : UnitRecord} (h : r.Mapped)
    (hn : (Table.keys r.fingerprints).Nodup) :
    ∃ r', ofValue r.toValue.reread = .ok r' ∧ r.Restored r' := by
  obtain ⟨es, hobject, hes⟩ := Value.get?_reread [
    ("initialized", .bool r.initialized), ("built", .bool r.built), ("deployed", .bool r.deployed),
    ("fingerprints", .object (r.fingerprints.map fun e => (e.1, .text e.2))),
    ("snapshot", r.snapshot.getD .null), ("outputs", .map r.outputs)] (by simp)
  obtain ⟨fingerprints, hfingerprints⟩ := Check.exists_dict_reread Check.text
    (f := Value.text) hn fun e _ => ⟨e.2, rfl⟩
  have hkept := Check.of_dict_reread hn hfingerprints
  obtain ⟨outputs, houtputs⟩ := exists_readEntries r.outputs
  have hmap := eq_of_readEntries houtputs
  have hinitialized : Check.field ["initialized"] false Check.bool es = .ok r.initialized :=
    Check.field_of_reread hes (by rfl) rfl
  have hbuilt : Check.field ["built"] false Check.bool es = .ok r.built :=
    Check.field_of_reread hes (by rfl) rfl
  have hdeployed : Check.field ["deployed"] false Check.bool es = .ok r.deployed :=
    Check.field_of_reread hes (by rfl) rfl
  have hfingerprints : Check.field ["fingerprints"] [] (Check.dict Check.text) es =
      .ok fingerprints := Check.field_of_reread hes (by rfl) hfingerprints
  have hsnapshot : Check.field ["snapshot"] none
      (Check.optional fun v => Check.map Value.map (readEntries v)) es =
        .ok (r.snapshot.map Value.reread) := Check.field_of_reread hes (by rfl) h.snapshot_reread
  have houtputs : Check.field ["outputs"] [] readEntries es = .ok outputs :=
    Check.field_of_reread hes (by rfl) houtputs
  refine ⟨⟨r.initialized, r.built, r.deployed, fingerprints, r.snapshot.map Value.reread, outputs⟩,
    ?_, ⟨rfl, rfl, rfl, fun name => ?_, rfl, hmap.symm⟩⟩
  · rw [toValue, hobject, ofValue, Check.record, hinitialized, hbuilt, hdeployed, hfingerprints,
      hsnapshot, houtputs]
    rfl
  · have hname := hkept name
    dsimp only
    generalize Table.get? name r.fingerprints = digest, Table.get? name fingerprints = digest'
      at hname ⊢
    cases hname with
    | none => rfl
    | some hread => rw [Check.ok.inj hread]

namespace Buildstate

variable {b : Buildstate}

/-- **What is stored for a state** can be read. -/
theorem Storable.exists_reread (h : b.Storable) :
    ∃ b', ofValue b.toValue.reread = .ok b' ∧ b.Restored b' := by
  obtain ⟨es, hobject, hes⟩ := b.get?_reread_toValue
  have hrecords (e : String × UnitRecord) (he : e ∈ b.units) :=
    (h.mapped e he).exists_reread (h.fingerprints e he)
  obtain ⟨units, hunits⟩ := Check.exists_dict_reread UnitRecord.ofValue
    (f := UnitRecord.toValue) h.units fun e he => (hrecords e he).imp fun _ h => h.1
  have hkept := Check.of_dict_reread h.units hunits
  have hversion : Check.field ["version"] 1 Check.int es = .ok b.version :=
    Check.field_of_reread hes (by rfl) rfl
  have hstack : Check.field ["stack"] "" Check.text es = .ok b.stack :=
    Check.field_of_reread hes (by rfl) rfl
  have hrelease : Check.field ["release_name"] none (Check.optional Check.text) es =
      .ok b.releaseName := Check.field_of_reread hes (by rfl) (Check.optional_text_reread _)
  have hupdated : Check.field ["updated_at"] none (Check.optional Check.text) es =
      .ok b.updatedAt := Check.field_of_reread hes (by rfl) (Check.optional_text_reread _)
  have hunits : Check.field ["units"] [] (Check.dict UnitRecord.ofValue) es = .ok units :=
    Check.field_of_reread hes (by rfl) hunits
  refine ⟨⟨b.version, b.stack, b.releaseName, b.updatedAt, units⟩, ?_,
    ⟨rfl, rfl, rfl, rfl, fun fqn => ?_⟩⟩
  · rw [hobject, ofValue, Check.record, hversion, hstack, hrelease, hupdated, hunits]
    rfl
  · have hunit := hkept fqn
    rw [record?, record?]
    cases hr : Table.get? fqn b.units with
    | none =>
      rw [hr] at hunit
      generalize Table.get? fqn units = found at hunit ⊢
      cases hunit
      exact .none
    | some r =>
      rw [hr] at hunit
      obtain ⟨r', hread, hrestored⟩ := hrecords (fqn, r) (Table.mem_of_get? hr)
      generalize Table.get? fqn units = found at hunit ⊢
      cases hunit with
      | some hread' =>
        rw [hread] at hread'
        rw [← Check.ok.inj hread']
        exact .some hrestored

theorem Storable.record (h : b.Storable) {fqn : String} {r : UnitRecord}
    (hr : b.record? fqn = some r) : r.Mapped := h.mapped _ (Table.mem_of_get? hr)

theorem storable_empty (stack : String) : (empty stack).Storable :=
  ⟨(isJson_empty stack).toDistinct, rfl, fun e he => (by cases he)⟩

/-- The name of the stack and the time do not matter to what can be stored. -/
theorem Storable.stamped (h : b.Storable) (store : Store) (stack : String) :
    (store.stamped stack b).Storable :=
  ⟨⟨h.units, h.fingerprints⟩, h.version, h.mapped⟩

end Buildstate

/-! ### Loading -/

/-- A record that has been read has a mapping for a snapshot, or none. -/
theorem UnitRecord.mapped_of_ofValue {v : Value} {r : UnitRecord} (h : ofValue v = .ok r) :
    r.Mapped := by
  cases v with
  | map es =>
    obtain ⟨f₅, outputs, h₅, -, rfl⟩ := Check.eq_ok_of_seq h
    obtain ⟨f₄, snapshot, h₄, hsnapshot, rfl⟩ := Check.eq_ok_of_seq h₅
    obtain ⟨f₃, fingerprints, h₃, -, rfl⟩ := Check.eq_ok_of_seq h₄
    obtain ⟨f₂, deployed, h₂, -, rfl⟩ := Check.eq_ok_of_seq h₃
    obtain ⟨f₁, built, h₁, -, rfl⟩ := Check.eq_ok_of_seq h₂
    obtain ⟨initialized, -, rfl⟩ := Check.eq_ok_of_map h₁
    rintro w ⟨⟩
    rcases Check.of_field hsnapshot with hnone | ⟨name, v, -, hread⟩
    · cases hnone
    · unfold Check.optional at hread
      split at hread
      · cases hread
      · obtain ⟨value, hvalue, heq⟩ := Check.eq_ok_of_map hread
        obtain ⟨entries, -, rfl⟩ := Check.eq_ok_of_map hvalue
        exact ⟨entries, (Option.some.inj heq).symm⟩
  | _ => cases h

theorem Buildstate.mapped_of_ofValue {v : Value} {b : Buildstate} (h : ofValue v = .ok b) :
    ∀ e ∈ b.units, e.2.Mapped := by
  obtain ⟨es, rfl, -, hunits⟩ := fields_of_ofValue h
  rcases Check.of_field hunits with heq | ⟨name, w, -, hread⟩
  · rw [heq]
    exact fun e he => absurd he List.not_mem_nil
  · obtain ⟨es', rfl, hes⟩ := Check.of_dict hread
    intro e' he'
    obtain ⟨e, -, hrecord⟩ := hes.exists_entry e' he'
    exact UnitRecord.mapped_of_ofValue hrecord

namespace Store

variable {store : Store} {folder : FilePath} {stack : String} {files : Files} {b : Buildstate}

/-- **States that have been loaded** can be stored and read again. -/
theorem storable_load (h : store.load stack files = .ok b) : b.Storable := by
  have hdistinct := (isJson_load h).toDistinct
  unfold load at h
  split at h
  · rw [← Except.ok.inj h]
    exact Buildstate.storable_empty stack
  · dsimp only at h
    split at h
    · rw [← Except.ok.inj h]
      exact Buildstate.storable_empty stack
    · cases h
    · unfold ofContent at h
      split at h
      · cases h
      · split at h
        · cases h
        · cases h
        · split at h
          · cases h
          · rename_i b' hvalue
            split at h
            · rename_i hversion
              obtain rfl := Except.ok.inj h
              exact ⟨hdistinct, hversion, Buildstate.mapped_of_ofValue hvalue⟩
            · cases h

/-- **A state is loaded** from a file that holds one that can be stored. -/
theorem exists_load (hfolder : store.folder? = some folder) (hb : b.Storable)
    (h : files.Hold (pathIn folder stack) b) :
    ∃ b', store.load stack files = .ok b' ∧ b.Restored b' := by
  obtain ⟨b', hvalue, hrestored⟩ := hb.exists_reread
  exact ⟨b', load_of_hold hfolder h hvalue (hrestored.version.trans hb.version), hrestored⟩

end Store

end Rollout
