import Rollout.Proofs.Json.Alike

/-!
# Values that have a text

A value has a text if its parts have one, and if the keys of every mapping have an order and texts of
their own. In the stable style nothing else is asked; in the spaced style no day and no moment has a
text.

**Types.** `Value.Writable`.

**Results.**
* `writable_list`, `writable_map`: lists and mappings that have a text;
* `hereditary_writable`: having a text is a property of values and their parts;
* `Writable.exists_fingerprint`: values with a stable text have a fingerprint.
-/

namespace Rollout

namespace Value

/-- The value has a text in the style. -/
def Writable (style : Json.Style) (v : Value) : Prop := ∃ text, Json.write style v = .ok text

/-- All attempts of a list succeed if and only if each one does. -/
theorem exists_mapM_iff {ε α β : Type} {f : α → Except ε β} {items : List α} :
    (∃ written, items.mapM f = .ok written) ↔ ∀ a ∈ items, ∃ b, f a = .ok b := by
  refine ⟨?_, exists_mapM⟩
  rintro ⟨written, h⟩
  induction items generalizing written with
  | nil => simp
  | cons a rest ih =>
    obtain ⟨b, others, hb, hothers, -⟩ := Json.mapM_cons_ok_iff.mp h
    exact List.forall_mem_cons.mpr ⟨⟨b, hb⟩, ih others hothers⟩

variable {style : Json.Style}

/-- **A list** has a text if all its items have one. -/
theorem writable_list {items : List Value} :
    (Value.list items).Writable style ↔ ∀ v ∈ items, v.Writable style := by
  refine Iff.trans ?_ (exists_mapM_iff (f := Json.write style))
  simp only [Writable, Json.write_list_iff]
  exact ⟨fun ⟨_, texts, ht, _⟩ => ⟨texts, ht⟩, fun ⟨texts, ht⟩ => ⟨_, texts, ht, rfl⟩⟩

/-- **A mapping** has a text if its keys have an order and texts, and all its values have a text. -/
theorem writable_map {entries : Entries} : (Value.map entries).Writable style ↔
    Json.firstClash (entries.map Prod.fst) = none ∧
      ∀ e ∈ entries, (∃ key, Json.keyText e.1 = .ok key) ∧ e.2.Writable style := by
  have hentry (e : Key × Value) :
      (∃ text, Json.entryText style (e.1, Json.write style e.2) = .ok text) ↔
        (∃ key, Json.keyText e.1 = .ok key) ∧ e.2.Writable style := by
    unfold Json.entryText Writable
    cases Json.keyText e.1 with
    | error fault => simp [bind, Except.bind]
    | ok key => cases Json.write style e.2 <;> simp [bind, Except.bind, pure, Except.pure]
  have hentries : (∃ texts, (Json.sorted entries).mapM
      (fun e => Json.entryText style (e.1, Json.write style e.2)) = .ok texts) ↔
        ∀ e ∈ entries, (∃ key, Json.keyText e.1 = .ok key) ∧ e.2.Writable style := by
    rw [exists_mapM_iff]
    simp only [Json.mem_sorted, hentry]
  rw [← hentries, Writable]
  simp only [Json.write_map_iff]
  exact ⟨fun ⟨_, hkeys, texts, ht, _⟩ => ⟨hkeys, texts, ht⟩,
    fun ⟨hkeys, texts, ht⟩ => ⟨_, hkeys, texts, ht, rfl⟩⟩

/-- Having a text is a matter of the parts of a value. -/
theorem hereditary_writable (style : Json.Style) : Hereditary (Writable style) fun keys =>
    Json.firstClash keys = none ∧ ∀ k ∈ keys, ∃ key, Json.keyText k = .ok key where
  null := ⟨_, rfl⟩
  text s := ⟨_, rfl⟩
  list := writable_list
  map := by
    intro entries
    rw [writable_map, List.forall_mem_map, forall₂_and, and_assoc]
  keys := by
    intro keys h
    refine ⟨Json.firstClash_text h, fun k hk => ?_⟩
    obtain ⟨s, rfl⟩ := h k hk
    exact ⟨s, rfl⟩

/-- Values with a stable text have a fingerprint. -/
theorem Writable.exists_fingerprint {v : Value} (h : v.Writable Json.stable) :
    ∃ digest, Digest.fingerprint v = .ok digest := by
  obtain ⟨text, ht⟩ := h
  exact ⟨_, by rw [Digest.fingerprint, Digest.stableText, ht]; rfl⟩

end Value

end Rollout
