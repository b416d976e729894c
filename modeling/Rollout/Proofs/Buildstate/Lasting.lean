import Rollout.Proofs.Buildstate.Stored

/-!
# Values that last

A value is written in two ways: the text that is hashed keeps its numbers and keys, and what is
stored for it is a JSON document, whose own text is hashed once it has been read again. For most
values these are the same text. They differ for a moment, which is hashed with a blank between day
and time and stored with a letter; for a number that is not finite, which is stored as null; and for
a mapping whose keys are stored under other texts, or in another order, than they are hashed.

A value lasts if it holds nothing of this kind. JSON documents with finite numbers last, and so do
days, and mappings with truth values or a few numbers for keys.

**Types.** `Key.AreLasting`, `Value.Lasting`.

**Results.**
* `Value.Lasting.sameText_stored`: what lasts is hashed as it is stored;
* `Value.Lasting.sameText_reread`: and hashed in the same way after it has been read again;
* `Value.IsStrict.lasting`: JSON documents with finite numbers last.
-/

namespace Rollout

/-- The keys of a mapping have a common order, in which they are written, and their texts are those
under which entries are stored, in the order of these texts. -/
structure Key.AreLasting (keys : List Key) : Prop where
  ordered : Json.firstClash keys = none
  same : ∀ k ∈ keys, Json.keyText k = .ok k.stored
  sorted : ((Sorting.sort Json.keyLe keys).map Key.stored).Pairwise (· < ·)

namespace Value

mutual

/-- The value holds no moment, only finite numbers, and only mappings with lasting keys. -/
def Lasting : Value → Prop
  | .timestamp _ => False
  | .float x => x.isFinite = true
  | .list items => AllLast items
  | .map entries => Key.AreLasting (entries.map Prod.fst) ∧ EntriesLast entries
  | _ => True

/-- All items last. -/
def AllLast : List Value → Prop
  | [] => True
  | v :: rest => v.Lasting ∧ AllLast rest

/-- The values of all entries last. -/
def EntriesLast : List (Key × Value) → Prop
  | [] => True
  | (_, v) :: rest => v.Lasting ∧ EntriesLast rest

end

theorem lasting_list {items : List Value} :
    (Value.list items).Lasting ↔ ∀ v ∈ items, v.Lasting := by
  rw [Lasting]
  induction items with
  | nil => simp [AllLast]
  | cons v rest ih => simp [AllLast, ih]

theorem lasting_map {entries : Entries} : (Value.map entries).Lasting ↔
    Key.AreLasting (entries.map Prod.fst) ∧ ∀ e ∈ entries, e.2.Lasting := by
  have hvalues : EntriesLast entries ↔ ∀ e ∈ entries, e.2.Lasting := by
    induction entries with
    | nil => simp [EntriesLast]
    | cons e rest ih => simp [EntriesLast, ih]
  rw [Lasting, hvalues]

end Value

/-! ### Keys -/

namespace Key.AreLasting

variable {entries : Entries}

/-- The entries in order have their texts in order. -/
theorem pairwise_sorted (h : AreLasting (entries.map Prod.fst)) :
    (Json.sorted entries).Pairwise fun a b => a.1.stored < b.1.stored := by
  have hkeys : (Sorting.sort Json.keyLe (entries.map Prod.fst)).map Key.stored =
      (Json.sorted entries).map fun e => e.1.stored := by
    rw [Json.sorted, Sorting.sort_map Prod.fst (fun _ _ => rfl) entries, List.map_map]
    rfl
  have hsorted := h.sorted
  rwa [hkeys, List.pairwise_map] at hsorted

/-- The keys are stored under different texts. -/
theorem nodup_stored (h : AreLasting (entries.map Prod.fst)) :
    (entries.map fun e => e.1.stored).Nodup := by
  have hsorted : ((Json.sorted entries).map fun e => e.1.stored).Nodup := by
    rw [List.Nodup, List.pairwise_map]
    exact h.pairwise_sorted.imp ne_of_lt
  exact ((Json.sorted_perm entries).map _).nodup_iff.mp hsorted

/-- The entries are stored in the order in which they are hashed. -/
theorem sorted_stored (h : AreLasting (entries.map Prod.fst)) :
    Json.sorted (entries.map fun e => (Key.text e.1.stored, e.2.stored)) =
      (Json.sorted entries).map fun e => (Key.text e.1.stored, e.2.stored) := by
  have hperm : (entries.map fun e => (Key.text e.1.stored, e.2.stored)).Perm
      ((Json.sorted entries).map fun e => (Key.text e.1.stored, e.2.stored)) :=
    ((Json.sorted_perm entries).map _).symm
  have hnodup : ((entries.map fun e => (Key.text e.1.stored, e.2.stored)).map Prod.fst).Nodup := by
    have htexts := h.nodup_stored.map fun (a b : String) (h : Key.text a = Key.text b) =>
      Key.text.inj h
    rw [List.map_map] at htexts ⊢
    exact htexts
  have htexts : ∀ e ∈ entries.map fun e => (Key.text e.1.stored, e.2.stored), ∃ s, e.1 = .text s :=
    List.forall_mem_map.mpr fun e _ => ⟨e.1.stored, rfl⟩
  rw [Value.sorted_eq_of_perm hperm hnodup htexts]
  -- in the order of their keys they are in the order of their texts already
  refine Sorting.sort_of_isChain (List.Pairwise.isChain ?_)
  rw [List.pairwise_map]
  exact h.pairwise_sorted.imp fun hlt => decide_eq_true (le_of_lt hlt)

/-- Different texts are lasting keys. -/
theorem of_texts {keys : List Key} (ht : ∀ k ∈ keys, ∃ s, k = .text s) (hn : keys.Nodup) :
    AreLasting keys := by
  obtain ⟨names, rfl⟩ : ∃ names : List String, keys = names.map Key.text := by
    induction keys with
    | nil => exact ⟨[], rfl⟩
    | cons k rest ih =>
      obtain ⟨s, rfl⟩ := ht k List.mem_cons_self
      obtain ⟨names, rfl⟩ := ih (fun k hk => ht k (List.mem_cons_of_mem _ hk)) hn.of_cons
      exact ⟨s :: names, rfl⟩
  have hsort : Sorting.sort Json.keyLe (names.map Key.text) = (Sorting.texts names).map Key.text :=
    Sorting.sort_map Key.text (fun _ _ => rfl) names
  have hstored : (Sorting.texts names).map (Key.stored ∘ Key.text) = Sorting.texts names :=
    List.map_id _
  refine ⟨Json.firstClash_text ht, List.forall_mem_map.mpr fun s _ => rfl, ?_⟩
  rw [hsort, List.map_map, hstored]
  have hle : (Sorting.texts names).Pairwise fun a b => decide (a ≤ b) = true :=
    Sorting.pairwise_sort (fun a b => by simpa using le_total a b)
      (fun a b c => by simpa using le_trans) names
  have hne : (Sorting.texts names).Nodup :=
    (Sorting.sort_perm _ names).nodup_iff.mpr (List.Nodup.of_map _ hn)
  exact hle.imp₂ (fun _ _ h hne => lt_of_le_of_ne (of_decide_eq_true h) hne) hne

end Key.AreLasting

namespace Value

/-- **What lasts is hashed** as it is stored. -/
theorem Lasting.sameText_stored {v : Value} (h : v.Lasting) : v.SameText v.stored := by
  induction v using rises with
  | timestamp t => exact h.elim
  | float x =>
    have hx : x.isFinite = true := h
    rw [stored, if_pos hx]
    exact .refl _
  | date d => exact fun _ => Iff.rfl
  | list items ih =>
    rw [stored, storedAll_eq]
    intro text
    have hitems : Json.write Json.stable (.list (items.map fun v => v)) = .ok text ↔
        Json.write Json.stable (.list (items.map stored)) = .ok text :=
      Json.write_list_congr fun v hv => ih v hv (lasting_list.mp h v hv)
    rwa [List.map_id'] at hitems
  | map entries ih =>
    obtain ⟨hkeys, hvalues⟩ := lasting_map.mp h
    have htexts : Json.firstClash ((entries.map fun e =>
        (Key.text e.1.stored, e.2.stored)).map Prod.fst) = none := by
      refine Json.firstClash_text fun k hk => ?_
      simp only [List.map_map, List.mem_map, Function.comp_apply] at hk
      obtain ⟨e, -, rfl⟩ := hk
      exact ⟨_, rfl⟩
    have hrows (texts : List (List Char)) :
        (Json.sorted entries).mapM
            (fun e => Json.entryText Json.stable (e.1, Json.write Json.stable e.2)) = .ok texts ↔
          (Json.sorted entries).mapM (fun e => Json.entryText Json.stable
            (.text e.1.stored, Json.write Json.stable e.2.stored)) = .ok texts := by
      refine Json.mapM_ok_congr fun e he _ => Json.entryText_congr ?_ ?_
      · exact hkeys.same e.1 (List.mem_map_of_mem (Json.mem_sorted.mp he))
      · exact ih e (Json.mem_sorted.mp he) (hvalues e (Json.mem_sorted.mp he))
    intro text
    rw [stored_map_of_nodup hkeys.nodup_stored]
    simp only [Json.write_map_iff, hkeys.ordered, htexts, hkeys.sorted_stored, List.mapM_map,
      Function.comp_def, hrows]
  | _ => exact .refl _

/-- **What lasts is hashed** in the same way after it has been stored and read. -/
theorem Lasting.sameText_reread {v : Value} (h : v.Lasting) : v.SameText v.reread :=
  h.sameText_stored.trans fun _ => (write_canonical Json.stable v.stored).symm

/-- **JSON documents with finite numbers** last. -/
theorem IsStrict.lasting {v : Value} (h : v.IsStrict) : v.Lasting := by
  induction v using rises with
  | date d => exact h.plain.elim
  | timestamp t => exact h.plain.elim
  | float x => exact h.finite
  | list items ih => exact lasting_list.mpr fun v hv => ih v hv (isStrict_list.mp h v hv)
  | map entries ih =>
    obtain ⟨hn, he⟩ := isStrict_map.mp h
    refine lasting_map.mpr ⟨.of_texts ?_ hn, fun e hm => ih e hm (he e hm).2⟩
    exact List.forall_mem_map.mpr fun e hm => (he e hm).1
  | _ => trivial

end Value

end Rollout
