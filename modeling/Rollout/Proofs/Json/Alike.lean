import Mathlib.Data.List.Chain
import Mathlib.Data.List.Sort
import Mathlib.Data.String.Basic
import Mathlib.Algebra.Order.Ring.Unbundled.Rat
import Rollout.Proofs.Reference.Path
import Rollout.Text.Digest

/-!
# Values up to the order of entries

Two values are alike if they differ only in the order of the entries of their mappings, and in the
bits of what is no number. To tell that, every value has a canonical form: the entries of every
mapping are put in the order in which they are written.

Values that are alike have the same text, and so the same fingerprint; and a document in which
references are replaced by outputs that are alike is alike.

**Types.** `Value.Alike`, `Value.SameText`, `Value.Mentions`.

**Operations.** `Json.sorted`, `Value.canonical`.

**Results.**
* `write_canonical`: a value is written as its canonical form is;
* `Alike.sameText`, `SameText.fingerprint`: values that are alike have the same text, and values
  with the same text the same fingerprint;
* `alike_map_of_perm`: the order of entries with different text keys does not matter;
* `Alike.exists_entry`, `Alike.get?`: the entries of mappings that are alike;
* `Alike.replaced`, `sameText_replaced`: replacing references in documents that are alike, and by
  values with the same text.
-/

namespace Rollout

/-! ### Sorting -/

namespace Sorting

variable {α β : Type} {le : α → α → Bool}

/-- Inserting keeps neighbours in order, if the order tells any two items apart or lets them stand
either way. -/
theorem chain_insert (total : ∀ a b, le a b ∨ le b a) (x : α) {items : List α}
    (h : items.IsChain fun a b => le a b = true) :
    (insert le x items).IsChain fun a b => le a b = true := by
  induction items with
  | nil => exact .singleton x
  | cons y rest ih =>
    by_cases hxy : le x y
    · rw [insert, if_pos hxy]
      exact .cons_cons hxy h
    · have hyx : le y x = true := (total x y).resolve_left hxy
      rw [insert, if_neg hxy]
      cases rest with
      | nil => exact .cons_cons hyx (.singleton x)
      | cons z rest =>
        have hrest := ih h.of_cons
        rw [insert] at hrest ⊢
        split
        · rename_i hxz
          rw [if_pos hxz] at hrest
          exact .cons_cons hyx hrest
        · rename_i hxz
          rw [if_neg hxz] at hrest
          exact .cons_cons (List.isChain_cons_cons.mp h).1 hrest

/-- Items whose neighbours are in order are sorted. -/
theorem sort_of_isChain {items : List α} (h : items.IsChain fun a b => le a b = true) :
    sort le items = items := by
  induction items with
  | nil => rfl
  | cons x rest ih =>
    change insert le x (sort le rest) = x :: rest
    rw [ih h.of_cons]
    cases rest with
    | nil => rfl
    | cons y rest => rw [insert, if_pos (List.isChain_cons_cons.mp h).1]

/-- A sorted list stays as it is. -/
theorem sort_sort (total : ∀ a b, le a b ∨ le b a) (items : List α) :
    sort le (sort le items) = sort le items := by
  refine sort_of_isChain ?_
  induction items with
  | nil => exact .nil
  | cons x rest ih => exact chain_insert total x ih

/-- Items that are changed without a change of their order are sorted as before. -/
theorem sort_map {le' : β → β → Bool} (f : α → β) (h : ∀ a b, le' (f a) (f b) = le a b)
    (items : List α) : sort le' (items.map f) = (sort le items).map f := by
  have hinsert (x : α) (items : List α) :
      insert le' (f x) (items.map f) = (insert le x items).map f := by
    induction items with
    | nil => rfl
    | cons y rest ih =>
      rw [List.map_cons, insert, insert, h x y]
      split
      · rfl
      · rw [ih, List.map_cons]
  induction items with
  | nil => rfl
  | cons x rest ih =>
    change insert le' (f x) (sort le' (rest.map f)) = (insert le x (sort le rest)).map f
    rw [ih, hinsert]

end Sorting

namespace Json

/-- Keys that are no texts and no calendar values are compared as numbers. -/
theorem keyLe_numbers {a b : Key} (h : keyClass a ≠ keyClass b ∨
    keyClass a ∈ [.none, .number, .tuple]) :
    keyLe a b = match a.number?, b.number? with
      | some p, some q => decide (p ≤ q)
      | _, _ => true := by
  refine (keyLe.eq_4 a b ?_ ?_ ?_).trans rfl
  all_goals
    rintro s t rfl rfl
    simp [keyClass] at h

/-- Of two keys at least one does not come after the other. -/
theorem keyLe_total (a b : Key) : keyLe a b = true ∨ keyLe b a = true := by
  by_cases h : keyClass a ≠ keyClass b ∨ keyClass a ∈ [KeyClass.none, .number, .tuple]
  · have hback : keyClass b ≠ keyClass a ∨ keyClass b ∈ [KeyClass.none, .number, .tuple] := by
      grind
    rw [keyLe_numbers h, keyLe_numbers hback]
    cases a.number? with
    | none => exact Or.inl rfl
    | some p =>
      cases b.number? with
      | none => exact Or.inl rfl
      | some q => simpa using le_total p q
  · cases a <;> cases b <;> simp [keyClass] at h
    · simpa [keyLe] using le_total _ _
    · simpa [keyLe] using le_total _ _
    · simpa [keyLe] using le_total _ _

/-- Keys have no clash if they are all of one class. -/
theorem firstClash_eq_none_iff {keys : List Key} :
    firstClash keys = none ↔ ∀ a ∈ keys, ∀ b ∈ keys, keyClass a = keyClass b := by
  induction keys with
  | nil => simp [firstClash]
  | cons a rest ih =>
    cases rest with
    | nil => simp [firstClash]
    | cons b rest =>
      rw [firstClash]
      split
      · rename_i hclass
        rw [ih]
        constructor
        · intro h x hx y hy
          have hfirst {k : Key} (hk : k ∈ a :: b :: rest) : keyClass k = keyClass b := by
            rcases List.mem_cons.mp hk with rfl | hk
            · exact hclass
            · exact h k hk b List.mem_cons_self
          rw [hfirst hx, hfirst hy]
        · exact fun h x hx y hy => h x (List.mem_cons_of_mem _ hx) y (List.mem_cons_of_mem _ hy)
      · rename_i hclass
        simp only [reduceCtorEq, false_iff]
        exact fun h => hclass (h a List.mem_cons_self b (by simp))

theorem firstClash_perm {keys keys' : List Key} (h : keys.Perm keys') :
    firstClash keys = none ↔ firstClash keys' = none := by
  simp only [firstClash_eq_none_iff, h.mem_iff]

/-- Entries in the order in which they are written. -/
def sorted {α : Type} (entries : List (Key × α)) : List (Key × α) :=
  Sorting.sort (fun x y => keyLe x.1 y.1) entries

theorem sorted_sorted {α : Type} (entries : List (Key × α)) :
    sorted (sorted entries) = sorted entries :=
  Sorting.sort_sort (fun _ _ => keyLe_total _ _) entries

theorem sorted_map {α β : Type} (f : α → β) (entries : List (Key × α)) :
    sorted (entries.map fun e => (e.1, f e.2)) = (sorted entries).map fun e => (e.1, f e.2) :=
  Sorting.sort_map (fun e : Key × α => (e.1, f e.2)) (fun _ _ => rfl) entries

theorem sorted_perm {α : Type} (entries : List (Key × α)) : (sorted entries).Perm entries :=
  Sorting.sort_perm _ entries

theorem mem_sorted {α : Type} {e : Key × α} {entries : List (Key × α)} :
    e ∈ sorted entries ↔ e ∈ entries := Sorting.mem_sort

theorem mapM_cons_ok_iff {ε α β : Type} {f : α → Except ε β} {a : α} {rest : List α}
    {out : List β} : (a :: rest).mapM f = .ok out ↔
      ∃ b others, f a = .ok b ∧ rest.mapM f = .ok others ∧ b :: others = out := by
  rw [List.mapM_cons]
  cases f a with
  | error fault => simp [bind, Except.bind]
  | ok b => cases rest.mapM f <;> simp [bind, Except.bind, pure, Except.pure]

/-- Changes that succeed alike on every item give the same list. -/
theorem mapM_ok_congr {ε α β : Type} {f g : α → Except ε β} {items : List α}
    (h : ∀ a ∈ items, ∀ b, f a = .ok b ↔ g a = .ok b) {out : List β} :
    items.mapM f = .ok out ↔ items.mapM g = .ok out := by
  induction items generalizing out with
  | nil => rfl
  | cons a rest ih =>
    have hrest (others : List β) : rest.mapM f = .ok others ↔ rest.mapM g = .ok others :=
      ih fun a ha => h a (List.mem_cons_of_mem _ ha)
    simp only [mapM_cons_ok_iff, h a List.mem_cons_self, hrest]

/-- How a list is written. -/
theorem write_list_iff {style : Style} {items : List Value} {text : List Char} :
    write style (.list items) = .ok text ↔ ∃ texts, items.mapM (write style) = .ok texts ∧
      '[' :: joined style.itemGap texts ++ [']'] = text := by
  rw [write, Value.writeItems_eq]
  cases items.mapM (write style) <;> simp [bind, Except.bind, pure, Except.pure]

/-- How a mapping is written. -/
theorem write_map_iff {style : Style} {entries : Entries} {text : List Char} :
    write style (.map entries) = .ok text ↔ firstClash (entries.map Prod.fst) = none ∧
      ∃ texts, (sorted entries).mapM (fun e => entryText style (e.1, write style e.2)) =
          .ok texts ∧ '{' :: joined style.itemGap texts ++ ['}'] = text := by
  rw [write, Value.writeEntries_eq, sortEntries, List.map_map]
  have hkeys : entries.map (Prod.fst ∘ fun e => (e.1, write style e.2)) = entries.map Prod.fst := rfl
  rw [hkeys]
  cases hclash : firstClash (entries.map Prod.fst) with
  | some clash => simp [bind, Except.bind]
  | none =>
    have hsorted := sorted_map (write style) entries
    rw [sorted] at hsorted
    simp only [hsorted, bind, Except.bind, pure, Except.pure, List.mapM_map, true_and,
      Function.comp_def]
    cases (sorted entries).mapM fun e => entryText style (e.1, write style e.2) <;> simp

/-- Entries are written alike if their keys have the same text, and their values are written alike. -/
theorem entryText_congr {style : Style} {key key' : Key} (hkey : keyText key = keyText key')
    {value value' : Except Fault (List Char)} (h : ∀ text, value = .ok text ↔ value' = .ok text)
    {text : List Char} :
    entryText style (key, value) = .ok text ↔ entryText style (key', value') = .ok text := by
  unfold entryText
  rw [hkey]
  cases keyText key' with
  | error fault => rfl
  | ok name =>
    simp only [bind, Except.bind, pure, Except.pure]
    cases value with
    | ok written => rw [(h written).mp rfl]
    | error fault =>
      cases value' with
      | ok written => cases (h written).mpr rfl
      | error fault' => simp

/-- Lists are written alike if their items are. -/
theorem write_list_congr {α : Type} {style : Style} {items : List α} {f g : α → Value}
    (h : ∀ a ∈ items, ∀ text, write style (f a) = .ok text ↔ write style (g a) = .ok text)
    {text : List Char} :
    write style (.list (items.map f)) = .ok text ↔ write style (.list (items.map g)) = .ok text := by
  have hitems (texts : List (List Char)) : items.mapM (fun a => write style (f a)) = .ok texts ↔
      items.mapM (fun a => write style (g a)) = .ok texts := mapM_ok_congr h
  simp only [write_list_iff, List.mapM_map, Function.comp_def, hitems]

/-- Mappings with the same keys are written alike if their values are. -/
theorem write_map_congr {α : Type} {style : Style} {rows : List (Key × α)} {f g : α → Value}
    (h : ∀ e ∈ rows, ∀ text, write style (f e.2) = .ok text ↔ write style (g e.2) = .ok text)
    {text : List Char} :
    write style (.map (rows.map fun e => (e.1, f e.2))) = .ok text ↔
      write style (.map (rows.map fun e => (e.1, g e.2))) = .ok text := by
  have hrows (texts : List (List Char)) :
      (sorted rows).mapM (fun e => entryText style (e.1, write style (f e.2))) = .ok texts ↔
        (sorted rows).mapM (fun e => entryText style (e.1, write style (g e.2))) = .ok texts :=
    mapM_ok_congr fun e he _ => entryText_congr rfl (h e (mem_sorted.mp he))
  simp only [write_map_iff, sorted_map, List.mapM_map, List.map_map, Function.comp_def, hrows]

/-- A mapping is written as the one with its entries in order. -/
theorem write_sorted {style : Style} {entries : Entries} {text : List Char} :
    write style (.map (sorted entries)) = .ok text ↔ write style (.map entries) = .ok text := by
  rw [write_map_iff, write_map_iff, sorted_sorted,
    firstClash_perm ((sorted_perm entries).map Prod.fst)]

end Json

/-! ### Canonical values -/

/-- The number, with one choice of bits for what is no number. -/
def Binary64.canonical (x : Binary64) : Binary64 :=
  if x.reading = .notANumber then nan else x

theorem Json.floatText_canonical (x : Binary64) : floatText x.canonical = floatText x := by
  unfold Binary64.canonical
  split
  · rename_i hx
    have hnan : Binary64.nan.reading = .notANumber := by decide +kernel
    rw [floatText, floatText, hx, hnan]
  · rfl

namespace Value

mutual

/-- The value with the entries of every mapping in the order in which they are written, and with
one value for what is no number. -/
def canonical : Value → Value
  | .float x => .float x.canonical
  | .list items => .list (canonicalItems items)
  | .map entries => .map (Json.sorted (canonicalEntries entries))
  | v => v

/-- Canonical items. -/
def canonicalItems : List Value → List Value
  | [] => []
  | v :: rest => canonical v :: canonicalItems rest

/-- Entries with canonical values, in the order in which they stand. -/
def canonicalEntries : List (Key × Value) → List (Key × Value)
  | [] => []
  | (k, v) :: rest => (k, canonical v) :: canonicalEntries rest

end

theorem canonical_list (items : List Value) :
    (Value.list items).canonical = .list (items.map canonical) := by
  rw [canonical, list.injEq]
  induction items with
  | nil => rfl
  | cons v rest ih => rw [canonicalItems, ih, List.map_cons]

theorem canonical_map (entries : Entries) : (Value.map entries).canonical =
    .map ((Json.sorted entries).map fun e => (e.1, e.2.canonical)) := by
  have hentries : canonicalEntries entries = entries.map fun e => (e.1, e.2.canonical) := by
    induction entries with
    | nil => rfl
    | cons e rest ih => rw [canonicalEntries, ih, List.map_cons]
  rw [canonical, hentries, Json.sorted_map]

/-- **A value is written** as its canonical form is. -/
theorem write_canonical (style : Json.Style) (v : Value) {text : List Char} :
    Json.write style v.canonical = .ok text ↔ Json.write style v = .ok text := by
  induction v using rises generalizing text with
  | float x => rw [canonical, Json.write, Json.write, Json.floatText_canonical]
  | list items ih =>
    have hitems : Json.write style (.list (items.map canonical)) = .ok text ↔
        Json.write style (.list (items.map fun v => v)) = .ok text :=
      Json.write_list_congr fun v hv _ => ih v hv
    rw [canonical_list, hitems, List.map_id']
  | map entries ih =>
    have hentries : Json.write style
        (.map ((Json.sorted entries).map fun e => (e.1, e.2.canonical))) = .ok text ↔
          Json.write style (.map ((Json.sorted entries).map fun e => (e.1, e.2))) = .ok text :=
      Json.write_map_congr (g := fun v => v) fun e he _ => ih e (Json.mem_sorted.mp he)
    rw [canonical_map, hentries, List.map_id']
    exact Json.write_sorted
  | _ => rfl

/-- A canonical value is its own canonical form. -/
theorem canonical_canonical (v : Value) : v.canonical.canonical = v.canonical := by
  induction v using rises with
  | float x =>
    have hnan : Binary64.nan.reading = .notANumber := by decide +kernel
    simp only [canonical, Binary64.canonical]
    split <;> simp_all
  | list items ih =>
    rw [canonical_list, canonical_list, List.map_map]
    exact congrArg Value.list (List.map_congr_left ih)
  | map entries ih =>
    rw [canonical_map, canonical_map, Json.sorted_map, Json.sorted_sorted, List.map_map]
    refine congrArg Value.map (List.map_congr_left fun e he => ?_)
    exact Prod.ext rfl (ih e (Json.mem_sorted.mp he))
  | _ => rfl

/-- Two values differ only in the order of the entries of their mappings, and in what is no
number. -/
def Alike (v w : Value) : Prop := v.canonical = w.canonical

theorem Alike.refl (v : Value) : v.Alike v := Eq.refl v.canonical

theorem Alike.symm {v w : Value} (h : v.Alike w) : w.Alike v := Eq.symm h

theorem Alike.trans {u v w : Value} (h : u.Alike v) (h' : v.Alike w) : u.Alike w := Eq.trans h h'

/-- Two values have the same text, or neither of them has one. -/
def SameText (v w : Value) : Prop :=
  ∀ text, Json.write Json.stable v = .ok text ↔ Json.write Json.stable w = .ok text

theorem SameText.refl (v : Value) : v.SameText v := fun _ => Iff.rfl

theorem SameText.trans {u v w : Value} (h : u.SameText v) (h' : v.SameText w) : u.SameText w :=
  fun text => (h text).trans (h' text)

/-- **Values with the same text** have the same fingerprint. -/
theorem SameText.fingerprint {v w : Value} (h : v.SameText w) {digest : String} :
    Digest.fingerprint v = .ok digest ↔ Digest.fingerprint w = .ok digest := by
  simp only [Digest.fingerprint, Digest.stableText]
  cases hv : Json.write Json.stable v with
  | ok text => rw [(h text).mp hv]
  | error fault =>
    cases hw : Json.write Json.stable w with
    | ok text => rw [(h text).mpr hw] at hv; cases hv
    | error fault' => simp [Except.map]

/-- **Values that are alike** have the same text. -/
theorem Alike.sameText {v w : Value} (h : v.Alike w) : v.SameText w := by
  intro text
  rw [← write_canonical, h, write_canonical]

/-- Values that are alike have the same fingerprint. -/
theorem Alike.fingerprint {v w : Value} (h : v.Alike w) {digest : String} :
    Digest.fingerprint v = .ok digest ↔ Digest.fingerprint w = .ok digest :=
  h.sameText.fingerprint

/-! ### Mappings -/

/-- Mappings with the same keys, in the same order, and values that are alike. -/
theorem alike_map {entries entries' : Entries}
    (h : List.Forall₂ (fun e e' => e.1 = e'.1 ∧ e.2.Alike e'.2) entries entries') :
    (Value.map entries).Alike (.map entries') := by
  have hvalues : (entries.map fun e => (e.1, e.2.canonical)) =
      entries'.map fun e => (e.1, e.2.canonical) := by
    induction h with
    | nil => rfl
    | cons h _ ih => rw [List.map_cons, List.map_cons, ih, h.1, h.2]
  rw [Alike, canonical_map, canonical_map, ← Json.sorted_map, ← Json.sorted_map, hvalues]

/-- Mappings with the same keys, in the same order, and values with the same text. -/
theorem sameText_map {entries entries' : Entries}
    (h : List.Forall₂ (fun e e' => e.1 = e'.1 ∧ e.2.SameText e'.2) entries entries') :
    (Value.map entries).SameText (.map entries') := by
  obtain ⟨rows, rfl, rfl, hrows⟩ : ∃ rows : List (Key × Value × Value),
      entries = rows.map (fun e => (e.1, e.2.1)) ∧ entries' = rows.map (fun e => (e.1, e.2.2)) ∧
        ∀ e ∈ rows, e.2.1.SameText e.2.2 := by
    induction h with
    | nil => exact ⟨[], rfl, rfl, nofun⟩
    | @cons e e' entries entries' he _ ih =>
      obtain ⟨rows, rfl, rfl, hrows⟩ := ih
      refine ⟨(e.1, e.2, e'.2) :: rows, rfl, ?_, List.forall_mem_cons.mpr ⟨he.2, hrows⟩⟩
      rw [List.map_cons, he.1]
  exact fun _ => Json.write_map_congr (f := Prod.fst) (g := Prod.snd) hrows

/-- Entries with text keys are sorted by them. -/
theorem pairwise_sorted {entries : Entries} (ht : ∀ e ∈ entries, ∃ s, e.1 = .text s) :
    (Json.sorted entries).Pairwise fun a b => Json.keyLe a.1 b.1 = true := by
  obtain ⟨named, rfl⟩ : ∃ named : List (String × Value),
      entries = named.map fun e => (Key.text e.1, e.2) := by
    induction entries with
    | nil => exact ⟨[], rfl⟩
    | cons e rest ih =>
      obtain ⟨s, hs⟩ := ht e List.mem_cons_self
      obtain ⟨named, rfl⟩ := ih fun e he => ht e (List.mem_cons_of_mem _ he)
      exact ⟨(s, e.2) :: named, by rw [List.map_cons, ← hs]⟩
  have hmap : Json.sorted (named.map fun e => (Key.text e.1, e.2)) =
      (Sorting.sort (fun a b => decide (a.1 ≤ b.1)) named).map fun e => (Key.text e.1, e.2) :=
    Sorting.sort_map _ (fun _ _ => rfl) named
  rw [hmap, List.pairwise_map]
  refine Sorting.pairwise_sort (fun a b => ?_) (fun a b c => ?_) named
  · simpa [Json.keyLe] using le_total a.1 b.1
  · simpa [Json.keyLe] using le_trans

/-- **Entries with different text keys** have one order. -/
theorem sorted_eq_of_perm {entries entries' : Entries} (h : entries.Perm entries')
    (hn : (entries.map Prod.fst).Nodup) (ht : ∀ e ∈ entries, ∃ s, e.1 = .text s) :
    Json.sorted entries = Json.sorted entries' := by
  refine List.Perm.eq_of_pairwise ?_ (pairwise_sorted ht)
    (pairwise_sorted fun e he => ht e (h.mem_iff.mpr he))
    ((Json.sorted_perm entries).trans (h.trans (Json.sorted_perm entries').symm))
  intro a b ha hb hab hba
  have ha := Json.mem_sorted.mp ha
  have hb := h.mem_iff.mpr (Json.mem_sorted.mp hb)
  obtain ⟨s, hs⟩ := ht a ha
  obtain ⟨t, ht⟩ := ht b hb
  rw [hs, ht] at hab hba
  have hkey : a.1 = b.1 := by
    rw [hs, ht, le_antisymm (of_decide_eq_true hab) (of_decide_eq_true hba)]
  exact List.inj_on_of_nodup_map hn ha hb hkey

/-- **The order of entries** with different text keys does not matter. -/
theorem alike_map_of_perm {entries entries' : Entries} (h : entries.Perm entries')
    (hn : (entries.map Prod.fst).Nodup) (ht : ∀ e ∈ entries, ∃ s, e.1 = .text s) :
    (Value.map entries).Alike (.map entries') := by
  rw [Alike, canonical_map, canonical_map, sorted_eq_of_perm h hn ht]

/-- What mappings that are alike have in common. -/
theorem Alike.entries {entries entries' : Entries} (h : (Value.map entries).Alike (.map entries')) :
    (Json.sorted entries).map (fun e => (e.1, e.2.canonical)) =
      (Json.sorted entries').map fun e => (e.1, e.2.canonical) := by
  rw [Alike, canonical_map, canonical_map] at h
  exact Value.map.inj h

/-- Every entry of a mapping is found in one that is alike. -/
theorem Alike.exists_entry {entries entries' : Entries}
    (h : (Value.map entries).Alike (.map entries')) {e : Key × Value} (he : e ∈ entries) :
    ∃ e' ∈ entries', e.1 = e'.1 ∧ e.2.Alike e'.2 := by
  have hm : (e.1, e.2.canonical) ∈ (Json.sorted entries').map fun e => (e.1, e.2.canonical) := by
    rw [← h.entries]
    exact List.mem_map.mpr ⟨e, Json.mem_sorted.mpr he, rfl⟩
  obtain ⟨e', he', heq⟩ := List.mem_map.mp hm
  obtain ⟨hkey, hvalue⟩ := Prod.mk.inj heq
  exact ⟨e', Json.mem_sorted.mp he', hkey.symm, hvalue.symm⟩

/-- The value of a text key does not depend on the order of the entries. -/
theorem get?_sorted {entries : Entries} (h : ∀ e ∈ entries, ∃ s, e.1 = .text s) (s : String) :
    Entries.get? (.text s) (Json.sorted entries) = Entries.get? (.text s) entries := by
  have hinsert {e : Key × Value} {items : Entries} (he : ∃ t, e.1 = .text t)
      (hitems : ∀ e ∈ items, ∃ t, e.1 = .text t) :
      Entries.get? (.text s) (Sorting.insert (fun x y => Json.keyLe x.1 y.1) e items) =
        Entries.get? (.text s) (e :: items) := by
    induction items with
    | nil => rfl
    | cons y rest ih =>
      rw [Sorting.insert]
      split
      · rfl
      · rename_i hle
        -- entries that change places differ in their keys
        have hne : e.1 ≠ y.1 := by
          intro heq
          obtain ⟨t, ht⟩ := he
          rw [← heq, ht] at hle
          exact hle (by simp [Json.keyLe])
        rw [Entries.get?, ih fun e he => hitems e (List.mem_cons_of_mem _ he)]
        obtain ⟨t, ht⟩ := he
        obtain ⟨u, hu⟩ := hitems y List.mem_cons_self
        simp only [Entries.get?, ht, hu, Key.same_text, decide_eq_true_eq, Key.text.injEq] at hne ⊢
        split <;> split <;> simp_all
  induction entries with
  | nil => rfl
  | cons e rest ih =>
    have hrest := fun e he => h e (List.mem_cons_of_mem _ he)
    change Entries.get? _ (Sorting.insert _ e (Json.sorted rest)) = _
    rw [hinsert (h e List.mem_cons_self) fun e he => hrest e (Json.mem_sorted.mp he), Entries.get?,
      Entries.get?, ih hrest]

/-- The value under a key, after all values have been changed. -/
theorem get?_mapValues (f : Value → Value) (key : Key) (entries : Entries) :
    Entries.get? key (entries.map fun e => (e.1, f e.2)) = (Entries.get? key entries).map f := by
  induction entries with
  | nil => rfl
  | cons e rest ih =>
    rw [List.map_cons, Entries.get?, Entries.get?, ih]
    split <;> rfl

/-- **Mappings with text keys** that are alike have values that are alike. -/
theorem Alike.get? {entries entries' : Entries} (h : (Value.map entries).Alike (.map entries'))
    (ht : ∀ e ∈ entries, ∃ s, e.1 = .text s) {s : String} {v : Value}
    (hv : Entries.get? (.text s) entries = some v) :
    ∃ w, Entries.get? (.text s) entries' = some w ∧ v.Alike w := by
  have ht' : ∀ e ∈ entries', ∃ s, e.1 = .text s := by
    intro e he
    obtain ⟨e', he', hkey, -⟩ := h.symm.exists_entry he
    rw [hkey]
    exact ht e' he'
  have hboth : (Entries.get? (.text s) entries).map canonical =
      (Entries.get? (.text s) entries').map canonical := by
    rw [← get?_sorted ht, ← get?_sorted ht', ← get?_mapValues, ← get?_mapValues,
      h.entries]
  rw [hv, Option.map_some, eq_comm, Option.map_eq_some_iff] at hboth
  obtain ⟨w, hw, heq⟩ := hboth
  exact ⟨w, hw, heq.symm⟩

/-! ### Replaced references -/

/-- A leaf of the value is the reference. -/
inductive Mentions (r : Reference) : Value → Prop
  | text {s : String} (h : Reference.parse? s = some r) : Mentions r (.text s)
  | item {items : List Value} {v : Value} (hv : v ∈ items) (h : Mentions r v) :
    Mentions r (.list items)
  | entry {entries : Entries} {e : Key × Value} (he : e ∈ entries) (h : Mentions r e.2) :
    Mentions r (.map entries)

/-- A document is replaced in by what is said about the references that it mentions. -/
theorem replaced_congr {f g : Reference → Value} {v : Value}
    (h : ∀ r, Mentions r v → f r = g r) :
    v.mapLeaves (replace f) = v.mapLeaves (replace g) := by
  induction v using rises with
  | text s =>
    simp only [mapLeaves, replace]
    cases hs : Reference.parse? s with
    | none => rfl
    | some r => exact h r (.text hs)
  | list items ih =>
    simp only [mapLeaves, mapItems_eq]
    exact congrArg _ (List.map_congr_left fun v hv => ih v hv fun r hr => h r (.item hv hr))
  | map entries ih =>
    simp only [mapLeaves, mapEntries_eq]
    refine congrArg _ (List.map_congr_left fun e he => ?_)
    rw [ih e he fun r hr => h r (.entry he hr)]
  | _ => rfl

theorem mentions_canonical {r : Reference} {v : Value} :
    Mentions r v.canonical ↔ Mentions r v := by
  induction v using rises with
  | float x =>
    constructor
    · rintro ⟨⟩
    · rintro ⟨⟩
  | list items ih =>
    rw [canonical_list]
    constructor
    · rintro (_ | ⟨hv, h⟩ | _)
      obtain ⟨v, hm, rfl⟩ := List.mem_map.mp hv
      exact .item hm ((ih v hm).mp h)
    · rintro (_ | ⟨hv, h⟩ | _)
      exact .item (List.mem_map_of_mem hv) ((ih _ hv).mpr h)
  | map entries ih =>
    rw [canonical_map]
    constructor
    · rintro (_ | _ | ⟨he, h⟩)
      obtain ⟨e, hm, rfl⟩ := List.mem_map.mp he
      have hm := Json.mem_sorted.mp hm
      exact .entry hm ((ih e hm).mp h)
    · rintro (_ | _ | ⟨he, h⟩)
      exact .entry (List.mem_map_of_mem (Json.mem_sorted.mpr he)) ((ih _ he).mpr h)
  | _ => rfl

/-- The canonical form of a document with replaced references. -/
theorem canonical_replaced (f : Reference → Value) (v : Value) :
    (v.mapLeaves (replace f)).canonical =
      v.canonical.mapLeaves (replace fun r => (f r).canonical) := by
  induction v using rises with
  | text s =>
    simp only [canonical, mapLeaves, replace]
    cases Reference.parse? s with
    | none =>
      simp only [unescape]
      split <;> rfl
    | some r => rfl
  | list items ih =>
    rw [canonical_list, mapLeaves, mapLeaves, mapItems_eq, mapItems_eq, canonical_list, List.map_map,
      List.map_map]
    exact congrArg _ (List.map_congr_left fun v hv => ih v hv)
  | map entries ih =>
    rw [canonical_map, mapLeaves, mapLeaves, mapEntries_eq, mapEntries_eq, canonical_map,
      Json.sorted_map, List.map_map, List.map_map]
    refine congrArg _ (List.map_congr_left fun e he => ?_)
    simp only [Function.comp_apply, ih e (Json.mem_sorted.mp he)]
  | _ => rfl

/-- **Replacing references** in documents that are alike, by values that are alike. -/
theorem Alike.replaced {v w : Value} (h : v.Alike w) {f g : Reference → Value}
    (hf : ∀ r, Mentions r v → (f r).Alike (g r)) :
    (v.mapLeaves (replace f)).Alike (w.mapLeaves (replace g)) := by
  rw [Alike, canonical_replaced, canonical_replaced, ← h]
  exact replaced_congr fun r hr => hf r (mentions_canonical.mp hr)

/-- **Replacing references** by values with the same text. -/
theorem sameText_replaced {f g : Reference → Value} {v : Value}
    (h : ∀ r, Mentions r v → (f r).SameText (g r)) :
    (v.mapLeaves (replace f)).SameText (v.mapLeaves (replace g)) := by
  induction v using rises with
  | text s =>
    simp only [mapLeaves, replace]
    cases hs : Reference.parse? s with
    | none => exact fun _ => Iff.rfl
    | some r => exact h r (.text hs)
  | list items ih =>
    simp only [mapLeaves, mapItems_eq]
    exact fun _ => Json.write_list_congr fun v hv => ih v hv fun r hr => h r (.item hv hr)
  | map entries ih =>
    simp only [mapLeaves, mapEntries_eq]
    refine fun _ => Json.write_map_congr (f := mapLeaves (replace f))
      (g := mapLeaves (replace g)) fun e he => ?_
    exact ih e he fun r hr => h r (.entry he hr)
  | _ => exact fun _ => Iff.rfl

/-- A document mentions the references that are read from its leaves. -/
theorem mentions_iff_leaf {r : Reference} {v : Value} {path : Path} :
    Mentions r v ↔ ∃ e ∈ v.leaves path, Reference.parse? e.2 = some r := by
  induction v using rises generalizing path with
  | text s =>
    simp only [leaves, List.mem_singleton, exists_eq_left]
    exact ⟨fun h => by cases h; assumption, .text⟩
  | list items ih =>
    rw [leaves_list]
    constructor
    · intro h
      cases h with
      | @item _ v hv h =>
        obtain ⟨i, hi⟩ := List.getElem?_of_mem hv
        obtain ⟨leaf, hm, hr⟩ := (@ih v hv (path ++ [.int i])).mp h
        exact ⟨leaf, List.mem_flatMap.mpr ⟨(v, i), List.mem_zipIdx_iff_getElem?.mpr hi, hm⟩, hr⟩
    · rintro ⟨leaf, hleaf, hr⟩
      obtain ⟨e, he, hm⟩ := List.mem_flatMap.mp hleaf
      have hv := List.mem_of_getElem? (List.mem_zipIdx_iff_getElem?.mp he)
      exact .item hv ((ih e.1 hv).mpr ⟨leaf, hm, hr⟩)
  | map entries ih =>
    rw [leaves_map]
    constructor
    · intro h
      cases h with
      | @entry _ e he h =>
        obtain ⟨leaf, hm, hr⟩ := (@ih e he (path ++ [e.1])).mp h
        exact ⟨leaf, List.mem_flatMap.mpr ⟨e, he, hm⟩, hr⟩
    · rintro ⟨leaf, hleaf, hr⟩
      obtain ⟨e, he, hm⟩ := List.mem_flatMap.mp hleaf
      exact .entry he ((ih e he).mpr ⟨leaf, hm, hr⟩)
  | _ =>
    constructor
    · intro h
      cases h
    · rintro ⟨e, he, -⟩
      cases he

/-- The references of a document are those that it mentions. -/
theorem mentions_iff {r : Reference} {v : Value} {path : Path} :
    Mentions r v ↔ ∃ e ∈ v.references path, e.2 = r := by
  rw [mentions_iff_leaf, references]
  constructor
  · rintro ⟨⟨p, s⟩, he, hs⟩
    exact ⟨(p, r), List.mem_filterMap.mpr ⟨(p, s), he, by simp [hs]⟩, rfl⟩
  · rintro ⟨e, he, rfl⟩
    obtain ⟨leaf, hm, hs⟩ := List.mem_filterMap.mp he
    obtain ⟨reference, hparse, rfl⟩ := Option.map_eq_some_iff.mp hs
    exact ⟨leaf, hm, hparse⟩

end Value

end Rollout
