import Rollout.Proofs.Json.Alike

/-!
# The text of a JSON value

What the spaced style writes, without the writer: a list has its items in order, and a mapping has
its entries in the order of their keys, however they are ordered in the value. Items and entries
stand apart by a comma and a gap, and a key and its value by a colon and a gap.

**Types.** `Value.Spelled`.

**Results.**
* `Json.spaced_iff`: the writer gives this text, and no other one.
-/

namespace Rollout

/-- The JSON text of a value with its keys in order. A row is a part of the value with its text. -/
inductive Value.Spelled : Value → List Char → Prop
  | null : Spelled .null "null".toList
  | bool (b : Bool) : Spelled (.bool b) (if b then "true".toList else "false".toList)
  | int (i : Int) : Spelled (.int i) (Json.intText i)
  | float (x : Binary64) : Spelled (.float x) (Json.floatText x)
  | text (s : String) : Spelled (.text s) (Json.quoted true s)
  | list {rows : List (Value × List Char)} (h : ∀ r ∈ rows, Spelled r.1 r.2) :
      Spelled (.list (rows.map Prod.fst))
        ('[' :: [',', ' '].intercalate (rows.map Prod.snd) ++ [']'])
  | map {entries : Entries} {rows : List (String × Value × List Char)}
      (hrows : (rows.map fun r => (Key.text r.1, r.2.1)).Perm entries)
      (hsorted : rows.Pairwise fun r r' => r.1 < r'.1) (h : ∀ r ∈ rows, Spelled r.2.1 r.2.2) :
      Spelled (.map entries)
        ('{' :: [',', ' '].intercalate
          (rows.map fun r => Json.quoted true r.1 ++ ':' :: ' ' :: r.2.2) ++ ['}'])

namespace Json

theorem joined_eq_intercalate (gap : List Char) (texts : List (List Char)) :
    joined gap texts = (',' :: gap).intercalate texts := by
  induction texts with
  | nil => rfl
  | cons text rest ih =>
    cases rest with
    | nil => simp [joined, List.intercalate]
    | cons next rest =>
      rw [joined, ih]
      · simp [List.intercalate]
      · rintro ⟨⟩

/-- Attempts that succeed on all items give each item its result. -/
theorem mapM_ok_iff_rows {ε α β : Type} {f : α → Except ε β} {items : List α} {out : List β} :
    items.mapM f = .ok out ↔ ∃ rows : List (α × β), rows.map Prod.fst = items ∧
      rows.map Prod.snd = out ∧ ∀ r ∈ rows, f r.1 = .ok r.2 := by
  induction items generalizing out with
  | nil =>
    constructor
    · intro h
      exact ⟨[], rfl, Except.ok.inj h, by simp⟩
    · rintro ⟨rows, hitems, rfl, -⟩
      rw [List.map_eq_nil_iff.mp hitems]
      rfl
  | cons a rest ih =>
    rw [mapM_cons_ok_iff]
    constructor
    · rintro ⟨b, others, hb, hrest, rfl⟩
      obtain ⟨rows, rfl, rfl, hrows⟩ := ih.mp hrest
      exact ⟨(a, b) :: rows, rfl, rfl, List.forall_mem_cons.mpr ⟨hb, hrows⟩⟩
    · rintro ⟨rows, hitems, rfl, hrows⟩
      obtain ⟨r, rows, rfl, rfl, rfl⟩ := List.map_eq_cons_iff.mp hitems
      obtain ⟨hr, hrows⟩ := List.forall_mem_cons.mp hrows
      exact ⟨r.2, rows.map Prod.snd, hr, ih.mpr ⟨rows, rfl, rfl, hrows⟩, rfl⟩

theorem entryText_spaced_iff {k : String} {v : Value} {text : List Char} :
    entryText spaced (.text k, write spaced v) = .ok text ↔
      ∃ value, write spaced v = .ok value ∧ quoted true k ++ ':' :: ' ' :: value = text := by
  unfold entryText
  cases write spaced v <;> simp [keyText, spaced, bind, Except.bind, pure, Except.pure]

/-- The entries of a mapping with their texts. -/
theorem exists_rows {entries : Entries} (ht : ∀ e ∈ entries, ∃ s, e.1 = .text s)
    {texts : List (List Char)}
    (h : entries.mapM (fun e => entryText spaced (e.1, write spaced e.2)) = .ok texts) :
    ∃ rows : List (String × Value × List Char),
      rows.map (fun r => (Key.text r.1, r.2.1)) = entries ∧
      rows.map (fun r => quoted true r.1 ++ ':' :: ' ' :: r.2.2) = texts ∧
      ∀ r ∈ rows, write spaced r.2.1 = .ok r.2.2 := by
  induction entries generalizing texts with
  | nil => exact ⟨[], rfl, Except.ok.inj h, by simp⟩
  | cons e rest ih =>
    obtain ⟨k, v⟩ := e
    obtain ⟨⟨s, rfl⟩, hlater⟩ := List.forall_mem_cons.mp ht
    obtain ⟨text, others, htext, hrest, rfl⟩ := mapM_cons_ok_iff.mp h
    obtain ⟨value, hvalue, rfl⟩ := entryText_spaced_iff.mp htext
    obtain ⟨rows, rfl, rfl, hrows⟩ := ih hlater hrest
    exact ⟨(s, v, value) :: rows, rfl, rfl, List.forall_mem_cons.mpr ⟨hvalue, hrows⟩⟩

/-- Entries whose keys are texts in order are sorted. -/
theorem sorted_of_pairwise {α : Type} {rows : List (String × α)}
    (h : rows.Pairwise fun r r' => r.1 < r'.1) :
    sorted (rows.map fun r => (Key.text r.1, r.2)) = rows.map fun r => (Key.text r.1, r.2) := by
  refine Sorting.sort_of_isChain (List.Pairwise.isChain ?_)
  rw [List.pairwise_map]
  exact h.imp fun hlt => decide_eq_true hlt.le

/-- What is spelled is written. -/
theorem write_of_spelled {v : Value} {text : List Char} (h : v.Spelled text) :
    write spaced v = .ok text := by
  induction h with
  | null => rfl
  | bool b => rfl
  | int i => rfl
  | float x => rfl
  | text s => rfl
  | list _ ih =>
    refine write_list_iff.mpr ⟨_, mapM_ok_iff_rows.mpr ⟨_, rfl, rfl, ih⟩, ?_⟩
    rw [joined_eq_intercalate]
    rfl
  | @map entries rows hrows hsorted _ ih =>
    have htext : ∀ e ∈ rows.map fun r => (Key.text r.1, r.2.1), ∃ s, e.1 = .text s := by
      rw [List.forall_mem_map]
      exact fun r _ => ⟨r.1, rfl⟩
    have hdistinct : ((rows.map fun r => (Key.text r.1, r.2.1)).map Prod.fst).Nodup := by
      rw [List.map_map, List.Nodup, List.pairwise_map]
      exact hsorted.imp fun hlt heq => hlt.ne (Key.text.inj heq)
    -- the rows are in order already, and entries with different text keys have one order
    have horder : sorted entries = rows.map fun r => (Key.text r.1, r.2.1) := by
      rw [← Value.sorted_eq_of_perm hrows hdistinct htext]
      have hpairs : (rows.map fun r => (r.1, r.2.1)).Pairwise fun r r' => r.1 < r'.1 :=
        List.pairwise_map.mpr hsorted
      simpa [Function.comp_def] using sorted_of_pairwise hpairs
    have hclash : firstClash (entries.map Prod.fst) = none := by
      refine firstClash_text fun k hk => ?_
      obtain ⟨e, he, rfl⟩ := List.mem_map.mp hk
      exact htext e (hrows.mem_iff.mpr he)
    refine write_map_iff.mpr ⟨hclash, rows.map fun r => quoted true r.1 ++ ':' :: ' ' :: r.2.2,
      ?_, ?_⟩
    · rw [horder, mapM_ok_iff_rows]
      refine ⟨rows.map fun r =>
        ((Key.text r.1, r.2.1), quoted true r.1 ++ ':' :: ' ' :: r.2.2), ?_, ?_, ?_⟩
      · simp
      · simp
      · rw [List.forall_mem_map]
        exact fun r hr => entryText_spaced_iff.mpr ⟨_, ih r hr, rfl⟩
    · rw [joined_eq_intercalate]
      rfl

/-- **What is written of a JSON value** is its text with the keys in order, and nothing else is. -/
theorem spaced_iff {v : Value} (h : v.IsJson) {text : List Char} :
    v.Spelled text ↔ write spaced v = .ok text := by
  refine ⟨write_of_spelled, ?_⟩
  induction v using Value.rises generalizing text with
  | list items ih =>
    rw [write_list_iff]
    rintro ⟨texts, hwritten, rfl⟩
    obtain ⟨rows, rfl, rfl, hrows⟩ := mapM_ok_iff_rows.mp hwritten
    rw [joined_eq_intercalate]
    exact .list fun r hr => ih r.1 (List.mem_map_of_mem hr)
      (Value.isJson_list.mp h r.1 (List.mem_map_of_mem hr)) (hrows r hr)
  | map entries ih =>
    rw [write_map_iff]
    rintro ⟨-, texts, hwritten, rfl⟩
    obtain ⟨hdistinct, hparts⟩ := Value.isJson_map.mp h
    have htext : ∀ e ∈ entries, ∃ s, e.1 = .text s := fun e he => (hparts e he).1
    obtain ⟨rows, hrows, rfl, hvalues⟩ :=
      exists_rows (fun e he => htext e (mem_sorted.mp he)) hwritten
    have hmem {r : String × Value × List Char} (hr : r ∈ rows) :
        (Key.text r.1, r.2.1) ∈ entries := by
      rw [← mem_sorted, ← hrows]
      exact List.mem_map_of_mem (f := fun r => (Key.text r.1, r.2.1)) hr
    have hperm : (rows.map fun r => (Key.text r.1, r.2.1)).Perm entries :=
      hrows ▸ sorted_perm entries
    have hle : rows.Pairwise fun r r' => r.1 ≤ r'.1 := by
      have hpairwise := Value.pairwise_sorted htext
      rw [← hrows, List.pairwise_map] at hpairwise
      exact hpairwise.imp of_decide_eq_true
    have hne : rows.Pairwise fun r r' => r.1 ≠ r'.1 := by
      have hkeys := (hperm.map Prod.fst).nodup_iff.mpr hdistinct
      rw [List.map_map, List.Nodup, List.pairwise_map] at hkeys
      exact hkeys.imp fun hkey heq => hkey (congrArg Key.text heq)
    rw [joined_eq_intercalate]
    exact .map hperm (hle.imp₂ (fun _ _ => lt_of_le_of_ne) hne) fun r hr =>
      ih _ (hmem hr) (hparts _ (hmem hr)).2 (hvalues r hr)
  | null => exact fun hw => Except.ok.inj hw ▸ .null
  | bool b => exact fun hw => Except.ok.inj hw ▸ .bool b
  | int i => exact fun hw => Except.ok.inj hw ▸ .int i
  | float x => exact fun hw => Except.ok.inj hw ▸ .float x
  | text s => exact fun hw => Except.ok.inj hw ▸ .text s
  | date d => exact absurd h.plain id
  | timestamp t => exact absurd h.plain id

end Json

end Rollout
