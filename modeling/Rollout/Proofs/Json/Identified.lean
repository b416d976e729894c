import Rollout.Proofs.Buildstate.Stored
import Rollout.Proofs.Json.Unambiguous

/-!
# What a fingerprinted text identifies

The text that is fingerprinted for a document tells the document apart from all others, up to the
order of the entries in its mappings. What it means that two documents are the same up to this order
is said here without texts and without canonical forms, by a relation that goes down both of them at
once: integers, floating-point numbers and truth values are never the same, floating-point numbers
are the same if they are printed alike, lists are the same item by item, and the entries of two
mappings can be put in an order in which the keys are equal and the values are the same.

**Types.** `Value.Reordered`.

**Results.**
* `Value.alike_iff_reordered`: documents are alike if they are the same up to the order of entries;
* `stableText_identifies`: and this is so if and only if they have the same text.
-/

namespace Rollout

namespace Value

/-- Two values are the same up to the order of the entries of their mappings. -/
inductive Reordered : Value → Value → Prop
  | null : Reordered .null .null
  | bool (b : Bool) : Reordered (.bool b) (.bool b)
  | int (i : Int) : Reordered (.int i) (.int i)
  | float {x y : Binary64} (h : Json.floatText x = Json.floatText y) :
      Reordered (.float x) (.float y)
  | text (s : String) : Reordered (.text s) (.text s)
  | list {items items' : List Value} (h : List.Forall₂ Reordered items items') :
      Reordered (.list items) (.list items')
  /-- The entries are put in an order in which they correspond to each other. -/
  | map {entries entries' rows rows' : Entries} (hrows : rows.Perm entries)
      (hrows' : rows'.Perm entries') (hkeys : rows.map Prod.fst = rows'.map Prod.fst)
      (h : List.Forall₂ Reordered (rows.map Prod.snd) (rows'.map Prod.snd)) :
      Reordered (.map entries) (.map entries')

/-- Values whose canonical forms are equal, one by one, are alike. -/
theorem forall₂_alike_iff {items items' : List Value} :
    List.Forall₂ Alike items items' ↔ items.map canonical = items'.map canonical := by
  rw [← List.forall₂_eq_eq_eq, List.forall₂_map_left_iff, List.forall₂_map_right_iff]
  rfl

/-- Relations that agree on the items of two lists relate the lists alike. -/
theorem forall₂_congr {R S : Value → Value → Prop} {items items' : List Value}
    (h : ∀ v ∈ items, ∀ w ∈ items', R v w ↔ S v w) :
    List.Forall₂ R items items' ↔ List.Forall₂ S items items' := by
  rw [List.forall₂_iff_zip, List.forall₂_iff_zip]
  refine and_congr_right fun _ => ⟨fun hall v w hvw => ?_, fun hall v w hvw => ?_⟩
  · obtain ⟨hv, hw⟩ := List.of_mem_zip hvw
    exact (h v hv w hw).mp (hall hvw)
  · obtain ⟨hv, hw⟩ := List.of_mem_zip hvw
    exact (h v hv w hw).mpr (hall hvw)

/-- Numbers are alike if they are printed alike. -/
theorem alike_float_iff {x y : Binary64} :
    (Value.float x).Alike (.float y) ↔ Json.floatText x = Json.floatText y := by
  constructor
  · intro h
    have hcanonical : x.canonical = y.canonical := Value.float.inj h
    rw [← Json.floatText_canonical x, ← Json.floatText_canonical y, hcanonical]
  · intro h
    have htext (z : Binary64) : Digest.stableText (.float z) =
        .ok (String.ofList (Json.floatText z ++ ['\n'])) := rfl
    exact alike_of_text trivial trivial (htext x) (by rw [h]; exact htext y)

/-- Entries with the same keys and related values, one by one. -/
theorem forall₂_entries {R : Value → Value → Prop} {rows rows' : Entries}
    (hkeys : rows.map Prod.fst = rows'.map Prod.fst)
    (hvalues : List.Forall₂ R (rows.map Prod.snd) (rows'.map Prod.snd)) :
    List.Forall₂ (fun e e' => e.1 = e'.1 ∧ R e.2 e'.2) rows rows' := by
  rw [← List.forall₂_eq_eq_eq, List.forall₂_map_left_iff, List.forall₂_map_right_iff] at hkeys
  rw [List.forall₂_map_left_iff, List.forall₂_map_right_iff] at hvalues
  rw [List.forall₂_iff_zip] at *
  exact ⟨hkeys.1, fun hrow => ⟨hkeys.2 hrow, hvalues.2 hrow⟩⟩

/-- Mappings whose values are alike where they are the same up to the order of entries. -/
theorem alike_map_iff_reordered {entries entries' : Entries} (hv : (Value.map entries).IsStrict)
    (hw : (Value.map entries').IsStrict)
    (h : ∀ e ∈ entries, ∀ e' ∈ entries', e.2.Alike e'.2 ↔ e.2.Reordered e'.2) :
    (Value.map entries).Alike (.map entries') ↔ (Value.map entries).Reordered (.map entries') := by
  have hvalues {rows rows' : Entries} (hrows : rows.Perm entries) (hrows' : rows'.Perm entries') :
      List.Forall₂ Alike (rows.map Prod.snd) (rows'.map Prod.snd) ↔
        List.Forall₂ Reordered (rows.map Prod.snd) (rows'.map Prod.snd) := by
    refine forall₂_congr fun v hv w hw => ?_
    obtain ⟨e, he, rfl⟩ := List.mem_map.mp hv
    obtain ⟨e', he', rfl⟩ := List.mem_map.mp hw
    exact h e (hrows.mem_iff.mp he) e' (hrows'.mem_iff.mp he')
  constructor
  · intro halike
    have hrows := halike.entries
    have hperm := Json.sorted_perm entries
    have hperm' := Json.sorted_perm entries'
    refine .map hperm hperm' ?_ ((hvalues hperm hperm').mp (forall₂_alike_iff.mpr ?_))
    · simpa [Function.comp_def] using congrArg (List.map Prod.fst) hrows
    · simpa [Function.comp_def] using congrArg (List.map Prod.snd) hrows
  · rintro (_ | _ | _ | _ | _ | _ | @⟨_, _, rows, rows', hperm, hperm', hkeys, hrows⟩)
    obtain ⟨hn, ht⟩ := isStrict_map.mp hv
    obtain ⟨hn', ht'⟩ := isStrict_map.mp hw
    have hleft : (Value.map entries).Alike (.map rows) :=
      alike_map_of_perm hperm.symm hn fun e he => (ht e he).1
    have hright : (Value.map entries').Alike (.map rows') :=
      alike_map_of_perm hperm'.symm hn' fun e he => (ht' e he).1
    have hmiddle := alike_map (forall₂_entries hkeys ((hvalues hperm hperm').mpr hrows))
    exact hleft.trans (hmiddle.trans hright.symm)

/-- **Documents are alike** if they are the same up to the order of entries. -/
theorem alike_iff_reordered {v w : Value} (hv : v.IsStrict) (hw : w.IsStrict) :
    v.Alike w ↔ v.Reordered w := by
  induction v using rises generalizing w with
  | null | bool b | int i | text s =>
    constructor
    · intro h
      cases w <;> cases h
      constructor
    · rintro ⟨⟩
      exact .refl _
  | float x =>
    cases w with
    | float y =>
      rw [alike_float_iff]
      constructor
      · exact .float
      · rintro ⟨⟩
        assumption
    | _ => constructor <;> intro h <;> cases h
  | date d | timestamp t => exact hv.plain.elim
  | list items ih =>
    cases w with
    | list items' =>
      have hitems : List.Forall₂ Alike items items' ↔ List.Forall₂ Reordered items items' :=
        forall₂_congr fun v hm w hm' =>
          ih v hm (isStrict_list.mp hv v hm) (isStrict_list.mp hw w hm')
      rw [Alike, canonical_list, canonical_list, Value.list.injEq, ← forall₂_alike_iff, hitems]
      constructor
      · exact .list
      · rintro ⟨⟩
        assumption
    | _ => constructor <;> intro h <;> cases h
  | map entries ih =>
    cases w with
    | map entries' =>
      exact alike_map_iff_reordered hv hw fun e he e' he' =>
        ih e he ((isStrict_map.mp hv).2 e he).2 ((isStrict_map.mp hw).2 e' he').2
    | _ => constructor <;> intro h <;> cases h

end Value

/-- **The fingerprinted text identifies the document.** Documents of null, truth values, integers,
finite floating-point numbers, texts, lists and mappings with different text keys have a text, and
the texts of two of them consist of the same bytes if and only if the documents are the same up to
the order of the entries of mappings, at every depth. -/
theorem stableText_identifies {v w : Value} (hv : v.IsStrict) (hw : w.IsStrict) :
    ∃ text text', Digest.stableText v = .ok text ∧ Digest.stableText w = .ok text' ∧
      (text.toUTF8 = text'.toUTF8 ↔ v.Reordered w) := by
  have hwritten {v : Value} (hv : v.IsStrict) : ∃ text, Digest.stableText v = .ok text := by
    obtain ⟨chars, hchars⟩ := Value.exists_write Json.stable hv.plain.keyed (Or.inr hv.plain)
    exact ⟨_, Digest.stableText_eq_ok_iff.mpr ⟨chars, hchars, rfl⟩⟩
  obtain ⟨text, htext⟩ := hwritten hv
  obtain ⟨text', htext'⟩ := hwritten hw
  refine ⟨text, text', htext, htext', ?_⟩
  rw [String.toUTF8_eq_toByteArray, String.toUTF8_eq_toByteArray, String.toByteArray_inj,
    ← Value.alike_iff_reordered hv hw]
  constructor
  · rintro rfl
    exact Value.alike_of_text hv.plain hw.plain htext htext'
  · intro halike
    obtain ⟨chars, hchars, rfl⟩ := Digest.stableText_eq_ok_iff.mp htext
    obtain ⟨chars', hchars', rfl⟩ := Digest.stableText_eq_ok_iff.mp htext'
    rw [Except.ok.inj (hchars.symm.trans ((halike.sameText _).mpr hchars'))]

namespace Shop

/-- A bill with one line, and with what stands under a name for whether it has been paid. -/
def bill (paid : Value) : Value :=
  .object [("lines", .list [.object [("item", .text "tea"), ("price", .int 3)]]), ("paid", paid)]

/-- The same with all entries in another order. -/
def billReordered (paid : Value) : Value :=
  .object [("paid", paid), ("lines", .list [.object [("price", .int 3), ("item", .text "tea")]])]

theorem isStrict_bill {paid : Value} (h : paid.IsStrict) :
    (bill paid).IsStrict ∧ (billReordered paid).IsStrict := by
  have htea : (Value.text "tea").IsStrict := ⟨⟨trivial, trivial⟩, trivial⟩
  have hprice : (Value.int 3).IsStrict := ⟨⟨trivial, trivial⟩, trivial⟩
  constructor <;> simp [bill, billReordered, Value.object, Value.isStrict_map, Value.isStrict_list,
    h, htea, hprice]

theorem reordered_bill (b : Bool) : (bill (.bool b)).Reordered (billReordered (.bool b)) := by
  have hline : (Value.object [("item", .text "tea"), ("price", .int 3)]).Reordered
      (.object [("price", .int 3), ("item", .text "tea")]) :=
    .map (.refl _) (.swap _ _ _) rfl (.cons (.text "tea") (.cons (.int 3) .nil))
  exact .map (.refl _) (.swap _ _ _) rfl (.cons (.list (.cons hline .nil)) (.cons (.bool b) .nil))

end Shop

/-- The order of entries does not matter for the text of a bill. It does matter whether the bill
says that it has been paid or that it has been paid once. -/
theorem stableText_identifies_bill :
    (∃ text text', Digest.stableText (Shop.bill (.bool true)) = .ok text ∧
      Digest.stableText (Shop.billReordered (.bool true)) = .ok text' ∧
        text.toUTF8 = text'.toUTF8) ∧
    ∃ text text', Digest.stableText (Shop.bill (.bool true)) = .ok text ∧
      Digest.stableText (Shop.bill (.int 1)) = .ok text' ∧ text.toUTF8 ≠ text'.toUTF8 := by
  have hpaid : (Value.bool true).IsStrict := ⟨⟨trivial, trivial⟩, trivial⟩
  have honce : (Value.int 1).IsStrict := ⟨⟨trivial, trivial⟩, trivial⟩
  obtain ⟨hbill, hreordered⟩ := Shop.isStrict_bill hpaid
  obtain ⟨hother, -⟩ := Shop.isStrict_bill honce
  constructor
  · obtain ⟨text, text', htext, htext', h⟩ := stableText_identifies hbill hreordered
    exact ⟨text, text', htext, htext', h.mpr (Shop.reordered_bill true)⟩
  · obtain ⟨text, text', htext, htext', h⟩ := stableText_identifies hbill hother
    refine ⟨text, text', htext, htext', fun hsame => ?_⟩
    have halike := (Value.alike_iff_reordered hbill hother).mpr (h.mp hsame)
    obtain ⟨e, he, hkey, hvalue⟩ :=
      halike.exists_entry (e := (.text "paid", .bool true)) (by simp)
    simp only [List.map_cons, List.map_nil, List.mem_cons, List.not_mem_nil, or_false] at he
    rcases he with rfl | rfl
    · exact absurd hkey (by decide)
    · cases hvalue

end Rollout
