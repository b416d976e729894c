import Rollout.Proofs.Json.Token

/-!
# Texts determine values

Two JSON values with the same text are alike. The texts of values form a code without prefixes: a
text is read off the front of a longer one in one way only, as long as a value ends there.

**Structure.** The first character tells what kind of value begins (`Value.opening`). Values without
parts are read by the reader, long integers apart; the items of a list and the entries of a mapping
are a sequence with commas in between, of which `following` is the part behind an item.

**Results.**
* `write_unambiguous`: the text in front of the end of a value determines the value, up to the order
  of entries, and what stands behind it;
* `Value.alike_of_text`: values with the same text are alike.
-/

namespace Rollout

namespace Json

/-- What stands behind an item, given the texts of the further items. -/
def following (close : Char) (rest : List Char) : List (List Char) → List Char
  | [] => close :: rest
  | text :: texts => ',' :: (text ++ following close rest texts)

theorem joined_cons (close : Char) (rest text : List Char) (texts : List (List Char)) :
    joined [] (text :: texts) ++ close :: rest = text ++ following close rest texts := by
  induction texts generalizing text with
  | nil => rfl
  | cons next texts ih =>
    have hjoined : joined [] (text :: next :: texts) = text ++ ',' :: joined [] (next :: texts) := by
      simp [joined]
    rw [hjoined, following, ← ih next, List.append_assoc, List.cons_append]

theorem valueEnd_following {close : Char} (hclose : close = ']' ∨ close = '}') (rest : List Char)
    (texts : List (List Char)) : ValueEnd (following close rest texts) := by
  cases texts with
  | nil => exact valueEnd_cons (by obtain rfl | rfl := hclose <;> decide) rest
  | cons text texts => exact valueEnd_cons (by decide) _

section Sequences

variable {α β : Type} {write : α → Except Fault (List Char)} {view : α → β} {close : Char}

/-- The texts of two items determine what is seen of them, and where they end. -/
def Code (write : α → Except Fault (List Char)) (view : α → β) (x y : α) : Prop :=
  ∀ text text' rest rest' : List Char, write x = .ok text → write y = .ok text' →
    ValueEnd rest → ValueEnd rest' → text ++ rest = text' ++ rest' → view x = view y ∧ rest = rest'

theorem following_unambiguous (hclose : close = ']' ∨ close = '}') {xs ys : List α}
    (hcode : ∀ x ∈ xs, ∀ y ∈ ys, Code write view x y) {texts texts' : List (List Char)}
    (hxs : xs.mapM write = .ok texts) (hys : ys.mapM write = .ok texts') {rest rest' : List Char}
    (h : following close rest texts = following close rest' texts') :
    xs.map view = ys.map view ∧ rest = rest' := by
  have hcomma : close ≠ ',' := by
    rintro rfl
    exact absurd hclose (by decide)
  induction xs generalizing ys texts texts' with
  | nil =>
    cases hxs
    cases ys with
    | nil =>
      cases hys
      exact ⟨rfl, (List.cons.inj h).2⟩
    | cons y ys =>
      obtain ⟨text, others, -, -, rfl⟩ := mapM_cons_ok_iff.mp hys
      exact absurd (List.cons.inj h).1 hcomma
  | cons x xs ih =>
    obtain ⟨text, others, hx, hothers, rfl⟩ := mapM_cons_ok_iff.mp hxs
    cases ys with
    | nil =>
      cases hys
      exact absurd (List.cons.inj h).1.symm hcomma
    | cons y ys =>
      obtain ⟨text', others', hy, hothers', rfl⟩ := mapM_cons_ok_iff.mp hys
      obtain ⟨hview, hrest⟩ := hcode x List.mem_cons_self y List.mem_cons_self _ _ _ _ hx hy
        (valueEnd_following hclose _ _) (valueEnd_following hclose _ _) (List.cons.inj h).2
      obtain ⟨hviews, hend⟩ := ih
        (fun x hx y hy => hcode x (List.mem_cons_of_mem _ hx) y (List.mem_cons_of_mem _ hy))
        hothers hothers' hrest
      exact ⟨by rw [List.map_cons, List.map_cons, hview, hviews], hend⟩

/-- The text between two brackets determines what is seen of the items. -/
theorem joined_unambiguous (hclose : close = ']' ∨ close = '}') {xs ys : List α}
    (hcode : ∀ x ∈ xs, ∀ y ∈ ys, Code write view x y)
    (hopen : ∀ x ∈ xs ++ ys, ∀ text, write x = .ok text → ∃ c cs, text = c :: cs ∧ c ≠ close)
    {texts texts' : List (List Char)} (hxs : xs.mapM write = .ok texts)
    (hys : ys.mapM write = .ok texts') {rest rest' : List Char}
    (h : joined [] texts ++ close :: rest = joined [] texts' ++ close :: rest') :
    xs.map view = ys.map view ∧ rest = rest' := by
  cases xs with
  | nil =>
    cases hxs
    cases ys with
    | nil =>
      cases hys
      exact ⟨rfl, (List.cons.inj h).2⟩
    | cons y ys =>
      obtain ⟨text, others, hy, -, rfl⟩ := mapM_cons_ok_iff.mp hys
      obtain ⟨c, cs, rfl, hc⟩ := hopen y (by simp) _ hy
      rw [joined_cons] at h
      exact absurd (List.cons.inj h).1.symm hc
  | cons x xs =>
    obtain ⟨text, others, hx, hothers, rfl⟩ := mapM_cons_ok_iff.mp hxs
    rw [joined_cons] at h
    cases ys with
    | nil =>
      cases hys
      obtain ⟨c, cs, rfl, hc⟩ := hopen x (by simp) _ hx
      exact absurd (List.cons.inj h).1 hc
    | cons y ys =>
      obtain ⟨text', others', hy, hothers', rfl⟩ := mapM_cons_ok_iff.mp hys
      rw [joined_cons] at h
      obtain ⟨hview, hrest⟩ := hcode x List.mem_cons_self y List.mem_cons_self _ _ _ _ hx hy
        (valueEnd_following hclose _ _) (valueEnd_following hclose _ _) h
      obtain ⟨hviews, hend⟩ := following_unambiguous hclose
        (fun x hx y hy => hcode x (List.mem_cons_of_mem _ hx) y (List.mem_cons_of_mem _ hy))
        hothers hothers' hrest
      exact ⟨by rw [List.map_cons, List.map_cons, hview, hviews], hend⟩

end Sequences

end Json

/-! ### The first character -/

/-- The character that a value with quotes or brackets starts with. -/
def Value.opening : Value → Option Char
  | .text _ => some '"'
  | .list _ => some '['
  | .map _ => some '{'
  | _ => none

namespace Json

/-- The same, seen from the character. -/
def openingOf (c : Char) : Option Char := if c = '"' ∨ c = '[' ∨ c = '{' then some c else none

/-- A value may begin with the character, wherever a value is expected. -/
def begins (c : Char) : Bool := c != ']' && !isBlank c

theorem openingOf_digit {c : Char} (hc : c.isDigit = true) :
    openingOf c = none ∧ begins c = true := by
  have hne (d : Char) (hd : d.isDigit = false) : c ≠ d := by
    rintro rfl
    rw [hc] at hd
    cases hd
  exact ⟨if_neg (by simp [hne]), by simp [begins, isBlank, hne]⟩

theorem intText_cons (i : Int) :
    ∃ c cs, intText i = c :: cs ∧ openingOf c = none ∧ begins c = true := by
  cases i with
  | ofNat n =>
    obtain ⟨c, cs, hcs⟩ := List.exists_cons_of_ne_nil (Decimal.ofNat_ne_nil n)
    refine ⟨c, cs, hcs, openingOf_digit (Decimal.isDigit_ofNat (n := n) ?_)⟩
    rw [hcs]
    exact List.mem_cons_self
  | negSucc n => exact ⟨'-', _, rfl, rfl, by decide⟩

theorem floatText_cons (x : Binary64) :
    ∃ c cs, floatText x = c :: cs ∧ openingOf c = none ∧ begins c = true := by
  unfold floatText
  cases hx : x.reading with
  | notANumber => exact ⟨'N', _, rfl, rfl, by decide⟩
  | infinite negative =>
    cases negative
    · exact ⟨'I', _, rfl, rfl, by decide⟩
    · exact ⟨'-', _, rfl, rfl, by decide⟩
  | finite negative m q =>
    obtain ⟨c, cs, htext, hc⟩ := finiteText_cons m q
    simp only [Binary64.text, hx, String.toList_ofList, htext]
    cases negative
    · exact ⟨c, cs, rfl, openingOf_digit hc⟩
    · exact ⟨'-', c :: cs, rfl, rfl, by decide⟩

/-- The first character of a text tells what kind of value it is. -/
theorem write_cons {v : Value} {text : List Char} (hplain : v.IsPlain)
    (h : write stable v = .ok text) :
    ∃ c cs, text = c :: cs ∧ v.opening = openingOf c ∧ begins c = true := by
  cases v with
  | null =>
    cases h
    exact ⟨'n', _, rfl, rfl, by decide⟩
  | bool b =>
    cases h
    cases b
    · exact ⟨'f', _, rfl, rfl, by decide⟩
    · exact ⟨'t', _, rfl, rfl, by decide⟩
  | int i =>
    cases h
    obtain ⟨c, cs, htext, hc, hne⟩ := intText_cons i
    exact ⟨c, cs, htext, hc.symm, hne⟩
  | float x =>
    cases h
    obtain ⟨c, cs, htext, hc, hne⟩ := floatText_cons x
    exact ⟨c, cs, htext, hc.symm, hne⟩
  | text s =>
    cases h
    exact ⟨'"', _, rfl, rfl, by decide⟩
  | date d => exact hplain.elim
  | timestamp t => exact hplain.elim
  | list items =>
    obtain ⟨texts, -, rfl⟩ := write_list_iff.mp h
    exact ⟨'[', _, rfl, rfl, by decide⟩
  | map entries =>
    obtain ⟨-, texts, -, rfl⟩ := write_map_iff.mp h
    exact ⟨'{', _, rfl, rfl, by decide⟩

/-- Values whose texts begin alike are of one kind. -/
theorem opening_unambiguous {v w : Value} (hv : v.IsPlain) (hw : w.IsPlain)
    {text text' rest rest' : List Char} (hx : write stable v = .ok text)
    (hy : write stable w = .ok text') (h : text ++ rest = text' ++ rest') :
    v.opening = w.opening := by
  obtain ⟨c, cs, rfl, hc, -⟩ := write_cons hv hx
  obtain ⟨d, ds, rfl, hd, -⟩ := write_cons hw hy
  rw [hc, hd, (List.cons.inj h).1]

/-! ### Values without parts -/

/-- What becomes of the text of a value without parts: only long integers are not read. -/
theorem readScalar_write {v : Value} {text rest : List Char} (hplain : v.IsPlain)
    (hopen : v.opening = none) (h : write stable v = .ok text) (hrest : ValueEnd rest) :
    readScalar (text ++ rest) = .ok (v.canonical, rest) ∨
      ∃ i, v = .int i ∧ ∃ count, readScalar (text ++ rest) = .error (.tooLong count) := by
  cases v with
  | null =>
    cases h
    exact .inl (readScalar_null rest)
  | bool b =>
    cases h
    exact .inl (readScalar_bool b rest)
  | int i =>
    cases h
    rw [readScalar_int i hrest]
    split
    · exact .inr ⟨i, rfl, _, rfl⟩
    · exact .inl rfl
  | float x =>
    cases h
    exact .inl (readScalar_float x hrest)
  | text s => cases hopen
  | date d => exact hplain.elim
  | timestamp t => exact hplain.elim
  | list items => cases hopen
  | map entries => cases hopen

theorem ofNat_unambiguous {n m : Nat} {rest rest' : List Char} (hrest : ValueEnd rest)
    (hrest' : ValueEnd rest') (h : Decimal.ofNat n ++ rest = Decimal.ofNat m ++ rest') :
    n = m ∧ rest = rest' := by
  have hdigits (n : Nat) : ∀ c ∈ Decimal.ofNat n, c.isDigit = true :=
    fun c hc => Decimal.isDigit_ofNat hc
  have htake := congrArg (List.takeWhile Char.isDigit) h
  have hdrop := congrArg (List.dropWhile Char.isDigit) h
  rw [Text.takeWhile_append_of_head (hdigits n) hrest.numeral.digit,
    Text.takeWhile_append_of_head (hdigits m) hrest'.numeral.digit] at htake
  rw [Text.dropWhile_append_of_head (hdigits n) hrest.numeral.digit,
    Text.dropWhile_append_of_head (hdigits m) hrest'.numeral.digit] at hdrop
  exact ⟨Decimal.ofNat_injective htake, hdrop⟩

theorem intText_unambiguous {i j : Int} {rest rest' : List Char} (hrest : ValueEnd rest)
    (hrest' : ValueEnd rest') (h : intText i ++ rest = intText j ++ rest') :
    i = j ∧ rest = rest' := by
  -- A natural does not start with a minus sign.
  have hsign (n m : Nat) (rest rest' : List Char) :
      Decimal.ofNat n ++ rest ≠ '-' :: Decimal.ofNat m ++ rest' := by
    intro heq
    obtain ⟨c, cs, hcs⟩ := List.exists_cons_of_ne_nil (Decimal.ofNat_ne_nil n)
    have hc : c.isDigit = true := Decimal.isDigit_ofNat (n := n) (by rw [hcs]; simp)
    rw [hcs] at heq
    rw [(List.cons.inj heq).1] at hc
    cases hc
  cases i with
  | ofNat n =>
    cases j with
    | ofNat m =>
      obtain ⟨rfl, hend⟩ := ofNat_unambiguous hrest hrest' h
      exact ⟨rfl, hend⟩
    | negSucc m => exact absurd h (hsign n (m + 1) rest rest')
  | negSucc n =>
    cases j with
    | ofNat m => exact absurd h.symm (hsign m (n + 1) rest' rest)
    | negSucc m =>
      obtain ⟨heq, hend⟩ := ofNat_unambiguous hrest hrest' (List.cons.inj h).2
      rw [Nat.add_right_cancel heq]
      exact ⟨rfl, hend⟩

theorem scalar_unambiguous {v w : Value} (hv : v.IsPlain) (hw : w.IsPlain)
    (hv' : v.opening = none) : Code (write stable) Value.canonical v w := by
  intro text text' rest rest' hx hy hrest hrest' h
  have hw' : w.opening = none := hv' ▸ (opening_unambiguous hv hw hx hy h).symm
  have hvread := readScalar_write hv hv' hx hrest
  have hwread := readScalar_write hw hw' hy hrest'
  rw [← h] at hwread
  obtain hvread | ⟨i, rfl, count, hvread⟩ := hvread
  · obtain hwread | ⟨j, rfl, count, hwread⟩ := hwread
    · rw [hvread] at hwread
      exact Prod.mk.inj (Except.ok.inj hwread)
    · rw [hvread] at hwread
      cases hwread
  · obtain hwread | ⟨j, rfl, count, hwread⟩ := hwread
    · rw [hvread] at hwread
      cases hwread
    · cases hx
      cases hy
      obtain ⟨rfl, hend⟩ := intText_unambiguous hrest hrest' h
      exact ⟨rfl, hend⟩

/-! ### All values -/

theorem text_unambiguous {s t : String} {rest rest' : List Char}
    (h : quoted false s ++ rest = quoted false t ++ rest') : s = t ∧ rest = rest' := by
  simp only [quoted, List.cons_append, List.append_assoc, List.nil_append] at h
  have hs := readText_quoted s rest
  rw [(List.cons.inj h).2, readText_quoted t rest'] at hs
  obtain ⟨rfl, rfl⟩ := Prod.mk.inj (Except.ok.inj hs)
  exact ⟨rfl, rfl⟩

theorem entryText_eq {k : String} {v : Value} {text : List Char}
    (h : entryText stable (.text k, write stable v) = .ok text) :
    ∃ value, write stable v = .ok value ∧ text = quoted false k ++ ':' :: value := by
  unfold entryText at h
  cases hv : write stable v with
  | error fault => rw [hv] at h; cases h
  | ok value =>
    rw [hv] at h
    cases h
    exact ⟨value, rfl, by simp [stable, quoted]⟩

theorem entry_unambiguous {k l : String} {v w : Value}
    (hcode : Code (write stable) Value.canonical v w) :
    Code (fun e : Key × Value => entryText stable (e.1, write stable e.2))
      (fun e => (e.1, e.2.canonical)) (.text k, v) (.text l, w) := by
  intro text text' rest rest' hx hy hrest hrest' h
  obtain ⟨value, hv, rfl⟩ := entryText_eq hx
  obtain ⟨value', hw, rfl⟩ := entryText_eq hy
  rw [List.append_assoc, List.append_assoc, List.cons_append, List.cons_append] at h
  obtain ⟨rfl, htail⟩ := text_unambiguous h
  obtain ⟨hvalue, hend⟩ := hcode _ _ _ _ hv hw hrest hrest' (List.cons.inj htail).2
  exact ⟨congrArg (Prod.mk (Key.text k)) hvalue, hend⟩

/-- **The text in front of the end of a value** determines the value, up to the order of entries,
and what stands behind it. -/
theorem write_unambiguous {v w : Value} (hv : v.IsPlain) (hw : w.IsPlain) :
    Code (write stable) Value.canonical v w := by
  induction v using Value.rises generalizing w with
  | null => exact scalar_unambiguous hv hw rfl
  | bool b => exact scalar_unambiguous hv hw rfl
  | int i => exact scalar_unambiguous hv hw rfl
  | float x => exact scalar_unambiguous hv hw rfl
  | date d => exact hv.elim
  | timestamp t => exact hv.elim
  | text s =>
    intro text text' rest rest' hx hy hrest hrest' h
    have hopen := opening_unambiguous hv hw hx hy h
    cases w <;> cases hopen
    rename_i t
    cases hx
    cases hy
    obtain ⟨rfl, hend⟩ := text_unambiguous h
    exact ⟨rfl, hend⟩
  | list items ih =>
    intro text text' rest rest' hx hy hrest hrest' h
    have hopen := opening_unambiguous hv hw hx hy h
    cases w <;> cases hopen
    rename_i items'
    rw [Value.isPlain_list] at hv hw
    obtain ⟨texts, htexts, rfl⟩ := write_list_iff.mp hx
    obtain ⟨texts', htexts', rfl⟩ := write_list_iff.mp hy
    simp only [List.cons_append, List.append_assoc, List.nil_append] at h
    have hitems := joined_unambiguous (.inl rfl)
      (fun v hm w hm' => ih v hm (hv v hm) (hw w hm')) ?_ htexts htexts' (List.cons.inj h).2
    · rw [Value.canonical_list, Value.canonical_list, hitems.1]
      exact ⟨rfl, hitems.2⟩
    · intro v hm text hx
      obtain ⟨c, cs, heq, -, hc⟩ :=
        write_cons ((List.mem_append.mp hm).elim (hv v) (hw v)) hx
      refine ⟨c, cs, heq, ?_⟩
      rintro rfl
      cases hc
  | map entries ih =>
    intro text text' rest rest' hx hy hrest hrest' h
    have hopen := opening_unambiguous hv hw hx hy h
    cases w <;> cases hopen
    rename_i entries'
    rw [Value.isPlain_map] at hv hw
    obtain ⟨-, texts, htexts, rfl⟩ := write_map_iff.mp hx
    obtain ⟨-, texts', htexts', rfl⟩ := write_map_iff.mp hy
    simp only [List.cons_append, List.append_assoc, List.nil_append] at h
    have hentries := @joined_unambiguous _ _ _ (fun e : Key × Value => (e.1, e.2.canonical)) _
      (.inr rfl) _ _ ?_ ?_ _ _ htexts htexts' _ _ (List.cons.inj h).2
    · rw [Value.canonical_map, Value.canonical_map, hentries.1]
      exact ⟨rfl, hentries.2⟩
    · rintro ⟨k, v⟩ hm ⟨l, w⟩ hm'
      obtain ⟨⟨k, rfl⟩, hplain⟩ := hv _ (mem_sorted.mp hm)
      obtain ⟨⟨l, rfl⟩, hplain'⟩ := hw _ (mem_sorted.mp hm')
      exact entry_unambiguous (ih _ (mem_sorted.mp hm) hplain hplain')
    · rintro ⟨k, v⟩ hm text hx
      obtain ⟨k, rfl⟩ : ∃ s, k = .text s := (List.mem_append.mp hm).elim
        (fun hm => (hv _ (mem_sorted.mp hm)).1) (fun hm => (hw _ (mem_sorted.mp hm)).1)
      obtain ⟨value, -, rfl⟩ := entryText_eq hx
      exact ⟨'"', _, rfl, by decide⟩

end Json

/-- The text of a value ends its line. -/
theorem Digest.stableText_eq_ok_iff {v : Value} {text : String} :
    Digest.stableText v = .ok text ↔
      ∃ chars, Json.write Json.stable v = .ok chars ∧ text = String.ofList (chars ++ ['\n']) := by
  rw [Digest.stableText]
  cases Json.write Json.stable v with
  | error fault => simp [Except.map]
  | ok chars => simp [Except.map, eq_comm]

/-- **Values with the same text** are alike. -/
theorem Value.alike_of_text {v w : Value} (hv : v.IsPlain) (hw : w.IsPlain) {text : String}
    (hx : Digest.stableText v = .ok text) (hy : Digest.stableText w = .ok text) : v.Alike w := by
  obtain ⟨chars, hchars, rfl⟩ := Digest.stableText_eq_ok_iff.mp hx
  obtain ⟨chars', hchars', heq⟩ := Digest.stableText_eq_ok_iff.mp hy
  have hline : Json.ValueEnd ['\n'] := Json.valueEnd_cons (by decide) []
  exact (Json.write_unambiguous hv hw _ _ _ _ hchars hchars' hline hline
    (String.ofList_injective heq)).1

end Rollout
