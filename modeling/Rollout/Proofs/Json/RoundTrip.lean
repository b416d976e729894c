import Rollout.Json.Limits
import Rollout.Proofs.Json.Unambiguous

/-!
# Written values are read again

What has been written of a JSON value is read as the canonical form of the value: its entries come in
the order in which they stand in the text. The reader refuses a text only for its limits, that is for
too many brackets around a value or too many digits of an integer (`Reads`), and only if the value
goes beyond them (`Value.Fits`).

**Structure.** The reader is a recursive descent with fuel, and every call consumes a character, so
the length of the text is enough fuel. The items of a list are read one after the other from the text
that is `following` an item.

**Types.** `Reads`, `Value.Fits`.

**Results.**
* `readValue_write`: reading a written value, with what stands behind it;
* `read_stableText`: reading a whole text.
-/

namespace Rollout

/-! ### Limits -/

namespace Value

theorem depth_list_le {items : List Value} {n : Nat} :
    (Value.list items).depth ≤ n + 1 ↔ ∀ v ∈ items, v.depth ≤ n := by
  rw [depth, Nat.succ_le_succ_iff]
  induction items with
  | nil => simp [depthAll]
  | cons v rest ih => simp [depthAll, ih]

theorem depth_map_le {entries : Entries} {n : Nat} :
    (Value.map entries).depth ≤ n + 1 ↔ ∀ e ∈ entries, e.2.depth ≤ n := by
  rw [depth, Nat.succ_le_succ_iff]
  induction entries with
  | nil => simp [depthEntries]
  | cons e rest ih => simp [depthEntries, ih]

theorem depth_lt_of_mem {items : List Value} {v : Value} (h : v ∈ items) :
    v.depth < (Value.list items).depth := by
  rw [depth, Nat.lt_succ_iff]
  exact depth_list_le.mp (Nat.le_refl _) v h

theorem depth_lt_of_entry {entries : Entries} {e : Key × Value} (h : e ∈ entries) :
    e.2.depth < (Value.map entries).depth := by
  rw [depth, Nat.lt_succ_iff]
  exact depth_map_le.mp (Nat.le_refl _) e h

theorem isLegible_list {items : List Value} :
    (Value.list items).isLegible = true ↔ ∀ v ∈ items, v.isLegible = true := by
  rw [isLegible]
  induction items with
  | nil => simp [areLegible]
  | cons v rest ih => simp [areLegible, ih]

theorem isLegible_map {entries : Entries} :
    (Value.map entries).isLegible = true ↔ ∀ e ∈ entries, e.2.isLegible = true := by
  rw [isLegible]
  induction entries with
  | nil => simp [entriesLegible]
  | cons e rest ih => simp [entriesLegible, ih]

/-- The value keeps to the limits of the reader where some brackets are open around it. -/
def Fits (v : Value) (brackets : Nat) : Prop :=
  brackets + v.depth ≤ Json.depthLimit ∧ v.isLegible = true

instance (v : Value) (brackets : Nat) : Decidable (v.Fits brackets) :=
  inferInstanceAs (Decidable (_ ∧ _))

theorem Fits.item {items : List Value} {depth : Nat} (h : (Value.list items).Fits depth) {v : Value}
    (hv : v ∈ items) : v.Fits (depth + 1) := by
  have hdepth := depth_lt_of_mem hv
  exact ⟨by have := h.1; omega, isLegible_list.mp h.2 v hv⟩

theorem Fits.entry {entries : Entries} {depth : Nat} (h : (Value.map entries).Fits depth)
    {e : Key × Value} (he : e ∈ entries) : e.2.Fits (depth + 1) := by
  have hdepth := depth_lt_of_entry he
  exact ⟨by have := h.1; omega, isLegible_map.mp h.2 e he⟩

theorem depth_pos (v : Value) : 0 < v.depth := by
  cases v <;> simp [depth]

/-- There is room for the bracket of a value that fits. -/
theorem Fits.bracket {v : Value} {depth : Nat} (h : v.Fits depth) : depth < Json.depthLimit :=
  Nat.lt_of_lt_of_le (Nat.lt_add_of_pos_right v.depth_pos) h.1

end Value

namespace Json

/-! ### Attempts -/

/-- An attempt gives a result; under the condition that something fits, it is not refused for a limit
of the reader either. -/
def Reads {α : Type} (fits : Prop) (attempt : Except ReadError α) (result : α) : Prop :=
  attempt = .ok result ∨ ¬fits ∧ ∃ reason, reason ≠ .malformed ∧ attempt = .error reason

theorem Reads.bind {α β : Type} {fits : Prop} {attempt : Except ReadError α}
    {next : α → Except ReadError β} {a : α} {b : β} (h : Reads fits attempt a)
    (hnext : Reads fits (next a) b) : Reads fits (attempt >>= next) b := by
  rcases h with rfl | ⟨hfits, reason, hreason, rfl⟩
  · exact hnext
  · exact .inr ⟨hfits, reason, hreason, rfl⟩

theorem Reads.mono {α : Type} {fits fits' : Prop} {attempt : Except ReadError α} {a : α}
    (h : Reads fits attempt a) (hfits : fits' → fits) : Reads fits' attempt a :=
  h.imp_right fun h => ⟨fun h' => h.1 (hfits h'), h.2⟩

theorem skipBlanks_cons {c : Char} (h : isBlank c = false) (cs : List Char) :
    skipBlanks (c :: cs) = c :: cs := by
  rw [skipBlanks, List.dropWhile_cons, h]
  rfl

theorem skipBlanks_following {close : Char} (hclose : close = ']' ∨ close = '}') (rest : List Char)
    (texts : List (List Char)) :
    skipBlanks (following close rest texts) = following close rest texts := by
  cases texts with
  | nil => exact skipBlanks_cons (by obtain rfl | rfl := hclose <;> rfl) rest
  | cons text texts => exact skipBlanks_cons rfl _

/-- A written value is not preceded by blanks. -/
theorem skipBlanks_write {v : Value} {text : List Char} (hplain : v.IsPlain)
    (h : write stable v = .ok text) (rest : List Char) : skipBlanks (text ++ rest) = text ++ rest := by
  obtain ⟨c, cs, rfl, -, hbegins⟩ := write_cons hplain h
  simp only [begins, Bool.and_eq_true, Bool.not_eq_true'] at hbegins
  exact skipBlanks_cons hbegins.2 _

/-- Neither is a written entry. -/
theorem skipBlanks_entry {k : String} {v : Value} {text : List Char}
    (h : entryText stable (.text k, write stable v) = .ok text) (rest : List Char) :
    skipBlanks (text ++ rest) = text ++ rest := by
  obtain ⟨value, -, rfl⟩ := entryText_eq h
  exact skipBlanks_cons rfl _

/-- The length of the texts, each with a comma. -/
def extent (texts : List (List Char)) : Nat := (texts.map fun text => text.length + 1).sum

theorem extent_cons (text : List Char) (texts : List (List Char)) :
    extent (text :: texts) = text.length + 1 + extent texts := by
  rw [extent, extent, List.map_cons, List.sum_cons]

theorem length_joined (text : List Char) (texts : List (List Char)) :
    (joined [] (text :: texts)).length + 1 = extent (text :: texts) := by
  induction texts generalizing text with
  | nil => rfl
  | cons next texts ih =>
    have hjoined : joined [] (text :: next :: texts) = text ++ ',' :: joined [] (next :: texts) := by
      simp [joined]
    rw [extent_cons, ← ih next, hjoined, List.length_append, List.length_cons]
    omega

/-! ### Sequences -/

/-- The text of the value is read as the canonical form, wherever it stands. -/
def Readable (v : Value) : Prop :=
  ∀ (fuel depth : Nat) (text rest : List Char), write stable v = .ok text → ValueEnd rest →
    text.length < fuel →
      Reads (v.Fits depth) (readValue fuel depth (text ++ rest)) (v.canonical, rest)

variable {fits : Prop}

theorem readItems_following {v : Value} {items : List Value}
    (hplain : ∀ w ∈ v :: items, w.IsPlain) (hread : ∀ w ∈ v :: items, Readable w)
    {text : List Char} {texts : List (List Char)} (hv : write stable v = .ok text)
    (hitems : items.mapM (write stable) = .ok texts) {fuel depth : Nat}
    (hfits : ∀ w ∈ v :: items, fits → w.Fits depth)
    (hfuel : extent (text :: texts) < fuel) (rest : List Char) :
    Reads fits (readItems fuel depth (text ++ following ']' rest texts))
      ((v :: items).map Value.canonical, rest) := by
  induction items generalizing v text texts fuel with
  | nil =>
    obtain rfl : [] = texts := Except.ok.inj hitems
    rw [extent_cons] at hfuel
    obtain ⟨fuel, rfl⟩ := Nat.exists_eq_succ_of_ne_zero (show fuel ≠ 0 by omega)
    rw [readItems]
    refine ((hread v List.mem_cons_self fuel depth text _ hv
      (valueEnd_following (.inl rfl) rest []) (by omega)).mono (hfits v List.mem_cons_self)).bind ?_
    dsimp only
    rw [skipBlanks_following (.inl rfl)]
    exact .inl rfl
  | cons w items ih =>
    obtain ⟨next, texts, hw, hothers, rfl⟩ := mapM_cons_ok_iff.mp hitems
    rw [extent_cons] at hfuel
    obtain ⟨fuel, rfl⟩ := Nat.exists_eq_succ_of_ne_zero (show fuel ≠ 0 by omega)
    rw [readItems]
    refine ((hread v List.mem_cons_self fuel depth text _ hv
      (valueEnd_following (.inl rfl) rest (next :: texts)) (by omega)).mono
        (hfits v List.mem_cons_self)).bind ?_
    dsimp only
    rw [skipBlanks_following (.inl rfl), following]
    change Reads fits (readItems fuel depth (skipBlanks (next ++ following ']' rest texts)) >>= _) _
    rw [skipBlanks_write (hplain w (by simp)) hw]
    refine Reads.bind (ih (fun x hx => hplain x (List.mem_cons_of_mem _ hx))
      (fun x hx => hread x (List.mem_cons_of_mem _ hx)) hw hothers
      (fun x hx => hfits x (List.mem_cons_of_mem _ hx)) (by omega)) ?_
    exact .inl rfl

/-- Reading an entry, and then what follows it. -/
theorem Reads.entry {k : String} {v : Value} {done : Entries} (hplain : v.IsPlain)
    (hread : Readable v) (hdone : ∀ e ∈ done, ∃ s, e.1 = .text s)
    (habsent : Key.text k ∉ done.map Prod.fst) {text : List Char}
    (hv : entryText stable (.text k, write stable v) = .ok text) {fuel depth : Nat}
    (hfits : fits → v.Fits depth) (hfuel : text.length < fuel) {rest : List Char}
    {texts : List (List Char)} {result : Entries × List Char}
    (hnext : Reads fits (match following '}' rest texts with
      | '}' :: rest => .ok (done ++ [(.text k, v.canonical)], rest)
      | ',' :: rest => readEntries fuel depth (done ++ [(.text k, v.canonical)]) (skipBlanks rest)
      | _ => .error .malformed) result) :
    Reads fits (readEntries (fuel + 1) depth done (text ++ following '}' rest texts)) result := by
  obtain ⟨value, hvalue, rfl⟩ := entryText_eq hv
  have htext : quoted false k ++ ':' :: value ++ following '}' rest texts = '"' ::
      (k.toList.flatMap (quotedChar false) ++
        '"' :: ':' :: (value ++ following '}' rest texts)) := by simp [quoted]
  rw [htext, readEntries]
  refine Reads.bind (.inl (readText_quoted k _)) ?_
  dsimp only
  rw [skipBlanks_cons rfl]
  change Reads fits (readValue fuel depth (skipBlanks (value ++ following '}' rest texts)) >>= _) _
  rw [skipBlanks_write hplain hvalue]
  refine ((hread fuel depth value _ hvalue
    (valueEnd_following (.inr rfl) rest texts) ?_).mono hfits).bind ?_
  · rw [List.length_append, List.length_cons] at hfuel
    omega
  · dsimp only
    rw [skipBlanks_following (.inr rfl), Entries.set_absent hdone habsent]
    exact hnext

theorem readEntries_following {k : String} {v : Value} {entries done : Entries}
    (hplain : ∀ e ∈ (Key.text k, v) :: entries, (∃ s, e.1 = .text s) ∧ e.2.IsPlain)
    (hread : ∀ e ∈ (Key.text k, v) :: entries, Readable e.2)
    (hdone : ∀ e ∈ done, ∃ s, e.1 = .text s)
    (hnodup : ((done ++ (Key.text k, v) :: entries).map Prod.fst).Nodup)
    {text : List Char} {texts : List (List Char)}
    (hv : entryText stable (.text k, write stable v) = .ok text)
    (hentries : entries.mapM (fun e => entryText stable (e.1, write stable e.2)) = .ok texts)
    {fuel depth : Nat} (hfits : ∀ e ∈ (Key.text k, v) :: entries, fits → e.2.Fits depth)
    (hfuel : extent (text :: texts) < fuel) (rest : List Char) :
    Reads fits (readEntries fuel depth done (text ++ following '}' rest texts))
      (done ++ ((Key.text k, v) :: entries).map fun e => (e.1, e.2.canonical), rest) := by
  have habsent {k : String} {v : Value} {entries done : Entries}
      (hnodup : ((done ++ (Key.text k, v) :: entries).map Prod.fst).Nodup) :
      Key.text k ∉ done.map Prod.fst := by
    intro hm
    rw [List.map_append, List.nodup_append] at hnodup
    exact hnodup.2.2 _ hm _ List.mem_cons_self rfl
  induction entries generalizing k v done text texts fuel with
  | nil =>
    obtain rfl : [] = texts := Except.ok.inj hentries
    rw [extent_cons] at hfuel
    obtain ⟨fuel, rfl⟩ := Nat.exists_eq_succ_of_ne_zero (show fuel ≠ 0 by omega)
    exact .entry (hplain _ List.mem_cons_self).2 (hread _ List.mem_cons_self) hdone (habsent hnodup) hv
      (hfits _ List.mem_cons_self) (by omega) (.inl rfl)
  | cons e entries ih =>
    obtain ⟨next, texts, hw, hothers, rfl⟩ := mapM_cons_ok_iff.mp hentries
    obtain ⟨⟨l, hl⟩, hplain'⟩ := hplain e (by simp)
    obtain ⟨key, w⟩ := e
    obtain rfl : key = .text l := hl
    rw [extent_cons] at hfuel
    obtain ⟨fuel, rfl⟩ := Nat.exists_eq_succ_of_ne_zero (show fuel ≠ 0 by omega)
    refine .entry (hplain _ List.mem_cons_self).2 (hread _ List.mem_cons_self) hdone (habsent hnodup) hv
      (hfits _ List.mem_cons_self) (by omega) ?_
    have hkept : ∀ e ∈ done ++ [(Key.text k, v.canonical)], ∃ s, e.1 = .text s :=
      List.forall_mem_append.mpr ⟨hdone, by simp⟩
    have hrest := ih (fun e he => hplain e (List.mem_cons_of_mem _ he))
      (fun e he => hread e (List.mem_cons_of_mem _ he)) hkept (by simpa using hnodup) hw hothers
      (fun e he => hfits e (List.mem_cons_of_mem _ he)) (show _ < fuel by omega)
    rw [List.append_assoc] at hrest
    change Reads fits (readEntries fuel depth _ (skipBlanks (next ++ following '}' rest texts))) _
    rw [skipBlanks_entry hw]
    exact hrest

/-! ### Values -/

/-- A bracket is read unless too many are open. -/
theorem Reads.bracket {α : Type} {depth : Nat} {attempt : Except ReadError α} {result : α}
    (h : Reads fits attempt result) (hfits : fits → depth < depthLimit) :
    Reads fits (if depthLimit ≤ depth then .error .tooDeep else attempt) result := by
  split
  · rename_i hdeep
    exact .inr ⟨fun h => absurd (hfits h) (Nat.not_lt.mpr hdeep), .tooDeep, nofun, rfl⟩
  · exact h

theorem readable_list {items : List Value} (hplain : ∀ v ∈ items, v.IsPlain)
    (hread : ∀ v ∈ items, Readable v) : Readable (.list items) := by
  intro fuel depth text rest hlist hrest hfuel
  obtain ⟨texts, htexts, rfl⟩ := write_list_iff.mp hlist
  obtain ⟨fuel, rfl⟩ := Nat.exists_eq_succ_of_ne_zero (Nat.ne_of_gt (Nat.zero_lt_of_lt hfuel))
  simp only [stable, List.cons_append, List.append_assoc, List.nil_append, List.length_cons,
    List.length_append] at hfuel ⊢
  rw [readValue, Value.canonical_list]
  refine Reads.bracket ?_ Value.Fits.bracket
  cases items with
  | nil =>
    obtain rfl : [] = texts := Except.ok.inj htexts
    exact .inl rfl
  | cons v items =>
    obtain ⟨text, texts, hv, hitems, rfl⟩ := mapM_cons_ok_iff.mp htexts
    have hlength := length_joined text texts
    have hfits : ∀ w ∈ v :: items, (Value.list (v :: items)).Fits depth → w.Fits (depth + 1) :=
      fun w hw hfits => hfits.item hw
    rw [joined_cons, skipBlanks_write (hplain v List.mem_cons_self) hv]
    have hitems := readItems_following hplain hread hv hitems hfits
      (show _ < fuel by simp only [List.length_nil] at hfuel; omega) rest
    obtain ⟨c, cs, rfl, -, hbegins⟩ := write_cons (hplain v List.mem_cons_self) hv
    split
    · rename_i hbracket
      rw [(List.cons.inj hbracket).1] at hbegins
      cases hbegins
    · exact hitems.bind (.inl rfl)

theorem readable_map {entries : Entries} (hplain : ∀ e ∈ entries, (∃ s, e.1 = .text s) ∧ e.2.IsPlain)
    (hnodup : (entries.map Prod.fst).Nodup) (hread : ∀ e ∈ entries, Readable e.2) :
    Readable (.map entries) := by
  intro fuel depth text rest hmap hrest hfuel
  obtain ⟨-, texts, htexts, rfl⟩ := write_map_iff.mp hmap
  obtain ⟨fuel, rfl⟩ := Nat.exists_eq_succ_of_ne_zero (Nat.ne_of_gt (Nat.zero_lt_of_lt hfuel))
  simp only [stable, List.cons_append, List.append_assoc, List.nil_append, List.length_cons,
    List.length_append] at hfuel ⊢
  rw [readValue, Value.canonical_map]
  refine Reads.bracket ?_ Value.Fits.bracket
  have hplain' : ∀ e ∈ sorted entries, (∃ s, e.1 = .text s) ∧ e.2.IsPlain :=
    fun e he => hplain e (mem_sorted.mp he)
  have hread' : ∀ e ∈ sorted entries, Readable e.2 := fun e he => hread e (mem_sorted.mp he)
  have hnodup' : ((sorted entries).map Prod.fst).Nodup :=
    ((sorted_perm entries).map Prod.fst).nodup_iff.mpr hnodup
  have hfits' : ∀ e ∈ sorted entries, (Value.map entries).Fits depth → e.2.Fits (depth + 1) :=
    fun e he hfits => hfits.entry (mem_sorted.mp he)
  generalize sorted entries = entries' at htexts hplain' hread' hnodup' hfits' ⊢
  cases entries' with
  | nil =>
    obtain rfl : [] = texts := Except.ok.inj htexts
    exact .inl rfl
  | cons e entries' =>
    obtain ⟨text, texts, hv, hentries, rfl⟩ := mapM_cons_ok_iff.mp htexts
    obtain ⟨key, v⟩ := e
    obtain ⟨k, rfl⟩ : ∃ k, key = .text k := (hplain' _ List.mem_cons_self).1
    have hlength := length_joined text texts
    rw [joined_cons, skipBlanks_entry hv]
    have hnone : ∀ e ∈ ([] : Entries), ∃ s, e.1 = Key.text s := fun e he => absurd he (by simp)
    have hentries := readEntries_following hplain' hread' hnone hnodup' hv hentries hfits'
      (show _ < fuel by simp only [List.length_nil] at hfuel; omega) rest
    obtain ⟨value, -, rfl⟩ := entryText_eq hv
    exact hentries.bind (.inl rfl)

/-- **A written value is read** as its canonical form, whatever stands behind it. -/
theorem readValue_write {v : Value} (h : v.IsJson) : Readable v := by
  obtain ⟨hplain, hd⟩ := h
  have hscalar {v : Value} (hplain : v.IsPlain) (hopen : v.opening = none) : Readable v := by
    intro fuel depth text rest hv hrest hfuel
    obtain ⟨fuel, rfl⟩ := Nat.exists_eq_succ_of_ne_zero (Nat.ne_of_gt (Nat.zero_lt_of_lt hfuel))
    have hread := readScalar_write hplain hopen hv hrest
    obtain ⟨c, cs, rfl, hc, -⟩ := write_cons hplain hv
    have hne (d : Char) (hd : openingOf d = some d) : c ≠ d := by
      rintro rfl
      rw [hopen, hd] at hc
      cases hc
    have hvalue : readValue (fuel + 1) depth (c :: cs ++ rest) = readScalar (c :: cs ++ rest) := by
      rw [List.cons_append, readValue]
      · rintro more ⟨⟩
        exact hne _ rfl rfl
      · rintro more ⟨⟩
        exact hne _ rfl rfl
      · rintro more ⟨⟩
        exact hne _ rfl rfl
    rw [hvalue]
    rcases hread with hread | ⟨i, rfl, count, hread⟩
    · exact .inl hread
    · refine .inr ⟨fun hfits => ?_, .tooLong count, nofun, hread⟩
      have hlength : (Decimal.ofNat i.natAbs).length ≤ digitLimit := of_decide_eq_true hfits.2
      have htext : intText i = c :: cs := Except.ok.inj hv
      rw [← htext, readScalar_int i hrest, if_neg (Nat.not_lt.mpr hlength)] at hread
      cases hread
  induction v using Value.rises with
  | list items ih =>
    rw [Value.isPlain_list] at hplain
    rw [Value.distinct_list] at hd
    exact readable_list hplain fun v hv => ih v hv (hplain v hv) (hd v hv)
  | map entries ih =>
    rw [Value.isPlain_map] at hplain
    rw [Value.distinct_map] at hd
    exact readable_map hplain hd.1 fun e he => ih e he (hplain e he).2 (hd.2 e he)
  | text s =>
    intro fuel depth text rest hv hrest hfuel
    obtain ⟨fuel, rfl⟩ := Nat.exists_eq_succ_of_ne_zero (Nat.ne_of_gt (Nat.zero_lt_of_lt hfuel))
    cases hv
    simp only [stable, quoted, List.cons_append, List.append_assoc, List.nil_append]
    rw [readValue]
    exact Reads.bind (.inl (readText_quoted s rest)) (.inl rfl)
  | date d => exact hplain.elim
  | timestamp t => exact hplain.elim
  | _ => exact hscalar hplain rfl

end Json

/-- **The text of a value is read** as the canonical form of the value. -/
theorem Json.read_stableText {v : Value} (h : v.IsJson) {text : String}
    (ht : Digest.stableText v = .ok text) : Reads (v.Fits 0) (read text) v.canonical := by
  obtain ⟨chars, hchars, rfl⟩ := Digest.stableText_eq_ok_iff.mp ht
  rw [read, String.toList_ofList, skipBlanks_write h.plain hchars]
  refine (readValue_write h _ 0 chars ['\n'] hchars (valueEnd_cons (by decide) []) ?_).bind (.inl ?_)
  · rw [List.length_append]
    omega
  · rfl

end Rollout
