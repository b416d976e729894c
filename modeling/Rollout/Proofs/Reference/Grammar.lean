import Rollout.Proofs.Reference.Leaves
import Rollout.Proofs.Text.Split

/-!
# The grammar of references

A reference reads `self.<kind>.<unit>.output.<field>`, where the unit and the field are names: texts
of ASCII letters, digits, low lines and hyphens that are not empty. The check of a name looks past a
line break at its end, so that a text may be read as a reference although its unit or its field is a
name with a line break behind it, and the line break becomes part of the unit or of the field. What
is read is described here by what it prints: a text is read as the reference that prints it, if its
parts pass the check, and every other text is a literal.

**Types.** `Reference.NameChar`, `Reference.Name`, `Reference.NamePart`.

**Results.**
* `Reference.isName_iff`: what passes the check of a name;
* `Reference.parse?_eq_some_iff`: what is read as a reference;
* `Reference.reads_grammar`: the same for whole values, and where there is no line break;
* `Reference.reads_line_break`: a text with a line break at its end is read as a reference.
-/

namespace Rollout.Reference

/-- The characters of names. -/
def NameChar (c : Char) : Prop :=
  ('A' ≤ c ∧ c ≤ 'Z') ∨ ('a' ≤ c ∧ c ≤ 'z') ∨ ('0' ≤ c ∧ c ≤ '9') ∨ c = '_' ∨ c = '-'

/-- The name of a unit or of a field. -/
structure Name (t : String) : Prop where
  nonempty : t ≠ ""
  chars : ∀ c ∈ t.toList, NameChar c

/-- What the check of a name accepts: a line break may stand behind the name. -/
def NamePart (t : String) : Prop :=
  ∃ name, Name name ∧ (t = name ∨ t = name ++ "\n")

/-! ### Names -/

theorem isNameChar_iff {c : Char} : isNameChar c = true ↔ NameChar c := by
  have hupper : c.isUpper = decide ('A' ≤ c ∧ c ≤ 'Z') := rfl
  have hlower : c.isLower = (decide ('a' ≤ c) && decide (c ≤ 'z')) := rfl
  have hdigit : c.isDigit = (decide ('0' ≤ c) && decide (c ≤ '9')) := rfl
  have hname : isNameChar c = (c.isUpper || c.isLower || c.isDigit || c == '_' || c == '-') := rfl
  rw [hname, hupper, hlower, hdigit]
  simp only [NameChar, Bool.or_eq_true, Bool.and_eq_true, decide_eq_true_eq, beq_iff_eq, or_assoc]

/-- Neither a point nor a line break is a character of names. -/
theorem NameChar.ne {c : Char} (h : NameChar c) : c ≠ '.' ∧ c ≠ '\n' := by
  constructor <;> rintro rfl <;> exact absurd (isNameChar_iff.mpr h) (by decide)

theorem Name.ne_of_mem {t : String} (h : Name t) {c : Char} (hc : c ∈ t.toList) :
    c ≠ '.' ∧ c ≠ '\n' :=
  (h.chars c hc).ne

theorem Name.namePart {t : String} (h : Name t) : NamePart t := ⟨t, h, Or.inl rfl⟩

/-- The parts of a reference have no point. -/
theorem NamePart.no_point {t : String} (h : NamePart t) : '.' ∉ t.toList := by
  obtain ⟨name, hname, rfl | rfl⟩ := h
  · exact fun hc => (hname.ne_of_mem hc).1 rfl
  · rw [String.toList_append, List.mem_append]
    rintro (hc | hc)
    · exact (hname.ne_of_mem hc).1 rfl
    · exact absurd hc (by decide)

/-- A part without line breaks that passes the check is a name. -/
theorem NamePart.name {t : String} (h : NamePart t) (hb : '\n' ∉ t.toList) : Name t := by
  obtain ⟨name, hname, rfl | rfl⟩ := h
  · exact hname
  · exact absurd (by simp) hb

/-- Characters that make a name. -/
theorem name_ofList {cs : List Char} :
    Name (String.ofList cs) ↔ (!cs.isEmpty && cs.all isNameChar) = true := by
  simp only [Bool.and_eq_true, Bool.not_eq_true', List.isEmpty_eq_false_iff, List.all_eq_true,
    isNameChar_iff]
  constructor
  · intro h
    exact ⟨fun hcs => h.nonempty (by rw [hcs, String.ofList_nil]), by simpa using h.chars⟩
  · rintro ⟨hne, hchars⟩
    refine ⟨fun h => hne ?_, by simpa using hchars⟩
    simpa using congrArg String.toList h

/-- **What passes the check of a name**: a name, also with a line break behind it. -/
theorem isName_iff {t : String} : isName t.toList = true ↔ NamePart t := by
  unfold isName
  constructor
  · split
    · rename_i hlast
      intro h
      obtain ⟨body, hbody⟩ := List.getLast?_eq_some_iff.mp hlast
      rw [hbody, List.dropLast_concat] at h
      refine ⟨String.ofList body, name_ofList.mpr h, Or.inr ?_⟩
      rw [← String.toList_inj, String.toList_append, String.toList_ofList, hbody]
      rfl
    · intro h
      refine ⟨t, ?_, Or.inl rfl⟩
      simpa using name_ofList.mpr h
  · rintro ⟨name, hname, rfl | rfl⟩
    · have hlast : t.toList.getLast? ≠ some '\n' := fun h =>
        (hname.ne_of_mem (List.mem_of_getLast? h)).2 rfl
      rw [if_neg hlast]
      exact name_ofList.mp (by simpa using hname)
    · have hbody : (name ++ "\n").toList = name.toList ++ ['\n'] := String.toList_append
      rw [hbody, List.getLast?_concat, if_pos rfl, List.dropLast_concat]
      exact name_ofList.mp (by simpa using hname)

/-! ### What is read -/

/-- The parts of what a reference prints. -/
def pieces (r : Reference) : List (List Char) :=
  ["self".toList, r.kind.text.toList, r.unit.toList, "output".toList, r.field.toList]

theorem toList_text (r : Reference) : r.text.toList = ['.'].intercalate r.pieces := by
  simp [text, pieces, List.intercalate, List.intersperse]

/-- What a reference prints is cut into its parts again. -/
theorem parts_text {r : Reference} (hu : '.' ∉ r.unit.toList) (hf : '.' ∉ r.field.toList) :
    parts r.text.toList = r.pieces := by
  have hkind : '.' ∉ r.kind.text.toList := by cases r.kind <;> decide
  rw [toList_text, parts_eq_splitOn, List.splitOn_intercalate]
  · simpa [pieces] using ⟨hkind, hu, hf⟩
  · simp [pieces]

theorem ofText?_eq_some_iff {t : String} {kind : UnitKind} :
    UnitKind.ofText? t = some kind ↔ t = kind.text := by
  constructor
  · intro h
    have hfound := List.find?_some h
    exact (beq_iff_eq.mp hfound).symm
  · rintro rfl
    exact UnitKind.ofText?_text kind

/-- A text is read as a reference if its parts are those of the reference and pass the check of
names. -/
theorem parse?_eq_some_iff_parts {s : String} {r : Reference} :
    parse? s = some r ↔
      parts s.toList = r.pieces ∧ isName r.unit.toList = true ∧ isName r.field.toList = true := by
  constructor
  · intro h
    unfold parse? at h
    split at h
    case h_2 => cases h
    rename_i self kind unit output field hparts
    split at h
    case isFalse => cases h
    rename_i hfixed
    split at h
    case h_2 => cases h
    rename_i k hkind
    split at h
    case isFalse => cases h
    rename_i hnames
    obtain rfl := Option.some.inj h
    rw [ofText?_eq_some_iff, ← String.toList_inj, String.toList_ofList] at hkind
    rw [hparts, hfixed.1, hfixed.2, hkind]
    simpa [pieces] using hnames
  · rintro ⟨hparts, hu, hf⟩
    unfold parse?
    rw [hparts, pieces]
    simp [hu, hf, UnitKind.ofText?_text]

/-- **What is read as a reference**: what the reference prints, where the unit and the field pass
the check of names. -/
theorem parse?_eq_some_iff {s : String} {r : Reference} :
    parse? s = some r ↔ s = r.text ∧ NamePart r.unit ∧ NamePart r.field := by
  rw [parse?_eq_some_iff_parts, isName_iff, isName_iff]
  constructor
  · rintro ⟨hparts, hnames⟩
    refine ⟨?_, hnames⟩
    rw [← String.toList_inj, toList_text, ← hparts, parts_eq_splitOn, List.intercalate_splitOn]
  · rintro ⟨rfl, hu, hf⟩
    exact ⟨parts_text hu.no_point hf.no_point, hu, hf⟩

/-- A reference without line breaks has names for its unit and its field. -/
theorem no_break_iff {r : Reference} (hu : NamePart r.unit) (hf : NamePart r.field) :
    '\n' ∉ r.text.toList ↔ Name r.unit ∧ Name r.field := by
  have hkind : '\n' ∉ r.kind.text.toList := by cases r.kind <;> decide
  have htext : '\n' ∉ r.text.toList ↔ '\n' ∉ r.unit.toList ∧ '\n' ∉ r.field.toList := by
    simp [text, hkind]
  rw [htext]
  constructor
  · exact fun ⟨hnu, hnf⟩ => ⟨hu.name hnu, hf.name hnf⟩
  · exact fun ⟨hnu, hnf⟩ =>
      ⟨fun hc => (hnu.ne_of_mem hc).2 rfl, fun hc => (hnf.ne_of_mem hc).2 rfl⟩

/-- **The texts that are read as references.** A text is read as the reference that prints it, if
the unit and the field of that reference are names, where a line break may stand behind either of
them. Among the texts without line breaks these are the texts `self.<kind>.<unit>.output.<field>`
with names for the unit and the field. Every other text, and every value that is not a text, is a
literal: the references in a value are the texts in it that are read so, each at its path. -/
theorem reads_grammar (s : String) (r : Reference) (v : Value) (path p : Path) :
    (parse? s = some r ↔ s = r.text ∧ NamePart r.unit ∧ NamePart r.field) ∧
    (parse? s = some r ∧ '\n' ∉ s.toList ↔ s = r.text ∧ Name r.unit ∧ Name r.field) ∧
    ((p, r) ∈ v.references path ↔
      ∃ q, p = path ++ q ∧ v.TextAt q r.text ∧ NamePart r.unit ∧ NamePart r.field) := by
  refine ⟨parse?_eq_some_iff, ?_, ?_⟩
  · rw [parse?_eq_some_iff]
    constructor
    · rintro ⟨⟨rfl, hu, hf⟩, hb⟩
      exact ⟨rfl, (no_break_iff hu hf).mp hb⟩
    · rintro ⟨rfl, hu, hf⟩
      exact ⟨⟨rfl, hu.namePart, hf.namePart⟩,
        (no_break_iff hu.namePart hf.namePart).mpr ⟨hu, hf⟩⟩
  · rw [Value.mem_references]
    constructor
    · rintro ⟨q, s, rfl, htext, hs⟩
      obtain ⟨rfl, hnames⟩ := parse?_eq_some_iff.mp hs
      exact ⟨q, rfl, htext, hnames⟩
    · rintro ⟨q, rfl, htext, hnames⟩
      exact ⟨q, r.text, rfl, htext, parse?_eq_some_iff.mpr ⟨rfl, hnames⟩⟩

/-- A line break at the end of a text becomes part of the field that the text is read with, although
no reference with names prints such a text. -/
theorem reads_line_break :
    parse? "self.service.db.output.host\n" = some ⟨.service, "db", "host\n"⟩ ∧
    ¬∃ r : Reference, "self.service.db.output.host\n" = r.text ∧ Name r.unit ∧ Name r.field := by
  refine ⟨by rfl, ?_⟩
  rintro ⟨r, htext, hu, hf⟩
  have hb := (no_break_iff hu.namePart hf.namePart).mpr ⟨hu, hf⟩
  rw [← htext] at hb
  exact hb (by decide)

end Rollout.Reference
