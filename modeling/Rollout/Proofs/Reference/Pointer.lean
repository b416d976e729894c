import Rollout.Proofs.Reference.Leaves

/-!
# Pointers

The pointer of a path shows its parts behind slashes. Two things are lost in it: where a part ends,
if a part shows a slash itself, and of which kind a key is, so that the number `1` and the text `1`
are shown alike. Nothing else is lost. Parts without slashes are found again in a pointer, and paths
that part with keys that are shown differently have different pointers.

**Types.** `Path.Clear`, `Path.Apart`.

**Results.**
* `Path.displays_of_pointer`: the parts of a path, as they are shown;
* `Path.eq_of_pointer`: the path of a pointer;
* `Value.TextAt.apart`: paths into documents with text keys are apart.
-/

namespace Rollout

namespace Path

/-- No part of the path shows a slash. -/
def Clear (p : Path) : Prop := ∀ k ∈ p, '/' ∉ k.display.toList

instance (p : Path) : Decidable (Clear p) :=
  inferInstanceAs (Decidable (∀ k ∈ p, '/' ∉ k.display.toList))

/-- Where two paths part, the parts are shown differently. -/
def Apart (p q : Path) : Prop :=
  ∀ common k l p' q', p = common ++ k :: p' → q = common ++ l :: q' → k.display = l.display → k = l

/-- A pointer is cut at its slashes. -/
theorem splitOn_pointer {p : Path} (h : Clear p) (hne : p ≠ []) :
    ((pointer p).toList.drop 1).splitOn '/' = p.map fun k => k.display.toList := by
  have hparts : ∀ part ∈ p.map fun k => k.display.toList, '/' ∉ part := by
    intro part hpart
    obtain ⟨k, hk, rfl⟩ := List.mem_map.mp hpart
    exact h k hk
  have hslash : "/".toList = ['/'] := rfl
  rw [pointer, String.toList_append, String.toList_intercalate, hslash, List.map_map,
    List.singleton_append, List.drop_one, List.tail_cons]
  exact List.splitOn_intercalate '/' hparts (by simpa using hne)

/-- A pointer shows the parts of a path. -/
theorem displays_of_pointer {p q : Path} (hp : Clear p) (hq : Clear q) (hp' : p ≠ []) (hq' : q ≠ [])
    (h : pointer p = pointer q) : p.map Key.display = q.map Key.display := by
  have hparts := splitOn_pointer hp hp'
  rw [h, splitOn_pointer hq hq'] at hparts
  refine (List.map_injective_iff.mpr fun _ _ => String.toList_inj.mp) ?_
  rw [List.map_map, List.map_map]
  exact hparts.symm

/-- Paths that are shown alike are the same, if they are apart. -/
theorem eq_of_displays {p q : Path} (h : p.map Key.display = q.map Key.display)
    (hapart : Apart p q) : p = q := by
  induction p generalizing q with
  | nil => exact (List.map_eq_nil_iff.mp h.symm).symm
  | cons k p ih =>
    cases q with
    | nil => cases h
    | cons l q =>
      obtain ⟨hkey, hrest⟩ := List.cons.inj h
      obtain rfl := hapart [] k l p q rfl rfl hkey
      rw [ih hrest fun common k' l' p' q' hp hq =>
        hapart (k :: common) k' l' p' q' (congrArg _ hp) (congrArg _ hq)]

/-- **A pointer tells its path** among paths without slashes in their parts that are apart. -/
theorem eq_of_pointer {p q : Path} (hp : Clear p) (hq : Clear q) (hp' : p ≠ []) (hq' : q ≠ [])
    (hapart : Apart p q) (h : pointer p = pointer q) : p = q :=
  eq_of_displays (displays_of_pointer hp hq hp' hq' h) hapart

/-- Paths that begin with the same part are apart if they are so behind it. -/
theorem Apart.cons {k : Key} {p q : Path} (h : Apart p q) : Apart (k :: p) (k :: q) := by
  intro common k' l' p' q' hp hq hdisplay
  cases common with
  | nil => exact (List.cons.inj hp).1.symm.trans (List.cons.inj hq).1
  | cons first common =>
    exact h common k' l' p' q' (List.cons.inj hp).2 (List.cons.inj hq).2 hdisplay

/-- Paths that begin with parts that are shown differently are apart. -/
theorem apart_of_ne {k l : Key} {p q : Path} (h : k.display ≠ l.display) :
    Apart (k :: p) (l :: q) := by
  intro common k' l' p' q' hp hq hdisplay
  cases common with
  | nil =>
    rw [(List.cons.inj hp).1, (List.cons.inj hq).1] at h
    exact absurd hdisplay h
  | cons first common =>
    rw [(List.cons.inj hp).1, (List.cons.inj hq).1] at h
    exact absurd rfl h

end Path

/-- Positions are shown differently. -/
theorem Key.eq_of_display_int {i j : Nat} (h : (Key.int i).display = (Key.int j).display) :
    i = j := by
  have hrepr : Nat.toDigits 10 i = Nat.toDigits 10 j := String.ofList_injective h
  rw [← Nat.ofDigitChars_ten_toDigits (n := i), hrepr, Nat.ofDigitChars_ten_toDigits]

/-- **The paths to two texts** are apart, if all keys are texts and no mapping names an entry twice. -/
theorem Value.TextAt.apart {v : Value} (hkeys : v.Keyed) (hv : v.Unambiguous) {p q : Path}
    {s t : String} (h : v.TextAt p s) (h' : v.TextAt q t) : Path.Apart p q := by
  induction h generalizing q with
  | here =>
    intro common k l p' q' hp
    simp at hp
  | @item items i w p s hw _ ih =>
    cases h' with
    | @item _ j w' q _ hw' h' =>
      by_cases hij : i = j
      · subst hij
        rw [hw, Option.some.injEq] at hw'
        subst hw'
        have hmem := List.mem_of_getElem? hw
        exact (ih (keyed_list.mp hkeys w hmem) (unambiguous_list.mp hv w hmem) h').cons
      · exact Path.apart_of_ne fun hdisplay => hij (Key.eq_of_display_int hdisplay)
  | @entry entries e p s he _ ih =>
    generalize hmap : Value.map entries = v' at h'
    cases h' with
    | here => cases hmap
    | item => cases hmap
    | @entry _ e' q _ he' h' =>
      obtain rfl := Value.map.inj hmap
      obtain ⟨⟨key, hkey⟩, hkeyed⟩ := keyed_map.mp hkeys e he
      obtain ⟨⟨key', hkey'⟩, -⟩ := keyed_map.mp hkeys e' he'
      by_cases hsame : e.1 = e'.1
      · have hnodup : (entries.map Prod.fst).Nodup := by
          refine (unambiguous_map.mp hv).1.imp fun {a b} hab heq => ?_
          rw [heq, Key.same_self] at hab
          cases hab
        obtain rfl : e = e' := List.inj_on_of_nodup_map hnodup he he' hsame
        exact (ih hkeyed ((unambiguous_map.mp hv).2 e he) h').cons
      · refine Path.apart_of_ne fun hdisplay => hsame ?_
        rw [hkey, hkey'] at hdisplay ⊢
        exact congrArg Key.text hdisplay

end Rollout
