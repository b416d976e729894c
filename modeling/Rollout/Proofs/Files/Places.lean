import Rollout.Proofs.Text.Split

/-!
# Where the text of a path leads

The text of a path is a way from a place to another one, cut at its slashes: nothing and a point
stay where they are, two points lead to the place above, and every other part leads to the place of
that name. A text that begins with a slash starts anew, and at the top the place above is the top
itself. No folder is looked at for this. Paths that are joined and normalised lead to the same
places as walking along their texts, one after the other.

**Types.** `FilePath.Proper`, `FilePath.Above`.

**Operations.** `FilePath.enter`, `FilePath.follow`.

**Results.**
* `FilePath.resolveNames_eq_foldl`: resolving double points from the top is walking;
* `FilePath.normalize_join`: where a text leads that is joined to a path and normalised;
* `FilePath.within_ofText`, `FilePath.within_join`: the same for what is seen from a directory.
-/

namespace Rollout.FilePath

/-- The names of the place that a part of a path leads to. -/
def enter (names : List String) (part : String) : List String :=
  if part = "" ∨ part = "." then names
  else if part = ".." then names.dropLast
  else names ++ [part]

/-- The place that a text leads to from a place. -/
def follow (place : FilePath) (s : String) : FilePath :=
  let parts := (s.toList.splitOn '/').map String.ofList
  match startOf s.toList with
  | .relative => ⟨place.start, parts.foldl enter place.names⟩
  | start => ⟨start, parts.foldl enter []⟩

/-- The place where a text leads that begins with one slash. -/
def top : FilePath := ⟨.root, []⟩

/-- One place is another one or lies above it, component by component. -/
def Above (place other : FilePath) : Prop :=
  place.start = other.start ∧ place.names <+: other.names

/-- The names of a path are those of a text: there is neither nothing nor a point among them. -/
def Proper (p : FilePath) : Prop := ∀ n ∈ p.names, n ≠ "" ∧ n ≠ "."

theorem proper_ofText (s : String) : (ofText s).Proper := by
  intro n hn
  simpa using (List.mem_filter.mp hn).2

theorem Proper.join {p q : FilePath} (hp : p.Proper) (hq : q.Proper) : (p.join q).Proper := by
  unfold FilePath.join
  split
  · exact hq
  · exact List.forall_mem_append.mpr ⟨hp, hq⟩

/-! ### Walking -/

/-- **Resolving double points** from the top is walking, if all names so far are proper ones. -/
theorem resolveNames_eq_foldl {start : Root} (hstart : start ≠ .relative) {names : List String}
    (hnames : ∀ n ∈ names, n ≠ "" ∧ n ≠ ".") {done : List String} (hdone : ".." ∉ done) :
    resolveNames start done names = names.foldl enter done.reverse := by
  induction names generalizing done with
  | nil => rfl
  | cons n rest ih =>
    obtain ⟨hn, hrest⟩ := List.forall_mem_cons.mp hnames
    rw [List.foldl_cons, enter, if_neg (not_or.mpr hn)]
    by_cases hup : n = ".."
    · rw [if_pos hup]
      cases done with
      | nil =>
        rw [resolveNames.eq_def]
        simp only [if_pos hup, if_neg hstart]
        exact ih hrest hdone
      | cons d earlier =>
        rw [List.mem_cons, not_or] at hdone
        rw [resolveNames.eq_def, List.reverse_cons, List.dropLast_concat]
        simp only [if_pos hup, if_neg (Ne.symm hdone.1)]
        exact ih hrest hdone.2
    · have hnew : ".." ∉ n :: done := by
        rw [List.mem_cons, not_or]
        exact ⟨Ne.symm hup, hdone⟩
      rw [resolveNames.eq_def, if_neg hup, ← List.reverse_cons]
      simp only [if_neg hup]
      exact ih hrest hnew

/-- Parts that stay can be dropped before walking. -/
theorem foldl_enter_names (s : String) (names : List String) :
    (ofText s).names.foldl enter names =
      ((s.toList.splitOn '/').map String.ofList).foldl enter names := by
  rw [ofText, splitSlashes_eq_splitOn, List.foldl_filter]
  congr 1
  funext names part
  by_cases hstay : part = "" ∨ part = "."
  · rcases hstay with rfl | rfl <;> simp [enter]
  · obtain ⟨hempty, hpoint⟩ := not_or.mp hstay
    simp [hempty, hpoint]

/-- An absolute path is normalised by walking along its names. -/
theorem Proper.normalize_eq {p : FilePath} (hp : p.Proper) (habs : p.isAbsolute = true) :
    p.normalize = ⟨p.start, p.names.foldl enter []⟩ := by
  have hstart : p.start ≠ .relative := by simpa [isAbsolute] using habs
  rw [normalize, resolveNames_eq_foldl hstart hp List.not_mem_nil, List.reverse_nil]

/-- **A text that is joined to an absolute path** leads, after normalising, from where the path
leads to. -/
theorem normalize_join {p : FilePath} (hp : p.Proper) (habs : p.isAbsolute = true) (s : String) :
    (p.join (ofText s)).normalize = p.normalize.follow s := by
  have hjoined := hp.join (proper_ofText s)
  unfold follow
  cases hs : startOf s.toList with
  | relative =>
    have hjoin : p.join (ofText s) = ⟨p.start, p.names ++ (ofText s).names⟩ := by
      simp [join, isAbsolute, ofText, hs]
    rw [hjoin] at hjoined ⊢
    rw [hp.normalize_eq habs, hjoined.normalize_eq habs, List.foldl_append, foldl_enter_names]
  | _ =>
    have hjoin : p.join (ofText s) = ofText s := by simp [join, isAbsolute, ofText, hs]
    have habsolute : (ofText s).isAbsolute = true := by simp [isAbsolute, ofText, hs]
    rw [hjoin, (proper_ofText s).normalize_eq habsolute, foldl_enter_names]
    simp [ofText, hs]

theorem isAbsolute_join {p q : FilePath} (hp : p.isAbsolute = true) :
    (p.join q).isAbsolute = true := by
  unfold join
  split
  · assumption
  · exact hp

theorem join_assoc (p q r : FilePath) : p.join (q.join r) = (p.join q).join r := by
  cases hr : r.isAbsolute with
  | true => simp [join, hr]
  | false =>
    cases hq : q.isAbsolute with
    | true =>
      have hqr : (⟨q.start, q.names ++ r.names⟩ : FilePath).isAbsolute = true := hq
      simp [join, hr, hq, hqr]
    | false =>
      have hqr : (⟨q.start, q.names ++ r.names⟩ : FilePath).isAbsolute = false := hq
      simp [join, hr, hq, hqr]

/-! ### Texts seen from a directory -/

/-- A text that begins with a slash is an absolute path. -/
theorem isAbsolute_ofText {d : String} (hd : d.toList.head? = some '/') :
    (ofText d).isAbsolute = true := by
  obtain ⟨rest, hrest⟩ := List.head?_eq_some_iff.mp hd
  have hstart : startOf d.toList ≠ .relative := by
    rw [hrest, startOf.eq_def]
    split <;> simp_all
  simpa [isAbsolute, ofText] using hstart

/-- An absolute path leads from the top to its place. -/
theorem normalize_ofText {d : String} (hd : d.toList.head? = some '/') :
    (ofText d).normalize = top.follow d := by
  have hproper : top.Proper := fun n hn => absurd hn List.not_mem_nil
  have hjoin := normalize_join hproper rfl d
  rwa [join, if_pos (isAbsolute_ofText hd)] at hjoin

/-- **A text that is seen from a directory** leads from the place of the directory to its place. -/
theorem within_ofText {d : String} (hd : d.toList.head? = some '/') (s : String) :
    (ofText d).within (ofText s) = (top.follow d).follow s := by
  rw [within, normalize_join (proper_ofText d) (isAbsolute_ofText hd), normalize_ofText hd]

/-- A text that is joined to another one before leads on from the place of that one. -/
theorem within_join {d : String} (hd : d.toList.head? = some '/') (s t : String) :
    (ofText d).within ((ofText s).join (ofText t)) = ((top.follow d).follow s).follow t := by
  rw [within, join_assoc, normalize_join ((proper_ofText d).join (proper_ofText s))
    (isAbsolute_join (isAbsolute_ofText hd)), ← within_ofText hd]
  rfl

end Rollout.FilePath
