import Rollout.Files.Tree
import Rollout.Proofs.Text.Split

/-!
# Paths and folders

A path leads to a place if there are folders all the way, so what it leads to depends on the folders
only. Making a folder with those above it leaves everything that was there in its place, and adds
nothing but folders; it is refused when a file is on the way.

**Types.** `Files.Keeps`.

**Results.**
* `FilePath.ofText_name`: a text without slashes is one name;
* `Files.walk_congr`: paths depend on the folders only;
* `Files.locate?_of_folders`: where a path leads along folders;
* `Files.makeFolders_spec`: what is made, and when it is refused.
-/

namespace Rollout

/-! ### Names -/

namespace FilePath

/-- **A text without slashes** is one name. -/
theorem ofText_name {s : String} (h : '/' ∉ s.toList) (hempty : s ≠ "") (hpoint : s ≠ ".") :
    ofText s = ⟨.relative, [s]⟩ := by
  have hstart : startOf s.toList = .relative := by
    cases hs : s.toList with
    | nil => rfl
    | cons c rest =>
      rw [hs, List.mem_cons, not_or] at h
      unfold startOf
      split <;> simp_all
  rw [ofText, hstart, splitSlashes_eq_splitOn, List.splitOn_eq_singleton h]
  simp [hempty, hpoint]

end FilePath

namespace Files

variable {files files' : Files} {place : List String} {names : List String}

/-! ### Walks -/

/-- **What a path leads to** depends on the folders only. -/
theorem walk_congr (h : ∀ p, files.at? p = some .folder ↔ files'.at? p = some .folder)
    (place names : List String) : files.walk place names = files'.walk place names := by
  induction names generalizing place with
  | nil => rfl
  | cons n rest ih =>
    rw [walk, walk]
    by_cases hplace : files.at? place = some .folder
    · rw [if_pos hplace, if_pos ((h place).mp hplace), ih]
    · rw [if_neg hplace, if_neg fun h' => hplace ((h place).mpr h')]

/-- Names lead on from a place along folders. -/
theorem walk_of_folders (hup : ".." ∉ names)
    (h : ∀ n < names.length, files.at? (place ++ names.take n) = some .folder) :
    files.walk place names = some (place ++ names) := by
  induction names generalizing place with
  | nil => rw [walk, List.append_nil]
  | cons n rest ih =>
    rw [List.mem_cons, not_or] at hup
    have hplace : files.at? place = some .folder := by
      simpa using h 0 (Nat.zero_lt_succ _)
    rw [walk, if_pos hplace, if_neg (Ne.symm hup.1), ih hup.2, List.append_assoc,
      List.singleton_append]
    intro k hk
    rw [List.append_assoc, List.singleton_append]
    exact h (k + 1) (Nat.succ_lt_succ hk)

/-- **A path leads along folders** to the place of its names. -/
theorem locate?_of_folders {p : FilePath} (hup : ".." ∉ p.names)
    (h : ∀ n < p.names.length, files.at? (p.names.take n) = some .folder) :
    files.locate? p = some p.names :=
  walk_of_folders hup fun n hn => by rw [List.nil_append]; exact h n hn

/-! ### Making folders -/

/-- What is in a place is there later on, too; if nothing was in it, a folder may have been made on
the way to another place. -/
def Keeps (folder : List String) (files files' : Files) (p : List String) : Prop :=
  files'.at? p = files.at? p ∨ files.at? p = none ∧ p <+: folder ∧ files'.at? p = some .folder

theorem Keeps.file {folder p : List String} (h : Keeps folder files files' p) {content : ByteArray} :
    files'.at? p = some (.file content) ↔ files.at? p = some (.file content) := by
  rcases h with h | ⟨hnone, -, hfolder⟩
  · rw [h]
  · simp [hnone, hfolder]

theorem Keeps.trans {folder p : List String} {last : Files} (h : Keeps folder files files' p)
    (h' : Keeps folder files' last p) : Keeps folder files last p := by
  rcases h' with h' | ⟨hnone, hp, hfolder⟩
  · rcases h with h | ⟨hnone, hp, hfolder⟩
    · exact .inl (h'.trans h)
    · exact .inr ⟨hnone, hp, h'.trans hfolder⟩
  · rcases h with h | ⟨-, -, hfolder'⟩
    · exact .inr ⟨h ▸ hnone, hp, hfolder⟩
    · rw [hfolder'] at hnone
      cases hnone

/-- The places of a folder and of those above it. -/
theorem mem_steps {folder p : List String} :
    p ∈ above folder ++ [folder] ↔ p <+: folder ∧ (p ≠ [] ∨ p = folder) := by
  rw [List.mem_append, List.mem_singleton, above, List.mem_filterMap]
  constructor
  · rintro (⟨n, hn, hp⟩ | rfl)
    · split at hp
      · cases hp
      · rename_i hzero
        obtain rfl := Option.some.inj hp
        refine ⟨List.take_prefix n folder, .inl fun hnil => ?_⟩
        rcases List.take_eq_nil_iff.mp hnil with h | rfl
        · exact hzero h
        · simp at hn
    · exact ⟨List.prefix_refl p, .inr rfl⟩
  · rintro ⟨hp, hne⟩
    by_cases heq : p = folder
    · exact .inr heq
    · have hlength : p.length ≠ 0 := fun h => (hne.resolve_right heq) (List.eq_nil_of_length_eq_zero h)
      have hlt : p.length < folder.length :=
        Nat.lt_of_le_of_ne hp.length_le fun h => heq (hp.eq_of_length h)
      exact .inl ⟨p.length, List.mem_range.mpr hlt, by
        rw [if_neg hlength, ← List.prefix_iff_eq_take.mp hp]⟩

/-- One folder is made, or a file is in its place. -/
theorem makeFolder_spec {folder p : List String} (hp : p <+: folder) (files : Files) :
    (∃ grown, files.makeFolder folder p = .ok grown ∧ grown.at? p = some .folder ∧
      ∀ q, Keeps folder files grown q) ∨
    ∃ reason content, files.makeFolder folder p = .error reason ∧
      files.at? p = some (.file content) := by
  unfold makeFolder
  cases hitem : files.at? p with
  | none =>
    have hne : p ≠ [] := by
      rintro rfl
      cases hitem
    refine .inl ⟨_, rfl, by rw [at?_put files .folder hne, if_pos rfl], fun q => ?_⟩
    by_cases hq : q = []
    · subst hq
      exact .inl rfl
    · rw [Keeps, at?_put files .folder hq]
      split
      · rename_i heq
        subst heq
        exact .inr ⟨hitem, hp, rfl⟩
      · exact .inl rfl
  | some item =>
    cases item with
    | folder => exact .inl ⟨files, rfl, hitem, fun q => .inl rfl⟩
    | file content => exact .inr ⟨_, content, rfl, rfl⟩

/-- Folders are made one after the other, or a file is in the place of one of them. -/
theorem foldlM_makeFolder {folder : List String} {places : List (List String)}
    (hplaces : ∀ p ∈ places, p <+: folder) (files : Files) :
    (∃ grown, places.foldlM (makeFolder folder) files = .ok grown ∧
      (∀ p ∈ places, grown.at? p = some .folder) ∧ ∀ q, Keeps folder files grown q) ∨
    ∃ reason, places.foldlM (makeFolder folder) files = .error reason ∧
      ∃ p ∈ places, ∃ content, files.at? p = some (.file content) := by
  induction places generalizing files with
  | nil => exact .inl ⟨files, rfl, by simp, fun q => .inl rfl⟩
  | cons p rest ih =>
    rw [List.foldlM_cons]
    rcases makeFolder_spec (hplaces p List.mem_cons_self) files with
      ⟨grown, hgrown, hfolder, hkeeps⟩ | ⟨reason, content, herror, hfile⟩
    · rw [hgrown]
      rcases ih (fun q hq => hplaces q (List.mem_cons_of_mem _ hq)) grown with
        ⟨last, hlast, hfolders, hrest⟩ | ⟨reason, herror, q, hq, content, hfile⟩
      · refine .inl ⟨last, hlast, List.forall_mem_cons.mpr ⟨?_, hfolders⟩,
          fun q => (hkeeps q).trans (hrest q)⟩
        rcases hrest p with hkept | ⟨-, -, hmade⟩
        · exact hkept.trans hfolder
        · exact hmade
      · exact .inr ⟨reason, herror, q, List.mem_cons_of_mem _ hq, content, (hkeeps q).file.mp hfile⟩
    · exact .inr ⟨reason, by rw [herror]; rfl, p, List.mem_cons_self, content, hfile⟩

/-- **Making a folder** with those above it adds nothing but the folders that are missing; it is
refused if a file is in one of their places. -/
theorem makeFolders_spec (files : Files) (folder : List String) :
    (∃ grown, files.makeFolders folder = .ok grown ∧
      (∀ p, p <+: folder → grown.at? p = some .folder) ∧ ∀ p, Keeps folder files grown p) ∨
    ∃ reason, files.makeFolders folder = .error reason ∧
      ∃ p content, p <+: folder ∧ files.at? p = some (.file content) := by
  have hplaces : ∀ p ∈ above folder ++ [folder], p <+: folder := fun p hp =>
    (mem_steps.mp hp).1
  rcases foldlM_makeFolder hplaces files with ⟨grown, hgrown, hfolders, hkeeps⟩ |
    ⟨reason, herror, p, hp, content, hfile⟩
  · refine .inl ⟨grown, hgrown, fun p hp => ?_, hkeeps⟩
    by_cases hne : p = []
    · subst hne
      rfl
    · exact hfolders p (mem_steps.mpr ⟨hp, .inl hne⟩)
  · exact .inr ⟨reason, herror, p, content, hplaces p hp, hfile⟩

end Files

end Rollout
