import Rollout.Buildstate.Draft
import Rollout.Proofs.Buildstate.Reloaded
import Rollout.Proofs.Files.Folders
import Rollout.Proofs.Table

/-!
# Saves are all or nothing

A save writes a draft and lets it replace the file of the stack. Whatever name the draft gets, as long
as the name is not in use, this comes to the same as writing the file at once, or to a refusal that
leaves no file behind: the draft is never seen afterwards.

What is not all or nothing is the kind of the refusal. A file in the way of the folder of the store is
noticed before there is a draft, and then the file system itself is heard, without a failure to report.

**Types.** `Store.Unused`.

**Results.**
* `Store.placeThrough_eq`, `Store.saveThrough_eq`: the steps of a save and what they come to;
* `Store.save_spec`: the three ends of a save;
* `Store.saved_or_kept`: saves are all or nothing, and when they are refused.
-/

namespace Rollout

/-- A name of more than two characters without slashes is a name inside a folder. -/
theorem FilePath.join_name {s : String} (h : '/' ∉ s.toList) (hlength : 2 < s.length)
    (folder : FilePath) : folder.join (ofText s) = folder.child s := by
  have hempty : s ≠ "" := by
    rintro rfl
    cases hlength
  have hpoint : s ≠ "." := by
    rintro rfl
    exact absurd hlength (by decide)
  rw [ofText_name h hempty hpoint]
  rfl

/-- What a name inside a folder leads to. -/
theorem Files.locate?_child {files : Files} {folder : FilePath} (hup : ".." ∉ folder.names)
    (hfolders : ∀ p, p <+: folder.names → files.at? p = some .folder) {name : String}
    (hname : name ≠ "..") : files.locate? (folder.child name) = some (folder.names ++ [name]) := by
  refine locate?_of_folders ?_ fun n hn => ?_
  · simpa [FilePath.child] using ⟨hup, Ne.symm hname⟩
  · simp only [FilePath.child, List.length_append, List.length_singleton] at hn ⊢
    rw [List.take_append_of_le_length (Nat.le_of_lt_succ hn)]
    exact hfolders _ (List.take_prefix n _)

namespace Store

variable {store : Store} {folder : FilePath} {stack token text : String} {files : Files}

/-! ### Names of files -/

theorem pathIn_name (h : '/' ∉ stack.toList) (folder : FilePath) :
    pathIn folder stack = folder.child (stack ++ ".json") := by
  have hending : ".json".length = 5 := rfl
  refine FilePath.join_name ?_ ?_ folder
  · simpa [String.toList_append] using h
  · rw [String.length_append]
    omega

theorem draftIn_name (h : '/' ∉ stack.toList) (htoken : '/' ∉ token.toList) (folder : FilePath) :
    draftIn folder stack token = folder.child ("." ++ stack ++ "." ++ token ++ ".tmp") := by
  have hending : ".tmp".length = 4 := rfl
  refine FilePath.join_name ?_ ?_ folder
  · simpa [String.toList_append] using ⟨h, htoken⟩
  · rw [String.length_append]
    omega

theorem ne_up_of_length {s : String} (h : 2 < s.length) : s ≠ ".." := by
  rintro rfl
  exact absurd h (by decide)

/-! ### Drafts -/

/-- The draft that is written first cannot be told from a file that is written at once: its place is
empty before, and it is gone when the save has ended. -/
theorem placeThrough_eq (hunused : ∀ held, files.locate? (draftIn folder stack token) = some held →
    files.at? held = none) :
    placeThrough folder stack token text files = place folder stack token text files := by
  unfold placeThrough place Files.create
  dsimp only
  cases hdraft : files.locate? (draftIn folder stack token) with
  | none => rfl
  | some held =>
    have hnone := hunused held hdraft
    have hheld : held ≠ [] := by
      rintro rfl
      cases hnone
    have habsent : Table.get? held files = none := by
      cases held with
      | nil => exact absurd rfl hheld
      | cons n rest => exact hnone
    have hwritten : (files.put held (.file ByteArray.empty)).put held (.file (Text.encode text)) =
        files.put held (.file (Text.encode text)) := Table.set_set _ _ _ _
    have hremoved : Table.erase held (files.put held (.file (Text.encode text))) = files :=
      Table.erase_set_of_get?_eq_none habsent _
    -- the draft is a file, so it changes no way
    have hfolders (p : List String) : files.at? p = some .folder ↔
        (files.put held (.file (Text.encode text))).at? p = some .folder := by
      by_cases hp : p = []
      · subst hp
        exact Iff.rfl
      · rw [Files.at?_put files _ hp]
        split
        · rename_i heq
          simp [heq, hnone]
        · exact Iff.rfl
    have hlocate (p : FilePath) :
        (files.put held (.file (Text.encode text))).locate? p = files.locate? p :=
      (Files.walk_congr hfolders [] p.names).symm
    simp only [hnone, Option.isSome_none, Bool.false_eq_true, if_false, hwritten, Files.replace,
      hlocate, ← hfolders, hremoved]
    cases files.locate? (pathIn folder stack) with
    | none => rfl
    | some target =>
      by_cases htarget : files.at? target = some .folder
      · simp only [if_pos htarget]
      · simp only [if_neg htarget]

/-- The name that a token makes for a draft is not in use when the draft is written. -/
def Unused (store : Store) (stack token : String) (files : Files) : Prop :=
  ∀ folder grown held, store.folder? = some folder → files.makeFolders folder.names = .ok grown →
    grown.locate? (draftIn folder stack token) = some held → grown.at? held = none

/-- **The steps of a save** come to a save at once, if the name of the draft is not in use. -/
theorem saveThrough_eq (hunused : store.Unused stack token files) (b : Buildstate) :
    store.saveThrough stack b files token = store.save stack b files token := by
  unfold saveThrough save saveBy
  dsimp only
  split
  · rfl
  · rename_i folder hfolder
    split
    · rfl
    · split
      · rfl
      · rename_i grown hgrown
        rw [placeThrough_eq fun held => hunused folder grown held hfolder hgrown]

/-! ### What a save leaves -/

/-- Writing into a folder puts the text into the file of the stack, or leaves the files as they
are. -/
theorem place_spec (folder : FilePath) (stack token text : String) (files : Files) :
    (∃ target, (place folder stack token text files).2 = .ok (some (pathIn folder stack)) ∧
      files.locate? (pathIn folder stack) = some target ∧ files.at? target ≠ some .folder ∧
      (place folder stack token text files).1 = files.put target (.file (Text.encode text))) ∨
    (place folder stack token text files).1 = files ∧ ∃ fault,
      (place folder stack token text files).2 = .error fault ∧
      ((∃ reason, fault = .unwritable (pathIn folder stack) reason) ∨
        (∃ reason, fault = .refused reason) ∧
          files.locate? (draftIn folder stack token) = none) := by
  unfold place
  dsimp only
  split
  · rename_i hdraft
    exact .inr ⟨rfl, _, rfl, .inr ⟨⟨_, rfl⟩, hdraft⟩⟩
  · split
    · exact .inr ⟨rfl, _, rfl, .inl ⟨_, rfl⟩⟩
    · rename_i target htarget
      split
      · exact .inr ⟨rfl, _, rfl, .inl ⟨_, rfl⟩⟩
      · rename_i hfree
        exact .inl ⟨target, rfl, htarget, hfree, rfl⟩

section Save

variable (hfolder : store.folder? = some folder) {b : Buildstate}
  (htext : payload (store.stamped stack b) = .ok text)

include hfolder htext

/-- A save into a folder that can be made. -/
theorem save_of_grown {grown : Files} (hgrown : files.makeFolders folder.names = .ok grown)
    (token : String) : store.save stack b files token =
      ⟨store.stamped stack b, (place folder stack token text grown).1,
        (place folder stack token text grown).2⟩ := by
  simp only [save, saveBy, hfolder, htext, hgrown]

/-- A save into a folder that cannot be made. -/
theorem save_of_refused {reason : FileFault}
    (herror : files.makeFolders folder.names = .error reason) (token : String) :
    store.save stack b files token = ⟨store.stamped stack b, files, .error (.refused reason)⟩ := by
  simp only [save, saveBy, hfolder, htext, herror]

/-- **The ends of a save** of a state that can be stored: its file holds the text of the state, and
everything else is as it was, or everything is as it was; only the folder of the store may have been
made. -/
theorem save_spec (files : Files) (token : String) :
    (∃ target, (store.save stack b files token).path = .ok (some (pathIn folder stack)) ∧
      (store.save stack b files token).files.locate? (pathIn folder stack) = some target ∧
      (store.save stack b files token).files.at? target = some (.file (Text.encode text)) ∧
      files.at? target ≠ some .folder ∧
      ∀ p, p ≠ target → Files.Keeps folder.names files (store.save stack b files token).files p) ∨
    (∀ p, Files.Keeps folder.names files (store.save stack b files token).files p) ∧
      ∃ fault, (store.save stack b files token).path = .error fault ∧
        ((∃ reason, fault = .unwritable (pathIn folder stack) reason) ∨
          ∃ reason, fault = .refused reason) := by
  rcases files.makeFolders_spec folder.names with ⟨grown, hgrown, -, hkeeps⟩ |
    ⟨reason, herror, -⟩
  · rw [save_of_grown hfolder htext hgrown token]
    rcases place_spec folder stack token text grown with
      ⟨target, hpath, htarget, hfree, hfiles⟩ | ⟨hfiles, fault, hpath, hfault⟩
    · have hne : target ≠ [] := by
        rintro rfl
        exact hfree rfl
      refine .inl ⟨target, hpath, ?_, ?_, ?_, fun p hp => ?_⟩
      · rw [hfiles]
        exact Files.walk_put htarget hfree _
      · rw [hfiles, Files.at?_put grown _ hne, if_pos rfl]
      · -- a folder would still be there
        intro hthere
        rcases hkeeps target with hkept | ⟨-, -, hmade⟩
        · exact hfree (hkept.trans hthere)
        · exact hfree hmade
      · refine (hkeeps p).trans (.inl ?_)
        by_cases hnil : p = []
        · subst hnil
          rfl
        · rw [hfiles, Files.at?_put grown _ hnil, if_neg hp]
    · refine .inr ⟨fun p => ?_, fault, hpath, hfault.imp_right And.left⟩
      rw [hfiles]
      exact hkeeps p
  · rw [save_of_refused hfolder htext herror token]
    exact .inr ⟨fun p => .inl rfl, _, rfl, .inr ⟨reason, rfl⟩⟩

/-- **When a save succeeds**, under a name without slashes: no file is in the way of the folder, and
no folder is in the place of the file. Only in the former case the file system refuses it before a
draft is written. -/
theorem save_name_iff (hstack : '/' ∉ stack.toList) (htoken : '/' ∉ token.toList)
    (hup : ".." ∉ folder.names) :
    ((∃ reason, (store.save stack b files token).path = .error (.refused reason)) ↔
      ∃ p content, p <+: folder.names ∧ files.at? p = some (.file content)) ∧
    ((store.save stack b files token).path = .ok (some (pathIn folder stack)) ↔
      (∀ p, p <+: folder.names → ∀ content, files.at? p ≠ some (.file content)) ∧
        files.at? (folder.names ++ [stack ++ ".json"]) ≠ some .folder) := by
  rcases files.makeFolders_spec folder.names with ⟨grown, hgrown, hfolders, hkeeps⟩ |
    ⟨reason, herror, p, content, hp, hfile⟩
  · have hfree : ∀ p, p <+: folder.names → ∀ content, files.at? p ≠ some (.file content) := by
      intro p hp content hfile
      have hthere := (hkeeps p).file.mpr hfile
      rw [hfolders p hp] at hthere
      cases hthere
    have hdraft : grown.locate? (draftIn folder stack token) =
        some (folder.names ++ ["." ++ stack ++ "." ++ token ++ ".tmp"]) := by
      rw [draftIn_name hstack htoken]
      refine Files.locate?_child hup hfolders (ne_up_of_length ?_)
      have hending : ".tmp".length = 4 := rfl
      rw [String.length_append]
      omega
    have htarget : grown.locate? (pathIn folder stack) =
        some (folder.names ++ [stack ++ ".json"]) := by
      rw [pathIn_name hstack]
      refine Files.locate?_child hup hfolders (ne_up_of_length ?_)
      have hending : ".json".length = 5 := rfl
      rw [String.length_append]
      omega
    have hsame : grown.at? (folder.names ++ [stack ++ ".json"]) =
        files.at? (folder.names ++ [stack ++ ".json"]) := by
      refine (hkeeps _).resolve_right fun h => ?_
      have hlength := h.2.1.length_le
      simp at hlength
    have hplace : (store.save stack b files token).path =
        if files.at? (folder.names ++ [stack ++ ".json"]) = some .folder then
          .error (.unwritable (pathIn folder stack)
            (.isFolder (shownMove (draftIn folder stack token) (pathIn folder stack))))
        else .ok (some (pathIn folder stack)) := by
      rw [save_of_grown hfolder htext hgrown token]
      simp only [place, hdraft, htarget, hsame]
      split <;> rfl
    rw [hplace]
    constructor
    · refine iff_of_false ?_ fun ⟨p, content, hp, hfile⟩ => hfree p hp content hfile
      rintro ⟨reason, hrefused⟩
      split at hrefused <;> cases hrefused
    · by_cases hthere : files.at? (folder.names ++ [stack ++ ".json"]) = some .folder
      · simp [hthere]
      · simpa [hthere] using hfree
  · rw [save_of_refused hfolder htext herror token]
    refine ⟨iff_of_true ⟨reason, rfl⟩ ⟨p, content, hp, hfile⟩, iff_of_false nofun ?_⟩
    exact fun h => h.1 p hp content hfile

end Save

/-- A name for a draft is not in use if nothing of that name is in the folder of the store. -/
theorem unused_of_absent (hfolder : store.folder? = some folder) (hstack : '/' ∉ stack.toList)
    (htoken : '/' ∉ token.toList) (hup : ".." ∉ folder.names)
    (habsent : files.at? (folder.names ++ ["." ++ stack ++ "." ++ token ++ ".tmp"]) = none) :
    store.Unused stack token files := by
  intro folder' grown held hfolder' hgrown hheld
  obtain rfl : folder = folder' := Option.some.inj (hfolder.symm.trans hfolder')
  rcases files.makeFolders_spec folder.names with ⟨grown', hgrown', hfolders, hkeeps⟩ |
    ⟨reason, herror, -⟩
  · obtain rfl : grown' = grown := Except.ok.inj (hgrown'.symm.trans hgrown)
    have hending : ".tmp".length = 4 := rfl
    rw [draftIn_name hstack htoken, Files.locate?_child hup hfolders
      (ne_up_of_length (by rw [String.length_append]; omega)), Option.some.injEq] at hheld
    rw [← hheld]
    rcases hkeeps (folder.names ++ ["." ++ stack ++ "." ++ token ++ ".tmp"]) with
      hkept | ⟨-, hp, -⟩
    · exact hkept.trans habsent
    · have hlength := hp.length_le
      simp at hlength
  · rw [herror] at hgrown
    cases hgrown

/-- A state has a text to be stored if its values keep to the limits. -/
theorem exists_payload {b : Buildstate} (hshallow : ∀ e ∈ b.units, e.2.isShallow = true)
    (hlegible : b.toValue.stored.isLegible = true) : ∃ text, payload b = .ok text := by
  obtain ⟨chars, hchars⟩ := Value.exists_write Json.stable
    (Value.isStrict_stored b.toValue).plain.keyed (Or.inl rfl)
  exact ⟨_, payload_eq_ok_iff.mpr ⟨List.all_eq_true.mpr hshallow, hlegible,
    Digest.stableText_eq_ok_iff.mpr ⟨chars, hchars, rfl⟩⟩⟩

/-- **Saves are all or nothing.** A state that can be stored is saved by way of a draft whose name is
not in use. Then either its file holds the stable JSON text of the state, and no other file has been
added, changed or lost; or there is a failure of the build state to report, or a refusal of the file
system, and all files are as they were. There is no draft in any case: what is new are only folders
at and above the folder of the store.

Under a name without slashes the file system refuses a save if and only if a file is in the place of
the folder of the store or above it, and a save succeeds if and only if there is no such file and no
folder in the place of the file of the stack. -/
theorem saved_or_kept (hfolder : store.folder? = some folder) {b : Buildstate}
    (htext : payload (store.stamped stack b) = .ok text) (htoken : '/' ∉ token.toList)
    (hunused : store.Unused stack token files) :
    ((∃ target, (store.saveThrough stack b files token).path = .ok (some (pathIn folder stack)) ∧
        (store.saveThrough stack b files token).files.locate? (pathIn folder stack) = some target ∧
        (store.saveThrough stack b files token).files.at? target =
          some (.file (Text.encode text)) ∧
        (store.stamped stack b).text = .ok text ∧ files.at? target ≠ some .folder ∧
        ∀ p, p ≠ target →
          Files.Keeps folder.names files (store.saveThrough stack b files token).files p) ∨
      (∀ p, Files.Keeps folder.names files (store.saveThrough stack b files token).files p) ∧
        ∃ fault, (store.saveThrough stack b files token).path = .error fault ∧
          ((∃ failure, fault.failure? = some failure ∧ failure.kind = .buildstate) ∨
            ∃ reason, fault = .refused reason)) ∧
    ('/' ∉ stack.toList → ".." ∉ folder.names →
      ((∃ reason, (store.saveThrough stack b files token).path = .error (.refused reason)) ↔
        ∃ p content, p <+: folder.names ∧ files.at? p = some (.file content)) ∧
      ((store.saveThrough stack b files token).path = .ok (some (pathIn folder stack)) ↔
        (∀ p, p <+: folder.names → ∀ content, files.at? p ≠ some (.file content)) ∧
          files.at? (folder.names ++ [stack ++ ".json"]) ≠ some .folder)) := by
  rw [saveThrough_eq hunused b]
  refine ⟨?_, fun hstack hup => save_name_iff hfolder htext hstack htoken hup⟩
  rcases save_spec hfolder htext files token with ⟨target, hpath, hlocate, hitem, hfree, hkeeps⟩ |
    ⟨hkeeps, fault, hpath, hfault⟩
  · exact .inl ⟨target, hpath, hlocate, hitem, (payload_eq_ok_iff.mp htext).2.2, hfree, hkeeps⟩
  · refine .inr ⟨hkeeps, fault, hpath, ?_⟩
    rcases hfault with ⟨reason, rfl⟩ | hrefused
    · exact .inl ⟨_, rfl, rfl⟩
    · exact .inr hrefused

end Store

namespace Shop

/-- The store of the shop. -/
def store : Store := ⟨some ⟨.root, ["shop"]⟩, "now"⟩

/-- The folder of the store. -/
def folder : FilePath := ⟨.root, ["shop", ".stackctl_buildstate"]⟩

theorem folder?_store : store.folder? = some folder := rfl

/-- There are no files in an empty file tree. -/
theorem at?_nothing (p : List String) (content : ByteArray) :
    Files.at? [] p ≠ some (.file content) := by
  cases p with
  | nil => exact nofun
  | cons n rest => exact nofun

/-- The names of the stack, and of its draft, are names inside a folder. -/
theorem plain_names : '/' ∉ "shop".toList ∧ '/' ∉ "k3j9x_2q".toList ∧ ".." ∉ folder.names := by
  decide +kernel

theorem item?_nothing : Files.item? [] (Store.pathIn folder "shop") = none := by
  rw [Store.pathIn_name plain_names.1]
  rfl

/-- The name of the draft is not in use if nothing of that name is in the folder. -/
theorem unused_draft {files : Files}
    (h : files.at? (folder.names ++ ["." ++ "shop" ++ "." ++ "k3j9x_2q" ++ ".tmp"]) = none) :
    store.Unused "shop" "k3j9x_2q" files :=
  Store.unused_of_absent folder?_store plain_names.1 plain_names.2.1 plain_names.2.2 h

/-- Nothing is known about the shop, and that can be stored. -/
theorem exists_payload_empty :
    ∃ text, Store.payload (store.stamped "shop" (.empty "shop")) = .ok text :=
  Store.exists_payload (fun e he => by cases he) (by decide +kernel)

/-- A file is in the place of the folder of the store. -/
def blocked : Files := [(folder.names, .file (Text.encode "file"))]

end Shop

/-- In an empty file tree the state of the shop is saved. -/
theorem saved_or_kept_shop : ∃ text,
    Shop.store.folder? = some Shop.folder ∧
    Store.payload (Shop.store.stamped "shop" (.empty "shop")) = .ok text ∧
    '/' ∉ "k3j9x_2q".toList ∧ Shop.store.Unused "shop" "k3j9x_2q" [] ∧
    (Shop.store.saveThrough "shop" (.empty "shop") [] "k3j9x_2q").path =
      .ok (some (Store.pathIn Shop.folder "shop")) := by
  obtain ⟨text, htext⟩ := Shop.exists_payload_empty
  obtain ⟨hstack, htoken, hup⟩ := Shop.plain_names
  have hunused : Shop.store.Unused "shop" "k3j9x_2q" [] := Shop.unused_draft rfl
  refine ⟨text, Shop.folder?_store, htext, htoken, hunused, ?_⟩
  exact ((Store.saved_or_kept Shop.folder?_store htext htoken hunused).2 hstack hup).2.mpr
    ⟨fun p _ => Shop.at?_nothing p, nofun⟩

/-- **A save that is neither done nor reported.** A file is in the place of the folder of the store:
the save does not succeed, and there is no failure of the build state to report. -/
theorem save_refused_by_file : ∃ text,
    Store.payload (Shop.store.stamped "shop" (.empty "shop")) = .ok text ∧
    Shop.store.Unused "shop" "k3j9x_2q" Shop.blocked ∧
    ¬((∃ path, (Shop.store.saveThrough "shop" (.empty "shop") Shop.blocked "k3j9x_2q").path =
        .ok path) ∨
      ∃ fault failure,
        (Shop.store.saveThrough "shop" (.empty "shop") Shop.blocked "k3j9x_2q").path =
          .error fault ∧ fault.failure? = some failure ∧ failure.kind = .buildstate) := by
  obtain ⟨text, htext⟩ := Shop.exists_payload_empty
  obtain ⟨hstack, htoken, hup⟩ := Shop.plain_names
  have hunused : Shop.store.Unused "shop" "k3j9x_2q" Shop.blocked := Shop.unused_draft rfl
  have hfile : Shop.blocked.at? Shop.folder.names = some (.file (Text.encode "file")) := rfl
  refine ⟨text, htext, hunused, ?_⟩
  rw [Store.saveThrough_eq hunused]
  obtain ⟨reason, hrefused⟩ :=
    (Store.save_name_iff Shop.folder?_store htext hstack htoken hup).1.mpr
      ⟨_, _, List.prefix_refl _, hfile⟩
  rw [hrefused]
  rintro (⟨path, hpath⟩ | ⟨fault, failure, hfault, hfailure, -⟩)
  · cases hpath
  · obtain rfl := Except.error.inj hfault
    cases hfailure

end Rollout
