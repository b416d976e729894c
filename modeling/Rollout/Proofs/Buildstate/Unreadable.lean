import Rollout.Command.Pipeline
import Rollout.Proofs.Buildstate.Saved
import Rollout.Proofs.Json.Excess

/-!
# Loading from any file

Whatever is at the path of a stored state, loading comes to an end: with a state of the current
version, with a failure of the build state to report, or with a fault that ends the whole command.
Two kinds of contents lead to the last: bytes that are no text, and texts that are too much for the
reader. Neither is a failure of a stage.

**Types.** `Store.Escapes`, `Store.Judged`.

**Results.**
* `Text.decode_eq_error_iff`: which bytes are no text;
* `Store.judged_ofContent`: what comes of a content;
* `Job.loads_runStage`: what loading means for its stage;
* `Store.loaded_or_reported`: what comes of loading.
-/

namespace Rollout

/-- Bytes that encode no text are refused with a message. -/
theorem Text.decode_eq_error_iff {bytes : ByteArray} :
    (∃ message, decode bytes = .error message) ↔ ¬bytes.IsValidUTF8 := by
  unfold decode String.fromUTF8?
  split
  · rename_i h
    split at h
    · rename_i hvalid
      exact iff_of_false nofun (not_not_intro hvalid)
    · cases h
  · rename_i h
    split at h
    · cases h
    · rename_i hinvalid
      refine iff_of_true ?_ hinvalid
      split
      · exact ⟨_, rfl⟩
      · exact ⟨_, rfl⟩

namespace Store

/-- The contents that end a command when they are loaded, with the fault that they lead to: the
bytes are no text, or the text is too much for the reader. -/
inductive Escapes (content : ByteArray) : StoreFault → Prop
  | badText {message : String} (h : ¬content.IsValidUTF8) :
    Escapes content (.refused (.badText message))
  | excessive {text : String} {reason : Json.ReadError} (htext : Text.decode content = .ok text)
    (hsize : reason ≠ .malformed) (h : Json.Excessive 0 text.toList reason) :
    Escapes content (.excessive reason)

/-- What comes of a content: a state of the current version, a failure of the build state to report,
or a fault that ends the command. -/
inductive Judged (content : ByteArray) : Except StoreFault Buildstate → Prop
  | loaded {b : Buildstate} (h : b.version = Buildstate.currentVersion) : Judged content (.ok b)
  | reported {fault : StoreFault} {failure : Failure} (hfailure : fault.failure? = some failure)
    (hkind : failure.kind = .buildstate) : Judged content (.error fault)
  | escaped {fault : StoreFault} (h : Escapes content fault) : Judged content (.error fault)

theorem judged_ofContent (path : FilePath) (content : ByteArray) :
    Judged content (ofContent path content) := by
  unfold ofContent
  split
  · rename_i message hmessage
    exact .escaped (.badText (Text.decode_eq_error_iff.mp ⟨message, hmessage⟩))
  · rename_i text htext
    split
    · exact .reported rfl rfl
    · rename_i reason hsize hread
      exact .escaped (.excessive htext hsize (Json.excessive_read hread))
    · split
      · exact .reported rfl rfl
      · split
        · rename_i hversion
          exact .loaded hversion
        · exact .reported rfl rfl

end Store

/-- What loading a state means for the stage of a command: the stage yields the state, or it fails
with what there is to report, or the command ends in it. -/
inductive Job.Loads (j : Job) : Except StoreFault Buildstate →
    Except Crash (StageResult Buildstate) → Prop
  | loaded {b : Buildstate} {events : List Event} : Loads j (.ok b) (.ok ⟨events, some b⟩)
  | failed {fault : StoreFault} {failure : Failure} (h : fault.failure? = some failure) :
    Loads j (.error fault) (.ok ⟨[stageStarted j.name Stage.loadBuildstate.id,
      stageFailed j.name Stage.loadBuildstate.id 0 failure], none⟩)
  | crashed {fault : StoreFault} (h : fault.failure? = none) :
    Loads j (.error fault) (.error (RunFault.store fault).crash)

theorem Job.loads_runStage (j : Job) (s : Stack) (files : Files) :
    j.Loads (j.store.load s.normalizedName files)
      (runStage j.name Stage.loadBuildstate.id (j.loadBuildstate s files)) := by
  have hpath : j.store.path s.normalizedName =
      .ok (Store.pathIn (j.project.child ".stackctl_buildstate") s.normalizedName) := rfl
  unfold loadBuildstate
  rw [hpath]
  generalize j.store.load s.normalizedName files = attempt
  cases attempt with
  | ok b => exact .loaded
  | error fault =>
    cases hfailure : fault.failure? with
    | some failure =>
      have htrouble : (RunFault.store fault).trouble = .failure failure := by
        simp only [RunFault.trouble, RunFault.failure?, hfailure]
      simp only [htrouble]
      exact .failed hfailure
    | none =>
      have htrouble : (RunFault.store fault).trouble = .crash (RunFault.store fault).crash := by
        simp only [RunFault.trouble, RunFault.failure?, hfailure]
      simp only [htrouble]
      exact .crashed hfailure

/-- **Loading comes to an end**, whatever is at the path of the state. Nothing is loaded as the
empty state of the stack, and a folder is reported as unreadable. A file is loaded as a state of the
current version, or there is a failure of the build state to report, unless its bytes are no text,
or its text has more opening brackets than may be open at the same time or a run of digits that is
too long; bytes that are no text are never reported.

In a command the stage fails if and only if there is something to report. -/
theorem Store.loaded_or_reported {store : Store} {folder : FilePath}
    (hfolder : store.folder? = some folder) (files : Files) :
    (∀ stack : String,
      (files.item? (pathIn folder stack) = none →
        store.load stack files = .ok (.empty stack)) ∧
      (files.item? (pathIn folder stack) = some .folder →
        store.load stack files = .error (.unreadable (pathIn folder stack))) ∧
      ∀ content, files.item? (pathIn folder stack) = some (.file content) →
        Judged content (store.load stack files) ∧
        ((∃ message, store.load stack files = .error (.refused (.badText message))) ↔
          ¬content.IsValidUTF8)) ∧
    ∀ (j : Job) (s : Stack), j.store = store →
      j.Loads (store.load s.normalizedName files)
        (runStage j.name Stage.loadBuildstate.id (j.loadBuildstate s files)) := by
  refine ⟨fun stack => ⟨fun hitem => ?_, fun hitem => ?_, fun content hitem => ?_⟩,
    fun j s hj => hj ▸ j.loads_runStage s files⟩
  · simp only [load, hfolder, hitem]
  · simp only [load, hfolder, hitem]
  · have hload : store.load stack files = ofContent (pathIn folder stack) content := by
      simp only [load, hfolder, hitem]
    have hjudged := judged_ofContent (pathIn folder stack) content
    rw [hload]
    refine ⟨hjudged, ?_, fun hinvalid => ?_⟩
    · rintro ⟨message, hmessage⟩
      rw [hmessage] at hjudged
      cases hjudged with
      | reported hfailure _ => cases hfailure
      | escaped h =>
        cases h with
        | badText h => exact h
    · obtain ⟨message, hmessage⟩ := Text.decode_eq_error_iff.mpr hinvalid
      exact ⟨message, by rw [ofContent, hmessage]⟩

namespace Shop

/-- A project of the shop in which a file holds the state. -/
def holding (content : ByteArray) : Files :=
  [(["shop"], .folder), (folder.names, .folder), (folder.names ++ ["shop.json"], .file content)]

theorem item?_holding (content : ByteArray) :
    (holding content).item? (Store.pathIn folder "shop") = some (.file content) := by
  rw [Store.pathIn_name plain_names.1]
  rfl

/-- Two bytes that are no text. -/
def noise : ByteArray := ⟨#[0xff, 0]⟩

theorem not_isValidUTF8_noise : ¬noise.IsValidUTF8 := by
  decide +kernel

end Shop

/-- Without a file the shop starts from the empty state, and a file of two bytes that are no text is
not reported. -/
theorem loaded_or_reported_shop :
    Shop.store.folder? = some Shop.folder ∧ Shop.store.load "shop" [] = .ok (.empty "shop") ∧
    ∃ message, Shop.store.load "shop" (Shop.holding Shop.noise) =
      .error (.refused (.badText message)) := by
  refine ⟨Shop.folder?_store,
    ((Store.loaded_or_reported Shop.folder?_store []).1 "shop").1 Shop.item?_nothing, ?_⟩
  exact (((Store.loaded_or_reported Shop.folder?_store (Shop.holding Shop.noise)).1 "shop").2.2 _
    (Shop.item?_holding _)).2.mpr Shop.not_isValidUTF8_noise

/-- **A file that is not reported.** Two bytes that are no text are at the path of the state: no
state is loaded, and there is no failure of the build state to report. -/
theorem load_not_reported :
    ¬((∃ b, Shop.store.load "shop" (Shop.holding Shop.noise) = .ok b ∧
        b.version = Buildstate.currentVersion) ∨
      ∃ fault failure, Shop.store.load "shop" (Shop.holding Shop.noise) = .error fault ∧
        fault.failure? = some failure ∧ failure.kind = .buildstate) := by
  obtain ⟨message, hmessage⟩ := Text.decode_eq_error_iff.mpr Shop.not_isValidUTF8_noise
  have hload : Shop.store.load "shop" (Shop.holding Shop.noise) =
      .error (.refused (.badText message)) := by
    simp only [Store.load, Shop.folder?_store, Shop.item?_holding, Store.ofContent, hmessage]
  rw [hload]
  rintro (⟨b, hload, -⟩ | ⟨fault, failure, hload, hfailure, -⟩)
  · cases hload
  · obtain rfl := Except.error.inj hload
    cases hfailure

end Rollout
