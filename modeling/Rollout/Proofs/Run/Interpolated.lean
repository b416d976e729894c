import Rollout.Proofs.Graph.Accepted
import Rollout.Proofs.Json.Spelled
import Rollout.Proofs.Reference.Tokens
import Rollout.Proofs.Run.Textual

/-!
# Init steps are filled in as they were checked

The init steps of a stack are checked when its graph is built, and filled in when a unit is
initialized. Both see the same tokens. So a stack with a step that names an input which is not there
has no graph; and filling a step in replaces its tokens all at once, so that what comes in the place
of a token is not looked at again, whatever it looks like.

**Types.** `InitStep.Fills`.

**Results.**
* `InitStep.exists_texts`: what the pieces of a step become;
* `InitStep.fill_ne_missing`: when no input is missing;
* `init_steps_filled`: the init steps of a stack.
-/

namespace Rollout

namespace InitStep

variable {inputs : Table String Value}

/-- What comes in the place of a piece: the character itself, the text of an input as it is, or the
JSON text of any other input. -/
inductive Fills (inputs : Table String Value) : Text.Piece String → List Char → Prop
  | kept (c : Char) : Fills inputs (.kept c) [c]
  | text {name s : String} (h : Table.get? name inputs = some (.text s)) :
      Fills inputs (.found name) s.toList
  | json {name : String} {v : Value} {text : List Char} (h : Table.get? name inputs = some v)
      (hv : ∀ s, v ≠ .text s) (ht : v.Spelled text) : Fills inputs (.found name) text

/-- An input that is a JSON value has a text. -/
theorem exists_fills {name : String} {v : Value} (hv : Table.get? name inputs = some v)
    (h : v.IsJson) :
    ∃ text, inputText inputs name = .ok text ∧ Fills inputs (.found name) text := by
  by_cases hs : ∃ s, v = .text s
  · obtain ⟨s, rfl⟩ := hs
    exact ⟨s.toList, by rw [inputText, hv], .text hv⟩
  · obtain ⟨text, ht⟩ := Value.exists_write Json.spaced h.plain.keyed (Or.inr h.plain)
    refine ⟨text, ?_, .json hv (fun s heq => hs ⟨s, heq⟩) ((Json.spaced_iff h).mpr ht)⟩
    rw [inputText, hv]
    cases v with
    | text s => exact absurd ⟨s, rfl⟩ hs
    | _ => simp only [ht]

/-- **Pieces are filled in** one by one, if the inputs that they name are JSON values. -/
theorem exists_texts {ps : List (Text.Piece String)}
    (h : ∀ name, .found name ∈ ps → ∃ v, Table.get? name inputs = some v ∧ v.IsJson) :
    ∃ texts, List.Forall₂ (Fills inputs) ps texts ∧ fillPieces inputs ps = .ok texts.flatten := by
  induction ps with
  | nil => exact ⟨[], .nil, rfl⟩
  | cons p rest ih =>
    obtain ⟨texts, hfills, hrest⟩ := ih fun name hm => h name (List.mem_cons_of_mem _ hm)
    cases p with
    | kept c => exact ⟨[c] :: texts, .cons (.kept c) hfills, by rw [fillPieces, hrest]; rfl⟩
    | found name =>
      obtain ⟨v, hv, hjson⟩ := h name List.mem_cons_self
      obtain ⟨text, htext, hfirst⟩ := exists_fills hv hjson
      exact ⟨text :: texts, .cons hfirst hfills, by rw [fillPieces, htext, hrest]; rfl⟩

/-- A step that names only inputs that are there does not miss one. -/
theorem fill_ne_missing {step : String}
    (h : ∀ name ∈ names step, Table.has name inputs = true) (name : String) :
    fill inputs step ≠ .error (.missing name) := by
  intro hfill
  obtain ⟨other, hm, htext⟩ := error_of_fillPieces (eq_error_of_map hfill)
  obtain ⟨v, hv⟩ := Option.isSome_iff_exists.mp (h other (mem_names_iff.mpr hm))
  obtain ⟨reason, -, hfault⟩ := unwritable_of_inputText hv htext
  cases hfault

end InitStep

/-- **Init steps are filled in as they were checked.** Every init step of a stack can be split into
its tokens and other characters in one way. If the stack has a graph, then no input is missing when
the step is filled in; and if the inputs that it names are JSON values, then the step becomes the
texts that come in the places of its pieces, one after the other. A stack with a step that names an
input which is not there has no graph. -/
theorem init_steps_filled (s : Stack) {u : UnitDef} (hu : u ∈ s.units) {step : String}
    (hstep : step ∈ u.initSteps) :
    ∃ ps, InitStep.Splits ps step.toList ∧
      (∀ ps', InitStep.Splits ps' step.toList → ps' = ps) ∧
      (∀ g, Graph.ofStack s = .ok g →
        (∀ name, InitStep.fill u.inputs step ≠ .error (.missing name)) ∧
        ((∀ name, .found name ∈ ps → ∀ v, Table.get? name u.inputs = some v → v.IsJson) →
          ∃ texts, List.Forall₂ (InitStep.Fills u.inputs) ps texts ∧
            InitStep.fill u.inputs step = .ok (String.ofList texts.flatten))) ∧
      ∀ name, .found name ∈ ps → Table.has name u.inputs = false →
        ∃ fault, Graph.ofStack s = .error fault := by
  have hinputs {g : Graph} (hg : Graph.ofStack s = .ok g) :
      ∀ name ∈ InitStep.names step, Table.has name u.inputs = true :=
    ((Graph.ofStack_eq_ok_iff.mp hg).1 u hu).inputs step hstep
  refine ⟨InitStep.pieces step, InitStep.pieces_eq_iff.mp rfl,
    fun ps' hps' => (InitStep.pieces_eq_iff.mpr hps').symm, fun g hg => ⟨?_, fun hjson => ?_⟩, ?_⟩
  · exact InitStep.fill_ne_missing (hinputs hg)
  · have hvalues : ∀ name, .found name ∈ InitStep.pieces step →
        ∃ v, Table.get? name u.inputs = some v ∧ v.IsJson := by
      intro name hm
      obtain ⟨v, hv⟩ := Option.isSome_iff_exists.mp
        (hinputs hg name (InitStep.mem_names_iff.mpr hm))
      exact ⟨v, hv, hjson name hm v hv⟩
    obtain ⟨texts, hfills, hfilled⟩ := InitStep.exists_texts hvalues
    exact ⟨texts, hfills, by rw [InitStep.fill, hfilled]; rfl⟩
  · intro name hm habsent
    cases hg : Graph.ofStack s with
    | error fault => exact ⟨fault, rfl⟩
    | ok g =>
      rw [hinputs hg name (InitStep.mem_names_iff.mpr hm)] at habsent
      cases habsent

namespace Shop

/-- A unit whose init step names two inputs, one of which looks like a token itself. -/
def prepared : UnitDef := { database with
  inputs := [("url", .text "self.inputs.size"),
    ("size", .map [(.text "b", .int 2), (.text "a", .list [.int 1, .bool true])])]
  initSteps := ["fetch self.inputs.url/self.inputs.size."] }

/-- A unit whose init step names an input that it does not have. -/
def unprepared : UnitDef := { database with initSteps := ["fetch self.inputs.url"] }

theorem ofStack_prepared : Graph.ofStack (stack [prepared]) = .ok (graph [prepared]) := by rfl

theorem isJson_prepared : ∀ e ∈ prepared.inputs, e.2.IsJson := by
  refine List.forall_mem_cons.mpr ⟨⟨trivial, trivial⟩, List.forall_mem_singleton.mpr ⟨?_, ?_⟩⟩
  · simp [Value.IsPlain, Value.ArePlain, Value.EntriesPlain]
  · simp [Value.Distinct, Value.AreDistinct, Value.EntriesDistinct]

end Shop

/-- In the shop a text stays as it is although it looks like a token, and the keys of a mapping are
put in order. -/
theorem init_steps_filled_shop :
    Shop.prepared ∈ (Shop.stack [Shop.prepared]).units ∧
      "fetch self.inputs.url/self.inputs.size." ∈ Shop.prepared.initSteps ∧
      (∃ ps texts, InitStep.Splits ps "fetch self.inputs.url/self.inputs.size.".toList ∧
        List.Forall₂ (InitStep.Fills Shop.prepared.inputs) ps texts ∧
        InitStep.fill Shop.prepared.inputs "fetch self.inputs.url/self.inputs.size." =
          .ok (String.ofList texts.flatten) ∧
        String.ofList texts.flatten =
          "fetch self.inputs.size/\x7b\"a\": [1, true], \"b\": 2\x7d.") ∧
      ∃ fault, Graph.ofStack (Shop.stack [Shop.unprepared]) = .error fault := by
  have hu : Shop.prepared ∈ (Shop.stack [Shop.prepared]).units := List.mem_cons_self
  have hstep : "fetch self.inputs.url/self.inputs.size." ∈ Shop.prepared.initSteps :=
    List.mem_cons_self
  obtain ⟨ps, hsplits, -, hfilled, -⟩ := init_steps_filled (Shop.stack [Shop.prepared]) hu hstep
  have hjson : ∀ name, .found name ∈ ps → ∀ v, Table.get? name Shop.prepared.inputs = some v →
      v.IsJson :=
    fun name _ v hv => Shop.isJson_prepared _ (Table.mem_of_get? hv)
  obtain ⟨texts, hfills, hfill⟩ := (hfilled _ Shop.ofStack_prepared).2 hjson
  have htext : InitStep.fill Shop.prepared.inputs "fetch self.inputs.url/self.inputs.size." =
      .ok "fetch self.inputs.size/\x7b\"a\": [1, true], \"b\": 2\x7d." := by rfl
  obtain ⟨others, hothers, -, -, hrejected⟩ := init_steps_filled (Shop.stack [Shop.unprepared])
    List.mem_cons_self (List.mem_cons_self (a := "fetch self.inputs.url"))
  have hurl : .found "url" ∈ others := by
    rw [← InitStep.pieces_eq_iff.mpr hothers]
    decide +kernel
  exact ⟨hu, hstep, ⟨ps, texts, hsplits, hfills, hfill, Except.ok.inj (hfill.symm.trans htext)⟩,
    hrejected "url" hurl rfl⟩

end Rollout
