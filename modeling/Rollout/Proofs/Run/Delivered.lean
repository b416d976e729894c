import Rollout.Proofs.Reference.Substituted
import Rollout.Proofs.Run.Ends
import Rollout.Proofs.Run.Reuse
import Rollout.Proofs.Run.Workers

/-!
# Texts that executors are handed literally

A text that looks like a reference reaches the executor of a deployment literally if it is authored
with an escape mark, and any other text as it is. The mark is taken off references only. So there is
no way to author a text that consists of the mark and a reference: as it is, it would lose its mark,
and with another mark in front it would keep both. All other texts can be authored: as a text that
is no reference itself, so that it makes no site and no edge where it stands, and that every
executor of a deployment is handed as the text that was meant.

**Types.** `Delivers`.

**Results.**
* `unescape_eq_text_iff`: what becomes a given text;
* `delivered_iff`: a text can be authored if it is no escaped reference.
-/

namespace Rollout

open RunState

/-! ### Escaping -/

/-- An escaped reference is no reference. -/
theorem parse?_of_escaped? {s : String} {reference : Reference}
    (h : escaped? s = some reference) : Reference.parse? s = none := by
  obtain ⟨t, rfl, -⟩ := escaped?_eq_some_iff.mp h
  exact Reference.parse?_mark t

/-- **What becomes a given text** without its mark: the text itself unless it is an escaped
reference, and, if it is a reference, the same text behind the mark. -/
theorem unescape_eq_text_iff {s t : String} :
    (Value.text s).unescape = .text t ↔
      (s = t ∧ escaped? t = none) ∨ (s = "\\" ++ t ∧ (Reference.parse? t).isSome) := by
  cases hs : escaped? s with
  | some reference =>
    obtain ⟨u, rfl, hu⟩ := escaped?_eq_some_iff.mp hs
    have hun : (Value.text ("\\" ++ u)).unescape = .text u := by simp [Value.unescape, hs]
    rw [hun, Value.text.injEq]
    constructor
    · rintro rfl
      exact Or.inr ⟨rfl, by rw [hu]; rfl⟩
    · rintro (⟨rfl, hnone⟩ | ⟨heq, -⟩)
      · rw [hs] at hnone
        cases hnone
      · exact (String.append_right_inj "\\").mp heq
  | none =>
    have hun : (Value.text s).unescape = .text s := by simp [Value.unescape, hs]
    rw [hun, Value.text.injEq]
    constructor
    · rintro rfl
      exact Or.inl ⟨rfl, hs⟩
    · rintro (⟨rfl, -⟩ | ⟨rfl, hsome⟩)
      · rfl
      · obtain ⟨reference, ht⟩ := Option.isSome_iff_exists.mp hsome
        rw [escaped?_eq_some_iff.mpr ⟨t, rfl, ht⟩] at hs
        cases hs

/-- An escaped reference is what becomes of no text. -/
theorem exists_unescape_iff {t : String} :
    (∃ s, (Value.text s).unescape = .text t) ↔ escaped? t = none := by
  constructor
  · rintro ⟨s, hs⟩
    rcases unescape_eq_text_iff.mp hs with ⟨-, hnone⟩ | ⟨-, hsome⟩
    · exact hnone
    · rw [Option.eq_none_iff_forall_ne_some]
      intro reference hescaped
      rw [parse?_of_escaped? hescaped] at hsome
      cases hsome
  · intro hnone
    exact ⟨t, unescape_eq_text_iff.mpr (Or.inl ⟨rfl, hnone⟩)⟩

/-- Every text that is no escaped reference is what becomes of a text that is no reference. -/
theorem exists_plain {t : String} (h : escaped? t = none) :
    ∃ s, Reference.parse? s = none ∧ (Value.text s).unescape = .text t := by
  cases ht : Reference.parse? t with
  | none => exact ⟨t, ht, unescape_eq_text_iff.mpr (Or.inl ⟨rfl, h⟩)⟩
  | some reference =>
    exact ⟨"\\" ++ t, Reference.parse?_mark t,
      unescape_eq_text_iff.mpr (Or.inr ⟨rfl, by rw [ht]; rfl⟩)⟩

/-! ### What a context holds -/

/-- A text in the inputs or values of a unit stands at the same place in its configuration. -/
theorem UnitDef.textAt_configWith (u : UnitDef) {inputs values : Value} {path : Path} {t : String}
    (h : (Value.object [("inputs", inputs), ("values", values)]).TextAt path t) :
    (Value.object (u.configWith inputs values)).TextAt path t := by
  cases h with
  | @entry _ e p _ he h =>
    have hmem : e ∈ (u.configWith inputs values).map fun e => (Key.text e.1, e.2) := by
      simp only [List.map_cons, List.map_nil, List.mem_cons, List.not_mem_nil, or_false] at he
      rcases he with rfl | rfl <;> simp [configWith]
    exact .entry hmem h

/-- The context of a deployment has the configuration with the resolved inputs and values. -/
theorem RunState.config_of_context {c : Setup} {p : Pair} {u : UnitDef} {resolved : Resolved}
    {ctx : UnitContext} (h : context c p u (some resolved) = .ok ctx) :
    ctx.config = .object (u.configWith resolved.inputs resolved.values) := by
  obtain ⟨steps, -, rfl⟩ := eq_ok_of_map h
  rfl

/-- The context of a deployment over the graph of a stack holds the configuration of its unit, with
all references replaced. -/
theorem Scheduler.Passes.config_of_deploy {sched : Scheduler} {phases : List Phase} {files : Files}
    {plan : Plan} {st : RunState} (h : sched.Passes phases files plan st) (hsound : sched.Sound)
    {ctx : UnitContext} (hctx : ctx ∈ st.contexts) (hd : ctx.phase = .deploy) {n : Node}
    (hn : sched.graph.node? ctx.fqn = some n) (hu : n.unit.document.Unambiguous) :
    ∃ resolved, st.resolver.IsResolved n.unit resolved ∧
      ctx.config = .object (n.unit.configWith resolved.inputs resolved.values) := by
  obtain ⟨stack, hstack⟩ := hsound.built
  have hbuilt := Graph.built_ofStack hstack
  obtain ⟨A, htied, -⟩ := h.tied hsound.usable
  obtain ⟨digest, hfitted⟩ := htied.fitted_of_context? ((htied.shown.called ctx).mp hctx)
  obtain ⟨resolved, m, hv, hm, hcontext⟩ : Begun .. := hfitted.fits ⟨stack, hbuilt⟩
  obtain rfl : m = n := Option.some.inj (hm.symm.trans hn)
  obtain ⟨r, hr, rfl⟩ := resolve_of_resolvedFor (examined_of_ready hv).1.filled hd
  have hgraph : st.resolver.graph = sched.graph := htied.shown.graph
  refine ⟨r, ?_, config_of_context hcontext⟩
  rcases Resolver.resolve_cases (hgraph ▸ hbuilt) (hgraph ▸ hn) hu with
    ⟨r', hr', hresolved, -⟩ | ⟨fault, -, herror⟩
  · obtain rfl : r' = r := Except.ok.inj (hr'.symm.trans hr)
    exact hresolved
  · cases hr.symm.trans herror

/-! ### Delivery -/

/-- A text that is authored in the inputs or values of a unit is delivered as another one. -/
structure Delivers (s t : String) : Prop where
  /-- It is no reference itself. -/
  plain : Reference.parse? s = none
  unescaped : (Value.text s).unescape = .text t
  /-- In the graph of a stack there is no site where it stands. -/
  siteless : ∀ stack g n path, Graph.ofStack stack = .ok g → n ∈ g.nodes →
    n.unit.document.Unambiguous → n.unit.document.TextAt path s →
    ∀ site ∈ g.sites, site.unit = n.fqn → site.path ≠ path
  /-- What the unit needs is referred to elsewhere. -/
  edgeless : ∀ stack g n path, Graph.ofStack stack = .ok g → n ∈ g.nodes →
    n.unit.document.Unambiguous → n.unit.document.TextAt path s →
    ∀ source, g.DeployEdge source n.fqn →
      ∃ site ∈ g.sites, site.unit = n.fqn ∧ site.path ≠ path ∧
        site.reference.target g.stackName = source
  /-- The executor of a deployment of the unit is handed the other text where it stands. -/
  handed : ∀ (sched : Scheduler) phases files plan st ctx n path, sched.Sound →
    sched.Passes phases files plan st → ctx ∈ st.contexts → ctx.phase = .deploy →
    sched.graph.node? ctx.fqn = some n → n.unit.document.Unambiguous →
    n.unit.document.TextAt path s → ctx.config.TextAt path t

section

variable {stack : Stack} {g : Graph} {n : Node} {path : Path} {s t : String}

/-- There is no site where a text stands that is no reference. -/
theorem path_ne_of_plain (hg : Graph.ofStack stack = .ok g) (hn : n ∈ g.nodes)
    (hu : n.unit.document.Unambiguous) (htext : n.unit.document.TextAt path s)
    (hs : Reference.parse? s = none) {site : Site} (hsite : site ∈ g.sites)
    (hunit : site.unit = n.fqn) : site.path ≠ path := by
  rintro rfl
  have hbuilt := Graph.built_ofStack hg
  rw [hbuilt.sites, List.mem_flatMap] at hsite
  obtain ⟨m, hm, hmem⟩ := hsite
  obtain ⟨e, he, rfl⟩ := List.mem_map.mp hmem
  obtain rfl : m = n := List.inj_on_of_nodup_map hbuilt.names hm hn hunit
  obtain ⟨s', htext', hs'⟩ := Graph.mem_unitReferences.mp he
  rw [htext.unique hu htext', hs'] at hs
  cases hs

/-- A unit needs the deployments that its sites refer to. -/
theorem exists_site_of_deployEdge (hg : Graph.ofStack stack = .ok g) (hn : n ∈ g.nodes)
    {source : String} (hd : g.DeployEdge source n.fqn) :
    ∃ site ∈ g.sites, site.unit = n.fqn ∧ site.reference.target g.stackName = source := by
  have hbuilt := Graph.built_ofStack hg
  obtain ⟨m, hm, r, hr, htarget⟩ := (Graph.deployEdge_iff hg).mp hd
  obtain rfl : m = n := Option.some.inj (hm.symm.trans (Graph.node?_of_mem hbuilt.names hn))
  refine ⟨⟨m.fqn, r.1, r.2⟩, ?_, rfl, htarget⟩
  rw [hbuilt.sites]
  exact List.mem_flatMap.mpr ⟨m, hn, List.mem_map_of_mem hr⟩

end

/-- A text that is no reference is delivered as what becomes of it without its mark. -/
theorem Delivers.of_plain {s t : String} (hs : Reference.parse? s = none)
    (hun : (Value.text s).unescape = .text t) : Delivers s t where
  plain := hs
  unescaped := hun
  siteless _ _ _ _ hg hn hu htext _ hsite hunit := path_ne_of_plain hg hn hu htext hs hsite hunit
  edgeless _ _ _ _ hg hn hu htext _ hd := by
    obtain ⟨site, hsite, hunit, htarget⟩ := exists_site_of_deployEdge hg hn hd
    exact ⟨site, hsite, hunit, path_ne_of_plain hg hn hu htext hs hsite hunit, htarget⟩
  handed _ _ _ _ _ _ n _ hsound hpasses hctx hd hn hu htext := by
    obtain ⟨resolved, hresolved, hconfig⟩ := hpasses.config_of_deploy hsound hctx hd hn hu
    rw [hconfig]
    refine n.unit.textAt_configWith ?_
    change resolved.toValue.TextAt _ _
    rw [hresolved.toValue]
    exact htext.mapLeaves (by rw [Value.replace, hs]; exact hun)

/-- **Which texts can be delivered literally.** A text that is no escaped reference, whether it
looks like a reference or not, can be authored: as a text that is no reference, becomes the text
without its mark, makes no site and no edge where it stands, and is handed as the text to every
executor that deploys its unit. An escaped reference is what becomes of no text. -/
theorem delivered_iff (t : String) :
    ((∃ s, Delivers s t) ↔ escaped? t = none) ∧
    ((∃ s, (Value.text s).unescape = .text t) ↔ escaped? t = none) := by
  refine ⟨⟨?_, ?_⟩, exists_unescape_iff⟩
  · rintro ⟨s, h⟩
    exact exists_unescape_iff.mp ⟨s, h.unescaped⟩
  · intro h
    obtain ⟨s, hs, hun⟩ := exists_plain h
    exact ⟨s, .of_plain hs hun⟩

/-- No text becomes a text with the mark that looks like an escaped reference. -/
theorem escaped_undelivered :
    ¬∃ s, Reference.parse? s = none ∧
      (Value.text s).unescape = .text "\\self.service.db.output.host" := by
  rintro ⟨s, -, hs⟩
  have hnone := exists_unescape_iff.mp ⟨s, hs⟩
  have hescaped : escaped? "\\self.service.db.output.host" = some ⟨.service, "db", "host"⟩ := by rfl
  rw [hescaped] at hnone
  cases hnone

namespace Shop

/-- A board whose only value explains how an address is referred to. -/
def board : UnitDef :=
  ⟨"board", .service, none, [], [("hint", .text "\\self.service.db.output.address")], .names [],
    none, none, none, [], []⟩

/-- A shop with a board and without a database. -/
def explained : Scheduler := scheduler [board] 1 (executors 1)

theorem ofStack_board : Graph.ofStack (stack [board]) = .ok (graph [board]) := by rfl

/-- The state after some steps of the deployment of the board. -/
def explainedAfter (n : Nat) : Option RunState :=
  (explained.initial [(⟨"shop.service.board", .deploy⟩, [])] (requestedPhases [.deploy]) []).after
    (explained.setup [(⟨"shop.service.board", .deploy⟩, [])]) n

/-- After two steps the executor of the board has been called. -/
theorem called_board : (explainedAfter 2).any (fun t => t.contexts.any fun ctx =>
    ctx.fqn == "shop.service.board" && ctx.phase == .deploy) = true := by decide +kernel

theorem unambiguous_board : board.document.Unambiguous := by
  simp [UnitDef.document, board, Value.object, Value.Unambiguous, Value.EntriesUnambiguous,
    Key.same_text]

theorem textAt_board :
    board.document.TextAt ["values", "hint"] "\\self.service.db.output.address" :=
  .entry (e := (.text "values", .object board.values)) (by simp)
    (.entry (e := (.text "hint", .text "\\self.service.db.output.address")) (by simp [board]) .here)

end Shop

/-- The executor of the board is handed the hint as a text that looks like a reference, although
there is no database. -/
theorem delivered_board : ∃ t ctx, Shop.explained.Passes [.deploy] []
      [(⟨"shop.service.board", .deploy⟩, [])] t ∧ ctx ∈ t.contexts ∧ ctx.phase = .deploy ∧
    ctx.config.TextAt ["values", "hint"] "self.service.db.output.address" := by
  obtain ⟨t, ht, hcalled⟩ := (Option.any_eq_true _ _).mp Shop.called_board
  simp only [List.any_eq_true, Bool.and_eq_true, beq_iff_eq] at hcalled
  obtain ⟨ctx, hctx, hfqn, hphase⟩ := hcalled
  have hpasses : Shop.explained.Passes [.deploy] [] [(⟨"shop.service.board", .deploy⟩, [])] t :=
    ⟨by rfl, by rfl, 2, Steps.of_after ht⟩
  obtain ⟨s, h⟩ := (delivered_iff "self.service.db.output.address").1.mpr (by rfl)
  obtain rfl : s = "\\self.service.db.output.address" := by
    rcases unescape_eq_text_iff.mp h.unescaped with ⟨rfl, -⟩ | ⟨rfl, -⟩
    · cases h.plain
    · rfl
  refine ⟨t, ctx, hpasses, hctx, hphase, ?_⟩
  have hn : Shop.explained.graph.node? ctx.fqn = some ⟨"shop.service.board", Shop.board, 0⟩ := by
    rw [hfqn]
    rfl
  have hsound : Shop.explained.Sound := ⟨⟨_, Shop.ofStack_board⟩, rfl, by decide⟩
  exact h.handed _ _ _ _ t ctx _ _ hsound hpasses hctx hphase hn Shop.unambiguous_board
    Shop.textAt_board

end Rollout
