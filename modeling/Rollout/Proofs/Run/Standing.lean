import Mathlib.Logic.Function.Basic
import Rollout.Run.Step

/-!
# Where pairs stand

The state of a run is spread over queues, tables and records. A chart says the same pair by pair:
what has been decided about a pair, and what came out of it. Times are left out, so that runs of
different timing can lead to the same chart.

Everything that a run shows about a pair, and everything that it leaves behind for later runs, can
be read off a chart: the outcome, the fingerprint, the outputs and the record of a unit.

**Types.** `Standing`, `Chart`.

**Results.**
* `Chart.record?_update_of_ne`, `Chart.record?_update_of_last`: the record of a unit after one pair
  has moved;
* `Chart.isCurrent_record?`, `Chart.outputs_record?`: what records say, pair by pair.
-/

namespace Rollout

/-- What has been decided about a pair, and what came out of it. -/
inductive Standing
  | waiting
  | skipped (blocker : Pair)
  /-- Failed before it was started, because an output of another unit is missing. -/
  | missing (cause : String)
  | reused (digest : String) (outputs : Option Entries)
  | ready (digest : String) (resolved : Option Resolved)
  | running (digest : String) (ctx : UnitContext)
  | succeeded (digest : String) (ctx : UnitContext) (snapshot : Option Value)
      (outputs : Option Entries)
  | failed (digest : String) (ctx : UnitContext) (cause : String) (timedOut : Bool)
  deriving Inhabited

/-- An outcome without its time. -/
def Outcome.untimed (o : Outcome) : Outcome := { o with durationMs := 0 }

def UnitContext.pair (ctx : UnitContext) : Pair := ⟨ctx.fqn, ctx.phase⟩

namespace Standing

/-- What is reported about a pair, without its time. -/
def outcome : Standing → Outcome
  | .waiting => {}
  | .skipped blocker =>
    { status := .skipped, history := [.pending, .skipped], blockedBy := some blocker.text }
  | .missing cause =>
    { status := .failed, history := [.pending, .failed], cause := some cause }
  | .reused digest _ =>
    { status := .succeeded, history := [.pending, .succeeded], reused := true,
      fingerprint := some digest }
  | .ready digest _ =>
    { status := .ready, history := [.pending, .ready], fingerprint := some digest }
  | .running digest _ =>
    { status := .running, history := [.pending, .ready, .running], fingerprint := some digest }
  | .succeeded digest _ _ _ =>
    { status := .succeeded, history := [.pending, .ready, .running, .succeeded],
      fingerprint := some digest }
  | .failed digest _ cause timedOut =>
    { status := .failed, history := [.pending, .ready, .running, .failed], cause := some cause,
      timedOut := timedOut, fingerprint := some digest }

def status (st : Standing) : PairStatus := st.outcome.status

/-- Whether nothing more can happen to a pair. -/
def settled (st : Standing) : Bool := st.status.terminal

/-- The fingerprint under which a pair was compared with earlier runs. -/
def digest? : Standing → Option String
  | .reused digest _ | .ready digest _ | .running digest _ | .succeeded digest _ _ _
  | .failed digest _ _ _ => some digest
  | .waiting | .skipped _ | .missing _ => none

/-- The outputs that were recorded for a pair. -/
def outputs? : Standing → Option Entries
  | .reused _ outputs | .succeeded _ _ _ outputs => outputs
  | _ => none

/-- The context that the executor of a pair was handed. -/
def context? : Standing → Option UnitContext
  | .running _ ctx | .succeeded _ ctx _ _ | .failed _ ctx _ _ => some ctx
  | _ => none

/-- Whether the success of a pair was saved. -/
def saved : Standing → Bool
  | .succeeded .. => true
  | _ => false

/-- The record of a unit after one of its phases has come to stand so. -/
def mark (p : Phase) : Standing → Option UnitRecord → Option UnitRecord
  | .succeeded digest _ snapshot outputs, r =>
    some ((r.getD {}).succeed p digest snapshot outputs)
  | .missing _, r | .failed .., r => r.map (UnitRecord.fail p)
  | _, r => r

/-- Whether the record of the unit is left as it was. -/
def unmarked : Standing → Bool
  | .succeeded .. | .missing _ | .failed .. => false
  | _ => true

/-- Whether a pair is ready to be started. -/
def isReady : Standing → Bool
  | .ready .. => true
  | _ => false

/-- Whether the executor of a pair is at work and has time left. -/
def isRunning : Standing → Bool
  | .running .. => true
  | _ => false

/-- Whether a pair has run out of time. -/
def isOverrun : Standing → Bool
  | .failed _ _ _ timedOut => timedOut
  | _ => false

/-- How much can still happen to a pair: it is considered, started and answered, each once. -/
def weight : Standing → Nat
  | .waiting => 4
  | .ready .. => 3
  | .running .. => 1
  | _ => 0

@[simp] theorem mark_of_unmarked {st : Standing} (h : st.unmarked = true) (p : Phase)
    (r : Option UnitRecord) : st.mark p r = r := by
  cases st <;> first | rfl | cases h

theorem unmarked_of_not_settled {st : Standing} (h : st.settled = false) : st.unmarked = true := by
  cases st <;> first | rfl | cases h

theorem outputs?_of_not_settled {st : Standing} (h : st.settled = false) : st.outputs? = none := by
  cases st <;> first | rfl | cases h

theorem saved_of_not_settled {st : Standing} (h : st.settled = false) : st.saved = false := by
  cases st <;> first | rfl | cases h

end Standing

namespace UnitRecord

theorem text_ne_of_ne {p q : Phase} (h : q ≠ p) : q.text ≠ p.text := by
  revert h
  cases p <;> cases q <;> simp [Phase.text]

/-- The success of a phase keeps the fingerprints of the others. -/
theorem fingerprint?_succeed_of_ne {p q : Phase} (h : q ≠ p) (r : UnitRecord) (digest : String)
    (snapshot : Option Value) (outputs : Option Entries) :
    (r.succeed p digest snapshot outputs).fingerprint? q = r.fingerprint? q := by
  have hset : (r.succeed p digest snapshot outputs).fingerprints =
      Table.set p.text digest r.fingerprints := by
    simp [succeed, fingerprints_mark]
  rw [fingerprint?, hset, Table.get?_set_of_ne (text_ne_of_ne h), fingerprint?]

/-- The failure of a phase keeps the fingerprints of the others. -/
theorem fingerprint?_fail_of_ne {p q : Phase} (h : q ≠ p) (r : UnitRecord) :
    (r.fail p).fingerprint? q = r.fingerprint? q := by
  have herase : (r.fail p).fingerprints = Table.erase p.text r.fingerprints := by
    simp [fail, fingerprints_mark]
  rw [fingerprint?, herase, Table.get?_erase_of_ne (text_ne_of_ne h), fingerprint?]

/-- The success of a phase leaves open whether the others are current. -/
theorem isCurrent_succeed_of_ne {p q : Phase} (h : q ≠ p) (r : UnitRecord)
    (digest other : String) (snapshot : Option Value) (outputs : Option Entries) :
    (r.succeed p digest snapshot outputs).isCurrent q other = r.isCurrent q other := by
  have hdone : (r.succeed p digest snapshot outputs).done q = r.done q := by
    have := done_mark r p q true
    rw [if_neg h] at this
    rw [← this]
    cases q <;> rfl
  rw [isCurrent, hdone, fingerprint?_succeed_of_ne h, isCurrent]

/-- The failure of a phase leaves open whether the others are current. -/
theorem isCurrent_fail_of_ne {p q : Phase} (h : q ≠ p) (r : UnitRecord) (other : String) :
    (r.fail p).isCurrent q other = r.isCurrent q other := by
  have hdone : (r.fail p).done q = r.done q := by
    have := done_mark r p q false
    rw [if_neg h] at this
    rw [← this]
    cases q <;> rfl
  rw [isCurrent, hdone, fingerprint?_fail_of_ne h, isCurrent]

@[simp] theorem fingerprint?_empty (p : Phase) : ({} : UnitRecord).fingerprint? p = none := rfl

@[simp] theorem isCurrent_empty (p : Phase) (digest : String) :
    ({} : UnitRecord).isCurrent p digest = false := by
  cases p <;> rfl

end UnitRecord

namespace Standing

/-- A phase leaves the fingerprints of the other phases in the record of its unit. -/
theorem fingerprint?_mark_of_ne {p q : Phase} (h : q ≠ p) (st : Standing) (r : Option UnitRecord) :
    (st.mark p r).bind (fun r => r.fingerprint? q) = r.bind fun r => r.fingerprint? q := by
  cases st with
  | succeeded digest ctx snapshot outputs =>
    cases r <;> simp [mark, UnitRecord.fingerprint?_succeed_of_ne h]
  | missing cause => cases r <;> simp [mark, UnitRecord.fingerprint?_fail_of_ne h]
  | failed digest ctx cause timedOut =>
    cases r <;> simp [mark, UnitRecord.fingerprint?_fail_of_ne h]
  | _ => rfl

/-- What makes a phase current in the record of its unit after one of the phases has moved. -/
theorem isCurrent_mark (p q : Phase) (st : Standing) (r : Option UnitRecord) (other : String) :
    ((st.mark p r).any fun r => r.isCurrent q other) =
      if q = p then
        match st with
        | .succeeded digest _ _ _ => digest == other
        | .missing _ | .failed .. => false
        | _ => r.any fun r => r.isCurrent q other
      else r.any fun r => r.isCurrent q other := by
  by_cases h : q = p
  · subst h
    cases st <;> cases r <;>
      simp [mark, UnitRecord.isCurrent_succeed, UnitRecord.isCurrent_fail]
  rw [if_neg h]
  cases st with
  | succeeded digest ctx snapshot outputs =>
    cases r <;> simp [mark, UnitRecord.isCurrent_succeed_of_ne h]
  | missing cause => cases r <;> simp [mark, UnitRecord.isCurrent_fail_of_ne h]
  | failed digest ctx cause timedOut =>
    cases r <;> simp [mark, UnitRecord.isCurrent_fail_of_ne h]
  | _ => rfl

/-- A pair without outputs leaves those in the record of its unit. -/
theorem outputs_mark {st : Standing} (h : st.outputs? = none) (p : Phase)
    (r : Option UnitRecord) : ((st.mark p r).getD {}).outputs = (r.getD {}).outputs := by
  have hmark (r : UnitRecord) (value : Bool) : (r.mark p value).outputs = r.outputs := by
    cases p <;> rfl
  cases st with
  | succeeded digest ctx snapshot outputs =>
    obtain rfl : outputs = none := h
    simp [mark, UnitRecord.succeed, hmark]
  | missing cause => cases r <;> simp [mark, UnitRecord.fail, hmark]
  | failed digest ctx cause timedOut => cases r <;> simp [mark, UnitRecord.fail, hmark]
  | _ => rfl

end Standing

/-- A phase is current if the record of the unit says so. -/
theorem Buildstate.isCurrent_eq_any (b : Buildstate) (fqn : String) (p : Phase) (digest : String) :
    b.isCurrent fqn p digest = (b.record? fqn).any fun r => r.isCurrent p digest := by
  unfold isCurrent
  cases b.record? fqn <;> rfl

abbrev Chart := Pair → Standing

namespace Chart

/-- The record of a unit after what has become of its phases, from the record before the run. -/
def record? (A : Chart) (b : Buildstate) (fqn : String) : Option UnitRecord :=
  Phase.all.foldl (fun r p => (A ⟨fqn, p⟩).mark p r) (b.record? fqn)

variable (A : Chart) (b : Buildstate)

/-- The record of a unit does not depend on the pairs of other units. -/
theorem record?_update_of_ne {x : Pair} {fqn : String} (h : fqn ≠ x.fqn) (st : Standing) :
    record? (Function.update A x st) b fqn = A.record? b fqn := by
  have hne (p : Phase) : (⟨fqn, p⟩ : Pair) ≠ x := fun heq => h (by rw [← heq])
  simp [record?, Phase.all, Function.update_of_ne (hne _)]

/-- The record of a unit after one of its pairs has come to stand differently, if the later phases
have not touched the record yet. -/
theorem record?_update_of_last {x : Pair} (hx : (A x).unmarked = true)
    (hlast : ∀ p : Phase, x.phase.index < p.index → (A ⟨x.fqn, p⟩).unmarked = true)
    (st : Standing) :
    record? (Function.update A x st) b x.fqn = st.mark x.phase (A.record? b x.fqn) := by
  obtain ⟨fqn, phase⟩ := x
  have hne {p : Phase} (h : p ≠ phase) : (⟨fqn, p⟩ : Pair) ≠ ⟨fqn, phase⟩ :=
    fun heq => h (Pair.mk.inj heq).2
  cases phase with
  | init =>
    have hbuild := hlast .build (by simp [Phase.index])
    have hdeploy := hlast .deploy (by simp [Phase.index])
    simp [record?, Phase.all, hx, hbuild, hdeploy]
  | build =>
    have hdeploy := hlast .deploy (by simp [Phase.index])
    simp [record?, Phase.all, hx, hdeploy]
  | deploy => simp [record?, Phase.all, hx]

/-- Whether a phase is current depends on the standing of that phase. -/
theorem isCurrent_record? (p : Pair) (other : String) :
    ((A.record? b p.fqn).any fun r => r.isCurrent p.phase other) =
      match A p with
      | .succeeded digest _ _ _ => digest == other
      | .missing _ | .failed .. => false
      | _ => b.isCurrent p.fqn p.phase other := by
  obtain ⟨fqn, phase⟩ := p
  rw [Buildstate.isCurrent_eq_any]
  simp only [record?, Phase.all, List.foldl_cons, List.foldl_nil, Standing.isCurrent_mark]
  cases phase <;> simp

/-- The deployment is the last phase of a unit, so what its success leaves in the record stays. -/
theorem exists_record?_of_deployed {fqn digest : String} {ctx : UnitContext}
    {snapshot : Option Value} {outputs : Option Entries}
    (h : A ⟨fqn, .deploy⟩ = .succeeded digest ctx snapshot outputs) :
    ∃ r : UnitRecord, A.record? b fqn = some (r.succeed .deploy digest snapshot outputs) := by
  rw [record?, Phase.all, List.foldl_cons, List.foldl_cons, List.foldl_cons, h]
  exact ⟨_, rfl⟩

/-- What no pair of a unit changes in the record of the unit is as it was before the run. -/
theorem record?_keeps {β : Type} {fqn : String} (f : Option UnitRecord → β)
    (h : ∀ p r, f ((A ⟨fqn, p⟩).mark p r) = f r) : f (A.record? b fqn) = f (b.record? fqn) := by
  simp [record?, Phase.all, h]

/-- The outputs in the record of a unit are those from before the run, as long as no pair of the
unit has recorded any. -/
theorem outputs_record? {fqn : String} (h : ∀ p, (A ⟨fqn, p⟩).outputs? = none) :
    ((A.record? b fqn).getD {}).outputs = ((b.record? fqn).getD {}).outputs :=
  A.record?_keeps b (fun r => (r.getD {}).outputs) fun p => Standing.outputs_mark (h p) p

end Chart

end Rollout
