import Rollout.Table
import Rollout.Sorting
import Rollout.Stack.Kind
import Rollout.Value

/-!
# Build states

What is known about the units of a stack from earlier runs: which phases are done, under which
fingerprints, with which resolved configuration and which outputs. A pair of a unit and a phase is
current when the phase is marked done and the stored fingerprint is the given one.

**Types.** `UnitRecord`, `Buildstate`.

**Operations.** `isCurrent`, `markSucceeded`, `markFailed`, `prune`.

**Results.**
* `isCurrent_markSucceeded`: what has just succeeded is current, under its own fingerprint only;
* `isCurrent_markFailed`: what has just failed is not current;
* `markSucceeded_other`, `markFailed_other`: other units are left alone.
-/

namespace Rollout

/-- What is known about a unit. -/
structure UnitRecord where
  initialized : Bool := false
  built : Bool := false
  deployed : Bool := false
  /-- The fingerprint of every finished phase, by the name of the phase. -/
  fingerprints : Table String String := []
  /-- The configuration with which the unit was deployed last. -/
  snapshot : Option Value := none
  outputs : Entries := []
  deriving DecidableEq, Inhabited

namespace UnitRecord

/-- Whether a phase is marked done. -/
def done (r : UnitRecord) : Phase → Bool
  | .init => r.initialized
  | .build => r.built
  | .deploy => r.deployed

/-- Mark a phase as done or as open. -/
def mark (p : Phase) (value : Bool) (r : UnitRecord) : UnitRecord :=
  match p with
  | .init => { r with initialized := value }
  | .build => { r with built := value }
  | .deploy => { r with deployed := value }

/-- The stored fingerprint of a phase. -/
def fingerprint? (r : UnitRecord) (p : Phase) : Option String := Table.get? p.text r.fingerprints

/-- Whether a phase is done and has the fingerprint. -/
def isCurrent (r : UnitRecord) (p : Phase) (digest : String) : Bool :=
  r.done p && r.fingerprint? p == some digest

/-- The record after a phase has succeeded; a snapshot or outputs replace the earlier ones. -/
def succeed (p : Phase) (digest : String) (snapshot : Option Value) (outputs : Option Entries)
    (r : UnitRecord) : UnitRecord :=
  let r := r.mark p true
  { r with
    fingerprints := Table.set p.text digest r.fingerprints
    snapshot := snapshot.orElse fun _ => r.snapshot
    outputs := outputs.getD r.outputs }

def fail (p : Phase) (r : UnitRecord) : UnitRecord :=
  let r := r.mark p false
  { r with fingerprints := Table.erase p.text r.fingerprints }

theorem done_mark (r : UnitRecord) (p q : Phase) (value : Bool) :
    (r.mark p value).done q = if q = p then value else r.done q := by
  cases p <;> cases q <;> simp [mark, done]

theorem fingerprints_mark (r : UnitRecord) (p : Phase) (value : Bool) :
    (r.mark p value).fingerprints = r.fingerprints := by
  cases p <;> rfl

theorem isCurrent_succeed (r : UnitRecord) (p : Phase) (digest other : String)
    (snapshot : Option Value) (outputs : Option Entries) :
    (r.succeed p digest snapshot outputs).isCurrent p other = (digest == other) := by
  have hd : (r.succeed p digest snapshot outputs).done p = true := by
    cases p <;> simp [succeed, mark, done]
  have hf : (r.succeed p digest snapshot outputs).fingerprint? p = some digest := by
    simp [succeed, fingerprint?, Table.get?_set_self]
  simp [isCurrent, hd, hf]

theorem isCurrent_fail (r : UnitRecord) (p : Phase) (digest : String) :
    (r.fail p).isCurrent p digest = false := by
  have hd : (r.fail p).done p = false := by cases p <;> simp [fail, mark, done]
  simp [isCurrent, hd]

end UnitRecord

/-- What is known about the units of a stack. -/
structure Buildstate where
  version : Int := 1
  stack : String := ""
  /-- The release name of the latest run. -/
  releaseName : Option String := none
  /-- The time of the latest save. -/
  updatedAt : Option String := none
  units : Table String UnitRecord := []
  deriving DecidableEq, Inhabited

namespace Buildstate

/-- The version of the states that can be read. -/
def currentVersion : Int := 1

/-- The state of a stack about which nothing is known. -/
def empty (stack : String) : Buildstate := { stack := stack }

def record? (b : Buildstate) (fqn : String) : Option UnitRecord := Table.get? fqn b.units

/-- Whether a phase of a unit is done and has the fingerprint. -/
def isCurrent (b : Buildstate) (fqn : String) (p : Phase) (digest : String) : Bool :=
  match b.record? fqn with
  | some r => r.isCurrent p digest
  | none => false

/-- The state after a phase of a unit has succeeded. -/
def markSucceeded (b : Buildstate) (fqn : String) (p : Phase) (digest : String)
    (snapshot : Option Value) (outputs : Option Entries) : Buildstate :=
  { b with units :=
      Table.set fqn (((b.record? fqn).getD {}).succeed p digest snapshot outputs) b.units }

/-- The state after a phase of a unit has failed; a unit without a record gets none. -/
def markFailed (b : Buildstate) (fqn : String) (p : Phase) : Buildstate :=
  match b.record? fqn with
  | some r => { b with units := Table.set fqn (r.fail p) b.units }
  | none => b

/-- Drop the records of all units but the given ones; the dropped units are named in order. -/
def prune (keep : List String) (b : Buildstate) : List String × Buildstate :=
  (Sorting.texts ((b.units.map Prod.fst).filter fun fqn => !keep.contains fqn),
    { b with units := b.units.filter fun e => keep.contains e.1 })

theorem isCurrent_markSucceeded (b : Buildstate) (fqn : String) (p : Phase)
    (digest other : String) (snapshot : Option Value) (outputs : Option Entries) :
    (b.markSucceeded fqn p digest snapshot outputs).isCurrent fqn p other = (digest == other) := by
  simp [isCurrent, markSucceeded, record?, Table.get?_set_self, UnitRecord.isCurrent_succeed]

theorem isCurrent_markFailed (b : Buildstate) (fqn : String) (p : Phase) (digest : String) :
    (b.markFailed fqn p).isCurrent fqn p digest = false := by
  unfold markFailed
  split
  · simp [isCurrent, record?, Table.get?_set_self, UnitRecord.isCurrent_fail]
  · rename_i h
    simp [isCurrent, h]

theorem markSucceeded_other (b : Buildstate) {fqn other : String} (h : other ≠ fqn) (p : Phase)
    (digest : String) (snapshot : Option Value) (outputs : Option Entries) :
    (b.markSucceeded fqn p digest snapshot outputs).record? other = b.record? other := by
  simp [markSucceeded, record?, Table.get?_set_of_ne h]

theorem markFailed_other (b : Buildstate) {fqn other : String} (h : other ≠ fqn) (p : Phase) :
    (b.markFailed fqn p).record? other = b.record? other := by
  unfold markFailed
  split
  · simp [record?, Table.get?_set_of_ne h]
  · rfl

end Buildstate

end Rollout
