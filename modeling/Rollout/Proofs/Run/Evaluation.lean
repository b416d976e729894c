import Rollout.Proofs.Text.Digest
import Rollout.Run.Scheduler

/-!
# Evaluating a run

What takes time in a run that is evaluated in a proof are its fingerprints. A run that takes its
digests from a function of one's choice is the same run if the function is right, so a run can be
evaluated with digests in natural numbers: unfold `Scheduler.run` and `Scheduler.carryOut`, rewrite
with `RunState.run_eq`, and let the kernel decide.

**Operations.** `RunState.compareBy`, `RunState.considerBy`, `RunState.stepBy`, `RunState.runBy`.

**Results.**
* `RunState.runBy_fingerprint`: with the digests of the run itself, it is the same run;
* `RunState.run_eq`: a run with digests in natural numbers.
-/

namespace Rollout

namespace RunState

variable (hash : Value → Except Json.Fault String) (c : Setup)

/-- Compare a pair with what is known about it, under the digest that a function gives. -/
def compareBy (pair : Pair) (n : Node) (resolved : Option Resolved) (s : RunState) :
    Except Halt RunState :=
  match hash (s.fingerprinted c pair n.unit resolved) with
  | .error fault => .error ⟨.noText fault, s⟩
  | .ok digest =>
    let s := { s.amend pair fun o => { o with fingerprint := some digest } with
      fingerprints := Table.set pair digest s.fingerprints }
    if !(c.forced pair.phase).contains pair.fqn &&
        s.buildstate.isCurrent pair.fqn pair.phase digest then
      (s.reuse pair digest).map (settle c.plan pair)
    else
      .ok { s.amend pair (Outcome.move .ready) with
        ready := Sorting.insert readyLe ⟨pair, n.index, resolved⟩ s.ready }

/-- Consider a pair; a pair that is neither blocked nor lacks anything is compared. -/
def considerBy (pair : Pair) (s : RunState) : Except Halt RunState :=
  match s.blocker? c pair, c.graph.node? pair.fqn with
  | none, some n =>
    if pair.phase = .deploy then
      match s.resolver.resolve pair.fqn with
      | .ok resolved => s.compareBy hash c pair n (some resolved)
      | .error _ => s.consider c pair
    else s.compareBy hash c pair n none
  | _, _ => s.consider c pair

/-- A step; pairs that have been promoted are considered first. -/
def stepBy (s : RunState) : Next :=
  match s.promoted with
  | pair :: rest => .of ({ s with promoted := rest }.considerBy hash c pair)
  | [] => s.step c

/-- Take steps until the run ends, at most the given number. -/
def runBy : Nat → RunState → Except Halt RunState
  | 0, s => .ok s
  | fuel + 1, s =>
    match s.stepBy hash c with
    | .state s => runBy fuel s
    | .halted h => .error h
    | .finished => .ok s

variable {c : Setup}

theorem considerBy_fingerprint (pair : Pair) (s : RunState) :
    s.considerBy Digest.fingerprint c pair = s.consider c pair := by
  cases hblocker : s.blocker? c pair with
  | some b => simp only [considerBy, hblocker]
  | none =>
    cases hnode : c.graph.node? pair.fqn with
    | none => simp only [considerBy, hblocker, hnode]
    | some n =>
      simp only [considerBy, consider, hblocker, hnode]
      by_cases hd : pair.phase = .deploy
      · rw [if_pos hd, if_pos hd]
        cases s.resolver.resolve pair.fqn <;> rfl
      · rw [if_neg hd, if_neg hd]
        rfl

theorem stepBy_fingerprint (s : RunState) : s.stepBy Digest.fingerprint c = s.step c := by
  rw [stepBy, step]
  cases s.promoted with
  | nil => rfl
  | cons pair rest => exact congrArg Next.of (considerBy_fingerprint pair _)

theorem runBy_fingerprint (fuel : Nat) (s : RunState) :
    s.runBy Digest.fingerprint c fuel = s.run c fuel := by
  induction fuel generalizing s with
  | zero => rfl
  | succ fuel ih =>
    rw [runBy, run, stepBy_fingerprint]
    cases s.step c with
    | state t => exact ih t
    | halted h => rfl
    | finished => rfl

theorem run_eq (fuel : Nat) (s : RunState) :
    s.run c fuel = s.runBy Digest.Natural.fingerprint c fuel := by
  rw [← runBy_fingerprint, funext Digest.fingerprint_eq]

end RunState

end Rollout
