import Rollout.Stack.Basic

/-!
# Release names

A release is called `<adjective>-<noun>-<four digits of base sixteen>` unless its stack pins a name.
Random choices come from a `Chance`: a sequence of numbers and a sequence of digit groups that are
used up one after the other and start again at their ends.

**Operations.** `Chance.releaseName`, `Stack.releaseFor`.
-/

namespace Rollout

/-- A source of choices: what it will choose, and how much of it has been used. -/
structure Chance where
  picks : List Int
  digits : List String
  picksUsed : Nat
  digitsUsed : Nat
  deriving Inhabited

namespace Chance

/-- A source from which nothing has been used. -/
def start (picks : List Int) (digits : List String) : Chance := ⟨picks, digits, 0, 0⟩

/-- A position below `count`. -/
def pick (count : Nat) (c : Chance) : Nat × Chance :=
  let i := c.picks.getD (c.picksUsed % c.picks.length) 0
  ((i.emod count).toNat, { c with picksUsed := c.picksUsed + 1 })

/-- Four digits of base sixteen. -/
def fourDigits (c : Chance) : String × Chance :=
  let s := c.digits.getD (c.digitsUsed % c.digits.length) ""
  (String.ofList (s.toList.take 4), { c with digitsUsed := c.digitsUsed + 1 })

end Chance

/-- The first words of release names. -/
def releaseAdjectives : List String := [
  "amber", "brisk", "calm", "dusty", "eager", "fuzzy", "gentle", "hollow", "icy", "jolly", "keen",
  "lucky", "mellow", "nimble", "olive", "proud", "quiet", "rapid", "sunny", "tidy", "urban",
  "vivid", "witty", "young"]

/-- The second words of release names. -/
def releaseNouns : List String := [
  "anchor", "badger", "cedar", "delta", "ember", "falcon", "garden", "harbor", "island", "jasper",
  "kettle", "lantern", "meadow", "nebula", "orchid", "pebble", "quarry", "river", "summit",
  "thistle", "valley", "willow", "yarrow", "zephyr"]

/-- A fresh release name. -/
def Chance.releaseName (c : Chance) : String × Chance :=
  let (a, c) := c.pick releaseAdjectives.length
  let (n, c) := c.pick releaseNouns.length
  let (d, c) := c.fourDigits
  (releaseAdjectives.getD a "" ++ "-" ++ releaseNouns.getD n "" ++ "-" ++ d, c)

def nonEmpty? : Option String → Option String
  | some s => if s = "" then none else some s
  | none => none

/-- The release name of a stack: pinned by the stack, else the previous one, else a fresh one. -/
def Stack.releaseFor (s : Stack) (previous : Option String) (c : Chance) : String × Chance :=
  match nonEmpty? s.releaseName, nonEmpty? previous with
  | some pinned, _ => (pinned, c)
  | none, some name => (name, c)
  | none, none => c.releaseName

end Rollout
