import Rollout.Json.Reader

/-!
# Limits of JSON text

What may be too much in a value: values that stand inside one another, and the digits of integers.

**Operations.** `Value.depth`, `Value.isLegible`.
-/

namespace Rollout.Value

mutual

/-- How many values stand inside one another, the value itself included. -/
def depth : Value → Nat
  | .list items => depthAll items + 1
  | .map entries => depthEntries entries + 1
  | _ => 1

/-- The greatest depth of an item. -/
def depthAll : List Value → Nat
  | [] => 0
  | v :: rest => max (depth v) (depthAll rest)

/-- The greatest depth of the value of an entry. -/
def depthEntries : List (Key × Value) → Nat
  | [] => 0
  | (_, v) :: rest => max (depth v) (depthEntries rest)

end

mutual

/-- Whether no integer has more digits than are read. -/
def isLegible : Value → Bool
  | .int i => decide ((Decimal.ofNat i.natAbs).length ≤ Json.digitLimit)
  | .list items => areLegible items
  | .map entries => entriesLegible entries
  | _ => true

/-- Whether no integer in the items has too many digits. -/
def areLegible : List Value → Bool
  | [] => true
  | v :: rest => isLegible v && areLegible rest

/-- Whether no integer in the values of the entries has too many digits. -/
def entriesLegible : List (Key × Value) → Bool
  | [] => true
  | (_, v) :: rest => isLegible v && entriesLegible rest

end

end Rollout.Value
