import Rollout.Executor.Basic
import Rollout.Text.Scan

/-!
# Placeholders in commands

The words of a command may hold placeholders: a name in braces stands for a text of the context.
They are filled in one pass from left to right, so that what has been filled in is not looked at
again; other braces stay as they are.

**Operations.** `fillPlaceholders`, `commandFor`.
-/

namespace Rollout

/-- The placeholders with what they stand for. -/
def placeholders : List (String × (UnitContext → String)) := [
  ("fqn", UnitContext.fqn),
  ("name", UnitContext.name),
  ("kind", fun c => c.kind.text),
  ("phase", fun c => c.phase.text),
  ("namespace", UnitContext.namespaceName),
  ("release", UnitContext.releaseName),
  ("display_name", UnitContext.displayName)]

/-- The written form of a placeholder. -/
def placeholderText (name : String) : List Char := '\x7b' :: name.toList ++ ['\x7d']

def findPlaceholder : Text.Finder (UnitContext → String) := fun _ cs =>
  placeholders.findSome? fun e =>
    if (placeholderText e.1).isPrefixOf cs then some (e.2, e.1.length + 1) else none

def fillPlaceholders (c : UnitContext) (word : String) : String :=
  String.ofList (Text.replace findPlaceholder (fun f => (f c).toList) word.toList)

def commandFor (words : List String) (c : UnitContext) : List String :=
  words.map (fillPlaceholders c)

end Rollout
