import Rollout.Buildstate.Basic
import Rollout.Json.Limits
import Rollout.Schema.Check
import Rollout.Text.Calendar
import Rollout.Text.Literal
import Rollout.Text.Digest

/-!
# Build states as documents

A build state is stored as a mapping. Stored documents are plain: a day or moment is written as its
text, and so is every key; null stands for a number that is not finite. Entries that are no field
are ignored on reading. Values that are nested too deeply and integers with too many digits cannot be
stored.

**Operations.** `Buildstate.toValue`, `Buildstate.ofValue`, `Value.stored`, `Buildstate.text`.
-/

namespace Rollout

namespace Key

mutual

/-- The text under which an entry is stored. -/
def stored : Key → String
  | .null => "None"
  | .bool b => if b then "true" else "false"
  | .int i => toString i
  | .float x => x.text
  | .text s => s
  | .date d => d.text
  | .timestamp t => t.text "T"
  | .tuple items => ",".intercalate (storedAll items)

/-- The texts of the parts of a tuple. -/
def storedAll : List Key → List String
  | [] => []
  | k :: rest => stored k :: storedAll rest

end

end Key

namespace Value

mutual

/-- The plain value that is stored for a value. -/
def stored : Value → Value
  | .date d => .text d.text
  | .timestamp t => .text (t.text "T")
  | .float x => if x.isFinite then .float x else .null
  | .list items => .list (storedAll items)
  | .map entries => .map (storedEntries [] entries)
  | v => v

/-- The plain values of a list. -/
def storedAll : List Value → List Value
  | [] => []
  | v :: rest => stored v :: storedAll rest

/-- The plain entries of a mapping: of two keys with one text, the later value is kept. -/
def storedEntries (done : Entries) : List (Key × Value) → Entries
  | [] => done
  | (k, v) :: rest => storedEntries (Entries.set (.text k.stored) (stored v) done) rest

end

end Value

namespace UnitRecord

/-- How many values of a record may stand inside one another. -/
def depthLimit : Nat := 256

/-- Whether the snapshot and the outputs are nested no deeper than can be stored. -/
def isShallow (r : UnitRecord) : Bool :=
  decide ((r.snapshot.getD .null).depth ≤ depthLimit) &&
    decide ((Value.map r.outputs).depth ≤ depthLimit)

/-- The fields of a record. -/
def toValue (r : UnitRecord) : Value :=
  .object [
    ("initialized", .bool r.initialized),
    ("built", .bool r.built),
    ("deployed", .bool r.deployed),
    ("fingerprints", .object (r.fingerprints.map fun e => (e.1, .text e.2))),
    ("snapshot", r.snapshot.getD .null),
    ("outputs", .map r.outputs)]

/-- A mapping whose keys are texts. -/
def readEntries (v : Value) : Check Entries :=
  Check.map (fun t => t.map fun e => (Key.text e.1, e.2)) (Check.dict Check.any v)

def ofValue : Value → Check UnitRecord :=
  Check.record "BuildstateRecord" fun es =>
    UnitRecord.mk <$> Check.field ["initialized"] false Check.bool es
      <*> Check.field ["built"] false Check.bool es
      <*> Check.field ["deployed"] false Check.bool es
      <*> Check.field ["fingerprints"] [] (Check.dict Check.text) es
      <*> Check.field ["snapshot"] none (Check.optional fun v => Check.map .map (readEntries v)) es
      <*> Check.field ["outputs"] [] readEntries es

end UnitRecord

namespace Buildstate

/-- The fields of a state. -/
def toValue (b : Buildstate) : Value :=
  .object [
    ("version", .int b.version),
    ("stack", .text b.stack),
    ("release_name", .ofText? b.releaseName),
    ("updated_at", .ofText? b.updatedAt),
    ("units", .object (b.units.map fun e => (e.1, e.2.toValue)))]

/-- Read a state. -/
def ofValue : Value → Check Buildstate :=
  Check.record "PersistedState" fun es =>
    Buildstate.mk <$> Check.field ["version"] 1 Check.int es
      <*> Check.field ["stack"] "" Check.text es
      <*> Check.field ["release_name"] none (Check.optional Check.text) es
      <*> Check.field ["updated_at"] none (Check.optional Check.text) es
      <*> Check.field ["units"] [] (Check.dict UnitRecord.ofValue) es

/-- The text of the file that holds a state. -/
def text (b : Buildstate) : Except Json.Fault String := Digest.stableText b.toValue.stored

end Buildstate

end Rollout
