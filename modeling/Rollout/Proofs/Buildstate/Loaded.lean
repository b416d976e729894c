import Rollout.Buildstate.Store
import Rollout.Proofs.Reference.Path
import Rollout.Proofs.Table

/-!
# Build states that are loaded

What is read from JSON text is a JSON document: text keys, each once in its mapping, at every depth.
So the records of a state that is loaded from a store hold JSON data, and no unit and no fingerprint
occurs twice in it.

**Types.** `Json.Takes`, `Check.Entrywise`, `Buildstate.Distinct`, `Buildstate.IsJson`,
`Buildstate.Keyed`.

**Results.**
* `Json.isJson_read`: what is read from JSON text;
* `Buildstate.fields_of_ofValue`, `UnitRecord.fields_of_ofValue`: documents are read field by field;
* `Store.isJson_load`: what is loaded from a store.
-/

namespace Rollout

/-- An attempt in two parts succeeds when both of them do. -/
theorem eq_ok_of_bind {ε α β : Type} {x : Except ε α} {f : α → Except ε β} {b : β}
    (h : (x >>= f) = .ok b) : ∃ a, x = .ok a ∧ f a = .ok b := by
  cases x with
  | error e => cases h
  | ok a => exact ⟨a, rfl, h⟩

namespace Json

/-- Whatever an attempt takes from the front of a text has a property. -/
def Takes {α : Type} (P : α → Prop) : Except ReadError (α × List Char) → Prop
  | .ok (a, _) => P a
  | .error _ => True

section

variable {α β : Type} {P : α → Prop} {Q : β → Prop} {x : Except ReadError (α × List Char)}

/-- Reading on behind what has been taken. -/
theorem Takes.bind {f : α × List Char → Except ReadError (β × List Char)} (hx : Takes P x)
    (hf : ∀ a rest, P a → Takes Q (f (a, rest))) : Takes Q (x >>= f) := by
  cases x with
  | error reason => trivial
  | ok result => exact hf result.1 result.2 hx

/-- Every attempt takes something. -/
theorem takes_some (x : Except ReadError (α × List Char)) : Takes (fun _ => True) x := by
  cases x <;> trivial

theorem Takes.of_ok (hx : Takes P x) {a : α} {rest : List Char} (h : x = .ok (a, rest)) : P a := by
  subst h
  exact hx

end

theorem takes_readNumber (negative : Bool) (cs : List Char) :
    Takes Value.IsJson (readNumber negative cs) := by
  simp only [readNumber]
  repeat' split
  all_goals
    first
    | trivial
    | exact ⟨trivial, trivial⟩

/-- Values that hold no others are JSON documents. -/
theorem takes_readScalar (cs : List Char) : Takes Value.IsJson (readScalar cs) := by
  unfold readScalar
  repeat' split
  all_goals
    first
    | exact takes_readNumber _ _
    | trivial
    | exact ⟨trivial, trivial⟩

/-- What a reader of values, of items or of entries takes from a text is a JSON document. -/
theorem takes_readers (fuel : Nat) :
    (∀ depth cs, Takes Value.IsJson (readValue fuel depth cs)) ∧
      (∀ depth cs, Takes (fun items => ∀ v ∈ items, v.IsJson) (readItems fuel depth cs)) ∧
      ∀ depth done cs, (Value.map done).IsJson →
        Takes (fun entries => (Value.map entries).IsJson) (readEntries fuel depth done cs) := by
  have hnone : (Value.map []).IsJson := ⟨trivial, List.nodup_nil, trivial⟩
  induction fuel with
  | zero => exact ⟨fun _ _ => trivial, fun _ _ => trivial, fun _ _ _ _ => trivial⟩
  | succ fuel ih =>
    obtain ⟨ihv, ihi, ihe⟩ := ih
    refine ⟨fun depth cs => ?_, fun depth cs => ?_, fun depth done cs hdone => ?_⟩
    · unfold readValue
      split
      · exact (takes_some _).bind fun _ _ _ => ⟨trivial, trivial⟩
      · split
        · trivial
        · split
          · exact Value.isJson_list.mpr (List.forall_mem_nil _)
          · exact (ihi _ _).bind fun _ _ hitems => Value.isJson_list.mpr hitems
      · split
        · trivial
        · split
          · exact hnone
          · exact (ihe _ [] _ hnone).bind fun _ _ hentries => hentries
      · exact takes_readScalar cs
    · unfold readItems
      refine (ihv depth cs).bind fun first rest hfirst => ?_
      dsimp only
      split
      · exact List.forall_mem_singleton.mpr hfirst
      · exact (ihi depth _).bind fun _ _ hothers => List.forall_mem_cons.mpr ⟨hfirst, hothers⟩
      · trivial
    · unfold readEntries
      split
      · refine (takes_some _).bind fun key rest _ => ?_
        dsimp only
        split
        · refine (ihv depth _).bind fun value rest hvalue => ?_
          have hset := hdone.set key hvalue
          dsimp only
          split
          · exact hset
          · exact ihe depth _ _ hset
          · trivial
        · trivial
      · trivial

/-- **What is read from JSON text** is a JSON document. -/
theorem isJson_read {text : String} {v : Value} (h : read text = .ok v) : v.IsJson := by
  unfold read at h
  obtain ⟨⟨value, rest⟩, hvalue, h⟩ := eq_ok_of_bind h
  dsimp only at h
  split at h
  · rw [← Except.ok.inj h]
    exact ((takes_readers _).1 _ _).of_ok hvalue
  · cases h

end Json

namespace Check

variable {α β : Type}

theorem eq_ok_of_map {f : α → β} {c : Check α} {b : β} (h : map f c = .ok b) :
    ∃ a, c = .ok a ∧ f a = b := by
  cases c with
  | bad issues => cases h
  | ok a => exact ⟨a, rfl, Check.ok.inj h⟩

theorem eq_ok_of_seq {f : Check (α → β)} {a : Check α} {b : β} (h : seq f a = .ok b) :
    ∃ f' a', f = .ok f' ∧ a = .ok a' ∧ f' a' = b := by
  cases f with
  | bad issues => cases a <;> cases h
  | ok f' =>
    cases a with
    | bad issues => cases h
    | ok a' => exact ⟨f', a', rfl, rfl, Check.ok.inj h⟩

theorem eq_ok_of_inside {key : Key} {c : Check α} {a : α} (h : inside key c = .ok a) :
    c = .ok a := by
  cases c with
  | bad issues => cases h
  | ok a' => exact h

/-- A field is missing, or is read from the entry under one of its names. -/
theorem of_field {names : List String} {missing a : α} {read : Value → Check α} {es : Entries}
    (h : field names missing read es = .ok a) :
    a = missing ∨ ∃ (name : String) (v : Value), Entries.get? name es = some v ∧ read v = .ok a := by
  unfold field at h
  cases hp : present? names es with
  | none =>
    rw [hp] at h
    exact Or.inl (Check.ok.inj h).symm
  | some found =>
    obtain ⟨name, v⟩ := found
    rw [hp] at h
    obtain ⟨other, -, hother⟩ := List.exists_of_findSome?_eq_some hp
    obtain ⟨w, hget, heq⟩ := Option.map_eq_some_iff.mp hother
    obtain ⟨rfl, rfl⟩ := Prod.mk.inj heq
    exact Or.inr ⟨other, w, hget, eq_ok_of_inside h⟩

/-- A field with one name is read from the entry under that name. -/
theorem eq_ok_of_field {name : String} {missing a : α} {read : Value → Check α} {es : Entries}
    {v : Value} (hv : Entries.get? name es = some v) (h : field [name] missing read es = .ok a) :
    read v = .ok a := by
  simp only [field, present?, List.findSome?_cons, hv, Option.map_some] at h
  exact eq_ok_of_inside h

/-- A table is what a reader makes of entries, one after the other. -/
inductive Entrywise (read : Value → Check α) : Entries → Table String α → Prop
  | nil : Entrywise read [] []
  | cons {name : String} {v : Value} {a : α} {es : Entries} {t : Table String α}
    (hv : read v = .ok a) (h : Entrywise read es t) :
    Entrywise read ((.text name, v) :: es) ((name, a) :: t)

/-- A mapping is read entry by entry. -/
theorem of_dict {read : Value → Check α} {v : Value} {t : Table String α} (h : dict read v = .ok t) :
    ∃ es, v = .map es ∧ Entrywise read es t := by
  cases v with
  | map es =>
    refine ⟨es, rfl, ?_⟩
    change entries read es = .ok t at h
    induction es generalizing t with
    | nil =>
      rw [← Check.ok.inj h]
      exact .nil
    | cons e rest ih =>
      obtain ⟨k, v⟩ := e
      rw [entries] at h
      obtain ⟨f, others, hf, hothers, rfl⟩ := eq_ok_of_seq h
      obtain ⟨g, a, hg, ha, rfl⟩ := eq_ok_of_seq hf
      obtain ⟨name, hname, rfl⟩ := eq_ok_of_map hg
      cases k with
      | text s =>
        rw [← Check.ok.inj hname]
        exact .cons (eq_ok_of_inside ha) (ih hothers)
      | _ => cases hname
  | _ => cases h

/-- The names of what is read from a mapping are its keys. -/
theorem Entrywise.keys {read : Value → Check α} {es : Entries} {t : Table String α}
    (h : Entrywise read es t) : es.map Prod.fst = (Table.keys t).map Key.text := by
  induction h with
  | nil => rfl
  | cons _ _ ih =>
    rw [List.map_cons, ih]
    rfl

/-- What is read from a mapping is read from one of its entries. -/
theorem Entrywise.exists_entry {read : Value → Check α} {es : Entries} {t : Table String α}
    (h : Entrywise read es t) : ∀ e' ∈ t, ∃ e ∈ es, read e.2 = .ok e'.2 := by
  induction h with
  | nil => simp
  | cons hv _ ih =>
    refine List.forall_mem_cons.mpr ⟨⟨_, List.mem_cons_self, hv⟩, fun e' he' => ?_⟩
    obtain ⟨e, hm, hread⟩ := ih e' he'
    exact ⟨e, List.mem_cons_of_mem _ hm, hread⟩

/-- Entries of any kind are read as they are. -/
theorem eq_object_of_dict_any {v : Value} {t : Table String Value} (h : dict any v = .ok t) :
    v = .object t := by
  obtain ⟨es, rfl, hes⟩ := of_dict h
  rw [Value.object]
  congr 1
  clear h
  induction hes with
  | nil => rfl
  | cons hv _ ih => rw [List.map_cons, ← ih, ← Check.ok.inj hv]

/-- A mapping with different keys is read as a table with different keys. -/
theorem nodup_of_dict {read : Value → Check α} {v : Value} {t : Table String α} (hv : v.IsJson)
    (h : dict read v = .ok t) : (Table.keys t).Nodup := by
  obtain ⟨es, rfl, hes⟩ := of_dict h
  have hn := (Value.isJson_map.mp hv).1
  rw [hes.keys] at hn
  exact List.Pairwise.of_map Key.text (fun _ _ hne heq => hne (congrArg Key.text heq)) hn

end Check

/-- No unit has two records, and no record has a fingerprint twice. -/
structure Buildstate.Distinct (b : Buildstate) : Prop where
  units : (Table.keys b.units).Nodup
  fingerprints : ∀ e ∈ b.units, (Table.keys e.2.fingerprints).Nodup

/-- The records are distinct, and the outputs in them are JSON documents. -/
structure Buildstate.IsJson (b : Buildstate) : Prop extends Distinct b where
  outputs : ∀ e ∈ b.units, (Value.map e.2.outputs).IsJson

namespace UnitRecord

/-- A record is read field by field. -/
theorem fields_of_ofValue {v : Value} {r : UnitRecord} (h : ofValue v = .ok r) : ∃ es, v = .map es ∧
    Check.field ["initialized"] false Check.bool es = .ok r.initialized ∧
    Check.field ["built"] false Check.bool es = .ok r.built ∧
    Check.field ["deployed"] false Check.bool es = .ok r.deployed ∧
    Check.field ["fingerprints"] [] (Check.dict Check.text) es = .ok r.fingerprints ∧
    Check.field ["outputs"] [] readEntries es = .ok r.outputs := by
  cases v with
  | map es =>
    obtain ⟨f₅, outputs, h₅, houtputs, rfl⟩ := Check.eq_ok_of_seq h
    obtain ⟨f₄, snapshot, h₄, -, rfl⟩ := Check.eq_ok_of_seq h₅
    obtain ⟨f₃, fingerprints, h₃, hfingerprints, rfl⟩ := Check.eq_ok_of_seq h₄
    obtain ⟨f₂, deployed, h₂, hdeployed, rfl⟩ := Check.eq_ok_of_seq h₃
    obtain ⟨f₁, built, h₁, hbuilt, rfl⟩ := Check.eq_ok_of_seq h₂
    obtain ⟨initialized, hinitialized, rfl⟩ := Check.eq_ok_of_map h₁
    exact ⟨es, rfl, hinitialized, hbuilt, hdeployed, hfingerprints, houtputs⟩
  | _ => cases h

theorem eq_of_readEntries {v : Value} {entries : Entries} (h : readEntries v = .ok entries) :
    v = .map entries := by
  obtain ⟨t, ht, rfl⟩ := Check.eq_ok_of_map h
  exact Check.eq_object_of_dict_any ht

theorem isJson_ofValue {v : Value} {r : UnitRecord} (hv : v.IsJson) (h : ofValue v = .ok r) :
    (Table.keys r.fingerprints).Nodup ∧ (Value.map r.outputs).IsJson := by
  obtain ⟨es, rfl, -, -, -, hfingerprints, houtputs⟩ := fields_of_ofValue h
  constructor
  · rcases Check.of_field hfingerprints with heq | ⟨name, w, hw, hread⟩
    · rw [heq]
      exact List.nodup_nil
    · exact Check.nodup_of_dict (hv.get? hw) hread
  · rcases Check.of_field houtputs with heq | ⟨name, w, hw, hread⟩
    · rw [heq]
      exact ⟨trivial, List.nodup_nil, trivial⟩
    · rw [← eq_of_readEntries hread]
      exact hv.get? hw

end UnitRecord

namespace Buildstate

/-- A state is read field by field. -/
theorem fields_of_ofValue {v : Value} {b : Buildstate} (h : ofValue v = .ok b) : ∃ es, v = .map es ∧
    Check.field ["release_name"] none (Check.optional Check.text) es = .ok b.releaseName ∧
    Check.field ["units"] [] (Check.dict UnitRecord.ofValue) es = .ok b.units := by
  cases v with
  | map es =>
    obtain ⟨f₄, units, h₄, hunits, rfl⟩ := Check.eq_ok_of_seq h
    obtain ⟨f₃, updatedAt, h₃, -, rfl⟩ := Check.eq_ok_of_seq h₄
    obtain ⟨f₂, releaseName, h₂, hreleaseName, rfl⟩ := Check.eq_ok_of_seq h₃
    obtain ⟨f₁, stack, h₁, -, rfl⟩ := Check.eq_ok_of_seq h₂
    obtain ⟨version, -, rfl⟩ := Check.eq_ok_of_map h₁
    exact ⟨es, rfl, hreleaseName, hunits⟩
  | _ => cases h

theorem isJson_ofValue {v : Value} {b : Buildstate} (hv : v.IsJson) (h : ofValue v = .ok b) :
    b.IsJson := by
  obtain ⟨es, rfl, -, hunits⟩ := fields_of_ofValue h
  rcases Check.of_field hunits with heq | ⟨name, w, hw, hread⟩
  · refine ⟨⟨?_, ?_⟩, ?_⟩ <;> rw [heq]
    · exact List.nodup_nil
    · simp
    · simp
  · have hjson := hv.get? hw
    obtain ⟨es', rfl, hes⟩ := Check.of_dict hread
    have hrecord : ∀ e ∈ b.units,
        (Table.keys e.2.fingerprints).Nodup ∧ (Value.map e.2.outputs).IsJson := by
      intro e' he'
      obtain ⟨e, he, hrecord⟩ := hes.exists_entry e' he'
      exact UnitRecord.isJson_ofValue ((Value.isJson_map.mp hjson).2 e he).2 hrecord
    exact ⟨⟨Check.nodup_of_dict hjson hread, fun e he => (hrecord e he).1⟩,
      fun e he => (hrecord e he).2⟩

theorem isJson_empty (stack : String) : (empty stack).IsJson :=
  ⟨⟨List.nodup_nil, fun e he => (by cases he)⟩, fun e he => (by cases he)⟩

theorem Distinct.record {b : Buildstate} (h : b.Distinct) {fqn : String} {r : UnitRecord}
    (hr : b.record? fqn = some r) : (Table.keys r.fingerprints).Nodup :=
  h.fingerprints _ (Table.mem_of_get? hr)

end Buildstate

/-- **A state that is loaded** holds JSON data. -/
theorem Store.isJson_load {store : Store} {stack : String} {files : Files} {b : Buildstate}
    (h : store.load stack files = .ok b) : b.IsJson := by
  unfold load at h
  split at h
  · rw [← Except.ok.inj h]
    exact Buildstate.isJson_empty stack
  · dsimp only at h
    split at h
    · rw [← Except.ok.inj h]
      exact Buildstate.isJson_empty stack
    · cases h
    · unfold ofContent at h
      split at h
      · cases h
      · split at h
        · cases h
        · cases h
        · rename_i v hread
          split at h
          · cases h
          · rename_i b' hvalue
            split at h
            · rw [← Except.ok.inj h]
              exact Buildstate.isJson_ofValue (Json.isJson_read hread) hvalue
            · cases h

/-- The outputs of the unit have text keys. -/
def UnitRecord.Keyed (r : UnitRecord) : Prop := (Value.map r.outputs).Keyed

/-- The outputs of every unit have text keys. -/
def Buildstate.Keyed (b : Buildstate) : Prop := ∀ e ∈ b.units, e.2.Keyed

theorem Buildstate.IsJson.keyed {b : Buildstate} (h : b.IsJson) : b.Keyed :=
  fun e he => (h.outputs e he).plain.keyed

theorem UnitRecord.Keyed.fail {r : UnitRecord} (h : r.Keyed) (p : Phase) : (r.fail p).Keyed := by
  cases p <;> exact h

theorem UnitRecord.Keyed.succeed {r : UnitRecord} (h : r.Keyed) (p : Phase) (digest : String)
    (snapshot : Option Value) {outputs : Option Entries}
    (ho : ∀ entries ∈ outputs, (Value.map entries).Keyed) :
    (r.succeed p digest snapshot outputs).Keyed := by
  cases outputs with
  | none => cases p <;> exact h
  | some entries => exact ho entries rfl

namespace Buildstate.Keyed

variable {b : Buildstate} {fqn : String} {r : UnitRecord}

theorem record (h : b.Keyed) (hr : b.record? fqn = some r) : r.Keyed := h _ (Table.mem_of_get? hr)

theorem set (h : b.Keyed) (fqn : String) (hr : r.Keyed) :
    Buildstate.Keyed { b with units := Table.set fqn r b.units } := by
  intro e he
  rcases Table.mem_of_mem_set he with rfl | he
  · exact hr
  · exact h e he

theorem markFailed (h : b.Keyed) (fqn : String) (p : Phase) : (b.markFailed fqn p).Keyed := by
  unfold Buildstate.markFailed
  cases hr : b.record? fqn with
  | none => exact h
  | some r => exact h.set fqn ((h.record hr).fail p)

theorem markSucceeded (h : b.Keyed) (fqn : String) (p : Phase) (digest : String)
    (snapshot : Option Value) {outputs : Option Entries}
    (ho : ∀ entries ∈ outputs, (Value.map entries).Keyed) :
    (b.markSucceeded fqn p digest snapshot outputs).Keyed := by
  have hold : ((b.record? fqn).getD {}).Keyed := by
    cases hr : b.record? fqn with
    | none => trivial
    | some r => exact h.record hr
  exact h.set fqn (hold.succeed p digest snapshot ho)

end Buildstate.Keyed

end Rollout
