import Rollout.Proofs.Value
import Rollout.Reference.Basic

/-!
# Writing at the leaves of a document

If no mapping of a document names an entry twice, then the paths of its leaves lead to them. Writing
what a function says at every reference of a document, one after the other, is then the same as
replacing all references at once, leaf by leaf.

The proof looks at a part of the document and at what stands around it: a `Frame` is a way of
putting something around a value such that a write into the whole is a write into the part.

**Types.** `Value.Unambiguous`, `Value.Frame`.

**Operations.** `Value.put`, `Value.replace`.

**Results.** `put_references`: all references of a document are written, and no write fails.
-/

namespace Rollout

namespace Key

/-- A text key is named by itself only. -/
theorem same_text (k : Key) (s : String) : k.same (.text s) = decide (k = .text s) := by
  cases k with
  | float x => cases hx : x.toRat? <;> simp [same, number?, hx]
  | _ => rfl

mutual

/-- Every key names its own entry. -/
theorem same_self : (k : Key) → k.same k = true
  | .null | .text _ | .date _ | .timestamp _ => by simp [same, number?]
  | .bool _ | .int _ => by simp [same, number?]
  | .float x => by cases hx : x.toRat? <;> simp [same, number?, hx]
  | .tuple items => by
    rw [same]
    exact sameList_self items

/-- Lists of keys are the same, item by item, as themselves. -/
theorem sameList_self : (items : List Key) → same.sameList items items = true
  | [] => rfl
  | k :: rest => by rw [same.sameList, same_self k, sameList_self rest, Bool.and_self]

end

end Key

namespace Entries

/-- A write under a text keeps what all entries have in common. -/
theorem forall_set {P : Value → Prop} {entries : Entries}
    (h : ∀ e ∈ entries, (∃ s, e.1 = .text s) ∧ P e.2) (key : String) {v : Value} (hv : P v) :
    ∀ e ∈ set key v entries, (∃ s, e.1 = .text s) ∧ P e.2 := by
  induction entries with
  | nil => simpa [set] using hv
  | cons e rest ih =>
    have hrest := ih fun e he => h e (List.mem_cons_of_mem _ he)
    obtain ⟨hkey, hx⟩ := h e List.mem_cons_self
    rw [set]
    split
    · exact List.forall_mem_cons.mpr ⟨⟨hkey, hv⟩, fun e he => h e (List.mem_cons_of_mem _ he)⟩
    · exact List.forall_mem_cons.mpr ⟨⟨hkey, hx⟩, hrest⟩

/-- The keys after a write under a text. -/
theorem keys_set {entries : Entries} (ht : ∀ e ∈ entries, ∃ s, e.1 = .text s) (key : String)
    (v : Value) : (set key v entries).map Prod.fst =
      if Key.text key ∈ entries.map Prod.fst then entries.map Prod.fst
      else entries.map Prod.fst ++ [.text key] := by
  induction entries with
  | nil => rfl
  | cons e rest ih =>
    obtain ⟨s, hs⟩ := ht e List.mem_cons_self
    obtain ⟨k, x⟩ := e
    obtain rfl : k = .text s := hs
    have hrest := ih fun e he => ht e (List.mem_cons_of_mem _ he)
    simp only [set, Key.same_text, Key.text.injEq, decide_eq_true_eq, List.map_cons, List.mem_cons]
    by_cases hkey : key = s
    · simp [hkey]
    · rw [if_neg hkey, List.map_cons, hrest]
      split <;> simp_all

/-- Keys stay different after a write under a text. -/
theorem nodup_set {entries : Entries} (ht : ∀ e ∈ entries, ∃ s, e.1 = .text s)
    (hn : (entries.map Prod.fst).Nodup) (key : String) (v : Value) :
    ((set key v entries).map Prod.fst).Nodup := by
  rw [keys_set ht]
  split
  · exact hn
  · rename_i hm
    refine List.nodup_append.mpr ⟨hn, by simp, ?_⟩
    rintro a ha b hb rfl
    rw [List.mem_singleton.mp hb] at ha
    exact hm ha

/-- A new text is written behind the others. -/
theorem set_absent {entries : Entries} (ht : ∀ e ∈ entries, ∃ s, e.1 = .text s) {key : String}
    (h : Key.text key ∉ entries.map Prod.fst) (v : Value) :
    set key v entries = entries ++ [(.text key, v)] := by
  induction entries with
  | nil => rfl
  | cons e rest ih =>
    obtain ⟨s, hs⟩ := ht e List.mem_cons_self
    rw [List.map_cons, List.mem_cons, not_or] at h
    have hsame : (Key.text key).same e.1 = false := by
      rw [hs, Key.same_text, ← hs]
      exact decide_eq_false h.1
    rw [set, hsame, ih (fun e he => ht e (List.mem_cons_of_mem _ he)) h.2]
    rfl

variable {before after : Entries} {key : Key}

/-- An entry is found behind entries that the key does not name. -/
theorem get?_append (h : ∀ e ∈ before, key.same e.1 = false) (v : Value) :
    get? key (before ++ (key, v) :: after) = some v := by
  induction before with
  | nil => rw [List.nil_append, get?, if_pos key.same_self]
  | cons e rest ih =>
    rw [List.cons_append, get?, h e List.mem_cons_self, if_neg (by simp)]
    exact ih fun e he => h e (List.mem_cons_of_mem _ he)

/-- An entry is written behind entries that the key does not name. -/
theorem set_append (h : ∀ e ∈ before, key.same e.1 = false) (v w : Value) :
    set key w (before ++ (key, v) :: after) = before ++ (key, w) :: after := by
  induction before with
  | nil => rw [List.nil_append, set, if_pos key.same_self, List.nil_append]
  | cons e rest ih =>
    rw [List.cons_append, set, h e List.mem_cons_self, if_neg (by simp),
      ih fun e he => h e (List.mem_cons_of_mem _ he), List.cons_append]

end Entries

/-- A write of a JSON document under a text key. -/
theorem Value.IsJson.set {entries : Entries} (h : (Value.map entries).IsJson) (key : String)
    {v : Value} (hv : v.IsJson) : (Value.map (Entries.set key v entries)).IsJson := by
  obtain ⟨hn, he⟩ := isJson_map.mp h
  exact isJson_map.mpr ⟨Entries.nodup_set (fun e hm => (he e hm).1) hn key v,
    Entries.forall_set he key hv⟩

namespace Value

mutual

/-- No mapping names an entry twice, at any depth. -/
def Unambiguous : Value → Prop
  | .list items => AreUnambiguous items
  | .map entries =>
    (entries.map Prod.fst).Pairwise (fun a b => b.same a = false) ∧ EntriesUnambiguous entries
  | _ => True

/-- No mapping in the items names an entry twice. -/
def AreUnambiguous : List Value → Prop
  | [] => True
  | v :: rest => v.Unambiguous ∧ AreUnambiguous rest

/-- No mapping in the values of the entries names an entry twice. -/
def EntriesUnambiguous : List (Key × Value) → Prop
  | [] => True
  | (_, v) :: rest => v.Unambiguous ∧ EntriesUnambiguous rest

end

theorem unambiguous_list {items : List Value} :
    (Value.list items).Unambiguous ↔ ∀ v ∈ items, v.Unambiguous := by
  rw [Unambiguous]
  induction items with
  | nil => simp [AreUnambiguous]
  | cons v rest ih => simp [AreUnambiguous, ih]

theorem unambiguous_map {entries : Entries} :
    (Value.map entries).Unambiguous ↔
      (entries.map Prod.fst).Pairwise (fun a b => b.same a = false) ∧
        ∀ e ∈ entries, e.2.Unambiguous := by
  rw [Unambiguous]
  have hvalues : EntriesUnambiguous entries ↔ ∀ e ∈ entries, e.2.Unambiguous := by
    induction entries with
    | nil => simp [EntriesUnambiguous]
    | cons e rest ih => simp [EntriesUnambiguous, ih]
  rw [hvalues]

/-- Text keys name an entry twice only if they are equal. -/
theorem Distinct.unambiguous {v : Value} (hd : v.Distinct) (hk : v.Keyed) : v.Unambiguous := by
  induction v using rises with
  | list items ih =>
    rw [distinct_list] at hd
    rw [keyed_list] at hk
    exact unambiguous_list.mpr fun v hv => ih v hv (hd v hv) (hk v hv)
  | map entries ih =>
    rw [distinct_map] at hd
    rw [keyed_map] at hk
    refine unambiguous_map.mpr ⟨?_, fun e he => ih e he (hd.2 e he) (hk e he).2⟩
    refine hd.1.imp_of_mem fun {a b} ha _ hab => ?_
    obtain ⟨e, he, rfl⟩ := List.mem_map.mp ha
    obtain ⟨s, hs⟩ := (hk e he).1
    rw [hs] at hab ⊢
    simpa [Key.same_text] using Ne.symm hab
  | _ => trivial

/-! ### Changes of all leaves -/

theorem mapItems_eq (f : Value → Value) (items : List Value) :
    mapItems f items = items.map (mapLeaves f) := by
  induction items with
  | nil => rfl
  | cons v rest ih => rw [mapItems, ih, List.map_cons]

theorem mapEntries_eq (f : Value → Value) (entries : Entries) :
    mapEntries f entries = entries.map fun e => (e.1, e.2.mapLeaves f) := by
  induction entries with
  | nil => rfl
  | cons e rest ih => rw [mapEntries, ih, List.map_cons]

/-- A leaf with its reference replaced by what a function says, or without its escape mark. -/
def replace (f : Reference → Value) : Value → Value
  | .text s =>
    match Reference.parse? s with
    | some r => f r
    | none => (Value.text s).unescape
  | v => v

/-- **A property of documents and their parts** is kept if references are replaced by values that
have it. -/
theorem Hereditary.replaced {P : Value → Prop} {K : List Key → Prop} (h : Hereditary P K)
    {f : Reference → Value} (hf : ∀ r, P (f r)) {v : Value} (hv : P v) :
    P (v.mapLeaves (replace f)) := by
  induction v using rises with
  | text s =>
    simp only [mapLeaves, replace]
    cases Reference.parse? s with
    | some r => exact hf r
    | none =>
      simp only [unescape]
      split
      · exact h.text _
      · exact h.text _
  | list items ih =>
    rw [h.list] at hv
    rw [mapLeaves, mapItems_eq, h.list, List.forall_mem_map]
    exact fun v hm => ih v hm (hv v hm)
  | map entries ih =>
    rw [h.map] at hv
    rw [mapLeaves, mapEntries_eq, h.map, List.map_map, List.forall_mem_map]
    exact ⟨hv.1, fun e he => ih e he (hv.2 e he)⟩
  | _ => exact hv

/-! ### Writes -/

/-- The document with a value written at the end of a path, which may be empty. -/
def put (doc : Value) : Path → Value → Except PathFault Value
  | [], v => .ok v
  | key :: rest, v => doc.setAt (key :: rest) v

theorem put_of_ne {path : Path} (h : path ≠ []) (doc v : Value) :
    doc.put path v = doc.setAt path v := by
  cases path with
  | nil => exact absurd rfl h
  | cons key rest => rfl

/-- What stands around the place at the end of a path: a write into the whole is a write into
what stands at the place. -/
def Frame (path : Path) (around : Value → Value) : Prop :=
  ∀ v q w, (around v).put (path ++ q) w = (v.put q w).map around

theorem Frame.root : Frame [] id := by
  intro v q w
  rw [List.nil_append]
  change v.put q w = (v.put q w).map id
  cases v.put q w <;> rfl

theorem Frame.comp {p q : Path} {around within : Value → Value} (h : Frame p around)
    (h' : Frame q within) : Frame (p ++ q) (around ∘ within) := by
  intro v r w
  rw [List.append_assoc, Function.comp_apply, h, h']
  cases v.put r w <;> rfl

/-- An entry of a mapping, behind entries that its key does not name. -/
theorem Frame.entry {before : Entries} {key : Key} (h : ∀ e ∈ before, key.same e.1 = false)
    (after : Entries) : Frame [key] fun v => .map (before ++ (key, v) :: after) := by
  intro v q w
  cases q with
  | nil =>
    simp only [List.append_nil, put, setAt, Entries.set_append h]
    rfl
  | cons k rest =>
    simp only [List.singleton_append, put, setAt, Entries.get?_append h]
    cases v.setAt (k :: rest) w with
    | error fault => rfl
    | ok changed =>
      simp only [bind, Except.bind, pure, Except.pure, Except.map, Entries.set_append h]

/-- An item of a list. -/
theorem Frame.item (before after : List Value) :
    Frame [.int before.length] fun v => .list (before ++ v :: after) := by
  intro v q w
  have hposition : position? (before ++ v :: after).length before.length = some before.length := by
    have hnot : ¬(before.length : Int) < 0 := by omega
    have hin : (0 : Int) ≤ before.length ∧
        (before.length : Int) < (before ++ v :: after).length := by
      rw [List.length_append, List.length_cons]
      omega
    rw [position?, if_neg hnot, if_pos hin]
    rfl
  have hset (w : Value) : (before ++ v :: after).set before.length w = before ++ w :: after := by
    simp
  cases q with
  | nil =>
    simp only [List.append_nil, put, setAt, hposition, hset]
    rfl
  | cons k rest =>
    have hget : (before ++ v :: after).getD before.length .null = v := by simp
    simp only [List.singleton_append, put, setAt, hposition, hget]
    cases v.setAt (k :: rest) w with
    | error fault => rfl
    | ok changed => simp only [bind, Except.bind, pure, Except.pure, Except.map, hset]

/-! ### Leaves -/

theorem itemLeaves_eq (path : Path) (position : Nat) (items : List Value) :
    itemLeaves path position items =
      (items.zipIdx position).flatMap fun e => e.1.leaves (path ++ [.int e.2]) := by
  induction items generalizing position with
  | nil => rfl
  | cons v rest ih => rw [itemLeaves, ih, List.zipIdx_cons, List.flatMap_cons]

theorem entryLeaves_eq (path : Path) (entries : Entries) :
    entryLeaves path entries = entries.flatMap fun e => e.2.leaves (path ++ [e.1]) := by
  induction entries with
  | nil => rfl
  | cons e rest ih => rw [entryLeaves, ih, List.flatMap_cons]

/-- The leaves of a list are those of its items, each at its position. -/
theorem leaves_list (path : Path) (items : List Value) :
    (Value.list items).leaves path =
      items.zipIdx.flatMap fun e => e.1.leaves (path ++ [.int e.2]) := by
  rw [leaves, itemLeaves_eq]

/-- The leaves of a mapping are those of its entries, each under its key. -/
theorem leaves_map (path : Path) (entries : Entries) :
    (Value.map entries).leaves path = entries.flatMap fun e => e.2.leaves (path ++ [e.1]) := by
  rw [leaves, entryLeaves_eq]

/-- The path to a leaf goes on from the place where the leaf is looked for. -/
theorem prefix_of_leaf {v : Value} {path p : Path} {s : String} (h : (p, s) ∈ v.leaves path) :
    ∃ q, p = path ++ q := by
  induction v using rises generalizing path with
  | text t =>
    obtain ⟨rfl, -⟩ := Prod.mk.inj (List.mem_singleton.mp h)
    exact ⟨[], by simp⟩
  | list items ih =>
    rw [leaves_list, List.mem_flatMap] at h
    obtain ⟨e, he, hm⟩ := h
    obtain ⟨q, rfl⟩ := ih e.1 (List.mem_of_getElem? (List.mem_zipIdx_iff_getElem?.mp he)) hm
    exact ⟨_, List.append_assoc ..⟩
  | map entries ih =>
    rw [leaves_map, List.mem_flatMap] at h
    obtain ⟨e, he, hm⟩ := h
    obtain ⟨q, rfl⟩ := ih e he hm
    exact ⟨_, List.append_assoc ..⟩
  | _ => cases h

/-! ### Writing at every reference -/

variable {f : Reference → Value}

/-- Write what the function says at a leaf, if the leaf is a reference. -/
def putLeaf (f : Reference → Value) (doc : Value) (leaf : Path × String) :
    Except PathFault Value :=
  match Reference.parse? leaf.2 with
  | some r => doc.put leaf.1 (f r)
  | none => .ok doc

/-- Items are written one after the other. -/
theorem putLeaf_items {path : Path} {around : Value → Value} (hframe : Frame path around)
    {items : List Value} (ih : ∀ v ∈ items, ∀ path around, Frame path around →
      (v.leaves path).foldlM (putLeaf f) (around (v.mapLeaves unescape)) =
        .ok (around (v.mapLeaves (replace f))))
    (before : List Value) :
    (itemLeaves path before.length items).foldlM (putLeaf f)
        (around (.list (before ++ mapItems unescape items))) =
      .ok (around (.list (before ++ mapItems (replace f) items))) := by
  induction items generalizing before with
  | nil => rfl
  | cons v rest ih' =>
    have hv := ih v List.mem_cons_self _ _ (hframe.comp (Frame.item before (mapItems unescape rest)))
    have hrest := ih' (fun v hv => ih v (List.mem_cons_of_mem _ hv))
      (before ++ [v.mapLeaves (replace f)])
    rw [List.length_append, List.length_singleton] at hrest
    simp only [List.append_assoc, List.singleton_append] at hrest
    rw [itemLeaves, List.foldlM_append]
    simp only [mapItems]
    simp only [Function.comp_apply] at hv
    rw [hv]
    exact hrest

/-- Entries are written one after the other. -/
theorem putLeaf_entries {path : Path} {around : Value → Value} (hframe : Frame path around)
    {entries : Entries} (ih : ∀ e ∈ entries, ∀ path around, Frame path around →
      (e.2.leaves path).foldlM (putLeaf f) (around (e.2.mapLeaves unescape)) =
        .ok (around (e.2.mapLeaves (replace f))))
    (before : Entries)
    (hkeys : ((before ++ entries).map Prod.fst).Pairwise fun a b => b.same a = false) :
    (entryLeaves path entries).foldlM (putLeaf f)
        (around (.map (before ++ mapEntries unescape entries))) =
      .ok (around (.map (before ++ mapEntries (replace f) entries))) := by
  induction entries generalizing before with
  | nil => rfl
  | cons e rest ih' =>
    obtain ⟨k, v⟩ := e
    have hnew : ∀ e ∈ before, k.same e.1 = false := by
      intro e he
      rw [List.map_append, List.pairwise_append] at hkeys
      exact hkeys.2.2 e.1 (List.mem_map_of_mem he) k (by simp)
    have hv := ih _ List.mem_cons_self _ _
      (hframe.comp (Frame.entry hnew (mapEntries unescape rest)))
    have hrest := ih' (fun e he => ih e (List.mem_cons_of_mem _ he))
      (before ++ [(k, v.mapLeaves (replace f))]) (by simpa using hkeys)
    simp only [List.append_assoc, List.singleton_append] at hrest
    rw [entryLeaves, List.foldlM_append]
    simp only [mapEntries]
    simp only [Function.comp_apply] at hv
    rw [hv]
    exact hrest

/-- All leaves of a part of a document are written. -/
theorem putLeaf_leaves {v : Value} (h : v.Unambiguous) {path : Path} {around : Value → Value}
    (hframe : Frame path around) :
    (v.leaves path).foldlM (putLeaf f) (around (v.mapLeaves unescape)) =
      .ok (around (v.mapLeaves (replace f))) := by
  induction v using rises generalizing path around with
  | text s =>
    have hput (w : Value) : (around (Value.text s).unescape).put path w = .ok (around w) := by
      have hone := hframe (Value.text s).unescape [] w
      rwa [List.append_nil] at hone
    simp only [leaves, mapLeaves, replace, List.foldlM_cons, List.foldlM_nil, putLeaf]
    cases Reference.parse? s with
    | none => rfl
    | some r =>
      simp only [hput]
      rfl
  | list items ih =>
    rw [unambiguous_list] at h
    exact putLeaf_items hframe (fun v hv path around hframe => ih v hv (h v hv) hframe) []
  | map entries ih =>
    rw [unambiguous_map] at h
    exact putLeaf_entries hframe (fun e he path around hframe => ih e he (h.2 e he) hframe) [] h.1
  | _ => rfl

/-- **All references of a document are written** one after the other as if they were replaced all
at once. -/
theorem put_references {v : Value} (h : v.Unambiguous) (f : Reference → Value) :
    (v.references []).foldlM (fun doc r => doc.put r.1 (f r.2)) (v.mapLeaves unescape) =
      .ok (v.mapLeaves (replace f)) := by
  rw [references, List.foldlM_filterMap]
  refine Eq.trans ?_ (putLeaf_leaves (f := f) h Frame.root)
  congr 1
  funext doc ⟨path, s⟩
  simp only [putLeaf]
  cases Reference.parse? s <;> rfl

end Value

end Rollout
