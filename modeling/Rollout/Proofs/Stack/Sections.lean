import Mathlib.Data.List.Forall2
import Rollout.Proofs.Json.Spelled
import Rollout.Proofs.Stack.Parsed

/-!
# The two forms of a section

A section is a mapping from names to bodies, or the list of these bodies with their names in them.
The kind and the name of a unit are written into its body before the body is read: the kind last if
the section is a list, the name last if it is a mapping. Reading a body looks entries up by their
names and reports those that are no field, and neither depends on where the kind and the name stand.
So the two forms are read alike, issue by issue.

**Types.** `Body.Nameable`, `Section.Nameable`, `Draft.Interchanged`.

**Operations.** `Value.named`, `Body.named`, `Section.listed`, `Draft.listed`.

**Results.**
* `Draft.unitOfFields_congr`: entries that are read as the same unit;
* `Draft.read_listed`: a draft is read alike with a section as a list;
* `Draft.kind_of_section`, `Draft.names_of_section`: the kinds and names of the units of a section;
* `Draft.sections_alike`: both, for drafts and for documents.
-/

namespace Rollout

/-! ### Entries under texts -/

theorem Key.text_same (s : String) (k : Key) : (Key.text s).same k = decide (k = .text s) := by
  cases k with
  | text t => simp [same, number?, eq_comm]
  | _ => simp [same, number?]

namespace Entries

theorem get?_set_text (a b : String) (v : Value) (entries : Entries) :
    get? a (set b v entries) = if a = b then some v else get? a entries := by
  induction entries with
  | nil => simp [set, get?, Key.text_same, eq_comm]
  | cons e rest ih =>
    rw [set, Key.text_same]
    by_cases hb : e.1 = .text b
    · by_cases hab : a = b <;> simp [get?, Key.text_same, hb, hab, eq_comm]
    · by_cases ha : e.1 = .text a
      · have hab : a ≠ b := fun heq => hb (heq ▸ ha)
        simp [get?, Key.text_same, ha, hab]
      · simp [get?, Key.text_same, hb, ha, ih]

/-- A text that is the key of an entry leads to a value. -/
theorem exists_get?_of_mem {entries : Entries} {e : Key × Value} (he : e ∈ entries) {s : String}
    (hs : e.1 = .text s) : ∃ v, get? s entries = some v := by
  induction entries with
  | nil => cases he
  | cons x rest ih =>
    rw [get?]
    split
    · exact ⟨x.2, rfl⟩
    · rename_i hx
      rcases List.mem_cons.mp he with rfl | he
      · rw [hs, Key.same_self] at hx
        exact absurd rfl hx
      · exact ih he

/-- A write keeps all entries under other keys, in order. -/
theorem filter_set {p : Key → Bool} {s : String} (hp : p (.text s) = false) (v : Value)
    (entries : Entries) :
    (set s v entries).filter (fun e => p e.1) = entries.filter fun e => p e.1 := by
  induction entries with
  | nil => simp [set, hp]
  | cons e rest ih =>
    rw [set, Key.text_same]
    by_cases hs : e.1 = .text s
    · simp [hs, hp]
    · simp [hs, List.filter_cons, ih]

end Entries

namespace Draft

/-! ### Where the kind and the name stand -/

/-- Entries other than those of the kind and the name. -/
def isOther (k : Key) : Bool := k != .text "kind" && k != .text "name"

/-- Entries that hold the same under every name, with the same others in the same order. -/
structure Interchanged (r r' : Entries) : Prop where
  get : ∀ name : String, Entries.get? name r = Entries.get? name r'
  others : r.filter (fun e => isOther e.1) = r'.filter fun e => isOther e.1

/-- It does not matter whether the kind or the name is written first. -/
theorem interchanged_set (kind name : Value) (fields : Entries) :
    Interchanged (Entries.set "name" name (Entries.set "kind" kind fields))
      (Entries.set "kind" kind (Entries.set "name" name fields)) where
  get other := by
    simp only [Entries.get?_set_text]
    by_cases hname : other = "name"
    · simp [hname]
    · simp [hname]
  others := by
    have hkind := Entries.filter_set (p := isOther) (s := "kind") (by decide) kind
    have hname := Entries.filter_set (p := isOther) (s := "name") (by decide) name
    rw [hname, hkind, hkind, hname]

/-- What an entry is reported for, if these names are those of fields. -/
def excess? (used : List String) (e : Key × Value) : Option Issue :=
  match e.1 with
  | .text s => if used.contains s then none else some ⟨[.text s], .unknownKey⟩
  | k => some ⟨[Check.locationKey k], .keyNotText⟩

theorem unknownKeys_eq (fields : List (List String)) (r : Entries) :
    Check.unknownKeys fields r =
      r.filterMap (excess? (fields.filterMap fun names => (Check.present? names r).map Prod.fst)) :=
  rfl

/-- The entry of a field with one name is not reported. -/
theorem excess?_field {fields : List (List String)} {r : Entries} {e : Key × Value} {s : String}
    (hfield : [s] ∈ fields) (he : e ∈ r) (hs : e.1 = .text s) :
    excess? (fields.filterMap fun names => (Check.present? names r).map Prod.fst) e = none := by
  obtain ⟨v, hv⟩ := Entries.exists_get?_of_mem he hs
  have hused : s ∈ fields.filterMap fun names => (Check.present? names r).map Prod.fst :=
    List.mem_filterMap.mpr ⟨[s], hfield, by simp [Check.present?, hv]⟩
  simp only [excess?, hs]
  exact if_pos (List.contains_iff_mem.mpr hused)

/-- Entries of the kind and the name are not reported. -/
theorem unknownKeys_others (r : Entries) :
    Check.unknownKeys unitFields r = (r.filter fun e => isOther e.1).filterMap
      (excess? (unitFields.filterMap fun names => (Check.present? names r).map Prod.fst)) := by
  rw [unknownKeys_eq, List.filterMap_filter]
  refine List.filterMap_congr fun e he => ?_
  by_cases hkind : e.1 = .text "kind"
  · rw [excess?_field (by decide) he hkind]
    simp
  by_cases hname : e.1 = .text "name"
  · rw [excess?_field (by decide) he hname]
    simp
  · simp [isOther, hkind, hname]

theorem Interchanged.present {r r' : Entries} (h : Interchanged r r') (names : List String) :
    Check.present? names r = Check.present? names r' := by
  unfold Check.present?
  simp only [h.get]

/-- **Entries that are read as the same unit.** -/
theorem unitOfFields_congr {r r' : Entries} (h : Interchanged r r') :
    unitOfFields r = unitOfFields r' := by
  have hunknown : Check.unknownKeys unitFields r = Check.unknownKeys unitFields r' := by
    rw [unknownKeys_others, unknownKeys_others, h.others]
    simp only [h.present]
  simp only [unitOfFields, Check.required, Check.field, h.present, hunknown]

/-! ### Bodies -/

end Draft

/-- A document with a key for a name, if it has entries or none at all. -/
def Value.named (key : Key) : Value → Value
  | .null => .map (Entries.set "name" (Draft.nameValue key) [])
  | .map fields => .map (Entries.set "name" (Draft.nameValue key) fields)
  | v => v

namespace Body

/-- A body with the key of its entry for a name. -/
def named (key : Key) : Body → Body
  | .raw v => .raw (v.named key)
  | .finished u => .finished { u with name := match key with | .text s => s | _ => u.name }

/-- A body that is nothing or a mapping, under any key that names it, or a unit that has been read,
under a text. -/
inductive Nameable : Key → Body → Prop
  | null {key : Key} (hkey : key ≠ .null) : Nameable key (.raw .null)
  | map {key : Key} {fields : Entries} (hkey : key ≠ .null) : Nameable key (.raw (.map fields))
  | finished {s : String} {u : UnitDef} : Nameable (.text s) (.finished u)

end Body

namespace Section

/-- A section as a list; the keys of a mapping become the names of its bodies. -/
def listed : Section → Section
  | .mapping entries => .sequence (entries.map fun e => e.2.named e.1)
  | sec => sec

/-- The bodies of a mapping are nothing, mappings or units, under names. -/
def Nameable : Section → Prop
  | .mapping entries => ∀ e ∈ entries, e.2.Nameable e.1
  | _ => True

end Section

namespace Draft

/-- A unit from an entry of a section. -/
def Entry.unit : Entry → Check UnitDef
  | .raw fields => unitOfFields fields
  | .finished u => .ok u

/-- The body of a mapping has an entry, and with its name in it one that is read alike. -/
theorem entry_named {key : Key} {b : Body} (h : b.Nameable key) (kind : UnitKind) :
    ∃ e e', entry kind key b = .ok e ∧ entry kind .null (b.named key) = .ok e' ∧
      e.unit = e'.unit := by
  have hentry (fields : Entries) (hkey : key ≠ .null) : ∃ e e',
      entry kind key (.raw (.map fields)) = .ok e ∧
        entry kind .null (.raw (.map (Entries.set "name" (nameValue key) fields))) = .ok e' ∧
        e.unit = e'.unit := by
    refine ⟨.raw (Entries.set "name" (nameValue key) (Entries.set "kind" (.text kind.text) fields)),
      .raw (Entries.set "kind" (.text kind.text) (Entries.set "name" (nameValue key) fields)), ?_,
      rfl, unitOfFields_congr (interchanged_set _ _ fields)⟩
    cases key with
    | null => exact absurd rfl hkey
    | _ => rfl
  cases h with
  | null hkey =>
    obtain ⟨e, e', he, he', halike⟩ := hentry [] hkey
    refine ⟨e, e', ?_, he', halike⟩
    rw [← he]
    rfl
  | map hkey => exact hentry _ hkey
  | finished => exact ⟨_, _, rfl, rfl, rfl⟩

/-- What a section is read into: the units, or why there are no entries. -/
def readSection (kind : UnitKind) (sec : Option Section) : Except Complaint (Check (List UnitDef)) :=
  (expand kind sec).map (section? kind)

/-- Sections that are read alike are reported alike, or have entries that are read alike. -/
theorem expand_of_readSection {kind : UnitKind} {x y : Option Section}
    (h : readSection kind x = readSection kind y) :
    (∃ complaint, expand kind x = .error complaint ∧ expand kind y = .error complaint) ∨
      ∃ a b, expand kind x = .ok a ∧ expand kind y = .ok b ∧ section? kind a = section? kind b := by
  unfold readSection at h
  cases hx : expand kind x with
  | error complaint =>
    cases hy : expand kind y with
    | error complaint' =>
      rw [hx, hy] at h
      obtain rfl := Except.error.inj h
      exact Or.inl ⟨_, rfl, rfl⟩
    | ok b =>
      rw [hx, hy] at h
      exact absurd h (by rintro ⟨⟩)
  | ok a =>
    cases hy : expand kind y with
    | error complaint =>
      rw [hx, hy] at h
      exact absurd h (by rintro ⟨⟩)
    | ok b =>
      rw [hx, hy] at h
      exact Or.inr ⟨a, b, rfl, rfl, Except.ok.inj h⟩

/-- Only what the sections are read into matters. -/
theorem read_congr {d d' : Draft} (hfields : d.fields = d'.fields)
    (hservices : readSection .service d.services = readSection .service d'.services)
    (hprojects : readSection .project d.projects = readSection .project d'.projects) :
    d.read = d'.read := by
  unfold read
  rcases expand_of_readSection hservices with ⟨complaint, hx, hy⟩ | ⟨a, b, hx, hy, hunits⟩
  · rw [hx, hy]
  rcases expand_of_readSection hprojects with ⟨complaint, hx', hy'⟩ | ⟨a', b', hx', hy', hunits'⟩
  · rw [hx, hy, hx', hy']
  · rw [hx, hy, hx', hy', hfields]
    simp only [hunits, hunits']

/-- Entries are read into units one by one. -/
theorem section?_entries (kind : UnitKind) (items : List Entry) : section? kind (.entries items) =
    Check.inside kind.plural (Check.all
      ((items.map Entry.unit).zipIdx.map fun c => Check.inside (.int c.2) c.1)) := by
  rw [section?, List.zipIdx_map, List.map_map]
  refine congrArg _ (congrArg _ (List.map_congr_left fun c _ => ?_))
  cases c.1 <;> rfl

/-- The bodies of a mapping have entries, and as a list they have entries that are read alike. -/
theorem expand_listed (kind : UnitKind) {entries : List (Key × Body)}
    (h : ∀ e ∈ entries, e.2.Nameable e.1) : ∃ items items',
      (entries.mapM fun e => entry kind e.1 e.2) = .ok items ∧
        ((entries.map fun e => e.2.named e.1).mapM fun b => entry kind .null b) = .ok items' ∧
        items.map Entry.unit = items'.map Entry.unit := by
  induction entries with
  | nil => exact ⟨[], [], rfl, rfl, rfl⟩
  | cons e rest ih =>
    obtain ⟨he, hrest⟩ := List.forall_mem_cons.mp h
    obtain ⟨x, x', hx, hx', halike⟩ := entry_named he kind
    obtain ⟨items, items', hitems, hitems', hothers⟩ := ih hrest
    refine ⟨x :: items, x' :: items', Json.mapM_cons_ok_iff.mpr ⟨x, items, hx, hitems, rfl⟩,
      Json.mapM_cons_ok_iff.mpr ⟨x', items', hx', hitems', rfl⟩, ?_⟩
    rw [List.map_cons, List.map_cons, halike, hothers]

/-- **A section is read like its list.** -/
theorem readSection_listed (kind : UnitKind) {sec : Section} (h : sec.Nameable) :
    readSection kind (some sec.listed) = readSection kind (some sec) := by
  cases sec with
  | mapping entries =>
    obtain ⟨items, items', hitems, hitems', halike⟩ := expand_listed kind h
    simp only [readSection, Section.listed, expand, hitems, hitems']
    change Except.ok (section? kind (.entries items')) = .ok (section? kind (.entries items))
    rw [section?_entries, section?_entries, halike]
  | _ => rfl

/-! ### Drafts -/

/-- The section of a kind. -/
def part (d : Draft) : UnitKind → Option Section
  | .service => d.services
  | .project => d.projects

/-- The draft with the section of a kind as a list. -/
def listed (kind : UnitKind) (d : Draft) : Draft :=
  match kind with
  | .service => { d with services := d.services.map Section.listed }
  | .project => { d with projects := d.projects.map Section.listed }

/-- **A draft is read alike** with a section as a list. -/
theorem read_listed {d : Draft} {kind : UnitKind}
    (h : ∀ sec, d.part kind = some sec → sec.Nameable) : (d.listed kind).read = d.read := by
  have hsection (x : Option Section) (hx : ∀ sec, x = some sec → sec.Nameable) :
      readSection kind (x.map Section.listed) = readSection kind x := by
    cases x with
    | none => rfl
    | some sec => exact readSection_listed kind (hx sec rfl)
  cases kind with
  | service => exact read_congr rfl (hsection d.services h) rfl
  | project => exact read_congr rfl rfl (hsection d.projects h)

/-! ### Kinds and names -/

/-- The fields of a body hold its kind, and the key of its entry if there is one. -/
theorem fields_of_entry {kind : UnitKind} {key : Key} {v : Value} {e : Entry}
    (h : entry kind key (.raw v) = .ok e) : ∃ fields, e = .raw fields ∧
      Entries.get? "kind" fields = some (.text kind.text) ∧
      (key ≠ .null → Entries.get? "name" fields = some (nameValue key)) := by
  have hmap (fields : Entries) (h : entry kind key (.raw (.map fields)) = .ok e) :
      ∃ fields, e = .raw fields ∧ Entries.get? "kind" fields = some (.text kind.text) ∧
        (key ≠ .null → Entries.get? "name" fields = some (nameValue key)) := by
    obtain rfl := Except.ok.inj h
    by_cases hkey : key = .null
    · subst hkey
      exact ⟨_, rfl, by simp [Entries.get?_set_text], fun hne => absurd rfl hne⟩
    · refine ⟨Entries.set "name" (nameValue key) (Entries.set "kind" (.text kind.text) fields), ?_,
        by simp [Entries.get?_set_text], fun _ => by simp [Entries.get?_set_text]⟩
      cases key with
      | null => exact absurd rfl hkey
      | _ => rfl
  cases v with
  | null => exact hmap [] h
  | map fields => exact hmap fields h
  | _ => cases h

theorem eq_ok_of_required {α : Type} {name : String} {read : Value → Check α} {r : Entries}
    {v : Value} (hv : Entries.get? name r = some v) {a : α}
    (h : Check.required [name] read r = .ok a) : read v = .ok a := by
  simp only [Check.required, Check.present?, List.findSome?_cons, hv, Option.map_some] at h
  exact Check.eq_ok_of_inside h

theorem kind_of_entry {kind : UnitKind} {key : Key} {b : Body} {e : Entry}
    (h : entry kind key b = .ok e) {u : UnitDef} (hu : e.unit = .ok u) : u.kind = kind := by
  cases b with
  | finished u' =>
    obtain rfl := Except.ok.inj h
    obtain rfl := Check.ok.inj hu
    rfl
  | raw v =>
    obtain ⟨fields, rfl, hkind, -⟩ := fields_of_entry h
    obtain ⟨-, hread, -⟩ := fields_of_unitOfFields hu
    have hchecked := eq_ok_of_required hkind hread
    rw [Draft.kind, UnitKind.ofText?_text] at hchecked
    exact (Check.ok.inj hchecked).symm

/-- The key of an entry is the name of its unit. -/
theorem name_of_entry {kind : UnitKind} {key : Key} {b : Body} {e : Entry} (hb : b.Nameable key)
    (h : entry kind key b = .ok e) {u : UnitDef} (hu : e.unit = .ok u) : key = .text u.name := by
  have hraw (v : Value) (hkey : key ≠ .null) (h : entry kind key (.raw v) = .ok e) :
      key = .text u.name := by
    obtain ⟨fields, rfl, -, hname⟩ := fields_of_entry h
    obtain ⟨hread, -⟩ := fields_of_unitOfFields hu
    have hchecked := eq_ok_of_required (hname hkey) hread
    cases key with
    | text s => rw [Check.ok.inj hchecked]
    | _ => cases hchecked
  cases hb with
  | null hkey => exact hraw _ hkey h
  | map hkey => exact hraw _ hkey h
  | finished =>
    obtain rfl := Except.ok.inj h
    obtain rfl := Check.ok.inj hu
    rfl

/-- Checks of a list that all succeed give their results in order. -/
theorem forall₂_of_all {α : Type} {checks : List (Check α)} {results : List α}
    (h : Check.all checks = .ok results) :
    List.Forall₂ (fun c a => c = .ok a) checks results := by
  induction checks generalizing results with
  | nil =>
    rw [← Check.ok.inj h]
    exact .nil
  | cons c rest ih =>
    obtain ⟨f, others, hf, hothers, rfl⟩ := Check.eq_ok_of_seq h
    obtain ⟨first, hfirst, rfl⟩ := Check.eq_ok_of_map hf
    exact .cons hfirst (ih hothers)

/-- The units of a section are those of its entries, in order. -/
theorem forall₂_of_section? {kind : UnitKind} {items : List Entry} {units : List UnitDef}
    (h : section? kind (.entries items) = .ok units) :
    List.Forall₂ (fun e u => Entry.unit e = .ok u) items units := by
  rw [section?_entries] at h
  have hchecks := List.forall₂_map_left_iff.mp (forall₂_of_all (Check.eq_ok_of_inside h))
  have hunits : List.Forall₂ (fun c u => c = .ok u)
      ((items.map Entry.unit).zipIdx.map Prod.fst) units :=
    List.forall₂_map_left_iff.mpr (hchecks.imp fun _ _ => Check.eq_ok_of_inside)
  rw [List.zipIdx_map_fst] at hunits
  exact List.forall₂_map_left_iff.mp hunits

/-- Entries of a section come from its bodies. -/
theorem exists_of_expand {kind : UnitKind} {sec : Option Section} {items : List Entry}
    (h : expand kind sec = .ok (.entries items)) :
    ∀ e ∈ items, ∃ key b, entry kind key b = .ok e := by
  unfold expand at h
  split at h
  · cases h
  · cases h
  · cases h
  · obtain ⟨items', hmap, h⟩ := eq_ok_of_bind h
    cases h
    intro e he
    obtain ⟨x, -, hentry⟩ := exists_of_mapM hmap e he
    exact ⟨x.1, x.2, hentry⟩
  · obtain ⟨items', hmap, h⟩ := eq_ok_of_bind h
    cases h
    intro e he
    obtain ⟨b, -, hentry⟩ := exists_of_mapM hmap e he
    exact ⟨.null, b, hentry⟩

/-- **The kind of a unit** is that of its section. -/
theorem kind_of_section {kind : UnitKind} {sec : Option Section} {expanded : Expanded}
    (hexpand : expand kind sec = .ok expanded) {units : List UnitDef}
    (h : section? kind expanded = .ok units) : ∀ u ∈ units, u.kind = kind := by
  cases expanded with
  | missing =>
    rw [← Check.ok.inj h]
    simp
  | null => cases h
  | entries items =>
    have hread := forall₂_of_section? h
    intro u hu
    obtain ⟨i, hi, rfl⟩ := List.mem_iff_getElem.mp hu
    have hi' : i < items.length := by rwa [hread.length_eq]
    obtain ⟨key, b, hentry⟩ := exists_of_expand hexpand _ (List.getElem_mem hi')
    exact kind_of_entry hentry ((List.forall₂_iff_get.mp hread).2 i hi' hi)

/-- **The names of the units** of a mapping are its keys, in order. -/
theorem names_of_section {kind : UnitKind} {entries : List (Key × Body)}
    (hentries : ∀ e ∈ entries, e.2.Nameable e.1) {expanded : Expanded}
    (hexpand : expand kind (some (.mapping entries)) = .ok expanded) {units : List UnitDef}
    (h : section? kind expanded = .ok units) :
    units.map (fun u => Key.text u.name) = entries.map Prod.fst := by
  obtain ⟨items, hmap, hitems⟩ := eq_ok_of_bind hexpand
  obtain rfl := Except.ok.inj hitems
  obtain ⟨rows, rfl, rfl, hrows⟩ := Json.mapM_ok_iff_rows.mp hmap
  have hread := List.forall₂_map_left_iff.mp (forall₂_of_section? h)
  have hnames : List.Forall₂ (fun r u => Key.text u.name = r.1.1) rows units := by
    have hbodies : ∀ r ∈ rows, r.1.2.Nameable r.1.1 ∧ entry kind r.1.1 r.1.2 = .ok r.2 :=
      fun r hr => ⟨hentries r.1 (List.mem_map_of_mem hr), hrows r hr⟩
    refine ((List.forall₂_and_left rows units).mpr ⟨hbodies, hread⟩).imp ?_
    rintro r u ⟨⟨hnameable, hentry⟩, hunit⟩
    exact (name_of_entry hnameable hentry hunit).symm
  rw [List.map_map, ← List.forall₂_eq_eq_eq, List.forall₂_map_left_iff, List.forall₂_map_right_iff]
  exact hnames.flip

end Draft

/-- The units of a kind. -/
def Stack.part (s : Stack) : UnitKind → List UnitDef
  | .service => s.services
  | .project => s.projects

namespace Draft

/-- The section of a kind is read into the units of the kind. -/
theorem part_of_read {d : Draft} {s : Stack} (h : d.read = .ok s) (kind : UnitKind) :
    ∃ x, expand kind (d.part kind) = .ok x ∧ section? kind x = .ok (s.part kind) := by
  obtain ⟨services, projects, hservices, hserviceUnits, hprojects, hprojectUnits⟩ :=
    sections_of_read h
  cases kind with
  | service => exact ⟨services, hservices, hserviceUnits⟩
  | project => exact ⟨projects, hprojects, hprojectUnits⟩

/-! ### Documents -/

/-- The draft of a document with a section as a list. -/
theorem ofValue?_listed {kind : UnitKind} {fields es : Entries} {d : Draft}
    (hd : ofValue? (.map fields) = some d) (hes : Entries.get? kind.plural fields = some (.map es)) :
    ofValue? (.map (Entries.set kind.plural (.list (es.map fun e => e.2.named e.1)) fields)) =
      some (d.listed kind) := by
  obtain rfl := Option.some.inj hd
  have hfields (v : Value) := Entries.filter_set (s := kind.plural)
    (p := fun k => !UnitKind.all.any fun kind => k.same kind.plural) (by cases kind <;> decide)
    v fields
  have hlisted : Section.ofValue (.list (es.map fun e => e.2.named e.1)) =
      (Section.ofValue (.map es)).listed := by
    simp only [Section.ofValue, Section.listed, List.map_map]
    rfl
  cases kind with
  | service =>
    have hne : UnitKind.project.plural ≠ UnitKind.service.plural := by decide
    simp only [ofValue?, hfields, listed, Entries.get?_set_text, if_true, if_neg hne, hes,
      Option.map_some, hlisted]
  | project =>
    have hne : UnitKind.service.plural ≠ UnitKind.project.plural := by decide
    simp only [ofValue?, hfields, listed, Entries.get?_set_text, if_true, if_neg hne, hes,
      Option.map_some, hlisted]

/-- **The two forms of a section.** Take a draft of a stack and one of its kinds of units. The section
of this kind may be missing, a list of any bodies, or a mapping; the bodies of the mapping are
nothing, mappings with any entries, or units that have been read before, of either kind.

The draft is read alike, as the same stack or with the same issues in the same order, if the mapping
is replaced by the list of its bodies, in the same order and each with its key for a name. So is a
document that the draft has been made of.

If a stack is read, all units of the section have its kind, and the names of the units of a mapping
are its keys, in order, whatever kind and name the bodies say. -/
theorem sections_alike {d : Draft} {kind : UnitKind}
    (h : ∀ sec, d.part kind = some sec → sec.Nameable) :
    (d.listed kind).read = d.read ∧
    (∀ fields es, ofValue? (.map fields) = some d →
      Entries.get? kind.plural fields = some (.map es) →
      Stack.ofValue (.map (Entries.set kind.plural (.list (es.map fun e => e.2.named e.1)) fields)) =
        Stack.ofValue (.map fields)) ∧
    ∀ s, d.read = .ok s → (∀ u ∈ s.part kind, u.kind = kind) ∧
      ∀ entries, d.part kind = some (.mapping entries) →
        (s.part kind).map (fun u => Key.text u.name) = entries.map Prod.fst := by
  refine ⟨read_listed h, fun fields es hd hes => ?_, fun s hread => ?_⟩
  · simp only [Stack.ofValue, ofValue?_listed hd hes, hd]
    exact read_listed h
  · obtain ⟨expanded, hexpand, hunits⟩ := part_of_read hread kind
    refine ⟨kind_of_section hexpand hunits, fun entries hpart => ?_⟩
    rw [hpart] at hexpand
    exact names_of_section (h _ hpart) hexpand hunits

end Draft

namespace Shop

/-- A draft with services as a mapping: a body that is nothing, one that says another kind and another
name, and a project that has been read before. -/
def drafted : Draft :=
  { fields := [(.text "name", .text "shop")]
    services := some (.mapping
      [(.text "db", .raw .null),
        (.text "api", .raw (.map [(.text "name", .text "other"), (.text "kind", .text "project")])),
        (.text "mail", .finished
          ⟨"post", .project, none, [], [], .names [], none, none, none, [], []⟩)])
    projects := none }

theorem nameable_drafted : ∀ sec, drafted.part .service = some sec → sec.Nameable := by
  rintro sec ⟨⟩
  refine List.forall_mem_cons.mpr ⟨.null (by decide), List.forall_mem_cons.mpr
    ⟨.map (by decide), List.forall_mem_singleton.mpr .finished⟩⟩

end Shop

/-- The services of the draft are read as a mapping and as a list, under the names of the mapping. -/
theorem sections_alike_drafted :
    (∀ sec, Shop.drafted.part .service = some sec → sec.Nameable) ∧
      ∃ s, Shop.drafted.read = .ok s ∧ (Shop.drafted.listed .service).read = .ok s ∧
        (∀ u ∈ s.part .service, u.kind = .service) ∧
        (s.part .service).map (fun u => Key.text u.name) =
          [.text "db", .text "api", .text "mail"] := by
  obtain ⟨halike, -, hnamed⟩ := Draft.sections_alike Shop.nameable_drafted
  obtain ⟨s, hs⟩ : ∃ s, Shop.drafted.read = .ok s := ⟨_, rfl⟩
  obtain ⟨hkinds, hnames⟩ := hnamed s hs
  exact ⟨Shop.nameable_drafted, s, hs, halike.trans hs, hkinds, hnames _ rfl⟩

end Rollout
