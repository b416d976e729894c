import Rollout.Proofs.Reference.Pointer
import Rollout.Proofs.Reference.Substituted
import Rollout.Proofs.Table

/-!
# What resolving a unit reports

Beside the configuration in which references have been replaced, resolving a unit gives a table of
what was written, under the pointers of the sites. Every site has a path of its own, and what was
written stands there in the configuration. Two sites may have one pointer, though: a pointer does not
tell where a key ends that shows a slash, nor the number `1` from the text `1`. The table then keeps
what was written at the later site, and the earlier site is missing in it.

**Operations.** `Value.at?`.

**Types.** `Resolved.Reports`.

**Results.**
* `Value.TextAt.at?_mapLeaves`: a leaf that is changed is found at its place;
* `Resolver.substitutions_eq`: the table is made of what was written at the sites, in order;
* `Resolver.resolve_reports`: what the table says, and when it says something about every site;
* `resolve_loses`: a site that is missing.
-/

namespace Rollout

open Rollout.Graph

/-! ### Reading along a path -/

namespace Value

/-- The part of a value under a key, or at a position. -/
def part? (v : Value) (key : Key) : Option Value :=
  match v, key with
  | .map entries, key => Entries.get? key entries
  | .list items, .int i => (position? items.length i).bind fun position => items[position]?
  | _, _ => none

/-- What stands at the end of a path into a value. -/
def at? (v : Value) (path : Path) : Option Value := path.foldlM part? v

theorem position?_natCast {length i : Nat} (h : i < length) : position? length i = some i := by
  have hnot : ¬(i : Int) < 0 := by omega
  have hin : (0 : Int) ≤ i ∧ (i : Int) < length := by omega
  rw [position?, if_neg hnot, if_pos hin]
  rfl

/-- An entry is found if no key names two entries. -/
theorem get?_of_mem {entries : Entries} {e : Key × Value}
    (hkeys : (entries.map Prod.fst).Pairwise fun a b => b.same a = false) (he : e ∈ entries) :
    Entries.get? e.1 entries = some e.2 := by
  obtain ⟨before, after, rfl⟩ := List.append_of_mem he
  refine Entries.get?_append (fun e' he' => ?_) e.2
  rw [List.map_append, List.pairwise_append] at hkeys
  exact hkeys.2.2 e'.1 (List.mem_map_of_mem he') e.1 (by simp)

/-- A leaf that is changed is found at its place. -/
theorem TextAt.at?_mapLeaves {f : Value → Value} {v : Value} (hv : v.Unambiguous) {p : Path}
    {s : String} (h : v.TextAt p s) : (v.mapLeaves f).at? p = some (f (.text s)) := by
  induction h with
  | here => rfl
  | @item items i w p s hw _ ih =>
    have hlt : i < items.length := (List.getElem?_eq_some_iff.mp hw).1
    have hpart : (Value.list (items.map (Value.mapLeaves f))).part? (.int i) =
        some (w.mapLeaves f) := by
      simp only [part?, List.length_map, position?_natCast hlt, Option.bind_some,
        List.getElem?_map, hw, Option.map_some]
    rw [Value.mapLeaves, mapItems_eq, at?, List.foldlM_cons, hpart]
    exact ih (unambiguous_list.mp hv w (List.mem_of_getElem? hw))
  | @entry entries e p s he _ ih =>
    obtain ⟨hkeys, hvalues⟩ := unambiguous_map.mp hv
    have hpart : (Value.map (entries.map fun e => (e.1, e.2.mapLeaves f))).part? e.1 =
        some (e.2.mapLeaves f) := by
      refine get?_of_mem (e := (e.1, e.2.mapLeaves f)) ?_ (List.mem_map_of_mem
        (f := fun e : Key × Value => (e.1, e.2.mapLeaves f)) he)
      rwa [List.map_map]
    rw [Value.mapLeaves, mapEntries_eq, at?, List.foldlM_cons, hpart]
    exact ih (hvalues e he)

end Value

/-! ### What is written -/

/-- A resolved configuration reports some sites one by one: the entries of its table are the pointers
of the sites with what stands at the sites. -/
def Resolved.Reports (resolved : Resolved) (sites : List Site) : Prop :=
  List.Forall₂ (fun site e => e.1 = Path.pointer site.path ∧
    resolved.toValue.at? site.path = some e.2) sites resolved.substitutions

namespace Resolver

variable {r : Resolver} {stack : Stack} {fqn : String} {n : Node} {resolved : Resolved}

/-- What is written at a site, under the pointer of the site. -/
def writing (r : Resolver) (site : Site) : String × Value :=
  (Path.pointer site.path, r.output site.reference)

/-- Filling sites adds what is written, one after the other. -/
theorem fill_writings {doc last : Value} {done done' : Table String Value} {sites : List Site}
    (h : r.fill doc done sites = .ok (last, done')) :
    done' = (sites.map r.writing).foldl (fun t e => Table.set e.1 e.2 t) done := by
  induction sites generalizing doc done with
  | nil => exact (Prod.mk.inj (Except.ok.inj h)).2.symm
  | cons site rest ih =>
    rw [fill] at h
    split at h
    · cases h
    · rename_i v hv
      split at h
      · cases h
      · have houtput : r.output site.reference = v := by
          rw [output, lookup_eq_ok_iff.mp hv]
          rfl
        rw [ih h, List.map_cons, List.foldl_cons, writing, houtput]

/-- The table of a resolved unit is made of what was written at its sites. -/
theorem substitutions_eq (h : r.resolve fqn = .ok resolved) :
    resolved.substitutions = Table.ofEntries ((r.sitesOf fqn).map r.writing) := by
  unfold resolve at h
  split at h
  · cases h
  · simp only at h
    split at h
    · cases h
    · rename_i hfill
      obtain rfl := Except.ok.inj h
      exact fill_writings hfill

/-- What is written at a site stands there when the unit has been resolved. -/
theorem at?_of_resolve (hg : r.graph.Built stack) (hn : r.graph.node? fqn = some n)
    (hu : n.unit.document.Unambiguous) (hres : r.resolve fqn = .ok resolved) {site : Site}
    (hsite : site ∈ r.sitesOf fqn) :
    r.output? site.reference = some (r.output site.reference) ∧
      resolved.toValue.at? site.path = some (r.output site.reference) := by
  rcases resolve_cases hg hn hu with ⟨resolved', hok, hresolved, hall⟩ | ⟨fault, -, herror⟩
  · rw [hres, Except.ok.injEq] at hok
    subst hok
    constructor
    · obtain ⟨v, hv⟩ := hall site hsite
      rw [output, hv]
      rfl
    · rw [sitesOf_eq hg hn] at hsite
      obtain ⟨e, he, rfl⟩ := List.mem_map.mp hsite
      obtain ⟨text, htext, hparse⟩ := mem_unitReferences.mp he
      rw [hresolved.toValue, htext.at?_mapLeaves hu, Value.replace, hparse]
  · rw [hres] at herror
    cases herror

/-- Every site of a unit has a path of its own. -/
theorem nodup_paths (hg : r.graph.Built stack) (hn : r.graph.node? fqn = some n)
    (hu : n.unit.document.Unambiguous) : ((r.sitesOf fqn).map Site.path).Nodup := by
  rw [sitesOf_eq hg hn, List.map_map]
  refine List.pairwise_map.mpr ((unitReferences_ordered n.unit).imp fun {a b} hab => ?_)
  exact hab.ne hu

/-- The paths of the sites are apart, if all keys of the configuration are texts. -/
theorem apart_sites (hg : r.graph.Built stack) (hn : r.graph.node? fqn = some n)
    (hu : n.unit.document.Unambiguous) (hkeys : n.unit.document.Keyed) {a b : Site}
    (ha : a ∈ r.sitesOf fqn) (hb : b ∈ r.sitesOf fqn) : Path.Apart a.path b.path := by
  have htext {site : Site} (h : site ∈ r.sitesOf fqn) :
      ∃ text, n.unit.document.TextAt site.path text := by
    rw [sitesOf_eq hg hn] at h
    obtain ⟨e, he, rfl⟩ := List.mem_map.mp h
    obtain ⟨text, htext, -⟩ := mem_unitReferences.mp he
    exact ⟨text, htext⟩
  obtain ⟨s, hs⟩ := htext ha
  obtain ⟨t, ht⟩ := htext hb
  exact hs.apart hkeys hu ht

/-- Sites whose paths are apart and show no slash in a part have pointers of their own. -/
theorem nodup_pointers (hg : r.graph.Built stack) (hn : r.graph.node? fqn = some n)
    (hu : n.unit.document.Unambiguous) (hclear : ∀ site ∈ r.sitesOf fqn, Path.Clear site.path)
    (hapart : ∀ a ∈ r.sitesOf fqn, ∀ b ∈ r.sitesOf fqn, Path.Apart a.path b.path) :
    ((r.sitesOf fqn).map fun site => Path.pointer site.path).Nodup := by
  have hne : ∀ site ∈ r.sitesOf fqn, site.path ≠ [] := by
    intro site hsite
    rw [sitesOf_eq hg hn] at hsite
    obtain ⟨e, he, rfl⟩ := List.mem_map.mp hsite
    exact UnitDef.path_ne_nil he
  refine List.pairwise_map.mpr ((List.pairwise_map.mp (nodup_paths hg hn hu)).imp_of_mem ?_)
  intro a b ha hb hab hpointer
  exact hab (Path.eq_of_pointer (hclear a ha) (hclear b hb) (hne a ha) (hne b hb)
    (hapart a ha b hb) hpointer)

theorem keys_writings (r : Resolver) (sites : List Site) :
    Table.keys (sites.map r.writing) = sites.map fun site => Path.pointer site.path := by
  rw [Table.keys, List.map_map]
  rfl

/-- All sites are reported exactly if they have pointers of their own. -/
theorem reports_iff (hres : r.resolve fqn = .ok resolved)
    (hat : ∀ site ∈ r.sitesOf fqn, resolved.toValue.at? site.path = some (r.output site.reference)) :
    resolved.Reports (r.sitesOf fqn) ↔
      ((r.sitesOf fqn).map fun site => Path.pointer site.path).Nodup := by
  constructor
  · intro h
    have hpointers : List.Forall₂ (fun site e => Path.pointer site.path = e.1) (r.sitesOf fqn)
        resolved.substitutions := h.imp fun _ _ hentry => hentry.1.symm
    have hkeys : (r.sitesOf fqn).map (fun site => Path.pointer site.path) =
        Table.keys resolved.substitutions := by
      rw [← List.forall₂_eq_eq_eq, Table.keys]
      exact List.forall₂_map_left_iff.mpr (List.forall₂_map_right_iff.mpr hpointers)
    rw [hkeys, substitutions_eq hres]
    exact Table.nodup_keys_ofEntries _
  · intro hnodup
    rw [← keys_writings r, ← Table.ofEntries_eq_iff, ← substitutions_eq hres] at hnodup
    rw [Resolved.Reports, hnodup, List.forall₂_map_right_iff, List.forall₂_same]
    exact fun site hsite => ⟨rfl, hat site hsite⟩

/-- Under a pointer the table has what stands at the last site with this pointer. -/
theorem get?_substitutions_iff (hres : r.resolve fqn = .ok resolved)
    (hat : ∀ site ∈ r.sitesOf fqn, resolved.toValue.at? site.path = some (r.output site.reference))
    {pointer : String} {v : Value} :
    Table.get? pointer resolved.substitutions = some v ↔
      ∃ before site after, r.sitesOf fqn = before ++ site :: after ∧
        Path.pointer site.path = pointer ∧ (∀ later ∈ after, Path.pointer later.path ≠ pointer) ∧
        resolved.toValue.at? site.path = some v := by
  have hlater (after : List Site) : pointer ∉ Table.keys (after.map r.writing) ↔
      ∀ later ∈ after, Path.pointer later.path ≠ pointer := by
    rw [keys_writings]
    simp
  rw [substitutions_eq hres, Table.get?_ofEntries_iff]
  constructor
  · rintro ⟨before', after', hsplit, hnot⟩
    obtain ⟨before, rest, hsites, -, hrest⟩ := List.map_eq_append_iff.mp hsplit
    obtain ⟨site, after, rfl, hsite, rfl⟩ := List.map_eq_cons_iff.mp hrest
    obtain ⟨rfl, rfl⟩ := Prod.mk.inj hsite
    exact ⟨before, site, after, hsites, rfl, (hlater after).mp hnot, hat site (by simp [hsites])⟩
  · rintro ⟨before, site, after, hsites, hpointer, hnot, hv⟩
    rw [hat site (by simp [hsites]), Option.some.injEq] at hv
    refine ⟨before.map r.writing, after.map r.writing, ?_, (hlater after).mpr hnot⟩
    rw [hsites, List.map_append, List.map_cons, writing, hpointer, hv]

/-- **What resolving a unit reports.** Take a unit of the graph of a stack, with mappings that name
no entry twice, and recorded outputs with which it is resolved.

Its sites have different paths, and at each of them stands the output that was written there. The
table of what was written names no pointer twice, and under a pointer it has what stands at the last
site with this pointer. So the table reports all sites, in order and one entry for each, exactly if
they have different pointers. They have, if no part of their paths shows a slash and the paths do not
part with keys that are shown alike, which keys that are all texts never do. -/
theorem resolve_reports (hg : Graph.ofStack stack = .ok r.graph)
    (hn : r.graph.node? fqn = some n) (hu : n.unit.document.Unambiguous)
    (hres : r.resolve fqn = .ok resolved) :
    ((r.sitesOf fqn).map Site.path).Nodup ∧
    (∀ site ∈ r.sitesOf fqn, ∃ v, r.output? site.reference = some v ∧
      resolved.toValue.at? site.path = some v) ∧
    (Table.keys resolved.substitutions).Nodup ∧
    (∀ pointer v, Table.get? pointer resolved.substitutions = some v ↔
      ∃ before site after, r.sitesOf fqn = before ++ site :: after ∧
        Path.pointer site.path = pointer ∧ (∀ later ∈ after, Path.pointer later.path ≠ pointer) ∧
        resolved.toValue.at? site.path = some v) ∧
    (resolved.Reports (r.sitesOf fqn) ↔
      ((r.sitesOf fqn).map fun site => Path.pointer site.path).Nodup) ∧
    ((∀ site ∈ r.sitesOf fqn, Path.Clear site.path) →
      (∀ a ∈ r.sitesOf fqn, ∀ b ∈ r.sitesOf fqn, Path.Apart a.path b.path) →
      ((r.sitesOf fqn).map fun site => Path.pointer site.path).Nodup) ∧
    (n.unit.document.Keyed →
      ∀ a ∈ r.sitesOf fqn, ∀ b ∈ r.sitesOf fqn, Path.Apart a.path b.path) := by
  have hbuilt := built_ofStack hg
  have hplaced := fun s (hs : s ∈ r.sitesOf fqn) => at?_of_resolve hbuilt hn hu hres hs
  have hat := fun s hs => (hplaced s hs).2
  refine ⟨nodup_paths hbuilt hn hu, fun site hsite => ⟨_, hplaced site hsite⟩, ?_,
    fun pointer v => get?_substitutions_iff hres hat, reports_iff hres hat,
    nodup_pointers hbuilt hn hu, fun hkeys a ha b hb => apart_sites hbuilt hn hu hkeys ha hb⟩
  rw [substitutions_eq hres]
  exact Table.nodup_keys_ofEntries _

end Resolver

namespace Shop

/-- An interface with some inputs. -/
def fed (inputs : Table String Value) : UnitDef := { interface with inputs := inputs }

/-- The database has recorded where it can be reached, and the interface may be resolved. -/
def reached (inputs : Table String Value) : Resolver :=
  ⟨graph [database, fed inputs],
    [("shop.service.db", [(.text "host", .text "db"), (.text "port", .int 5432)])]⟩

/-- The host is in the mapping, the port is in a list. -/
def address : Table String Value :=
  [("host", .text "self.service.db.output.host"),
    ("ports", .list [.text "self.service.db.output.port"])]

/-- The host is under one key with a slash, the port is under two keys. -/
def tangled : Table String Value :=
  [("a/b", .text "self.service.db.output.host"),
    ("a", .object [("b", .text "self.service.db.output.port")])]

theorem ofStack_fed_address :
    Graph.ofStack (stack [database, fed address]) = .ok (graph [database, fed address]) := by rfl

theorem ofStack_fed_tangled :
    Graph.ofStack (stack [database, fed tangled]) = .ok (graph [database, fed tangled]) := by rfl

theorem node_fed_address : (reached address).graph.node? "shop.service.api" =
    some ⟨"shop.service.api", fed address, 1⟩ := by rfl

theorem node_fed_tangled : (reached tangled).graph.node? "shop.service.api" =
    some ⟨"shop.service.api", fed tangled, 1⟩ := by rfl

theorem unambiguous_address : (fed address).document.Unambiguous := by
  simp [UnitDef.document, fed, address, interface, Value.object, Value.Unambiguous,
    Value.EntriesUnambiguous, Value.AreUnambiguous, Key.same_text]

theorem unambiguous_tangled : (fed tangled).document.Unambiguous := by
  simp [UnitDef.document, fed, tangled, interface, Value.object, Value.Unambiguous,
    Value.EntriesUnambiguous, Key.same_text]

theorem keyed_address : (fed address).document.Keyed := by
  simp [UnitDef.document, fed, address, interface, Value.object, Value.Keyed, Value.EntriesKeyed,
    Value.AreKeyed]

/-- The interface has a site for the host and one for the port. -/
def sites (host port : Path) : List Site :=
  [⟨"shop.service.api", host, ⟨.service, "db", "host"⟩⟩,
    ⟨"shop.service.api", port, ⟨.service, "db", "port"⟩⟩]

theorem sitesOf_address : (reached address).sitesOf "shop.service.api" =
    sites [.text "inputs", .text "host"] [.text "inputs", .text "ports", .int 0] := by rfl

theorem sitesOf_tangled : (reached tangled).sitesOf "shop.service.api" =
    sites [.text "inputs", .text "a/b"] [.text "inputs", .text "a", .text "b"] := by rfl

theorem output?_host (inputs : Table String Value)
    (hs : (reached inputs).graph.stackName = "shop") :
    (reached inputs).output? ⟨.service, "db", "host"⟩ = some (.text "db") := by
  rw [Resolver.output?, hs]
  rfl

theorem output?_port (inputs : Table String Value)
    (hs : (reached inputs).graph.stackName = "shop") :
    (reached inputs).output? ⟨.service, "db", "port"⟩ = some (.int 5432) := by
  rw [Resolver.output?, hs]
  rfl

/-- The interface is resolved. -/
theorem resolve_reached {inputs : Table String Value} {n : Node} {host port : Path}
    (hg : Graph.ofStack (stack [database, fed inputs]) = .ok (reached inputs).graph)
    (hs : (reached inputs).graph.stackName = "shop")
    (hn : (reached inputs).graph.node? "shop.service.api" = some n)
    (hu : n.unit.document.Unambiguous)
    (hsites : (reached inputs).sitesOf "shop.service.api" = sites host port) :
    ∃ resolved, (reached inputs).resolve "shop.service.api" = .ok resolved := by
  obtain ⟨resolved, hok, -⟩ := Resolver.resolve_of_found (built_ofStack hg) hn hu (by
    rw [hsites]
    exact List.forall_mem_cons.mpr
      ⟨⟨_, output?_host _ hs⟩, List.forall_mem_singleton.mpr ⟨_, output?_port _ hs⟩⟩)
  exact ⟨resolved, hok⟩

end Shop

/-- The host and the port of an interface are both reported. -/
theorem resolve_reports_address :
    Graph.ofStack (Shop.stack [Shop.database, Shop.fed Shop.address]) =
      .ok (Shop.reached Shop.address).graph ∧
    (Shop.fed Shop.address).document.Unambiguous ∧
    ∃ resolved, (Shop.reached Shop.address).resolve "shop.service.api" = .ok resolved ∧
      resolved.Reports ((Shop.reached Shop.address).sitesOf "shop.service.api") := by
  obtain ⟨resolved, hok⟩ := Shop.resolve_reached Shop.ofStack_fed_address rfl
    Shop.node_fed_address Shop.unambiguous_address Shop.sitesOf_address
  obtain ⟨-, -, -, -, hreports, hpointers, hapart⟩ := Resolver.resolve_reports
    (r := Shop.reached Shop.address) Shop.ofStack_fed_address Shop.node_fed_address
    Shop.unambiguous_address hok
  refine ⟨Shop.ofStack_fed_address, Shop.unambiguous_address, resolved, hok,
    hreports.mpr (hpointers ?_ (hapart Shop.keyed_address))⟩
  rw [Shop.sitesOf_address]
  refine List.forall_mem_cons.mpr ⟨?_, List.forall_mem_singleton.mpr ?_⟩
  · decide
  · decide

/-- **A site is missing in the report**: the host and the port are written at different places, with
one pointer. -/
theorem resolve_loses :
    Graph.ofStack (Shop.stack [Shop.database, Shop.fed Shop.tangled]) =
      .ok (Shop.reached Shop.tangled).graph ∧
    ((Shop.reached Shop.tangled).sitesOf "shop.service.api").map (fun site => site.path) =
      [[.text "inputs", .text "a/b"], [.text "inputs", .text "a", .text "b"]] ∧
    ∃ resolved, (Shop.reached Shop.tangled).resolve "shop.service.api" = .ok resolved ∧
      resolved.toValue.at? [.text "inputs", .text "a/b"] = some (.text "db") ∧
      resolved.substitutions = [("/inputs/a/b", .int 5432)] := by
  obtain ⟨resolved, hok⟩ := Shop.resolve_reached Shop.ofStack_fed_tangled rfl
    Shop.node_fed_tangled Shop.unambiguous_tangled Shop.sitesOf_tangled
  have hhost := Shop.output?_host Shop.tangled rfl
  have hport := Shop.output?_port Shop.tangled rfl
  have hsites := Shop.sitesOf_tangled
  refine ⟨Shop.ofStack_fed_tangled, by rw [hsites]; rfl, resolved, hok, ?_, ?_⟩
  · obtain ⟨-, hat⟩ := Resolver.at?_of_resolve (built_ofStack Shop.ofStack_fed_tangled)
      Shop.node_fed_tangled Shop.unambiguous_tangled hok (by rw [hsites]; exact List.mem_cons_self)
    rwa [Resolver.output, hhost] at hat
  · have hfirst : Path.pointer [.text "inputs", .text "a/b"] = "/inputs/a/b" := by decide
    have hsecond : Path.pointer [.text "inputs", .text "a", .text "b"] = "/inputs/a/b" := by decide
    rw [Resolver.substitutions_eq hok, hsites]
    simp only [Shop.sites, List.map_cons, List.map_nil, Resolver.writing, Resolver.output, hhost,
      hport, hfirst, hsecond, Table.ofEntries, List.foldl_cons, List.foldl_nil, Table.set,
      Option.getD_some, if_true]

end Rollout
