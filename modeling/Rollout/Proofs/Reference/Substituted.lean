import Rollout.Proofs.Graph.Accepted
import Rollout.Proofs.Reference.Grammar
import Rollout.Proofs.Run.Scheduled

/-!
# What resolving a unit substitutes

The configuration of a unit is resolved by taking the marks off its escaped references first and by
writing the recorded outputs at its sites afterwards. What comes out is described here without marks,
sites and writes, by a relation between two values that goes down both of them at once: a reference
becomes the recorded output, whatever that is; an escaped reference becomes its text without the
mark; every other leaf stays, and so do lists, mappings, their keys and their order. The relation
leaves no choice, so that what is resolved is the only value that it allows.

**Types.** `Resolver.Substitutes`.

**Results.**
* `Resolver.substitutes_iff`: where all outputs are found, there is exactly one such value;
* `Resolver.resolve_substitutes`: a unit is resolved to it, or the first output that is not found is
  reported.
-/

namespace Rollout

open Rollout.Graph

/-! ### Escaped references -/

theorem toList_mark_append (t : String) : ("\\" ++ t).toList = escapeMark :: t.toList := by
  rw [String.toList_append]
  rfl

/-- A text that begins with the mark is no reference. -/
theorem Reference.parse?_mark (t : String) : Reference.parse? ("\\" ++ t) = none := by
  rw [Option.eq_none_iff_forall_ne_some]
  intro r h
  have hlist := congrArg String.toList (parse?_eq_some_iff.mp h).1
  rw [toList_mark_append, toList_text] at hlist
  exact absurd (List.cons.inj hlist).1 (by decide)

/-- An escaped reference is a reference behind the mark. -/
theorem escaped?_eq_some_iff {s : String} {reference : Reference} :
    escaped? s = some reference ↔ ∃ t, s = "\\" ++ t ∧ Reference.parse? t = some reference := by
  constructor
  · intro h
    unfold escaped? at h
    split at h
    · rename_i c rest hs
      split at h
      · rename_i hc
        refine ⟨String.ofList rest, ?_, h⟩
        rw [← String.toList_inj, toList_mark_append, String.toList_ofList, hs, hc]
      · cases h
    · cases h
  · rintro ⟨t, rfl, h⟩
    unfold escaped?
    rw [toList_mark_append]
    simpa using h

/-! ### The relation -/

/-- A value without parts that is not a text. -/
def Value.IsScalar : Value → Prop
  | .text _ | .list _ | .map _ => False
  | _ => True

namespace Resolver

variable {r : Resolver} {v w : Value}

/-- The second value is the first one with references and escaped references replaced. -/
inductive Substitutes (r : Resolver) : Value → Value → Prop
  /-- The output takes the place of the reference. It is not looked into. -/
  | reference {s : String} {reference : Reference} {output : Value}
      (hs : Reference.parse? s = some reference) (ho : r.output? reference = some output) :
      Substitutes r (.text s) output
  /-- An escaped reference loses its mark. -/
  | escaped {t : String} {reference : Reference} (ht : Reference.parse? t = some reference) :
      Substitutes r (.text ("\\" ++ t)) (.text t)
  /-- Other texts stay. -/
  | text {s : String} (hs : Reference.parse? s = none)
      (hescaped : ∀ t reference, s = "\\" ++ t → Reference.parse? t ≠ some reference) :
      Substitutes r (.text s) (.text s)
  | scalar {v : Value} (hv : v.IsScalar) : Substitutes r v v
  /-- A list is substituted item by item. -/
  | list {items items' : List Value} (h : List.Forall₂ (Substitutes r) items items') :
      Substitutes r (.list items) (.list items')
  /-- A mapping keeps its keys and their order; its values are substituted one by one. -/
  | map {entries entries' : Entries} (hkeys : entries'.map Prod.fst = entries.map Prod.fst)
      (h : List.Forall₂ (Substitutes r) (entries.map Prod.snd) (entries'.map Prod.snd)) :
      Substitutes r (.map entries) (.map entries')

/-- Every reference in the value finds an output. -/
def Supplies (r : Resolver) (v : Value) : Prop :=
  ∀ p s reference, v.TextAt p s → Reference.parse? s = some reference →
    ∃ output, r.output? reference = some output

theorem Supplies.item {items : List Value} (h : r.Supplies (.list items)) (hv : v ∈ items) :
    r.Supplies v := by
  intro p s reference htext hs
  obtain ⟨i, hi⟩ := List.getElem?_of_mem hv
  exact h _ s reference (.item hi htext) hs

theorem Supplies.entry {entries : Entries} {e : Key × Value} (h : r.Supplies (.map entries))
    (he : e ∈ entries) : r.Supplies e.2 :=
  fun _ s reference htext hs => h _ s reference (.entry he htext) hs

/-- Items that are related to others by a function are related to their images only. -/
theorem forall₂_iff_map {f : Value → Value} {items items' : List Value}
    (h : ∀ v ∈ items, ∀ w, r.Substitutes v w ↔ w = f v) :
    List.Forall₂ (Substitutes r) items items' ↔ items' = items.map f := by
  induction items generalizing items' with
  | nil => rw [List.forall₂_nil_left_iff, List.map_nil]
  | cons v rest ih =>
    have hrest := fun items' => @ih items' fun x hx => h x (List.mem_cons_of_mem _ hx)
    rw [List.forall₂_cons_left_iff, List.map_cons]
    constructor
    · rintro ⟨w, others, hw, hothers, rfl⟩
      rw [(h v List.mem_cons_self w).mp hw, (hrest others).mp hothers]
    · rintro rfl
      exact ⟨f v, rest.map f, (h v List.mem_cons_self _).mpr rfl, (hrest _).mpr rfl, rfl⟩

theorem substitutes_text {s : String}
    (h : ∀ reference, Reference.parse? s = some reference →
      ∃ output, r.output? reference = some output) :
    r.Substitutes (.text s) w ↔ w = Value.replace r.output (.text s) := by
  rw [Value.replace]
  constructor
  · intro hsub
    cases hsub with
    | reference hs ho =>
      rw [hs]
      simp [output, ho]
    | @escaped t reference ht =>
      have hescaped : escaped? ("\\" ++ t) = some reference := escaped?_eq_some_iff.mpr ⟨t, rfl, ht⟩
      rw [Reference.parse?_mark]
      simp [Value.unescape, hescaped]
    | text hs hescaped =>
      have hnone : escaped? s = none := by
        rw [Option.eq_none_iff_forall_ne_some]
        intro reference hsome
        obtain ⟨t, heq, ht⟩ := escaped?_eq_some_iff.mp hsome
        exact hescaped t reference heq ht
      rw [hs]
      simp [Value.unescape, hnone]
    | scalar hv => exact hv.elim
  · rintro rfl
    cases hs : Reference.parse? s with
    | some reference =>
      obtain ⟨output, ho⟩ := h reference hs
      refine .reference hs ?_
      simp [Resolver.output, ho]
    | none =>
      cases hescaped : escaped? s with
      | none =>
        have hun : (Value.text s).unescape = .text s := by simp [Value.unescape, hescaped]
        rw [hun]
        refine .text hs fun t reference heq ht => ?_
        rw [escaped?_eq_some_iff.mpr ⟨t, heq, ht⟩] at hescaped
        cases hescaped
      | some reference =>
        obtain ⟨t, rfl, ht⟩ := escaped?_eq_some_iff.mp hescaped
        have hun : (Value.text ("\\" ++ t)).unescape = .text t := by
          simp [Value.unescape, hescaped]
        rw [hun]
        exact .escaped ht

/-- **Where all outputs are found**, one value is related to a given one: the latter with all its
references replaced at once. -/
theorem substitutes_iff (h : r.Supplies v) :
    r.Substitutes v w ↔ w = v.mapLeaves (Value.replace r.output) := by
  induction v using Value.rises generalizing w with
  | text s => exact substitutes_text fun reference hs => h [] s reference .here hs
  | list items ih =>
    have hitems := fun items' => @forall₂_iff_map r _ items items' fun v hv w => ih v hv (h.item hv)
    rw [Value.mapLeaves, Value.mapItems_eq]
    constructor
    · rintro (_ | _ | _ | hv | hsub)
      · exact hv.elim
      · rw [(hitems _).mp hsub]
    · rintro rfl
      exact .list ((hitems _).mpr rfl)
  | map entries ih =>
    have hvalues := fun values => @forall₂_iff_map r (Value.mapLeaves (Value.replace r.output))
      (entries.map Prod.snd) values fun v hv w => by
        obtain ⟨e, he, rfl⟩ := List.mem_map.mp hv
        exact ih e he (h.entry he)
    rw [Value.mapLeaves, Value.mapEntries_eq]
    constructor
    · rintro (_ | _ | _ | hv | _ | ⟨hkeys, hsub⟩)
      · exact hv.elim
      · rename_i entries'
        rw [List.zip_of_prod hkeys ((hvalues _).mp hsub)]
        congr 1
        refine (List.zip_of_prod ?_ ?_).symm <;> simp
    · rintro rfl
      refine .map (by simp) ((hvalues _).mpr ?_)
      simp
  | _ =>
    constructor
    · rintro (_ | _ | _ | hv)
      rfl
    · rintro rfl
      exact .scalar trivial

/-! ### What a unit is resolved to -/

variable {stack : Stack} {fqn : String} {n : Node}

/-- The parts of the configuration find the outputs that the sites find. -/
theorem supplies_document (hg : r.graph.Built stack) (hn : r.graph.node? fqn = some n)
    (hall : ∀ site ∈ r.sitesOf fqn, ∃ output, r.output? site.reference = some output) :
    r.Supplies n.unit.document := by
  intro p s reference htext hs
  refine hall ⟨fqn, p, reference⟩ ?_
  rw [sitesOf_eq hg hn]
  exact List.mem_map_of_mem (f := fun e : Path × Reference => (⟨fqn, e.1, e.2⟩ : Site))
    (mem_unitReferences.mpr ⟨s, htext, hs⟩)

/-- A unit with sites that all find an output is resolved to what is substituted. -/
theorem resolve_of_found (hg : r.graph.Built stack) (hn : r.graph.node? fqn = some n)
    (hu : n.unit.document.Unambiguous)
    (hall : ∀ site ∈ r.sitesOf fqn, ∃ output, r.output? site.reference = some output) :
    ∃ resolved, r.resolve fqn = .ok resolved ∧
      (∀ inputs, r.Substitutes (.object n.unit.inputs) inputs ↔ inputs = resolved.inputs) ∧
      ∀ values, r.Substitutes (.object n.unit.values) values ↔ values = resolved.values := by
  have hdoc := supplies_document hg hn hall
  have hin : r.Supplies (.object n.unit.inputs) :=
    hdoc.entry (e := (.text "inputs", .object n.unit.inputs)) (by simp)
  have hval : r.Supplies (.object n.unit.values) :=
    hdoc.entry (e := (.text "values", .object n.unit.values)) (by simp)
  rcases resolve_cases hg hn hu with ⟨resolved, hok, hresolved, -⟩ | ⟨fault, hmisses, -⟩
  · refine ⟨resolved, hok, fun inputs => ?_, fun values => ?_⟩
    · rw [hresolved.inputs]
      exact substitutes_iff hin
    · rw [hresolved.values]
      exact substitutes_iff hval
  · obtain ⟨site, hsite, hlookup⟩ := hmisses.exists_site
    obtain ⟨output, ho⟩ := hall site hsite
    rw [lookup_eq_ok_iff.mpr ho] at hlookup
    cases hlookup

/-- An output is not found because its unit has recorded none, or because the field is missing. -/
theorem fault_of_missing {site : Site} {fault : ResolveFault} (h : r.lookup site = .error fault) :
    (r.outputs? (site.reference.target r.graph.stackName) = none ∧
        fault = .notRecorded site (site.reference.target r.graph.stackName)) ∨
      ∃ outputs, r.outputs? (site.reference.target r.graph.stackName) = some outputs ∧
        Entries.get? site.reference.field outputs = none ∧
        (outputs.Named → ∃ names, outputNames outputs = .ok names ∧
          fault = .missingOutput site (site.reference.target r.graph.stackName) names) := by
  cases ho : r.outputs? (site.reference.target r.graph.stackName) with
  | none =>
    simp only [lookup, ho, Except.error.injEq] at h
    exact Or.inl ⟨rfl, h.symm⟩
  | some outputs =>
    cases hfield : Entries.get? site.reference.field outputs with
    | some output =>
      simp only [lookup, ho, hfield] at h
      cases h
    | none =>
      refine Or.inr ⟨outputs, rfl, hfield, fun hnamed => ?_⟩
      obtain ⟨names, hnames⟩ := exists_outputNames hnamed
      simp only [lookup, ho, hfield, hnames, Except.error.injEq] at h
      exact ⟨names, hnames, h.symm⟩

/-- **What resolving a unit substitutes.** Take a unit of the graph of a stack, with mappings that
name no entry twice, and any recorded outputs. Its sites are the references in its inputs and values,
in document order.

If every reference finds an output, the unit is resolved, and its inputs and values are the only ones
that come from the authored ones by substitution: every reference replaced by the output as it is,
every escaped reference without its mark, and all other leaves, lists, mappings, keys and their order
kept.

If an output is not found, the first site for which this is so is reported: because its unit has no
outputs, or because the outputs of its unit, which have texts for names, lack the field.

Resolving reads the graph and the recorded outputs, and returns neither. -/
theorem resolve_substitutes (hg : Graph.ofStack stack = .ok r.graph)
    (hn : r.graph.node? fqn = some n) (hu : n.unit.document.Unambiguous) :
    r.sitesOf fqn = (unitReferences n.unit).map (fun e => ⟨fqn, e.1, e.2⟩) ∧
    ((∀ site ∈ r.sitesOf fqn, ∃ output, r.output? site.reference = some output) →
      ∃ resolved, r.resolve fqn = .ok resolved ∧
        (∀ inputs, r.Substitutes (.object n.unit.inputs) inputs ↔ inputs = resolved.inputs) ∧
        ∀ values, r.Substitutes (.object n.unit.values) values ↔ values = resolved.values) ∧
    ((∃ site ∈ r.sitesOf fqn, r.output? site.reference = none) →
      ∃ before site after, r.sitesOf fqn = before ++ site :: after ∧
        (∀ a ∈ before, ∃ output, r.output? a.reference = some output) ∧
        ((r.outputs? (site.reference.target r.graph.stackName) = none ∧ r.resolve fqn =
            .error (.notRecorded site (site.reference.target r.graph.stackName))) ∨
          ∃ outputs, r.outputs? (site.reference.target r.graph.stackName) = some outputs ∧
            Entries.get? site.reference.field outputs = none ∧
            (outputs.Named → ∃ names, outputNames outputs = .ok names ∧ r.resolve fqn =
              .error (.missingOutput site (site.reference.target r.graph.stackName) names)))) := by
  have hbuilt := built_ofStack hg
  refine ⟨sitesOf_eq hbuilt hn, resolve_of_found hbuilt hn hu, ?_⟩
  rintro ⟨missing, hmem, hnone⟩
  rcases resolve_cases hbuilt hn hu with
    ⟨resolved, -, -, hall⟩ | ⟨fault, ⟨before, site, after, hsites, hbefore, hlookup⟩, herror⟩
  · obtain ⟨output, ho⟩ := hall missing hmem
    rw [ho] at hnone
    cases hnone
  · refine ⟨before, site, after, hsites, hbefore, ?_⟩
    rw [herror]
    simp only [Except.error.injEq]
    exact fault_of_missing hlookup

end Resolver

namespace Shop

/-- The interface may be resolved; what the database has recorded looks like an escaped reference. -/
def informed : Resolver :=
  ⟨graph [database, interface],
    [("shop.service.db", [(.text "address", .text "\\self.service.db.output.address")])]⟩

theorem unambiguous_interface : interface.document.Unambiguous := by
  simp [UnitDef.document, interface, Value.object, Value.Unambiguous, Value.EntriesUnambiguous,
    Key.same_text]

theorem references_interface :
    unitReferences interface =
      [([.text "inputs", .text "address"], ⟨.service, "db", "address"⟩)] := by rfl

end Shop

/-- The interface is resolved to an address that is not looked into. Before the database is deployed,
its address is missing. -/
theorem resolve_substitutes_shop :
    (∃ resolved, Shop.informed.resolve "shop.service.api" = .ok resolved ∧
      resolved.inputs = .object [("address", .text "\\self.service.db.output.address")]) ∧
    ∃ site, (Resolver.start Shop.informed.graph).resolve "shop.service.api" =
      .error (.notRecorded site "shop.service.db") := by
  constructor
  · have hn : Shop.informed.graph.node? "shop.service.api" =
      some ⟨"shop.service.api", Shop.interface, 1⟩ := by rfl
    obtain ⟨hsites, hfound, -⟩ := Resolver.resolve_substitutes (r := Shop.informed)
      Shop.ofStack_both hn Shop.unambiguous_interface
    rw [Shop.references_interface] at hsites
    have hs : Reference.parse? "self.service.db.output.address" =
      some ⟨.service, "db", "address"⟩ := by rfl
    have houtput : Shop.informed.output? ⟨.service, "db", "address"⟩ =
      some (.text "\\self.service.db.output.address") := by rfl
    obtain ⟨resolved, hok, hinputs, -⟩ := hfound (by
      rw [hsites]
      exact List.forall_mem_singleton.mpr ⟨_, houtput⟩)
    refine ⟨resolved, hok, ((hinputs _).mp ?_).symm⟩
    exact .map rfl (.cons (.reference hs houtput) .nil)
  · have hn : (Resolver.start Shop.informed.graph).graph.node? "shop.service.api" =
      some ⟨"shop.service.api", Shop.interface, 1⟩ := by rfl
    obtain ⟨hsites, -, hmissing⟩ := Resolver.resolve_substitutes
      (r := Resolver.start Shop.informed.graph) Shop.ofStack_both hn Shop.unambiguous_interface
    rw [Shop.references_interface] at hsites
    obtain ⟨before, site, after, hsplit, -, hreport⟩ := hmissing (by
      rw [hsites]
      exact ⟨_, List.mem_cons_self, rfl⟩)
    have hmem : site ∈ before ++ site :: after := by simp
    rw [← hsplit, hsites] at hmem
    obtain rfl := List.mem_singleton.mp hmem
    rcases hreport with ⟨-, herror⟩ | ⟨outputs, houtputs, -⟩
    · exact ⟨_, herror⟩
    · cases houtputs

end Rollout
