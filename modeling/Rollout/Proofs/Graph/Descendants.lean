import Rollout.Proofs.Graph.Earliest

/-!
# The descendants of units

However a graph has grown, with cycles or without, a search from units of it ends, in whatever order
it works on them, and has seen the same units in the end: those that paths of one or more edges of
the allowed kinds lead to. The units that a search starts with are not seen for that reason alone.

**Results.**
* `simple_assemble`: a graph that grows has one edge at most from a unit to another one;
* `assembled_descendants_spec`: what a search returns, and after how many rounds at the latest.
-/

namespace Rollout.Graph

theorem Simple.extend {g : Graph} (h : g.Simple) (c : Change) : (g.extend c).Simple := by
  cases c with
  | node u =>
    rw [Graph.extend]
    split
    · rename_i hadd
      unfold Graph.addNode at hadd
      dsimp only at hadd
      split at hadd
      · cases hadd
      rw [Except.ok.injEq, Prod.mk.injEq] at hadd
      obtain ⟨rfl, -⟩ := hadd
      exact h
    · exact h
  | edge source target kind =>
    rw [Graph.extend]
    split
    · rename_i hadd
      exact (adds_addEdge hadd).simple h
    · exact h

/-- However a graph has grown, one edge at most runs from a unit to another one. -/
theorem simple_assemble (stackName : String) (stack : Option Stack) (changes : List Change) :
    (assemble stackName stack changes).Simple := by
  have hrun : ∀ g : Graph, g.Simple → (changes.foldl Graph.extend g).Simple := by
    induction changes with
    | nil => exact fun g h => h
    | cons c rest ih => exact fun g h => ih (g.extend c) (h.extend c)
  exact hrun _ List.nodup_nil

/-- What an edge leads to is a unit. -/
theorem has_of_reached {g : Graph} (hends : g.EndsKnown) {kinds : List EdgeKind} {u v : String}
    (h : g.Reaches kinds u v) : g.has v = true := by
  obtain ⟨w, -, e, he, -, rfl, -⟩ := Relation.TransGen.tail'_iff.mp h
  exact (hends e he).2

/-- **The descendants of known units**, however the graph has grown and whether or not it has
cycles. A search from them has no more rounds than it has first units and the graph has units,
whichever unit a round takes. The descendants are what such a search has seen in the end: without
repetition, the units that a path of one or more edges of the kinds leads to from a root. So a root
is among them only if it lies on such a cycle or another root leads to it. -/
theorem assembled_descendants_spec (stackName : String) (stack : Option Stack)
    (changes : List Change) (roots : List String) (kinds : List EdgeKind)
    (hroots : ∀ r ∈ roots, (assemble stackName stack changes).has r = true) :
    (∀ rounds work seen, (assemble stackName stack changes).Searched kinds roots rounds work seen →
      rounds + work.length ≤ roots.length + (assemble stackName stack changes).nodes.length) ∧
    ∃ units, (assemble stackName stack changes).descendants roots kinds = .ok units ∧
      units.Nodup ∧
      (∀ t, t ∈ units ↔ ∃ r ∈ roots, (assemble stackName stack changes).Reaches kinds r t) ∧
      (∀ t ∈ units, (assemble stackName stack changes).has t = true) ∧
      (∃ rounds, (assemble stackName stack changes).Searched kinds roots rounds [] units) ∧
      (∀ rounds seen, (assemble stackName stack changes).Searched kinds roots rounds [] seen →
        seen.Perm units) ∧
      ∀ r ∈ roots, (r ∈ units ↔ (assemble stackName stack changes).Reaches kinds r r ∨
        ∃ other ∈ roots, other ≠ r ∧ (assemble stackName stack changes).Reaches kinds other r) := by
  have hg := simple_assemble stackName stack changes
  have h := consistent_assemble stackName stack changes
  obtain ⟨units, hunits⟩ : ∃ units,
      (assemble stackName stack changes).descendants roots kinds = .ok units :=
    exists_descendants hroots
  have hmem (t : String) :
      t ∈ units ↔ ∃ r ∈ roots, (assemble stackName stack changes).Reaches kinds r t :=
    mem_descendants hg h.ends h.names hunits
  obtain ⟨rounds, hsearch⟩ := searched_descendants hg h.ends h.names hunits
  refine ⟨fun rounds work seen hs => ?_, units, hunits, (hsearch.frontier hg).nodup, hmem, ?_,
    ⟨rounds, hsearch⟩, fun rounds seen hs => ?_, fun r hr => ?_⟩
  · exact (Nat.le_add_right _ _).trans (hs.rounds_le hg h.ends h.names)
  · intro t ht
    obtain ⟨r, -, hpath⟩ := (hmem t).mp ht
    exact has_of_reached h.ends hpath
  · refine (List.perm_ext_iff_of_nodup (hs.frontier hg).nodup (hsearch.frontier hg).nodup).mpr ?_
    exact fun t => (hs.mem_seen hg).trans (hmem t).symm
  · rw [hmem]
    constructor
    · rintro ⟨other, hother, hpath⟩
      by_cases hsame : other = r
      · exact Or.inl (hsame ▸ hpath)
      · exact Or.inr ⟨other, hother, hsame, hpath⟩
    · rintro (hpath | ⟨other, hother, -, hpath⟩)
      · exact ⟨r, hr, hpath⟩
      · exact ⟨other, hother, hpath⟩

/-- Two services that need the deployment of each other, and an artifact of the first one for a
third. -/
def circle : List Change :=
  [.node { (default : UnitDef) with name := "db" }, .node { (default : UnitDef) with name := "web" },
    .node { (default : UnitDef) with name := "docs" },
    .edge "shop.service.db" "shop.service.web" .deploy,
    .edge "shop.service.web" "shop.service.db" .deploy,
    .edge "shop.service.db" "shop.service.docs" .artifact]

/-- On a circle a unit is a descendant of itself, and a search from it that follows deployments only
has four rounds at most. -/
theorem descendants_circle :
    (assemble "shop" none circle).descendants ["shop.service.db"] [.deploy] =
      .ok ["shop.service.web", "shop.service.db"] ∧
    (assemble "shop" none circle).Reaches [.deploy] "shop.service.db" "shop.service.db" ∧
    ∀ rounds work seen, (assemble "shop" none circle).Searched [.deploy] ["shop.service.db"] rounds
      work seen → rounds + work.length ≤ 4 := by
  have hfound : (assemble "shop" none circle).descendants ["shop.service.db"] [.deploy] =
      .ok ["shop.service.web", "shop.service.db"] := by rfl
  obtain ⟨hrounds, units, hunits, -, -, -, -, -, hself⟩ :=
    assembled_descendants_spec "shop" none circle ["shop.service.db"] [.deploy] (by decide +kernel)
  obtain rfl : ["shop.service.web", "shop.service.db"] = units :=
    Except.ok.inj (hfound.symm.trans hunits)
  exact ⟨hfound, ((hself _ List.mem_cons_self).mp (by decide)).resolve_right (by simp), hrounds⟩

end Rollout.Graph
