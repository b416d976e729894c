import Rollout.Proofs.Files.Places
import Rollout.Proofs.Graph.Accepted
import Rollout.Proofs.Graph.Reach

/-!
# What changed paths affect

A change counts for a unit if it lies in a place that is watched at all and in a place that the unit
watches: the context in which its image is built and the file that says how, the script that builds
it, and whatever paths it names. Every path is a text, is seen from the project directory, and leads
to its place by lexical walking alone; to lie in a place is a matter of components, not of letters.
What changes affect are the units for which one of them counts, and the units to which deployments
lead from these.

**Types.** `UnitDef.Watches`, `UnitDef.TouchedBy`.

**Operations.** `givenOr`.

**Results.**
* `UnitDef.mem_watched`: what a unit watches;
* `Graph.mem_touched`: the units that changes touch;
* `affected_spec`: the units that changes affect.
-/

namespace Rollout

/-- A text that is given, and another one in place of the empty text and of nothing. -/
def givenOr (default : String) : Option String → String
  | some s => if s = "" then default else s
  | none => default

namespace UnitDef

/-- From a directory a unit watches a place. -/
inductive Watches (u : UnitDef) (directory : FilePath) : FilePath → Prop
  /-- The context of an image is named like the unit if it is not given. -/
  | context {b : BuildBlock} (hb : u.build = some b) (himage : b.scriptPath = none) :
      Watches u directory (directory.follow (givenOr u.displayName b.context))
  /-- The dockerfile is looked for in the context. -/
  | dockerfile {b : BuildBlock} (hb : u.build = some b) (himage : b.scriptPath = none) :
      Watches u directory ((directory.follow (givenOr u.displayName b.context)).follow
        (givenOr "Dockerfile" b.dockerfile))
  | script {b : BuildBlock} {script : String} (hb : u.build = some b)
      (hs : b.scriptPath = some script) : Watches u directory (directory.follow script)
  | path {p : String} (hp : p ∈ u.watchPaths) : Watches u directory (directory.follow p)

/-- From a directory, with roots outside of which nothing is watched, a changed path counts for a
unit. -/
structure TouchedBy (u : UnitDef) (directory : FilePath) (roots : List String) (changed : String) :
    Prop where
  rooted : ∃ root ∈ roots, (directory.follow root).Above (directory.follow changed)
  watched : ∃ place, u.Watches directory place ∧ place.Above (directory.follow changed)

variable {u : UnitDef} {d : String}

/-- How a unit is built that fits its schema. -/
theorem Fits.buildSpec_cases (h : u.Fits) :
    (u.build = none ∧ u.buildSpec = .ok none) ∨
    ∃ b, u.build = some b ∧
      ((∃ script, b.scriptPath = some script ∧ u.buildSpec = .ok (some (.script script))) ∨
        b.scriptPath = none ∧ ∃ tag registry, u.buildSpec =
          .ok (some (.docker tag registry (givenOr "Dockerfile" b.dockerfile) b.context))) := by
  cases hkind : u.kind with
  | service =>
    have hb := h.service hkind
    exact Or.inl ⟨hb, by simp [buildSpec, hkind, hb]⟩
  | project =>
    obtain ⟨b, hb, hway⟩ := h.project hkind
    refine Or.inr ⟨b, hb, ?_⟩
    rcases hway with ⟨script, hs, hne, htag, hregistry, hfile, hcontext⟩ | ⟨hs, htag, hregistry⟩
    · have hkeys : b.dockerKeys.isEmpty = true := by
        simp [BuildBlock.dockerKeys, presentFields, htag, hregistry, hfile, hcontext]
      exact Or.inl ⟨script, hs, by simp [buildSpec, hkind, hb, hs, hkeys, hne]⟩
    · obtain ⟨tag, htag⟩ := Option.isSome_iff_exists.mp htag
      obtain ⟨registry, hregistry⟩ := Option.isSome_iff_exists.mp hregistry
      refine Or.inr ⟨hs, tag, registry, ?_⟩
      simp only [buildSpec, hkind, hb, hs, htag, hregistry]
      cases b.dockerfile <;> rfl

section

variable {directory place : FilePath} {b : BuildBlock}

/-- A unit that is not built watches what it names. -/
theorem watches_unbuilt (hb : u.build = none) :
    u.Watches directory place ↔ ∃ p ∈ u.watchPaths, directory.follow p = place := by
  constructor
  · rintro (⟨hb', -⟩ | ⟨hb', -⟩ | ⟨hb', -⟩ | hp)
    · cases hb.symm.trans hb'
    · cases hb.symm.trans hb'
    · cases hb.symm.trans hb'
    · exact ⟨_, hp, rfl⟩
  · rintro ⟨p, hp, rfl⟩
    exact .path hp

/-- A unit that is built by a script watches the script. -/
theorem watches_script (hb : u.build = some b) {script : String} (hs : b.scriptPath = some script) :
    u.Watches directory place ↔
      place = directory.follow script ∨ ∃ p ∈ u.watchPaths, directory.follow p = place := by
  constructor
  · rintro (⟨hb', hnone⟩ | ⟨hb', hnone⟩ | ⟨hb', hs'⟩ | hp)
    · obtain rfl := Option.some.inj (hb.symm.trans hb')
      cases hs.symm.trans hnone
    · obtain rfl := Option.some.inj (hb.symm.trans hb')
      cases hs.symm.trans hnone
    · obtain rfl := Option.some.inj (hb.symm.trans hb')
      obtain rfl := Option.some.inj (hs.symm.trans hs')
      exact Or.inl rfl
    · exact Or.inr ⟨_, hp, rfl⟩
  · rintro (rfl | ⟨p, hp, rfl⟩)
    · exact .script hb hs
    · exact .path hp

/-- A unit that is built as an image watches its context and its dockerfile. -/
theorem watches_image (hb : u.build = some b) (himage : b.scriptPath = none) :
    u.Watches directory place ↔ place = directory.follow (givenOr u.displayName b.context) ∨
      place = (directory.follow (givenOr u.displayName b.context)).follow
        (givenOr "Dockerfile" b.dockerfile) ∨
      ∃ p ∈ u.watchPaths, directory.follow p = place := by
  constructor
  · rintro (⟨hb', -⟩ | ⟨hb', -⟩ | ⟨hb', hs⟩ | hp)
    · obtain rfl := Option.some.inj (hb.symm.trans hb')
      exact Or.inl rfl
    · obtain rfl := Option.some.inj (hb.symm.trans hb')
      exact Or.inr (Or.inl rfl)
    · obtain rfl := Option.some.inj (hb.symm.trans hb')
      cases himage.symm.trans hs
    · exact Or.inr (Or.inr ⟨_, hp, rfl⟩)
  · rintro (rfl | rfl | ⟨p, hp, rfl⟩)
    · exact .context hb himage
    · exact .dockerfile hb himage
    · exact .path hp

end

/-- **What a unit watches** are the places that its build and its own list name. -/
theorem mem_watched (hu : u.Fits) (hd : d.toList.head? = some '/') {place : FilePath} :
    place ∈ u.watched (.ofText d) ↔ u.Watches (FilePath.top.follow d) place := by
  have hpaths : (u.watchPaths.map FilePath.ofText).map (FilePath.ofText d).within =
      u.watchPaths.map (FilePath.top.follow d).follow := by
    rw [List.map_map]
    exact List.map_congr_left fun p _ => FilePath.within_ofText hd p
  rcases hu.buildSpec_cases with ⟨hb, hspec⟩ | ⟨b, hb, ⟨script, hs, hspec⟩ |
    ⟨himage, tag, registry, hspec⟩⟩
  · simp only [watches_unbuilt hb, watched, hspec, List.nil_append, hpaths, List.mem_map]
  · simp only [watches_script hb hs, watched, hspec, List.cons_append, List.nil_append,
      List.map_cons, hpaths, FilePath.within_ofText hd, List.mem_cons, List.mem_map]
  · simp only [watches_image hb himage, watched, hspec, List.cons_append, List.nil_append,
      List.map_cons, hpaths, FilePath.within_ofText hd, FilePath.within_join hd, List.mem_cons,
      List.mem_map]
    cases b.context <;> rfl

end UnitDef

/-! ### Touched and affected units -/

namespace Graph

variable {stack : Stack} {g : Graph} {d : String} {changed roots : List String} {fqn : String}

/-- The units of the graph of a stack fit their schema. -/
theorem fits_of_mem (hg : ofStack stack = .ok g) {n : Node} (hn : n ∈ g.nodes) : n.unit.Fits := by
  refine (ofStack_eq_ok_iff.mp hg).1 n.unit ?_
  rw [← (built_ofStack hg).units]
  exact List.mem_map_of_mem hn

/-- **Touched units** are those for which a change counts. -/
theorem mem_touched (hg : ofStack stack = .ok g) (hd : d.toList.head? = some '/') :
    fqn ∈ g.touched (.ofText d) changed (some roots) ↔
      ∃ c ∈ changed, ∃ n ∈ g.nodes, n.fqn = fqn ∧
        n.unit.TouchedBy (FilePath.top.follow d) roots c := by
  simp only [touched, List.mem_map, List.mem_filter, List.any_eq_true, FilePath.within_ofText hd,
    FilePath.contains_iff]
  constructor
  · rintro ⟨n, ⟨hn, w, hw, p, ⟨⟨c, hc, rfl⟩, r, ⟨root, hroot, rfl⟩, hrooted⟩, habove⟩, rfl⟩
    have hwatched := (UnitDef.mem_watched (fits_of_mem hg hn) hd).mp hw
    exact ⟨c, hc, n, hn, rfl, ⟨root, hroot, hrooted⟩, w, hwatched, habove⟩
  · rintro ⟨c, hc, n, hn, rfl, ⟨root, hroot, hrooted⟩, w, hwatched, habove⟩
    have hw := (UnitDef.mem_watched (fits_of_mem hg hn) hd).mpr hwatched
    exact ⟨n, ⟨hn, w, hw, _, ⟨⟨c, hc, rfl⟩, _, ⟨root, hroot, rfl⟩, hrooted⟩, habove⟩, rfl⟩

/-- Affected units are touched, or deployments lead to them from touched units. -/
theorem mem_affected (hg : ofStack stack = .ok g) (hd : d.toList.head? = some '/') :
    fqn ∈ g.affected (.ofText d) changed (some roots) ↔
      ∃ c ∈ changed, ∃ n ∈ g.nodes, n.unit.TouchedBy (FilePath.top.follow d) roots c ∧
        (n.fqn = fqn ∨ g.Reaches [.deploy] n.fqn fqn) := by
  have hbuilt := built_ofStack hg
  rw [affected, (mem_redeployForce (simple_ofStack hg) hbuilt.ends hbuilt.names
    fun _ => has_of_touched).2]
  simp only [mem_touched hg hd]
  constructor
  · rintro (⟨c, hc, n, hn, hfqn, htouched⟩ | ⟨_, ⟨c, hc, n, hn, rfl, htouched⟩, hreach⟩)
    · exact ⟨c, hc, n, hn, htouched, Or.inl hfqn⟩
    · exact ⟨c, hc, n, hn, htouched, Or.inr hreach⟩
  · rintro ⟨c, hc, n, hn, htouched, hfqn | hreach⟩
    · exact Or.inl ⟨c, hc, n, hn, hfqn, htouched⟩
    · exact Or.inr ⟨n.fqn, ⟨c, hc, n, hn, rfl, htouched⟩, hreach⟩

end Graph

/-- **What changed paths affect.** Over the graph of a stack and an absolute project directory,
nothing is refused: every unit has a way of being built, and the touched units have descendants. A
unit is affected if and only if a changed path lies, after all paths have been followed from the
project directory, in some watch root and in some place that a unit watches, and the unit is that
one or deployments lead to it from that one. So several lists of changed paths together affect what
each of them affects. -/
theorem affected_spec {stack : Stack} {g : Graph} (hg : Graph.ofStack stack = .ok g) {d : String}
    (hd : d.toList.head? = some '/') (changed changed' roots : List String) (fqn : String) :
    ((∀ n ∈ g.nodes, ∃ spec, n.unit.buildSpec = .ok spec) ∧
      ∃ units, g.descendants (g.touched (.ofText d) changed (some roots)) [.deploy] = .ok units) ∧
    (fqn ∈ g.affected (.ofText d) changed (some roots) ↔
      ∃ c ∈ changed, ∃ n ∈ g.nodes, n.unit.TouchedBy (FilePath.top.follow d) roots c ∧
        (n.fqn = fqn ∨ g.Reaches [.deploy] n.fqn fqn)) ∧
    (fqn ∈ g.affected (.ofText d) (changed ++ changed') (some roots) ↔
      fqn ∈ g.affected (.ofText d) changed (some roots) ∨
        fqn ∈ g.affected (.ofText d) changed' (some roots)) := by
  refine ⟨⟨fun n hn => ?_, ?_⟩, Graph.mem_affected hg hd, ?_⟩
  · have hfits := Graph.fits_of_mem hg hn
    exact UnitDef.exists_buildSpec_iff.mpr ⟨hfits.service, hfits.project⟩
  · exact Graph.exists_descendants fun _ => Graph.has_of_touched
  · simp only [Graph.mem_affected hg hd, List.mem_append]
    constructor
    · rintro ⟨c, hc | hc, haffects⟩
      · exact Or.inl ⟨c, hc, haffects⟩
      · exact Or.inr ⟨c, hc, haffects⟩
    · rintro (⟨c, hc, haffects⟩ | ⟨c, hc, haffects⟩)
      · exact ⟨c, Or.inl hc, haffects⟩
      · exact ⟨c, Or.inr hc, haffects⟩

namespace Shop

/-- A front that is built as an image in the folder that has its name. -/
def front : UnitDef :=
  ⟨"web-shop", .project, none, [], [], .names [], some ⟨some "1", some "local", none, none, none⟩,
    none, none, [], []⟩

/-- A mirror that refers to the address of the front. -/
def mirror : UnitDef :=
  ⟨"mirror", .service, none, [("origin", .text "self.project.web-shop.output.address")], [],
    .names [], none, none, none, [], []⟩

def mirrored : Stack :=
  { name := "shop"
    version := "1"
    releaseName := none
    namespaceName := none
    watcher := Watcher.default
    executors := []
    services := [mirror]
    projects := [front] }

def mirroredGraph : Graph :=
  match Graph.ofStack mirrored with
  | .ok g => g
  | .error _ => default

theorem ofStack_mirrored : Graph.ofStack mirrored = .ok mirroredGraph := by rfl

theorem joins_mirror :
    mirroredGraph.Joins [.deploy] "shop.project.web-shop" "shop.service.mirror" :=
  ⟨⟨"shop.project.web-shop", "shop.service.mirror", .deploy⟩, by decide +kernel, rfl, rfl,
    by decide⟩

theorem touched_front :
    front.TouchedBy (FilePath.top.follow "/srv/../work/") ["."] "./web_shop//css/../main.py" where
  rooted := ⟨".", by decide, rfl, by decide +kernel⟩
  watched := ⟨_, .context (b := ⟨some "1", some "local", none, none, none⟩) rfl rfl, rfl,
    by decide +kernel⟩

end Shop

/-- A change in the folder of the front affects the mirror, however the path to it is written. A
change in a folder with a longer name does not. -/
theorem affected_mirror :
    "shop.service.mirror" ∈ Shop.mirroredGraph.affected (.ofText "/srv/../work/")
      ["./web_shop//css/../main.py"] (some ["."]) ∧
    "shop.service.mirror" ∉ Shop.mirroredGraph.affected (.ofText "/srv/../work/")
      ["web_shop2/main.py"] (some ["."]) := by
  constructor
  · obtain ⟨-, haffected, -⟩ := affected_spec Shop.ofStack_mirrored (d := "/srv/../work/") (by rfl)
      ["./web_shop//css/../main.py"] [] ["."] "shop.service.mirror"
    refine haffected.mpr ⟨_, List.mem_cons_self, ⟨"shop.project.web-shop", Shop.front, 1⟩, ?_,
      Shop.touched_front, Or.inr (.single Shop.joins_mirror)⟩
    exact List.mem_of_getElem? (i := 1) rfl
  · decide +kernel

end Rollout
