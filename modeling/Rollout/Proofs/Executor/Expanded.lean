import Mathlib.Data.List.Forall2
import Mathlib.Data.List.Infix
import Rollout.Executor.Placeholder
import Rollout.Proofs.Text.Scan

/-!
# How the words of a command are expanded

A word of a command is expanded by looking for its leftmost placeholder, writing what the placeholder
stands for in its place, and going on behind it. This is said here without a scan, by a relation
between a word and what it becomes: what is written for a placeholder is never looked at, and a word
without placeholders stays as it is, whatever its braces. Placeholders do not overlap, so that every
one that stands in a word is replaced, wherever it stands.

**Types.** `Placeholder`, `Placeholder.Expands`.

**Operations.** `Placeholder.written`, `Placeholder.value`.

**Results.**
* `Placeholder.findPlaceholder_eq_some_iff`: what the scan finds at a place;
* `Placeholder.fill_plain`, `Placeholder.fill_around`: a word without placeholders, and a placeholder
  anywhere in a word;
* `Placeholder.expands_iff`: the scan expands a word, and there is no other way to do it;
* `commandFor_expands`: the words of a command.
-/

namespace Rollout

/-- What may be named in braces. -/
inductive Placeholder
  | fqn
  | name
  | kind
  | phase
  | namespaceName
  | releaseName
  | displayName
  deriving DecidableEq

namespace Placeholder

/-- How a placeholder is written. -/
def written : Placeholder → String
  | .fqn => "\x7bfqn\x7d"
  | .name => "\x7bname\x7d"
  | .kind => "\x7bkind\x7d"
  | .phase => "\x7bphase\x7d"
  | .namespaceName => "\x7bnamespace\x7d"
  | .releaseName => "\x7brelease\x7d"
  | .displayName => "\x7bdisplay_name\x7d"

/-- What a placeholder stands for in a context. -/
def value : Placeholder → UnitContext → String
  | .fqn, c => c.fqn
  | .name, c => c.name
  | .kind, c => c.kind.text
  | .phase, c => c.phase.text
  | .namespaceName, c => c.namespaceName
  | .releaseName, c => c.releaseName
  | .displayName, c => c.displayName

/-- No placeholder stands in a text. -/
def Plain (cs : List Char) : Prop := ∀ p : Placeholder, ¬p.written.toList <:+: cs

/-- What a text becomes in a context. -/
inductive Expands (c : UnitContext) : List Char → List Char → Prop
  /-- A text without placeholders stays. -/
  | plain {cs : List Char} (h : Plain cs) : Expands c cs cs
  /-- The leftmost placeholder is replaced, and what stands behind it is expanded. -/
  | next {before after after' : List Char} (p : Placeholder) (h : Plain before)
      (hafter : Expands c after after') :
      Expands c (before ++ (p.written.toList ++ after)) (before ++ ((p.value c).toList ++ after'))

/-! ### Placeholders do not overlap -/

/-- A brace is opened at the start of a placeholder and nowhere else. -/
theorem written_cons (p : Placeholder) :
    ∃ body, p.written.toList = '\x7b' :: body ∧ '\x7b' ∉ body := by
  cases p <;> exact ⟨_, rfl, by decide⟩

theorem written_ne_nil (p : Placeholder) : p.written.toList ≠ [] := by
  obtain ⟨body, hp, -⟩ := written_cons p
  simp [hp]

/-- No placeholder is the beginning of another one. -/
theorem eq_of_begins {p q : Placeholder} (h : p.written.toList <+: q.written.toList) : p = q := by
  cases p <;> cases q <;> first | rfl | exact absurd h (by decide)

/-- Only one placeholder starts at a place. -/
theorem eq_of_starts {p q : Placeholder} {cs : List Char} (hp : p.written.toList <+: cs)
    (hq : q.written.toList <+: cs) : p = q := by
  rcases List.prefix_or_prefix_of_prefix hp hq with h | h
  · exact eq_of_begins h
  · exact (eq_of_begins h).symm

/-- A placeholder that starts in front of another one ends in front of it. -/
theorem prefix_of_starts {p q : Placeholder} {before after : List Char} (hb : before ≠ [])
    (h : q.written.toList <+: before ++ (p.written.toList ++ after)) :
    q.written.toList <+: before := by
  rcases List.prefix_or_prefix_of_prefix h (List.prefix_append before _) with hq | ⟨more, hmore⟩
  · exact hq
  · obtain ⟨body, hp, -⟩ := written_cons p
    obtain ⟨body', hq, hnot⟩ := written_cons q
    obtain ⟨c, before, rfl⟩ := List.exists_cons_of_ne_nil hb
    cases more with
    | nil => exact ⟨[], by simpa using hmore.symm⟩
    | cons x more =>
      -- what reaches over begins with the brace of the placeholder behind
      rw [← hmore, List.prefix_append_right_inj, hp, List.cons_append, List.cons_prefix_cons] at h
      rw [hq, List.cons_append, List.cons.injEq] at hmore
      exact absurd (hmore.2 ▸ List.mem_append_right before (h.1 ▸ List.mem_cons_self)) hnot

/-! ### What the scan finds -/

/-- The table of placeholders. -/
def all : List Placeholder :=
  [.fqn, .name, .kind, .phase, .namespaceName, .releaseName, .displayName]

theorem mem_all (p : Placeholder) : p ∈ all := by
  cases p <;> decide

theorem findPlaceholder_eq (before : Option Char) (cs : List Char) :
    findPlaceholder before cs = all.findSome? fun p =>
      if p.written.toList.isPrefixOf cs then some (p.value, p.written.length - 1) else none := rfl

/-- **What the scan finds** at a place is the placeholder that starts there. -/
theorem findPlaceholder_of_starts (before : Option Char) (p : Placeholder) (rest : List Char) :
    findPlaceholder before (p.written.toList ++ rest) =
      some (p.value, p.written.length - 1) := by
  have hstarts : p.written.toList.isPrefixOf (p.written.toList ++ rest) = true :=
    List.isPrefixOf_iff_prefix.mpr (List.prefix_append ..)
  cases hfound : findPlaceholder before (p.written.toList ++ rest) with
  | none =>
    rw [findPlaceholder_eq, List.findSome?_eq_none_iff] at hfound
    have hp := hfound p (mem_all p)
    rw [if_pos hstarts] at hp
    cases hp
  | some found =>
    rw [findPlaceholder_eq] at hfound
    obtain ⟨q, -, hq⟩ := List.exists_of_findSome?_eq_some hfound
    split at hq
    · rename_i hprefix
      obtain rfl := eq_of_starts (List.prefix_append ..) (List.isPrefixOf_iff_prefix.mp hprefix)
      exact hq.symm
    · cases hq

/-- **The scan finds nothing** where no placeholder starts. -/
theorem findPlaceholder_of_not (before : Option Char) {cs : List Char}
    (h : ∀ p : Placeholder, ¬p.written.toList <+: cs) : findPlaceholder before cs = none := by
  rw [findPlaceholder_eq, List.findSome?_eq_none_iff]
  intro p _
  rw [if_neg fun hp => h p (List.isPrefixOf_iff_prefix.mp hp)]

/-! ### What a text becomes -/

/-- A text with its placeholders filled in. -/
def fill (c : UnitContext) (cs : List Char) : List Char :=
  Text.replace findPlaceholder (fun f => (f c).toList) cs

variable (c : UnitContext)

theorem fill_cons {x : Char} {rest : List Char}
    (h : ∀ p : Placeholder, ¬p.written.toList <+: x :: rest) :
    fill c (x :: rest) = x :: fill c rest := by
  rw [fill, Text.replace_eq, Text.replaceBehind_kept _ (findPlaceholder_of_not _ h)]
  exact congrArg _ (Text.replaceBehind_congr _ rfl)

theorem fill_written (p : Placeholder) (rest : List Char) :
    fill c (p.written.toList ++ rest) = (p.value c).toList ++ fill c rest := by
  have hlength : p.written.length - 1 + 1 = p.written.toList.length := by
    have hpos := List.length_pos_of_ne_nil (written_ne_nil p)
    rw [String.length_toList] at hpos ⊢
    omega
  rw [fill, Text.replace_eq,
    Text.replaceBehind_found _ (findPlaceholder_of_starts none p rest) hlength]
  exact congrArg _ (Text.replaceBehind_congr _ rfl)

/-- A text without placeholders stays as it is. -/
theorem fill_plain {cs : List Char} (h : Plain cs) : fill c cs = cs := by
  induction cs with
  | nil => rfl
  | cons x rest ih =>
    rw [fill_cons c fun p hp => h p hp.isInfix,
      ih fun p hp => h p (hp.trans (List.suffix_cons x rest).isInfix)]

/-- A placeholder is replaced wherever it stands, and what stands in front of it and behind it is
filled in on its own. -/
theorem fill_around (before : List Char) (p : Placeholder) (after : List Char) :
    fill c (before ++ (p.written.toList ++ after)) =
      fill c before ++ ((p.value c).toList ++ fill c after) := by
  -- on the length of what stands in front, since a placeholder in it is passed over as a whole
  induction hn : before.length using Nat.strongRecOn generalizing before with
  | ind n ih =>
    cases before with
    | nil => exact fill_written c p after
    | cons x rest =>
      by_cases hstarts : ∃ q : Placeholder, q.written.toList <+: x :: rest
      · obtain ⟨q, behind, hq⟩ := hstarts
        have hlength := congrArg List.length hq
        have hpos := List.length_pos_of_ne_nil (written_ne_nil q)
        rw [List.length_append, hn] at hlength
        rw [← hq, List.append_assoc, fill_written, fill_written, List.append_assoc,
          ih behind.length (by omega) behind rfl]
      · have hnot : ∀ q : Placeholder, ¬q.written.toList <+: x :: rest := not_exists.mp hstarts
        have hnot' : ∀ q : Placeholder,
            ¬q.written.toList <+: x :: (rest ++ (p.written.toList ++ after)) :=
          fun q hq => hnot q (prefix_of_starts (List.cons_ne_nil x rest) hq)
        rw [List.cons_append, fill_cons c hnot', fill_cons c hnot, List.cons_append,
          ih rest.length (by rw [← hn]; exact Nat.lt_succ_self _) rest rfl]

/-! ### The scan expands a text -/

variable {c}

theorem plain_nil : Plain [] := fun p hp => written_ne_nil p (List.infix_nil.mp hp)

theorem plain_cons {x : Char} {rest : List Char} (h : Plain rest)
    (hx : ∀ p : Placeholder, ¬p.written.toList <+: x :: rest) : Plain (x :: rest) := by
  intro p hp
  rcases List.infix_cons_iff.mp hp with hp | hp
  · exact hx p hp
  · exact h p hp

/-- A character with which no placeholder starts is kept. -/
theorem Expands.cons {x : Char} {rest out : List Char} (h : Expands c rest out)
    (hx : ∀ p : Placeholder, ¬p.written.toList <+: x :: rest) :
    Expands c (x :: rest) (x :: out) := by
  cases h with
  | plain h => exact .plain (plain_cons h hx)
  | @next before _ _ p h hafter =>
    have hbefore : Plain (x :: before) :=
      plain_cons h fun q hq => hx q (hq.trans (List.prefix_append (x :: before) _))
    exact @Expands.next c (x :: before) _ _ p hbefore hafter

/-- **A text is expanded** in one way only, and this is how it is filled in. -/
theorem expands_iff {cs out : List Char} : Expands c cs out ↔ out = fill c cs := by
  constructor
  · intro h
    induction h with
    | plain h => exact (fill_plain c h).symm
    | next p h _ ih => rw [fill_around, fill_plain c h, ih]
  · rintro rfl
    induction hn : cs.length using Nat.strongRecOn generalizing cs with
    | ind n ih =>
      by_cases hstarts : ∃ p : Placeholder, p.written.toList <+: cs
      · obtain ⟨p, rest, rfl⟩ := hstarts
        have hpos := List.length_pos_of_ne_nil (written_ne_nil p)
        rw [List.length_append] at hn
        rw [fill_written]
        exact @Expands.next c [] _ _ p plain_nil (ih rest.length (by omega) rfl)
      · have hnot : ∀ p : Placeholder, ¬p.written.toList <+: cs := not_exists.mp hstarts
        cases cs with
        | nil => exact .plain plain_nil
        | cons x rest =>
          rw [fill_cons c hnot]
          exact (ih rest.length (by rw [← hn]; exact Nat.lt_succ_self _) rfl).cons hnot

end Placeholder

/-- A word becomes another one exactly if it is filled in so. -/
theorem expands_toList_iff {c : UnitContext} {word word' : String} :
    Placeholder.Expands c word.toList word'.toList ↔ fillPlaceholders c word = word' := by
  rw [Placeholder.expands_iff, ← String.toList_inj, fillPlaceholders, String.toList_ofList, eq_comm]
  rfl

/-- **The words of a command** are expanded one by one. There are as many words as before, and each of
them is what the word becomes when its placeholders are replaced from left to right: every other
character is kept, and what is written for a placeholder is not looked at. Wherever a placeholder
stands in a word, it is replaced, and what stands in front of it and behind it is expanded on its
own. -/
theorem commandFor_expands (words : List String) (c : UnitContext) :
    (commandFor words c).length = words.length ∧
    (∀ out : List String,
      List.Forall₂ (fun word word' => Placeholder.Expands c word.toList word'.toList) words out ↔
        out = commandFor words c) ∧
    ∀ (before after : String) (p : Placeholder),
      commandFor [before ++ p.written ++ after] c =
        [fillPlaceholders c before ++ p.value c ++ fillPlaceholders c after] := by
  refine ⟨List.length_map .., fun out => ?_, fun before after p => ?_⟩
  · simp only [expands_toList_iff]
    rw [← List.forall₂_map_left_iff (R := Eq), List.forall₂_eq_eq_eq, eq_comm]
    rfl
  · rw [commandFor, List.map_singleton, List.singleton_inj, ← String.toList_inj]
    simp only [fillPlaceholders, String.toList_append, String.toList_ofList, List.append_assoc]
    exact Placeholder.fill_around c before.toList p after.toList

/-- Braces around a placeholder stay, and a name that looks like a placeholder is not expanded. -/
example :
    commandFor ["run \x7b\x7bname\x7d\x7d", "\x7bnam\x7bkind\x7de\x7d"]
        { (default : UnitContext) with name := "\x7brelease\x7d", kind := .service } =
      ["run \x7b\x7brelease\x7d\x7d", "\x7bnamservicee\x7d"] := by rfl

end Rollout
