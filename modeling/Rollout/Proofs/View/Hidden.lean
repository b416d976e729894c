import Rollout.Proofs.View.Secrets

/-!
# What is hidden in a message

A message is gone over once, and what is hidden is passed over as a whole. So a text in front of a
credential matters to it in one way only: it may end with an announcement, and then it takes the next
word for a credential, even if that word is a secret word itself. Otherwise what follows is treated
as if it stood alone.

A message hides a credential if it reads the same for every other one. Whether it does depends on
where the credential stands: only the word right behind the sign is hidden, and not the one behind
that.

**Types.** `Parting`, `Begins`, `Passes`, `Takes`, `Settles`, `Awaits`, `Hides`.

**Operations.** `marked`, `hide`.

**Results.**
* `settles`: a text in front of a word passes it on, or takes it;
* `redact_assigned`, `redact_stated`, `redact_bearer`: a credential behind an equals sign, behind a
  colon, and of a bearer;
* `redact_hides`: which of them are hidden;
* `redact_shows`: two that are not.
-/

namespace Rollout.View

open Rollout.Text (isBlank isWordChar lastOf lastOf_cons lastOf_append)

/-- What is written for a credential. -/
def marked (kw : List Char) : List Char := kw ++ ": <redacted>".toList

/-- A text that stands behind a character, with its credentials hidden. -/
def hide (before : Option Char) (cs : List Char) : List Char :=
  Text.replaceBehind findSecret marked before cs

theorem toList_redact (s : String) : (redact s).toList = hide none s.toList :=
  String.toList_ofList

/-! ### One step -/

theorem hide_kept {before : Option Char} {c : Char} {rest : List Char}
    (h : findSecret before (c :: rest) = none) :
    hide before (c :: rest) = c :: hide (some c) rest :=
  Text.replaceBehind_kept _ h

/-- A credential is hidden together with its sign. -/
theorem hide_announced {before : Option Char} {kw lead body rest : List Char}
    (hstarts : StartsWord before) (hlead : Announces kw lead) (hbody : Solid body)
    (hrest : Parted rest) :
    hide before (lead ++ (body ++ rest)) = marked kw ++ hide (lastOf before (lead ++ body)) rest := by
  have hpos : 0 < body.length := List.length_pos_of_ne_nil hbody.nonempty
  have hfound : findSecret before ((lead ++ body) ++ rest) =
      some (kw, lead.length + body.length - 1) := by
    rw [List.append_assoc]
    exact findSecret_eq_some_iff.mpr
      ⟨hstarts, lead, body, rest, rfl, hlead, hbody, hrest, by omega⟩
  rw [← List.append_assoc]
  refine Text.replaceBehind_found _ hfound ?_
  rw [List.length_append]
  omega

/-- No credential begins with a blank. -/
theorem findSecret_blank (before : Option Char) {c : Char} (hc : isBlank c = true)
    (rest : List Char) : findSecret before (c :: rest) = none := by
  rw [Option.eq_none_iff_forall_ne_some]
  rintro ⟨kw, n⟩ h
  obtain ⟨-, lead, body, behind, heq, ⟨gap, gap', sign, hkw, -⟩, -⟩ := findSecret_eq_some_iff.mp h
  obtain ⟨x, kw, rfl⟩ := List.exists_cons_of_ne_nil hkw.nonempty
  obtain rfl := (List.cons.inj heq).1
  have hnot := hkw.not_blank c List.mem_cons_self
  rw [hc] at hnot
  cases hnot

/-- What follows a word is treated alike, whatever the word is. -/
theorem hide_parted {rest : List Char} (h : Parted rest) (before before' : Option Char) :
    hide before rest = hide before' rest := by
  cases rest with
  | nil => rfl
  | cons c rest =>
    refine Text.replaceBehind_congr _ ?_
    rw [findSecret_blank _ (h c rfl), findSecret_blank _ (h c rfl)]

/-- What stands where a word may start is treated alike. -/
theorem hide_starts {before before' : Option Char} (h : StartsWord before)
    (h' : StartsWord before') (cs : List Char) : hide before cs = hide before' cs := by
  refine Text.replaceBehind_congr _ ?_
  rw [findSecret_eq, findSecret_eq, startsWord_iff.mp h, startsWord_iff.mp h']

/-! ### What stands in front -/

/-- What stands in front of a word: nothing, or something that ends with a blank. -/
def Parting (cs : List Char) : Prop := ∀ c, cs.getLast? = some c → isBlank c = true

/-- The text begins with a character that is neither a blank nor a sign. -/
def Begins (cs : List Char) : Prop :=
  ∀ c, cs.head? = some c → isBlank c = false ∧ ¬IsSign c

theorem Begins.append {cs : List Char} (h : Begins cs) (hne : cs ≠ []) (rest : List Char) :
    Begins (cs ++ rest) := by
  intro c hc
  rw [List.head?_append_of_ne_nil _ hne] at hc
  exact h c hc

theorem Parting.of_append (front : List Char) {rest : List Char} (h : Parting (front ++ rest)) :
    Parting rest := by
  intro c hc
  refine h c ?_
  rw [List.getLast?_append, hc]
  rfl

/-- A word does not end with a blank. -/
theorem Parting.eq_nil {word : List Char} (h : Parting word)
    (hword : ∀ c ∈ word, isBlank c = false) : word = [] := by
  cases hlast : word.getLast? with
  | none => exact List.getLast?_eq_none_iff.mp hlast
  | some c =>
    have hblank := h c hlast
    rw [hword c (List.mem_of_getLast? hlast)] at hblank
    cases hblank

/-- Behind a blank, only blanks and the sign are left of an announcement. -/
theorem Announces.eq_nil {kw front rest : List Char} (h : Announces kw (front ++ rest))
    (hfront : Parting front) (hne : front ≠ []) (hrest : Begins rest) : rest = [] := by
  generalize hlead : front ++ rest = lead at h
  obtain ⟨gap, gap', sign, hkw, hgap, hsign, hgap'⟩ := h
  obtain ⟨more, rfl, -⟩ | ⟨more, -, hmore⟩ := List.append_eq_append_iff.mp hlead
  · refine absurd (hfront.eq_nil fun c hc => ?_) hne
    exact hkw.not_blank c (List.mem_append_left more hc)
  · cases rest with
    | nil => rfl
    | cons c rest =>
      obtain ⟨hblank, hnot⟩ := hrest c rfl
      have hmem : c ∈ gap ++ sign :: gap' := by simp [hmore]
      rw [List.mem_append, List.mem_cons] at hmem
      rcases hmem with hmem | rfl | hmem
      · simp [hgap c hmem] at hblank
      · exact absurd hsign hnot
      · simp [hgap' c hmem] at hblank

/-- A credential that begins in front of a blank is all in front of it, or it is what follows. -/
theorem found_cases {before : Option Char} {front cs kw : List Char} {n : Nat}
    (hfront : Parting front) (hne : front ≠ []) (hcs : Begins cs)
    (h : findSecret before (front ++ cs) = some (kw, n)) :
    Announces kw front ∨ ∃ lead body rest, front = lead ++ (body ++ rest) ∧ Announces kw lead ∧
      Solid body ∧ Parted rest ∧ rest ≠ [] := by
  obtain ⟨-, lead, body, rest, heq, hlead, hbody, hrest, -⟩ := findSecret_eq_some_iff.mp h
  obtain ⟨more, rfl, rfl⟩ | ⟨more, rfl, hmore⟩ := List.append_eq_append_iff.mp heq
  · -- the announcement reaches as far as the blank, or farther
    have hbegins : Begins more := fun c hc => hcs c (by rw [List.head?_append, hc]; rfl)
    rw [hlead.eq_nil hfront hne hbegins, List.append_nil] at hlead
    exact Or.inl hlead
  · obtain ⟨end', rfl, rfl⟩ | ⟨end', rfl, -⟩ := List.append_eq_append_iff.mp hmore
    · refine Or.inr ⟨lead, body, end', rfl, hlead, hbody, ?_, ?_⟩
      · exact fun c hc => hrest c (by rw [List.head?_append, hc]; rfl)
      · rintro rfl
        rw [List.append_nil] at hfront
        exact hbody.nonempty ((hfront.of_append lead).eq_nil hbody.solid)
    · have hnil : more = [] :=
        (hfront.of_append lead).eq_nil fun c hc => hbody.solid c (List.mem_append_left _ hc)
      rw [hnil, List.append_nil]
      exact Or.inl hlead

/-- What follows a text is hidden as if it stood alone. -/
def Passes (before : Option Char) (front : List Char) : Prop :=
  ∀ cs, Begins cs → hide before (front ++ cs) = hide before front ++ hide (lastOf before front) cs

/-- The word that follows a text is hidden, and what is written up to there. -/
def Takes (before : Option Char) (front written : List Char) : Prop :=
  ∀ word rest, Solid word → Begins word → Parted rest →
    hide before (front ++ (word ++ rest)) = written ++ hide none rest

/-- The text ends with an announcement. -/
def Announcing (front : List Char) : Prop :=
  ∃ other kw lead, front = other ++ lead ∧ Announces kw lead

/-- What follows a text is treated on its own, or the text ends with an announcement and takes the
word that follows. -/
def Settles (before : Option Char) (front : List Char) : Prop :=
  Passes before front ∨ Announcing front ∧ ∃ written kw, Takes before front (written ++ marked kw)

/-- An announcement takes the word that follows. -/
theorem takes_announced {before : Option Char} {kw lead : List Char} (hstarts : StartsWord before)
    (hlead : Announces kw lead) : Takes before lead (marked kw) := by
  intro word rest hword _ hrest
  rw [hide_announced hstarts hlead hword hrest, hide_parted hrest _ none]

/-- What is written first does not matter to what follows. -/
theorem Settles.step {before : Option Char} {rest : List Char} (first written : List Char)
    (h : Settles (lastOf before first) rest)
    (hstep : ∀ cs, Begins cs → hide before (first ++ (rest ++ cs)) =
      written ++ hide (lastOf before first) (rest ++ cs)) : Settles before (first ++ rest) := by
  rcases h with hpasses | ⟨⟨other, kw, lead, rfl, hlead⟩, written', kw', htakes⟩
  · refine Or.inl fun cs hcs => ?_
    have halone := hstep [] (by rintro c ⟨⟩)
    rw [List.append_nil] at halone
    rw [List.append_assoc, hstep cs hcs, hpasses cs hcs, halone, lastOf_append, List.append_assoc]
  · refine Or.inr ⟨⟨first ++ other, kw, lead, by rw [List.append_assoc], hlead⟩,
      written ++ written', kw', fun word behind hword hbegins hbehind => ?_⟩
    rw [List.append_assoc, hstep _ (hbegins.append hword.nonempty behind),
      htakes word behind hword hbegins hbehind]
    simp only [List.append_assoc]

/-- **What stands in front of a word** is treated on its own, or it ends with an announcement and
takes the word. -/
theorem settles (before : Option Char) {front : List Char} (hfront : Parting front) :
    Settles before front := by
  -- on the length, since a credential is passed over as a whole
  induction hn : front.length using Nat.strongRecOn generalizing before front with
  | ind n ih =>
    by_cases hinside : StartsWord before ∧ ∃ kw lead body rest, front = lead ++ (body ++ rest) ∧
        Announces kw lead ∧ Solid body ∧ Parted rest ∧ rest ≠ []
    · obtain ⟨hstarts, kw, lead, body, rest, rfl, hlead, hbody, hrest, hne⟩ := hinside
      have hlt : rest.length < n := by
        have hpos := List.length_pos_of_ne_nil hbody.nonempty
        rw [List.length_append, List.length_append] at hn
        omega
      rw [← List.append_assoc]
      refine Settles.step (lead ++ body) (marked kw)
        (ih rest.length hlt _ ((hfront.of_append lead).of_append body) rfl) fun cs _ => ?_
      rw [List.append_assoc]
      refine hide_announced hstarts hlead hbody fun c hc => hrest c ?_
      rwa [List.head?_append_of_ne_nil _ hne] at hc
    by_cases hends : StartsWord before ∧ ∃ kw, Announces kw front
    · obtain ⟨hstarts, kw, hkw⟩ := hends
      exact Or.inr ⟨⟨[], kw, front, rfl, hkw⟩, [], kw, takes_announced hstarts hkw⟩
    cases front with
    | nil => exact Or.inl fun cs _ => rfl
    | cons c rest =>
      have hrest : Parting rest := hfront.of_append [c]
      refine Settles.step [c] [c] (ih rest.length (by simp [← hn]) _ hrest rfl) fun cs hcs => ?_
      refine hide_kept ?_
      rw [Option.eq_none_iff_forall_ne_some]
      rintro ⟨kw, m⟩ hfound
      have hstarts := (findSecret_eq_some_iff.mp hfound).1
      rcases found_cases hfront (List.cons_ne_nil c rest) hcs hfound with h | h
      · exact hends ⟨hstarts, kw, h⟩
      · exact hinside ⟨hstarts, kw, h⟩

/-! ### Messages -/

/-- A text in front of a word is one that takes the word for a credential. -/
def Awaits (before : String) : Prop := redact (before ++ "x") ≠ redact before ++ "x"

instance (before : String) : Decidable (Awaits before) :=
  inferInstanceAs (Decidable (redact (before ++ "x") ≠ redact before ++ "x"))

theorem startsWord_none : StartsWord none := by
  intro c hc
  cases hc

theorem startsWord_of_parting {front : List Char} (h : Parting front) :
    StartsWord (lastOf none front) := by
  intro c hc
  refine not_wordChar_of_blank (h c ?_)
  rwa [lastOf, Option.or_none] at hc

/-- What stands in front of a word is treated on its own, or it takes the word. -/
theorem awaits_cases {before : String} (h : Parting before.toList) :
    (¬Awaits before ∧ ∀ cs, Begins cs →
      hide none (before.toList ++ cs) = hide none before.toList ++ hide none cs) ∨
    (Awaits before ∧ Announcing before.toList ∧
      Takes none before.toList (hide none (before.toList ++ ['x']))) := by
  have hx : Begins ['x'] := by
    rintro c ⟨⟩
    exact ⟨by decide, by rintro (h | h) <;> cases h⟩
  have hawaits : Awaits before ↔
      hide none (before.toList ++ ['x']) ≠ hide none before.toList ++ ['x'] := by
    rw [Awaits, Ne, ← String.toList_inj, String.toList_append, toList_redact, toList_redact,
      String.toList_append]
    rfl
  rcases settles none h with hpasses | ⟨hannounces, written, kw, htakes⟩
  · have halone (cs : List Char) (hcs : Begins cs) :
        hide none (before.toList ++ cs) = hide none before.toList ++ hide none cs := by
      rw [hpasses cs hcs, hide_starts (startsWord_of_parting h) startsWord_none]
    refine Or.inl ⟨fun hnot => hawaits.mp hnot ?_, halone⟩
    rw [halone _ hx]
    rfl
  · have hword : hide none (before.toList ++ ['x']) = written ++ marked kw := by
      have htaken := htakes ['x'] [] (by decide) hx (by rintro c ⟨⟩)
      rwa [List.append_nil, show hide none [] = [] from rfl, List.append_nil] at htaken
    refine Or.inr ⟨hawaits.mpr fun heq => ?_, hannounces, by rwa [hword]⟩
    -- what is written for a credential does not end with the word
    rw [hword] at heq
    have hlast := congrArg List.getLast? heq
    simp [marked] at hlast

/-- A secret word in front of its sign is a word that is looked at. -/
theorem SecretWord.begins {kw : List Char} (h : SecretWord kw) (rest : List Char) :
    Begins (kw ++ rest) := by
  refine Begins.append (fun c hc => ?_) h.nonempty rest
  have hmem := List.mem_of_mem_head? hc
  refine ⟨h.not_blank c hmem, fun hsign => ?_⟩
  have hword := h.wordChar c hmem
  rw [hsign.not_wordChar] at hword
  cases hword

theorem SecretWord.solid {kw rest : List Char} (h : SecretWord kw)
    (hrest : ∀ c ∈ rest, isBlank c = false) : Solid (kw ++ rest) where
  nonempty := List.append_ne_nil_of_left_ne_nil h.nonempty _
  solid := fun c hc => (List.mem_append.mp hc).elim (h.not_blank c) (hrest c)

/-- A blank is kept, and what follows is treated on its own. -/
theorem hide_space (cs : List Char) : hide none (' ' :: cs) = ' ' :: hide none cs := by
  rw [hide_kept (findSecret_blank _ (by decide) cs)]
  refine congrArg _ (hide_starts ?_ startsWord_none cs)
  rintro c ⟨⟩
  decide

/-- The word in front of a bearer's credential is kept. -/
theorem hide_bearer (cs : List Char) :
    hide none (" Bearer ".toList ++ cs) = " Bearer ".toList ++ hide none cs := by
  have hspace : Parted (' ' :: cs) := by
    rintro c ⟨⟩
    decide
  change hide none (' ' :: 'B' :: 'e' :: 'a' :: 'r' :: 'e' :: 'r' :: ' ' :: cs) = _
  rw [hide_space, hide_kept (by rfl), hide_kept (by rfl), hide_kept (by rfl), hide_kept (by rfl),
    hide_kept (by rfl), hide_kept (by rfl), hide_parted hspace _ none, hide_space]
  rfl

theorem parted_space (cs : List Char) : Parted (' ' :: cs) := by
  rintro c ⟨⟩
  decide

theorem announces_equals {kw : List Char} (h : SecretWord kw) : Announces kw (kw ++ ['=']) :=
  .intro [] [] '=' h (by simp [Blank]) (Or.inr rfl) (by simp [Blank])

theorem announces_colon {kw : List Char} (h : SecretWord kw) : Announces kw (kw ++ [':', ' ']) :=
  .intro [] [' '] ':' h (by simp [Blank]) (Or.inl rfl) (by simp [Blank]; decide)

/-- A text whose end does not matter to what follows. -/
theorem redact_append {front : String} {shown : List Char}
    (h : ∀ rest : String, (redact (front ++ rest)).toList = shown ++ hide none rest.toList)
    (rest : String) : redact (front ++ rest) = redact front ++ redact rest := by
  have halone : (redact front).toList = shown := by
    have hempty := h ""
    rwa [String.append_empty, String.toList_empty, hide, Text.replaceBehind_nil,
      List.append_nil] at hempty
  rw [← String.toList_inj, h, String.toList_append, halone, toList_redact]

theorem secretWord_authorization : SecretWord "Authorization".toList :=
  ⟨"authorization", by decide, by decide⟩

section Forms

variable {before after kw c : String}

/-- Behind a text that does not take it, a secret word keeps its place, and what it announces is
hidden. -/
theorem hide_behind {sign : List Char} {rest : List Char} (hb : Parting before.toList)
    (hnot : ¬Awaits before) (hlead : Announces kw.toList (kw.toList ++ sign))
    (hkw : SecretWord kw.toList) (hc : Solid c.toList) (hrest : Parted rest) :
    hide none (before.toList ++ (kw.toList ++ (sign ++ (c.toList ++ rest)))) =
      hide none before.toList ++ (marked kw.toList ++ hide none rest) := by
  obtain ⟨-, halone⟩ := (awaits_cases hb).resolve_right fun h => hnot h.1
  have hhidden := hide_announced startsWord_none hlead hc hrest
  rw [hide_parted hrest _ none, List.append_assoc] at hhidden
  rw [halone _ (hkw.begins _), hhidden]

/-- **A credential behind an equals sign** is hidden. -/
theorem redact_assigned (hb : Parting before.toList) (ha : Parted after.toList)
    (hkw : SecretWord kw.toList) (hc : Solid c.toList) :
    (¬Awaits before → redact (before ++ kw ++ "=" ++ c ++ after) =
      redact before ++ kw ++ ": <redacted>" ++ redact after) ∧
    (Awaits before → redact (before ++ kw ++ "=" ++ c ++ after) =
      redact (before ++ "x") ++ redact after) := by
  have hmessage : (before ++ kw ++ "=" ++ c ++ after).toList =
      before.toList ++ (kw.toList ++ (['='] ++ (c.toList ++ after.toList))) := by
    simp [String.toList_append]
  constructor
  · intro hnot
    rw [← String.toList_inj, toList_redact, hmessage,
      hide_behind hb hnot (announces_equals hkw) hkw hc ha]
    simp [String.toList_append, toList_redact, marked]
  · intro hawaits
    obtain ⟨-, -, htakes⟩ := (awaits_cases hb).resolve_left fun h => h.1 hawaits
    have hword : Solid (kw.toList ++ (['='] ++ c.toList)) :=
      hkw.solid (List.forall_mem_cons.mpr ⟨by decide, hc.solid⟩)
    have htaken := htakes _ _ hword (hkw.begins _) ha
    rw [List.append_assoc, List.append_assoc] at htaken
    rw [← String.toList_inj, toList_redact, hmessage, htaken]
    simp [String.toList_append, toList_redact]

/-- **A credential behind a colon** is hidden, unless its secret word is taken for a credential. -/
theorem redact_stated (hb : Parting before.toList) (ha : Parted after.toList)
    (hkw : SecretWord kw.toList) (hc : Solid c.toList) :
    (¬Awaits before → redact (before ++ kw ++ ": " ++ c ++ after) =
      redact before ++ kw ++ ": <redacted>" ++ redact after) ∧
    (Awaits before → redact (before ++ kw ++ ": " ++ c ++ after) =
      redact (before ++ kw ++ ": ") ++ redact (c ++ after)) := by
  constructor
  · intro hnot
    have hmessage : (before ++ kw ++ ": " ++ c ++ after).toList =
        before.toList ++ (kw.toList ++ ([':', ' '] ++ (c.toList ++ after.toList))) := by
      simp [String.toList_append]
    rw [← String.toList_inj, toList_redact, hmessage,
      hide_behind hb hnot (announces_colon hkw) hkw hc ha]
    simp [String.toList_append, toList_redact, marked]
  · intro hawaits
    obtain ⟨-, -, htakes⟩ := (awaits_cases hb).resolve_left fun h => h.1 hawaits
    have hword : Solid (kw.toList ++ [':']) := hkw.solid (List.forall_mem_singleton.mpr rfl)
    -- the sign is taken with the secret word, and the credential stands behind the next blank
    have htaken (rest : String) : (redact (before ++ kw ++ ": " ++ rest)).toList =
        (hide none (before.toList ++ ['x']) ++ [' ']) ++ hide none rest.toList := by
      have hrest := htakes _ _ hword (hkw.begins _) (parted_space rest.toList)
      rw [hide_space] at hrest
      rw [toList_redact, List.append_assoc]
      refine Eq.trans ?_ hrest
      simp [String.toList_append]
    exact (congrArg redact String.append_assoc).trans (redact_append htaken (c ++ after))

/-- **A bearer's credential** is treated as if it stood alone. -/
theorem redact_bearer (hb : Parting before.toList) (c after : String) :
    redact (before ++ "Authorization: Bearer " ++ c ++ after) =
      redact (before ++ "Authorization: Bearer ") ++ redact (c ++ after) := by
  -- the word that is hidden is the one in front of the credential
  have hshape : ∃ shown, ∀ rest : String,
      (redact (before ++ "Authorization: Bearer " ++ rest)).toList =
        shown ++ hide none rest.toList := by
    by_cases hawaits : Awaits before
    · obtain ⟨-, -, htakes⟩ := (awaits_cases hb).resolve_left fun h => h.1 hawaits
      have hword : Solid "Authorization:".toList := by decide
      have hbegins : Begins "Authorization:".toList := secretWord_authorization.begins [':']
      refine ⟨hide none (before.toList ++ ['x']) ++ " Bearer ".toList, fun rest => ?_⟩
      have hrest := htakes _ (" Bearer ".toList ++ rest.toList) hword hbegins (parted_space _)
      rw [hide_bearer] at hrest
      rw [toList_redact, List.append_assoc]
      refine Eq.trans ?_ hrest
      simp [String.toList_append]
    · refine ⟨hide none before.toList ++ (marked "Authorization".toList ++ [' ']), fun rest => ?_⟩
      have hrest := hide_behind (c := "Bearer") hb hawaits
        (announces_colon secretWord_authorization) secretWord_authorization
        (by decide) (parted_space rest.toList)
      rw [hide_space] at hrest
      rw [toList_redact, List.append_assoc, List.append_assoc]
      refine Eq.trans ?_ hrest
      simp [String.toList_append]
  obtain ⟨shown, hshown⟩ := hshape
  exact (congrArg redact String.append_assoc).trans (redact_append hshown (c ++ after))

end Forms

/-- Whatever the credential is, the message says the same. -/
def Hides (form : String → String) : Prop :=
  ∀ c c', Solid c.toList → Solid c'.toList → redact (form c) = redact (form c')

/-- A message that treats a credential as if it stood alone does not hide it. -/
theorem not_hides {form : String → String} {front after : String}
    (h : ∀ c, Solid c.toList → redact (form c) = front ++ redact (c ++ after)) : ¬Hides form := by
  intro hhides
  have hx : Solid "x".toList := by decide
  have hy : Solid "y".toList := by decide
  have hsame := hhides "x" "y" hx hy
  rw [h "x" hx, h "y" hy, ← String.toList_inj, String.toList_append, String.toList_append,
    List.append_cancel_left_eq, toList_redact, toList_redact, String.toList_append,
    String.toList_append] at hsame
  change hide none ('x' :: after.toList) = hide none ('y' :: after.toList) at hsame
  rw [hide_kept (by rfl), hide_kept (by rfl)] at hsame
  exact absurd (List.cons.inj hsame).1 (by decide)

/-- **What is hidden in a message.** Take a text that is empty or ends with a blank, one that is
empty or begins with a blank, and between them a secret word, in any letter case, with a sign and a
credential behind it.

Behind an equals sign the credential is hidden, whatever stands around it. Behind a colon and a blank
it is hidden exactly if the text in front does not take the secret word itself for a credential, as a
text does only if it ends with an announcement. What is written is then the secret word with a mark,
between the two texts.

The credential of a bearer is never hidden: the word `Bearer` is, and the credential is written as if
it stood alone. -/
theorem redact_hides {before after kw : String} (hb : Parting before.toList)
    (ha : Parted after.toList) (hkw : SecretWord kw.toList) :
    Hides (fun c => before ++ kw ++ "=" ++ c ++ after) ∧
    (Hides (fun c => before ++ kw ++ ": " ++ c ++ after) ↔ ¬Awaits before) ∧
    (Awaits before → Announcing before.toList) ∧
    (¬Awaits before → ∀ c, Solid c.toList →
      redact (before ++ kw ++ "=" ++ c ++ after) =
        redact before ++ kw ++ ": <redacted>" ++ redact after ∧
      redact (before ++ kw ++ ": " ++ c ++ after) =
        redact before ++ kw ++ ": <redacted>" ++ redact after) ∧
    (¬Hides fun c => before ++ "Authorization: Bearer " ++ c ++ after) ∧
    ∀ c, redact (before ++ "Authorization: Bearer " ++ c ++ after) =
      redact (before ++ "Authorization: Bearer ") ++ redact (c ++ after) := by
  refine ⟨fun c c' hc hc' => ?_, ⟨fun hhides hawaits => ?_, fun hnot c c' hc hc' => ?_⟩,
    fun hawaits => ?_, fun hnot c hc => ?_, ?_, fun c => redact_bearer hb c after⟩
  · by_cases hawaits : Awaits before
    · rw [(redact_assigned hb ha hkw hc).2 hawaits, (redact_assigned hb ha hkw hc').2 hawaits]
    · rw [(redact_assigned hb ha hkw hc).1 hawaits, (redact_assigned hb ha hkw hc').1 hawaits]
  · exact not_hides (fun c hc => (redact_stated hb ha hkw hc).2 hawaits) hhides
  · rw [(redact_stated hb ha hkw hc).1 hnot, (redact_stated hb ha hkw hc').1 hnot]
  · exact ((awaits_cases hb).resolve_left fun h => h.1 hawaits).2.1
  · exact ⟨(redact_assigned hb ha hkw hc).1 hnot, (redact_stated hb ha hkw hc).1 hnot⟩
  · exact not_hides fun c _ => redact_bearer hb c after

/-- A password is hidden behind an ordinary text, and shown behind the announcement of a token. -/
theorem redact_hides_password :
    Hides (fun c => "pull failed, " ++ "PassWord" ++ ": " ++ c ++ " was refused") ∧
    ¬Hides fun c => "token: " ++ "PassWord" ++ ": " ++ c ++ " was refused" := by
  have hkw : SecretWord "PassWord".toList := ⟨"password", by decide, by decide⟩
  have ha : Parted " was refused".toList := parted_space "was refused".toList
  have hplain : Parting "pull failed, ".toList := by
    rintro c ⟨⟩
    decide
  have htoken : Parting "token: ".toList := by
    rintro c ⟨⟩
    decide
  exact ⟨(redact_hides hplain ha hkw).2.1.mpr (by decide +kernel),
    fun hhides => (redact_hides htoken ha hkw).2.1.mp hhides (by decide +kernel)⟩

/-- **A credential is shown**: of a bearer, and of a secret word behind the announcement of another
one. -/
theorem redact_shows :
    redact "Authorization: Bearer alpha" ≠ redact "Authorization: Bearer bravo" ∧
    redact "token: password: alpha" ≠ redact "token: password: bravo" := by
  decide +kernel

end Rollout.View
