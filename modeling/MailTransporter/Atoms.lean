import MailTransporter.Settings

set_option autoImplicit false

/-! # Which keywords are accepted

`keyword_from_env` looks for the characters that IMAP does not allow in an atom, one by one, and for
characters beyond ASCII. The control characters are not among them: a tab inside a keyword gets
through. Apart from them, the three settings are accepted exactly if they are three different atoms
that nobody else uses. -/

namespace MailTransporter

namespace Atoms

/-! ## The grammar -/

/-- The control characters of ASCII. -/
def isControl (c : Char) : Bool := decide (c.toNat < 32 ∨ c.toNat = 127)

/-- The characters of an atom (RFC 3501). -/
def isAtomChar (c : Char) : Bool :=
  decide (c.toNat < 128) && !isControl c &&
    decide (c ∉ [' ', '(', ')', '{', '%', '*', '"', '\\', ']'])

/-- An atom: at least one character, all of them characters of an atom. -/
structure IsAtom (s : String) : Prop where
  notEmpty : s ≠ ""
  chars : ∀ c ∈ s.toList, isAtomChar c = true

/-- No control character is in the text. -/
def Uncontrolled (s : String) : Prop := ∀ c ∈ s.toList, isControl c = false

/-- The three values, stripped. -/
structure Supplied where
  inserted : String
  failed : String
  unverified : String
deriving DecidableEq

def supplied (e : Environ) : Supplied where
  inserted := strip (e.getD "INSERTED_KEYWORD" DEFAULT_INSERTED_KEYWORD)
  failed := strip (e.getD "FAILED_KEYWORD" DEFAULT_FAILED_KEYWORD)
  unverified := strip (e.getD "UNVERIFIED_KEYWORD" DEFAULT_UNVERIFIED_KEYWORD)

/-- All three values. -/
def Supplied.All (t : Supplied) (P : String → Prop) : Prop :=
  P t.inserted ∧ P t.failed ∧ P t.unverified

/-- Three keywords of the form `P`, none reserved, no two equal when letter case is ignored. -/
structure Supplied.Valid (P : String → Prop) (t : Supplied) : Prop where
  form : t.All P
  unreserved : t.All (fun s => lower s ∉ RESERVED_KEYWORDS)
  inserted_ne_failed : lower t.inserted ≠ lower t.failed
  inserted_ne_unverified : lower t.inserted ≠ lower t.unverified
  failed_ne_unverified : lower t.failed ≠ lower t.unverified

/-- The values of three validated keywords. -/
def values (k : Keywords) : Supplied := ⟨k.inserted, k.failed, k.unverified⟩

/-- The settings are accepted exactly if they are three atoms that are not reserved and differ. -/
structure Exact (e : Environ) : Prop where
  accepted : ∀ k, keywordsFromEnv e = .ok k → values k = supplied e ∧ (supplied e).Valid IsAtom
  accepts : (supplied e).Valid IsAtom → ∃ k, keywordsFromEnv e = .ok k
  refused : ¬(supplied e).Valid IsAtom → ∃ text, keywordsFromEnv e = .error (.configError text)

/-! ## The check of one keyword -/

theorem isAscii_iff (s : String) : isAscii s = true ↔ ∀ c ∈ s.toList, c.toNat < 128 := by
  simp only [isAscii, List.all_eq_true, decide_eq_true_eq, UInt32.lt_iff_toNat_lt]
  rfl

/-- **What the check leaves out.** An atom is a plain keyword without control characters. -/
theorem isAtom_iff (s : String) : IsAtom s ↔ Plain s ∧ Uncontrolled s := by
  have hchar : ∀ c, isAtomChar c = true ↔
      c.toNat < 128 ∧ c ∉ refusedLetters ∧ isControl c = false := by
    intro c
    simp [isAtomChar, refusedLetters]
    tauto
  constructor
  · intro h
    have hall := fun c hc => (hchar c).mp (h.chars c hc)
    refine ⟨⟨h.notEmpty, fun c hc => (hall c hc).2.1, ?_⟩, fun c hc => (hall c hc).2.2⟩
    exact (isAscii_iff s).mpr (fun c hc => (hall c hc).1)
  · rintro ⟨hplain, hcontrol⟩
    have hascii := (isAscii_iff s).mp hplain.ascii
    exact ⟨hplain.notEmpty,
      fun c hc => (hchar c).mpr ⟨hascii c hc, hplain.letters c hc, hcontrol c hc⟩⟩

/-- A plain keyword does not begin with a backslash. -/
theorem isReserved_iff {s : String} (h : Plain s) :
    isReserved s = true ↔ lower s ∈ RESERVED_KEYWORDS := by
  have hstart : ¬"\\".toList <+: (lower s).toList := by
    intro hprefix
    have hmem : '\\' ∈ (lower s).toList := hprefix.subset (by simp)
    simp only [lower, String.toList_ofList, List.mem_map] at hmem
    obtain ⟨c, hc, hlower⟩ := hmem
    exact h.isKeyword.noBackslash (toLower_eq_backslash hlower ▸ hc)
  simp only [isReserved, Bool.or_eq_true, decide_eq_true_eq]
  exact or_iff_left hstart

/-- A check of one keyword. -/
def Accepts (s : String) : Prop := Plain s ∧ lower s ∉ RESERVED_KEYWORDS

variable {e : Environ}

/-- `keyword_from_env` returns the stripped value if it passes both checks. -/
theorem keywordFromEnv_spec (e : Environ) (name default hint : String) :
    (∃ k, keywordFromEnv e name default hint = .ok k ∧ k.1 = strip (e.getD name default) ∧
      Accepts (strip (e.getD name default))) ∨
    (∃ text, keywordFromEnv e name default hint = .error (.configError text) ∧
      ¬Accepts (strip (e.getD name default))) := by
  unfold keywordFromEnv
  by_cases hplain : Plain (strip (e.getD name default))
  · by_cases hreserved : isReserved (strip (e.getD name default)) = true
    · right
      have hmem := (isReserved_iff hplain).mp hreserved
      simp only [hplain, hreserved]
      exact ⟨_, rfl, fun h => h.2 hmem⟩
    · left
      have hmem := fun h => hreserved ((isReserved_iff hplain).mpr h)
      simp only [hplain, hreserved]
      exact ⟨_, rfl, rfl, hplain, hmem⟩
  · right
    simp only [hplain]
    exact ⟨_, rfl, fun h => hplain h.1⟩

/-! ## The check of the three -/

/-- `quarantine_keywords_from_env` returns the two values if each passes and they differ. -/
theorem quarantineKeywordsFromEnv_spec (e : Environ) :
    (∃ pair, quarantineKeywordsFromEnv e = .ok pair ∧
      pair.1.1.1 = (supplied e).failed ∧ pair.1.2.1 = (supplied e).unverified ∧
      Accepts (supplied e).failed ∧ Accepts (supplied e).unverified) ∨
    (∃ text, quarantineKeywordsFromEnv e = .error (.configError text) ∧
      ¬(Accepts (supplied e).failed ∧ Accepts (supplied e).unverified ∧
        lower (supplied e).failed ≠ lower (supplied e).unverified)) := by
  have hfailed := keywordFromEnv_spec e "FAILED_KEYWORD" DEFAULT_FAILED_KEYWORD quarantineHint
  have hunverified :=
    keywordFromEnv_spec e "UNVERIFIED_KEYWORD" DEFAULT_UNVERIFIED_KEYWORD quarantineHint
  unfold quarantineKeywordsFromEnv
  rcases hfailed with ⟨failed, hok, heq, haccepts⟩ | ⟨text, herror, hnot⟩
  · rcases hunverified with ⟨unverified, hok', heq', haccepts'⟩ | ⟨text, herror', hnot'⟩
    · rw [hok, hok']
      by_cases hsame : lower failed.1 = lower unverified.1
      · right
        simp only [bind, Except.bind, hsame]
        refine ⟨_, rfl, fun h => h.2.2 ?_⟩
        rw [heq, heq'] at hsame
        exact hsame
      · left
        simp only [bind, Except.bind, hsame]
        exact ⟨_, rfl, heq, heq', haccepts, haccepts'⟩
    · right
      rw [hok, herror']
      exact ⟨text, rfl, fun h => hnot' h.2.1⟩
  · right
    rw [herror]
    exact ⟨text, rfl, fun h => hnot h.1⟩

/-- **What `keywords_from_env` accepts**: the values that pass every check. -/
theorem keywordsFromEnv_spec (e : Environ) :
    (∃ k, keywordsFromEnv e = .ok k ∧ values k = supplied e ∧ (supplied e).Valid Plain) ∨
    (∃ text, keywordsFromEnv e = .error (.configError text) ∧ ¬(supplied e).Valid Plain) := by
  have hinserted := keywordFromEnv_spec e "INSERTED_KEYWORD" DEFAULT_INSERTED_KEYWORD
    "existing mail carrying it would be trashed without being forwarded"
  unfold keywordsFromEnv
  rcases hinserted with ⟨inserted, hok, heq, haccepts⟩ | ⟨text, herror, hnot⟩
  · rcases quarantineKeywordsFromEnv_spec e with
      ⟨⟨⟨failed, unverified⟩, hdiffer⟩, hok', hf, hu, hfailed, hunverified⟩ | ⟨text, herror', hnot'⟩
    · have heq : inserted.1 = (supplied e).inserted := heq
      have hf : failed.1 = (supplied e).failed := hf
      have hu : unverified.1 = (supplied e).unverified := hu
      rw [hok, hok']
      by_cases hdistinct : lower inserted.1 ≠ lower failed.1 ∧ lower inserted.1 ≠ lower unverified.1
      · left
        simp only [bind, Except.bind]
        refine ⟨_, dif_pos hdistinct, ?_, ?_⟩
        · simp [values, heq, hf, hu]
        · rw [heq, hf, hu] at hdistinct
          have hdiffer : lower failed.1 ≠ lower unverified.1 := hdiffer
          rw [hf, hu] at hdiffer
          exact ⟨⟨haccepts.1, hfailed.1, hunverified.1⟩, ⟨haccepts.2, hfailed.2, hunverified.2⟩,
            hdistinct.1, hdistinct.2, hdiffer⟩
      · right
        simp only [bind, Except.bind, hdistinct]
        refine ⟨_, rfl, fun h => hdistinct ?_⟩
        rw [heq, hf, hu]
        exact ⟨h.inserted_ne_failed, h.inserted_ne_unverified⟩
    · right
      rw [hok, herror']
      refine ⟨text, rfl, fun h => hnot' ?_⟩
      exact ⟨⟨h.form.2.1, h.unreserved.2.1⟩, ⟨h.form.2.2, h.unreserved.2.2⟩,
        h.failed_ne_unverified⟩
  · right
    rw [herror]
    exact ⟨text, rfl, fun h => hnot ⟨h.form.1, h.unreserved.1⟩⟩

/-! ## Main results -/

theorem valid_isAtom_iff (t : Supplied) :
    t.Valid IsAtom ↔ t.Valid Plain ∧ t.All Uncontrolled := by
  constructor
  · intro h
    obtain ⟨hinserted, hfailed, hunverified⟩ := h.form
    rw [isAtom_iff] at hinserted hfailed hunverified
    have hform : t.All Plain := ⟨hinserted.1, hfailed.1, hunverified.1⟩
    exact ⟨{ h with form := hform }, hinserted.2, hfailed.2, hunverified.2⟩
  · rintro ⟨h, hinserted, hfailed, hunverified⟩
    have hform : t.All IsAtom := ⟨(isAtom_iff _).mpr ⟨h.form.1, hinserted⟩,
      (isAtom_iff _).mpr ⟨h.form.2.1, hfailed⟩, (isAtom_iff _).mpr ⟨h.form.2.2, hunverified⟩⟩
    exact { h with form := hform }

/-- **Which settings are checked exactly.** The check of the keywords is the grammar of atoms, with
    the reserved names and the differences, exactly if there is no control character inside a value,
    or the values are refused for another reason. -/
theorem keywords_exact_iff (e : Environ) :
    Exact e ↔ (supplied e).All Uncontrolled ∨ ¬(supplied e).Valid Plain := by
  have hspec := keywordsFromEnv_spec e
  have hatoms := valid_isAtom_iff (supplied e)
  constructor
  · intro hexact
    rcases hspec with ⟨k, hok, -, -⟩ | ⟨text, -, hnot⟩
    · left
      exact (hatoms.mp (hexact.accepted k hok).2).2
    · right
      exact hnot
  · intro hcondition
    rcases hspec with ⟨k, hok, hvalues, hvalid⟩ | ⟨text, herror, hnot⟩
    · have huncontrolled := hcondition.resolve_right (fun hnot => hnot hvalid)
      have hatom := hatoms.mpr ⟨hvalid, huncontrolled⟩
      refine ⟨fun k' hk' => ?_, fun _ => ⟨k, hok⟩, fun hnot => absurd hatom hnot⟩
      have hsame : k' = k := by simpa [hok] using hk'.symm
      rw [hsame]
      exact ⟨hvalues, hatom⟩
    · have hnone : ¬(supplied e).Valid IsAtom := fun h => hnot (hatoms.mp h).1
      refine ⟨fun k hk => ?_, fun h => absurd h hnone, fun _ => ⟨text, herror⟩⟩
      rw [herror] at hk
      cases hk

/-- An environment in which only the inserted keyword is set. -/
def onlyInserted (keyword : String) : Environ where
  get := fun name => if name = "INSERTED_KEYWORD" then some keyword else none
  accessSecretVersion := fun _ => ""
  int := fun _ => none
  lower := lower
  loads := fun _ => .error .jsonDecodeError

/-- A keyword with a tab in it is accepted. -/
theorem tab_accepted : ¬Exact (onlyInserted "Gmail\tInserted") := by
  intro hexact
  rcases keywordsFromEnv_spec (onlyInserted "Gmail\tInserted") with ⟨k, hok, -, -⟩ | ⟨_, -, hnot⟩
  · have hatom := (hexact.accepted k hok).2.form.1.chars '\t' (by decide)
    exact absurd hatom (by decide)
  · refine hnot ⟨⟨?_, ?_, ?_⟩, ⟨?_, ?_, ?_⟩, ?_, ?_, ?_⟩
    all_goals decide

end Atoms

end MailTransporter
