import MailTransporter.Text.Replace
import Mathlib.Tactic.Linarith

set_option autoImplicit false

/-! # Redaction (`secrets.py`)

Every secret the process loads is registered, and texts that leave it are scrubbed of the registered
values, the longest first. The mask can join with the letters around it, so a value that begins or
ends with an asterisk, or has three of them in a row, may be left in a text; no other value is. -/

namespace MailTransporter

open Text

/-- `value in text` -/
abbrev Contains (text value : String) : Prop := value.toList <:+: text.toList

/-- `text.replace(old, new)` -/
def strReplace (text old new : String) : String :=
  String.ofList (replace old.toList new.toList text.toList)

@[simp] theorem toList_strReplace (text old new : String) :
    (strReplace text old new).toList = replace old.toList new.toList text.toList := by
  simp [strReplace]

/-- `text[:limit]` -/
def truncate (text : String) (limit : ℕ) : String := String.ofList (text.toList.take limit)

theorem Contains.of_truncate {text value : String} {limit : ℕ}
    (h : Contains (truncate text limit) value) : Contains text value := by
  unfold Contains truncate at *
  rw [String.toList_ofList] at h
  exact h.trans (List.take_prefix limit text.toList).isInfix

namespace Secrets

/-- A value `register_secret` remembers. -/
structure Secret where
  value : String
  long : 6 ≤ value.length
deriving DecidableEq

/-- `MASK` -/
def MASK : String := "***"

/-- `ERROR_TEXT_LIMIT` of `server.py` -/
def ERROR_TEXT_LIMIT : ℕ := 500

/-- The registered values, in the order in which the set is iterated. -/
abbrev Registered := List Secret

def registerSecret (registered : Registered) (value : Option String) : Registered :=
  match value with
  | some value => if h : 6 ≤ value.length then registered.insert ⟨value, h⟩ else registered
  | none => registered

/-- `sorted(_SECRET_VALUES, key=len, reverse=True)`, which is stable. -/
def longestFirst (registered : Registered) : Registered :=
  registered.mergeSort (fun a b => decide (b.value.length ≤ a.value.length))

def redact (registered : Registered) (text : String) : String :=
  (longestFirst registered).foldl (fun text secret => strReplace text secret.value MASK) text

/-- The error text of a `/sync` response. -/
def errorText (registered : Registered) (text : String) : String :=
  truncate (redact registered text) ERROR_TEXT_LIMIT

theorem Secret.ne_nil (secret : Secret) : secret.value.toList ≠ [] := by
  intro h
  have hlong := secret.long
  rw [← String.length_toList, h] at hlong
  exact absurd hlong (by simp)

theorem mem_longestFirst {registered : Registered} {secret : Secret} :
    secret ∈ longestFirst registered ↔ secret ∈ registered :=
  List.mem_mergeSort

/-! ## Values the mask cannot join -/

/-- The value neither begins nor ends with an asterisk, nor are there three of them in a row. -/
structure Maskable (value : String) : Prop where
  first : value.toList.head? ≠ some '*'
  last : value.toList.getLast? ≠ some '*'
  inside : ¬Contains value MASK

instance (value : String) : Decidable (Maskable value) :=
  decidable_of_iff (value.toList.head? ≠ some '*' ∧ value.toList.getLast? ≠ some '*' ∧
    ¬Contains value MASK) ⟨fun h => ⟨h.1, h.2.1, h.2.2⟩, fun h => ⟨h.first, h.last, h.inside⟩⟩

/-- A word out of the mask is made of asterisks. -/
theorem eq_star_of_infix_mask {word : List Char} (h : word <:+: MASK.toList) {c : Char}
    (hc : c ∈ word) : c = '*' := by
  have hmem : c ∈ ['*', '*', '*'] := h.subset hc
  simpa using hmem

/-- **An occurrence of such a value lies before the mask or behind it.** -/
theorem Maskable.apart {value : String} (h : Maskable value) :
    Apart value.toList MASK.toList := by
  have hfirst : ∀ (front back : List Char), value.toList = front ++ back →
      front <:+: MASK.toList → front = [] := by
    intro front back heq hfront
    cases front with
    | nil => rfl
    | cons c rest =>
        have hc := eq_star_of_infix_mask hfront List.mem_cons_self
        exact absurd (by rw [heq, hc]; rfl) h.first
  have hlast : ∀ (front back : List Char), value.toList = front ++ back →
      back <:+: MASK.toList → back = [] := by
    intro front back heq hback
    rcases List.eq_nil_or_concat' back with rfl | ⟨rest, c, rfl⟩
    · rfl
    · have hc := eq_star_of_infix_mask hback (List.mem_append_right rest List.mem_cons_self)
      exact absurd (by rw [heq, hc]; simp) h.last
  intro before after hin
  rw [List.append_assoc] at hin
  rcases List.infix_append_iff.mp hin with hbefore | hrest | ⟨front, back, heq, hfront, hback⟩
  · exact Or.inl hbefore
  · right
    rcases List.infix_append_iff.mp hrest with hmask | hafter | ⟨front, back, heq, hfront, hback⟩
    · have hnil := hfirst value.toList [] (by simp) hmask
      rw [hnil]
      exact List.nil_infix
    · exact hafter
    · have hnil := hfirst front back heq hfront.isInfix
      subst hnil
      rw [heq]
      exact hback.isInfix
  · left
    obtain ⟨rest, hrest⟩ := hback
    rcases List.append_eq_append_iff.mp hrest with ⟨tail, htail, -⟩ | ⟨back', rfl, -⟩
    · have hnil := hlast front back heq ⟨[], tail, htail.symm⟩
      subst hnil
      rw [heq, List.append_nil]
      exact hfront.isInfix
    · refine absurd ?_ h.inside
      rw [Contains, heq]
      exact ⟨front, back', by simp⟩

/-- **The loop of `redact`.** A maskable value that is replaced is gone and does not come back. -/
theorem redactAll_clean {value : String} (h : Maskable value) (hne : value.toList ≠ [])
    {secrets : Registered} {text : String}
    (hin : (∃ secret ∈ secrets, secret.value = value) ∨ ¬Contains text value) :
    ¬Contains (secrets.foldl (fun text secret => strReplace text secret.value MASK) text)
      value := by
  induction secrets generalizing text with
  | nil =>
      rcases hin with ⟨secret, hmem, -⟩ | hnot
      · exact absurd hmem List.not_mem_nil
      · exact hnot
  | cons secret rest ih =>
      refine ih ?_
      by_cases hsecret : secret.value = value
      · right
        rw [Contains, toList_strReplace, hsecret]
        exact not_infix_replace h.apart hne text.toList
      · rcases hin with ⟨other, hmem, rfl⟩ | hnot
        · left
          rcases List.mem_cons.mp hmem with rfl | hmem
          · exact absurd rfl hsecret
          · exact ⟨other, hmem, rfl⟩
        · right
          rw [Contains, toList_strReplace]
          exact fun hcontains => hnot (infix_of_infix_replace h.apart hcontains)

theorem redact_clean {registered : Registered} {secret : Secret} (hmem : secret ∈ registered)
    (h : Maskable secret.value) (text : String) : ¬Contains (redact registered text) secret.value :=
  redactAll_clean h secret.ne_nil (Or.inl ⟨secret, mem_longestFirst.mpr hmem, rfl⟩)

/-! ## Values the mask completes -/

/-- Registered alone, the value is put together by the mask and the text around it. -/
theorem completed {value before after : List Char}
    (h : NotBegun value before (value ++ after)) (hshort : after.length < value.length)
    (hin : value <:+: before ++ MASK.toList ++ after) :
    ∃ text, value <:+: replace value MASK.toList text := by
  refine ⟨before ++ (value ++ after), ?_⟩
  rw [replace_once h hshort]
  exact hin

theorem notBegun_nil {value text : List Char} : NotBegun value [] text :=
  fun _ hstart hne => absurd (List.suffix_nil.mp hstart) hne

/-- `*abcde` out of `*abcdeabcde` -/
theorem completed_first {value : List Char} (h : value.head? = some '*') :
    ∃ text, value <:+: replace value MASK.toList text := by
  obtain ⟨rest, rfl⟩ := List.head?_eq_some_iff.mp h
  refine completed notBegun_nil (Nat.lt_succ_self rest.length) ?_
  exact ⟨['*', '*'], [], by simp [MASK]⟩

/-- `abcde*` out of `abcdeabcde*`. The first letter is no asterisk, so no occurrence starts
    earlier. -/
theorem completed_last {value : List Char} (hfirst : value.head? ≠ some '*')
    (h : value.getLast? = some '*') :
    ∃ text, value <:+: replace value MASK.toList text := by
  obtain ⟨before, rfl⟩ := List.getLast?_eq_some_iff.mp h
  have hbegun : NotBegun (before ++ ['*']) before (before ++ ['*'] ++ []) := by
    rintro start ⟨front, rfl⟩ hne hprefix
    obtain ⟨c, rest, rfl⟩ := List.exists_cons_of_ne_nil hne
    -- the overlap repeats the letter that the word begins with where it ends
    have hrepeat := getElem?_of_overlap (k := front.length) hprefix (by simp)
    obtain ⟨tail, htail⟩ := hprefix
    have hhead := congrArg List.head? htail
    simp at hrepeat
    refine hfirst ?_
    cases front with
    | nil => simpa using hrepeat.symm
    | cons d front =>
        simp at hhead
        simpa [hhead] using hrepeat.symm
  exact completed hbegun (by simp) ⟨[], ['*', '*'], by simp [MASK]⟩

/-- Three asterisks in a row start at `m`. -/
def StarsAt (value : List Char) (m : ℕ) : Prop := ∀ j < 3, value[m + j]? = some '*'

instance (value : List Char) (m : ℕ) : Decidable (StarsAt value m) :=
  inferInstanceAs (Decidable (∀ j < 3, value[m + j]? = some '*'))

theorem StarsAt.split {value : List Char} {m : ℕ} (h : StarsAt value m) :
    value = value.take m ++ (MASK.toList ++ value.drop (m + 3)) := by
  have hdrop : ∀ j < 3, value.drop (m + j) = '*' :: value.drop (m + j + 1) := by
    intro j hj
    obtain ⟨hlt, heq⟩ := List.getElem?_eq_some_iff.mp (h j hj)
    rw [List.drop_eq_getElem_cons hlt, heq]
  have hstars : value.drop m = MASK.toList ++ value.drop (m + 3) := by
    have hzero := hdrop 0 (by omega)
    have hone := hdrop 1 (by omega)
    have htwo := hdrop 2 (by omega)
    rw [Nat.add_zero] at hzero
    rw [hzero, hone, htwo]
    rfl
  rw [← hstars, List.take_append_drop]

/-- `ab***cd` out of `abab***cdcd`, around the first three asterisks in a row. -/
theorem completed_inside {value : List Char} (h : MASK.toList <:+: value) :
    ∃ text, value <:+: replace value MASK.toList text := by
  have hstars : ∃ m, StarsAt value m := by
    obtain ⟨before, after, rfl⟩ := h
    refine ⟨before.length, fun j hj => ?_⟩
    have hcases : j = 0 ∨ j = 1 ∨ j = 2 := by omega
    rcases hcases with rfl | rfl | rfl
    all_goals simp [MASK]
  let m := Nat.find hstars
  have hm : StarsAt value m := Nat.find_spec hstars
  have hmin : ∀ n, StarsAt value n → m ≤ n := fun n hn => Nat.find_min' hstars hn
  have hlength : m + 2 < value.length := (List.getElem?_eq_some_iff.mp (hm 2 (by omega))).1
  have hbegun : NotBegun value (value.take m) (value ++ value.drop (m + 3)) := by
    intro start hstart hne hprefix
    have hlong := hstart.length_le
    rw [List.length_take] at hlong
    have hpos : 0 < start.length := List.length_pos_iff.mpr hne
    have hearlier : StarsAt value (m - start.length) := by
      intro j hj
      have hrepeat := getElem?_of_overlap (k := m - start.length + j) hprefix (by omega)
      rw [← hrepeat, show m - start.length + j + start.length = m + j by omega]
      exact hm j hj
    have := hmin _ hearlier
    omega
  have hshort : (value.drop (m + 3)).length < value.length := by
    rw [List.length_drop]
    omega
  have hwhole : value <:+: value.take m ++ MASK.toList ++ value.drop (m + 3) := by
    rw [List.append_assoc, ← hm.split]
  exact completed hbegun hshort hwhole

/-- **A value that is not maskable is left in some text**, even when it is the only secret. -/
theorem redact_leaves {secret : Secret} (h : ¬Maskable secret.value) :
    ∃ text, Contains (redact [secret] text) secret.value := by
  have hleft : ∃ text, secret.value.toList <:+: replace secret.value.toList MASK.toList text := by
    by_cases hfirst : secret.value.toList.head? = some '*'
    · exact completed_first hfirst
    by_cases hlast : secret.value.toList.getLast? = some '*'
    · exact completed_last hfirst hlast
    by_cases hinside : Contains secret.value MASK
    · exact completed_inside hinside
    exact absurd ⟨hfirst, hlast, hinside⟩ h
  obtain ⟨text, htext⟩ := hleft
  refine ⟨String.ofList text, ?_⟩
  have hredact : redact [secret] (String.ofList text) =
      strReplace (String.ofList text) secret.value MASK := by
    simp [redact, longestFirst]
  rw [hredact, Contains, toList_strReplace, String.toList_ofList]
  exact htext

/-! ## Main results -/

/-- **What redaction promises.** Of the values that may be registered, together or some of them,
    none is left in any text, nor in the truncated text of a `/sync` response, exactly if no value
    begins or ends with an asterisk or has three of them in a row. -/
theorem redact_iff (registered : Registered) :
    (∀ present, present ⊆ registered → ∀ secret ∈ present, ∀ text,
      ¬Contains (redact present text) secret.value ∧
        ¬Contains (errorText present text) secret.value) ↔
    ∀ secret ∈ registered, Maskable secret.value := by
  constructor
  · intro hclean secret hmem
    by_contra hnot
    obtain ⟨text, htext⟩ := redact_leaves hnot
    have halone : [secret] ⊆ registered := List.cons_subset.mpr ⟨hmem, List.nil_subset _⟩
    exact (hclean [secret] halone secret List.mem_cons_self text).1 htext
  · intro hmaskable present hsub secret hmem text
    have hgone := redact_clean hmem (hmaskable secret (hsub hmem)) text
    exact ⟨hgone, fun hcontains => hgone hcontains.of_truncate⟩

/-- A password that begins with an asterisk, in a text that goes on like it. -/
theorem redact_leaves_password :
    Contains (errorText (registerSecret [] (some "*abcde")) "LOGIN *abcdeabcde failed")
      "*abcde" := by
  decide +kernel

end Secrets

end MailTransporter
