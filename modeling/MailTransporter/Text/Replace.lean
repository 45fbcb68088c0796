import Mathlib.Data.List.Basic
import Mathlib.Data.List.Infix

set_option autoImplicit false

/-! # Replacing the occurrences of a word

The occurrences of `old` are replaced from left to right, and what is inserted is not searched
again. A replacement that cannot overlap a word never brings that word about
(`infix_of_infix_replace`), and a word that is replaced by something it cannot overlap is gone
(`not_infix_replace`). -/

namespace Text

variable {α : Type} [DecidableEq α]

/-- Replace `old` by `new` in the text behind its first `skip` letters, which are dropped. -/
def replaceFrom (old new : List α) : ℕ → List α → List α
  | _, [] => []
  | skip + 1, _ :: rest => replaceFrom old new skip rest
  | 0, c :: rest =>
      if old <+: c :: rest then new ++ replaceFrom old new (old.length - 1) rest
      else c :: replaceFrom old new 0 rest

/-- Replace every occurrence of `old`, which is not empty, by `new`. -/
def replace (old new text : List α) : List α := replaceFrom old new 0 text

variable {old new word text : List α}

theorem replaceFrom_drop (skip : ℕ) (text : List α) :
    replaceFrom old new skip text = replace old new (text.drop skip) := by
  induction text generalizing skip with
  | nil => cases skip <;> rfl
  | cons c rest ih =>
      cases skip with
      | zero => rfl
      | succ skip => exact ih skip

/-- The occurrence at the head of the text is replaced. -/
theorem replace_append (h : old ≠ []) (text : List α) :
    replace old new (old ++ text) = new ++ replace old new text := by
  cases old with
  | nil => exact absurd rfl h
  | cons c rest =>
      have hprefix : c :: rest <+: c :: (rest ++ text) := ⟨text, rfl⟩
      rw [List.cons_append, replace, replaceFrom, if_pos hprefix, replaceFrom_drop]
      congr 2
      rw [List.length_cons, Nat.add_sub_cancel]
      exact List.drop_left

/-- A letter at which no occurrence starts stays. -/
theorem replace_cons {c : α} (h : ¬old <+: c :: text) :
    replace old new (c :: text) = c :: replace old new text := by
  rw [replace, replaceFrom, if_neg h]
  rfl

/-- A text too short for an occurrence stays. -/
theorem replace_of_short (h : text.length < old.length) : replace old new text = text := by
  induction text with
  | nil => rfl
  | cons c rest ih =>
      have hprefix : ¬old <+: c :: rest := fun hp => absurd hp.length_le (by omega)
      rw [replace_cons hprefix, ih (lt_trans (Nat.lt_succ_self _) h)]

/-- No occurrence of `word` in `before ++ text` starts in `before`. -/
def NotBegun (word before text : List α) : Prop :=
  ∀ start, start <:+ before → start ≠ [] → ¬word <+: start ++ text

/-- What stands before the first occurrence stays. -/
theorem replace_skip {before : List α} (h : NotBegun old before text) :
    replace old new (before ++ text) = before ++ replace old new text := by
  induction before with
  | nil => rfl
  | cons c rest ih =>
      have hhere := h (c :: rest) List.suffix_rfl (List.cons_ne_nil c rest)
      have hkept : replace old new (c :: (rest ++ text)) = c :: replace old new (rest ++ text) :=
        replace_cons hhere
      rw [List.cons_append, hkept, List.cons_append]
      congr 1
      exact ih (fun start hs => h start (hs.trans (List.suffix_cons c rest)))

/-- A text around its only occurrence. -/
theorem replace_once {before after : List α} (h : NotBegun old before (old ++ after))
    (hshort : after.length < old.length) :
    replace old new (before ++ (old ++ after)) = before ++ new ++ after := by
  have hold : old ≠ [] := List.ne_nil_of_length_pos (by omega)
  rw [replace_skip h, replace_append hold, replace_of_short hshort, List.append_assoc]

omit [DecidableEq α] in
/-- A word that overlaps itself repeats its letters. -/
theorem getElem?_of_overlap {start after : List α} (h : word <+: start ++ (word ++ after)) {k : ℕ}
    (hk : k + start.length < word.length) : word[k + start.length]? = word[k]? := by
  obtain ⟨tail, htail⟩ := h
  have hleft : word[k + start.length]? = (word ++ tail)[k + start.length]? :=
    (List.getElem?_append_left hk).symm
  rw [hleft, htail, List.getElem?_append_right (by omega), Nat.add_sub_cancel,
    List.getElem?_append_left (by omega)]

/-! ## Words that do not overlap the replacement -/

/-- An occurrence of `word` around `new` lies before it or behind it. -/
def Apart (word new : List α) : Prop :=
  ∀ before after, word <:+: before ++ new ++ after → word <:+: before ∨ word <:+: after

/-- **No new occurrence.** Induction on the text, with what has been put out before it. -/
theorem infix_of_infix_replaceFrom (hapart : Apart word new) (before : List α) {skip : ℕ}
    (hskip : skip = 0 ∨ before = [])
    (h : word <:+: before ++ replaceFrom old new skip text) : word <:+: before ++ text := by
  induction text generalizing before skip with
  | nil =>
      cases skip with
      | zero => exact h
      | succ skip => exact h
  | cons c rest ih =>
      cases skip with
      | succ skip =>
          have hnil : before = [] := hskip.resolve_left (Nat.succ_ne_zero skip)
          subst hnil
          exact (ih [] (Or.inr rfl) h).trans (List.infix_cons List.infix_rfl)
      | zero =>
          rw [replaceFrom] at h
          split at h
          · rw [← List.append_assoc] at h
            rcases hapart _ _ h with h | h
            · exact h.trans (List.prefix_append before _).isInfix
            · have hrest : word <:+: rest := ih [] (Or.inr rfl) h
              exact (hrest.trans (List.infix_cons List.infix_rfl)).trans
                (List.suffix_append before _).isInfix
          · have hkept := ih (before ++ [c]) (Or.inl rfl) (by simpa using h)
            simpa using hkept

theorem infix_of_infix_replace (hapart : Apart word new)
    (h : word <:+: replace old new text) : word <:+: text :=
  infix_of_infix_replaceFrom hapart [] (Or.inl rfl) h


omit [DecidableEq α] in
theorem NotBegun.not_infix {before : List α} (h : NotBegun word before text) (hword : word ≠ []) :
    ¬word <:+: before := by
  rintro ⟨front, back, rfl⟩
  refine h (word ++ back) ?_ (by simp [hword]) ?_
  · rw [List.append_assoc]
    exact List.suffix_append front _
  · rw [List.append_assoc]
    exact List.prefix_append word _

omit [DecidableEq α] in
theorem NotBegun.snoc {before rest : List α} {c : α} (h : NotBegun word before (c :: rest))
    (hhere : ¬word <+: c :: rest) : NotBegun word (before ++ [c]) rest := by
  intro start hstart hne
  rcases List.suffix_concat_iff.mp hstart with rfl | ⟨start', rfl, hstart'⟩
  · exact absurd rfl hne
  · rw [List.append_assoc]
    by_cases hnil : start' = []
    · rw [hnil]
      exact hhere
    · exact h start' hstart' hnil

/-- **Every occurrence goes.** Induction on the text, with what has been put out before it. -/
theorem not_infix_replaceFrom (hapart : Apart word new) (hword : word ≠ []) (before : List α)
    {skip : ℕ} (hskip : skip = 0 ∨ before = []) (hbefore : NotBegun word before text) :
    ¬word <:+: before ++ replaceFrom word new skip text := by
  induction text generalizing before skip with
  | nil =>
      have hnone := hbefore.not_infix hword
      cases skip with
      | zero => simpa [replaceFrom] using hnone
      | succ skip => simpa [replaceFrom] using hnone
  | cons c rest ih =>
      have hnil : NotBegun word [] rest := fun start hs hne =>
        absurd (List.suffix_nil.mp hs) hne
      cases skip with
      | succ skip =>
          have hempty : before = [] := hskip.resolve_left (Nat.succ_ne_zero skip)
          subst hempty
          exact ih [] (Or.inr rfl) hnil
      | zero =>
          rw [replaceFrom]
          split
          · rw [← List.append_assoc]
            intro h
            rcases hapart _ _ h with h | h
            · exact hbefore.not_infix hword h
            · exact ih [] (Or.inr rfl) hnil h
          · next hhere =>
            have hkept := ih (before ++ [c]) (Or.inl rfl) (hbefore.snoc hhere)
            simpa using hkept

theorem not_infix_replace (hapart : Apart word new) (hword : word ≠ []) (text : List α) :
    ¬word <:+: replace word new text := by
  have hnil : NotBegun word [] text := fun start hs hne => absurd (List.suffix_nil.mp hs) hne
  exact not_infix_replaceFrom hapart hword [] (Or.inl rfl) hnil

end Text
