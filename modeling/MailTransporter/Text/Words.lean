import Mathlib.Data.List.Basic
import Mathlib.Data.List.Infix

set_option autoImplicit false

/-! # Searching a list of words that is written as one text

A separator stands before, between and behind the words, and a word is looked up by searching the
text for it with a separator on either side. The search finds the words, but also what several
consecutive words look like in the text (`infix_padded_iff`). -/

namespace Text

variable {α : Type} [DecidableEq α] {sep : α}

/-- The words with the separator before, between and behind them. -/
def padded (sep : α) (words : List (List α)) : List α :=
  [sep].intercalate ([] :: words ++ [[]])

theorem splitOn_padded {words : List (List α)} (h : ∀ w ∈ words, sep ∉ w) :
    (padded sep words).splitOn sep = [] :: words ++ [[]] := by
  apply List.splitOn_intercalate
  · intro w hw
    rw [List.cons_append, List.mem_cons, List.mem_append, List.mem_singleton] at hw
    rcases hw with rfl | hw | rfl
    · exact List.not_mem_nil
    · exact h w hw
    · exact List.not_mem_nil
  · simp

omit [DecidableEq α] in
/-- Two lists of words, one behind the other. -/
theorem intercalate_append {front back : List (List α)} (hfront : front ≠ []) (hback : back ≠ []) :
    [sep].intercalate (front ++ back) =
      [sep].intercalate front ++ sep :: [sep].intercalate back := by
  induction front with
  | nil => exact absurd rfl hfront
  | cons w rest ih =>
      by_cases hrest : rest = []
      · subst hrest
        rw [List.singleton_append, List.intercalate_cons_of_ne_nil hback,
          List.intercalate_singleton]
        simp
      · have happend : rest ++ back ≠ [] := by simp [hrest]
        rw [List.cons_append, List.intercalate_cons_of_ne_nil happend, ih hrest,
          List.intercalate_cons_of_ne_nil hrest]
        simp

/-- **What the search finds:** the pieces of the word at the separator are consecutive words. -/
theorem infix_padded_iff {words : List (List α)} (h : ∀ w ∈ words, sep ∉ w) {word : List α} :
    sep :: word ++ [sep] <:+: padded sep words ↔ word.splitOn sep <:+: words := by
  constructor
  · rintro ⟨before, after, heq⟩
    have hpieces : before.splitOn sep ++ (word.splitOn sep ++ after.splitOn sep) =
        [] :: words ++ [[]] := by
      rw [← splitOn_padded h, ← heq, ← List.splitOn_append_cons_self,
        ← List.splitOn_append_cons_self]
      simp
    -- The empty pieces at both ends are not pieces of the word.
    obtain ⟨first, front, hfront⟩ := List.exists_cons_of_ne_nil (List.splitOn_ne_nil sep before)
    obtain hback | ⟨back, last, hback⟩ := List.eq_nil_or_concat' (after.splitOn sep)
    · exact absurd hback (List.splitOn_ne_nil sep after)
    · rw [hfront, hback, List.cons_append, List.cons_append, List.cons.injEq,
        ← List.append_assoc, ← List.append_assoc] at hpieces
      have hwords := (List.append_inj' hpieces.2 rfl).1
      exact ⟨front, back, by rw [← hwords, List.append_assoc]⟩
  · rintro ⟨front, back, rfl⟩
    have hword := List.splitOn_ne_nil sep word
    have hcut : padded sep (front ++ word.splitOn sep ++ back) =
        [sep].intercalate ([] :: front) ++ sep :: (word ++ sep :: [sep].intercalate
          (back ++ [[]])) := by
      have hends : ([] :: (front ++ word.splitOn sep ++ back) ++ [[]] : List (List α)) =
          ([] :: front) ++ (word.splitOn sep ++ (back ++ [[]])) := by simp
      rw [padded, hends, intercalate_append (by simp) (by simp [hword]),
        intercalate_append hword (by simp), List.intercalate_splitOn]
    exact ⟨[sep].intercalate ([] :: front), [sep].intercalate (back ++ [[]]), by rw [hcut]; simp⟩

end Text
