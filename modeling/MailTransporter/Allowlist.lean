import MailTransporter.WrapperRules

set_option autoImplicit false

/-! # The list of allowed flags

A flag is looked up by searching the list for it with a blank on either side. The list of
`pr-review` holds several flags, and the search also finds two or three of them in one argument.
Such an argument is let through, although it is no flag of the list. -/

namespace MailTransporter

open Text

namespace Wrapper

variable {sub : Sub} {tokens : Tokens} {space : Char → Bool}

/-- What the search finds beyond the flags: consecutive flags in one argument. -/
def joined : Sub → List String
  | .review => ["--approve --request-changes", "--request-changes --body",
      "--approve --request-changes --body"]
  | .view | .diff | .comment => []

theorem not_mem_listed_of_joined {name : String} (h : name ∈ joined sub) : name ∉ listed sub := by
  revert name
  cases sub <;> decide

/-- The consecutive parts of a list of one. -/
theorem infix_one {α : Type} {a : α} {l : List α} (hne : l ≠ []) (h : l <:+: [a]) : l = [a] := by
  simpa [List.infix_cons_iff, List.prefix_cons_iff, hne] using h

/-- The consecutive parts of a list of three. -/
theorem infix_three {α : Type} {a b c : α} {l : List α} (hne : l ≠ []) (h : l <:+: [a, b, c]) :
    (l = [a] ∨ l = [b] ∨ l = [c]) ∨ l = [a, b] ∨ l = [b, c] ∨ l = [a, b, c] := by
  simp only [List.infix_cons_iff, List.prefix_cons_iff, List.prefix_nil, List.infix_nil, hne,
    false_or, or_false] at h
  rcases h with ⟨_, rfl, rfl | ⟨_, rfl, rfl | ⟨_, rfl, rfl⟩⟩⟩ | ⟨_, rfl, rfl | ⟨_, rfl, rfl⟩⟩ |
    ⟨_, rfl, rfl⟩ <;> simp

/-- **The search finds the flags of the list and those.** -/
theorem admitted_iff_mem {name : String} :
    Admitted sub name ↔ name ∈ listed sub ∨ name ∈ joined sub := by
  constructor
  · intro h
    have hinfix := admitted_iff.mp h
    have hne := List.splitOn_ne_nil ' ' name.toList
    have hname : ∀ text : String, name.toList.splitOn ' ' = text.toList.splitOn ' ' →
        name = text := by
      intro text heq
      have hjoin := congrArg (List.intercalate [' ']) heq
      rw [List.intercalate_splitOn, List.intercalate_splitOn] at hjoin
      exact String.toList_inj.mp hjoin
    cases sub with
    | view => exact Or.inl (List.mem_singleton.mpr (hname "--json" (infix_one hne hinfix)))
    | comment => exact Or.inl (List.mem_singleton.mpr (hname "--body" (infix_one hne hinfix)))
    | diff => exact absurd (List.infix_nil.mp hinfix) hne
    | review =>
        rcases infix_three hne hinfix with (h | h | h) | h | h | h
        · rw [hname "--approve" h]
          decide
        · rw [hname "--request-changes" h]
          decide
        · rw [hname "--body" h]
          decide
        · rw [hname "--approve --request-changes" h]
          decide
        · rw [hname "--request-changes --body" h]
          decide
        · rw [hname "--approve --request-changes --body" h]
          decide
  · intro h
    rcases h with hlisted | hjoined
    · exact admitted_of_mem hlisted
    · revert name
      cases sub <;> decide

/-- The list is exact: no other flag reaches `gh`, and no two different verdicts do. -/
structure Exact (space : Char → Bool) (sub : Sub) (number : ℕ) (tokens : Tokens)
    (args : List String) : Prop where
  listed : ∀ call, script space sub number tokens args = .ok call →
    ∀ name ∈ names (vector args), name ∈ listed sub
  refused : (∃ name ∈ names (vector args), name ∉ Wrapper.listed sub) →
    ∃ e, script space sub number tokens args = .error e ∧ e.code ≠ 0
  oneVerdict : ∀ call, script space sub number tokens args = .ok call →
    ¬("--approve" ∈ names (vector args) ∧ "--request-changes" ∈ names (vector args))

/-- The other grounds on which a vector is refused. -/
inductive Ground (space : Char → Bool) (sub : Sub) (tokens : Tokens) (vector : List Item) : Prop
  /-- A flag that is neither in the list nor a sequence of its flags. -/
  | flag (name : String) (h : name ∈ names vector) (hlisted : name ∉ listed sub)
      (hjoined : name ∉ joined sub)
  | verdicts (h : ¬OneVerdict vector)
  /-- A credential in a text, or none to look for. -/
  | text (text : String) (h : text ∈ texts vector) (hscreen : ¬Screened sub tokens text)
  /-- No body, no verdict, or a body that does not open with the line of the verdict. -/
  | body (h : posts sub = true) (hopened : ¬Opened space sub vector)

theorem passable_iff {args : List String} :
    Passable space sub tokens args ↔ ¬Ground space sub tokens (vector args) := by
  constructor
  · intro h hground
    cases hground with
    | flag name hname hlisted hjoined =>
        rcases admitted_iff_mem.mp (h.names name hname) with hmem | hmem
        · exact hlisted hmem
        · exact hjoined hmem
    | verdicts hverdicts => exact hverdicts h.oneVerdict
    | text text htext hscreen => exact hscreen (h.texts text htext)
    | body hposts hopened => exact hopened (h.opened hposts)
  · intro hnone
    constructor
    case names =>
      intro name hname
      by_contra hadmitted
      rw [admitted_iff_mem, not_or] at hadmitted
      exact hnone (.flag name hname hadmitted.1 hadmitted.2)
    case texts =>
      intro text htext
      by_contra hscreen
      exact hnone (.text text htext hscreen)
    case oneVerdict =>
      by_contra hverdicts
      exact hnone (.verdicts hverdicts)
    case opened =>
      intro hposts
      by_contra hopened
      exact hnone (.body hposts hopened)

/-- A script that does not call `gh` exits with a status that is not 0. -/
theorem refused_of_not_passable {number : ℕ} {args : List String}
    (h : ¬Passable space sub tokens args) :
    ∃ e, script space sub number tokens args = .error e ∧ e.code ≠ 0 := by
  rw [← script_ok_iff] at h
  cases hscript : script space sub number tokens args with
  | ok call => exact absurd ⟨call, hscript⟩ h
  | error e => exact ⟨e, rfl, e.failed⟩

/-- **When the list is exact:** no argument holds several of its flags, or the vector is refused on
another ground. -/
theorem exact_iff (space : Char → Bool) (sub : Sub) (number : ℕ) (tokens : Tokens)
    (args : List String) :
    Exact space sub number tokens args ↔
      (∀ name ∈ names (vector args), name ∉ joined sub) ∨
        Ground space sub tokens (vector args) := by
  constructor
  · intro h
    by_cases hground : Ground space sub tokens (vector args)
    · exact Or.inr hground
    · left
      obtain ⟨call, hcall⟩ := script_ok_iff.mpr (passable_iff.mpr hground)
      intro name hname hjoined
      exact not_mem_listed_of_joined hjoined (h.listed call hcall name hname)
  · intro h
    have hlisted : Passable space sub tokens args →
        ∀ name ∈ names (vector args), name ∈ listed sub := by
      intro hpassable name hname
      have hjoined := h.resolve_right (passable_iff.mp hpassable) name hname
      exact (admitted_iff_mem.mp (hpassable.names name hname)).resolve_right hjoined
    constructor
    case listed =>
      intro call hcall
      exact hlisted (script_ok_iff.mp ⟨call, hcall⟩)
    case refused =>
      rintro ⟨name, hname, hmem⟩
      exact refused_of_not_passable (fun hpassable => hmem (hlisted hpassable name hname))
    case oneVerdict =>
      intro call hcall ⟨happrove, hchanges⟩
      have hone := (script_ok_iff.mp ⟨call, hcall⟩).oneVerdict
      exact absurd (hone _ happrove _ hchanges (Or.inl rfl) (Or.inr rfl)) (by decide)

/-- Two flags in one argument reach `gh`. -/
theorem joined_passes :
    ¬∀ (space : Char → Bool) (sub : Sub) (number : ℕ) (tokens : Tokens) (args : List String),
      Exact space sub number tokens args := by
  intro h
  have hscript : script Char.isWhitespace .review 3 ⟨"sk-ant-oat-SECRET", "ghs_SECRET", ""⟩
      ["--approve --request-changes", "--approve", "--body", "**判定: 承認 (APPROVE)**"] =
      .ok ["pr", "review", "3", "--approve --request-changes", "--approve", "--body",
        "**判定: 承認 (APPROVE)**"] := by
    decide +kernel
  have hlisted := (h _ _ _ _ _).listed _ hscript "--approve --request-changes" (by decide +kernel)
  exact absurd hlisted (by decide)

end Wrapper

end MailTransporter
