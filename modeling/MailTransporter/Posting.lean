import MailTransporter.WrapperRules

set_option autoImplicit false

/-! # What the wrappers post

The script reads its arguments a second time, before `gh` does. Both readings find the same items,
so the body that `gh` posts is the one that has been screened and whose verdict has been
compared. -/

namespace MailTransporter

open Text

namespace Wrapper

variable {sub : Sub} {tokens : Tokens} {space : Char → Bool} {t : Table}

/-- **The script and `gh` find the same items.** -/
theorem fits {args : List String} (hgh : Gh sub t) (hposts : posts sub = true)
    (h : ∀ name ∈ names (vector args), Admitted sub name) : t.Fits takesValue (vector args) where
  long name hname := (h name hname).isLong
  kinds name hname k hkind := by
    have hblank : ' ' ∉ name.toList := hgh.noBlank name (by rw [hkind]; simp)
    have hlisted := (mem_listed_iff hblank).mpr (h name hname)
    have hbody : name = "--body" → (k = .text ↔ takesValue name = true) := by
      rintro rfl
      rw [hgh.body, Option.some.injEq] at hkind
      subst hkind
      decide
    have hverdict : IsVerdict name → sub = .review → (k = .text ↔ takesValue name = true) := by
      intro his hreview
      have hswitch : t.kind name = some .switch := by
        rcases his with rfl | rfl
        · exact hgh.approve hreview
        · exact hgh.requestChanges hreview
      rw [hswitch, Option.some.injEq] at hkind
      subst hkind
      rcases his with rfl | rfl <;> decide
    cases sub with
    | view => exact absurd hposts (by decide)
    | diff => exact absurd hposts (by decide)
    | comment => exact hbody (List.mem_singleton.mp hlisted)
    | review =>
        simp only [listed, List.mem_cons, List.not_mem_nil, or_false] at hlisted
        rcases hlisted with hname | hname | hname
        · exact hverdict (Or.inl hname) rfl
        · exact hverdict (Or.inr hname) rfl
        · exact hbody hname

/-- A number is no flag. -/
theorem isDashed_toString (number : ℕ) : ¬isDashed (toString number) = true := by
  intro h
  have hdigits : (toString number).toList = Nat.toDigits 10 number := by
    simp [toString, Nat.repr]
  have hdash : '-' ∈ Nat.toDigits 10 number := by
    rw [← hdigits]
    exact List.mem_of_head? (eq_of_beq h)
  exact absurd (Nat.isDigit_of_mem_toDigits (by omega) (by omega) hdash) (by decide)

/-- A positional argument in front is read first. -/
theorem read_positional {arg : String} (h : ¬isDashed arg = true) (args : List String) :
    t.read none {} (arg :: args) = t.read none { positional := [arg] } args := by
  have hlong : ¬isLong (nameOf arg) = true := fun hlong => h (isDashed_of_isLong hlong)
  have hprefix : ¬"--".toList <+: arg.toList := by
    rintro ⟨back, hback⟩
    exact h (by simp [isDashed, ← hback])
  have hend : arg ≠ "--" := by
    rintro rfl
    exact hprefix List.prefix_rfl
  rw [Table.read, if_neg hlong, if_neg hend, if_neg hprefix, if_neg (fun hc => h hc.1)]
  rfl

/-- **What `gh` posts:** the last body, with verdicts out of the flags. -/
theorem gh_post {number : ℕ} {args : List String} {post : Post}
    (hfits : t.Fits takesValue (vector args)) (hbody : t.kind "--body" = some .text)
    (h : gh t sub (toString number :: args) = some post) :
    post.body = (lastValue "--body" (vector args)).getD "" ∧
      (post.approve = true → "--approve" ∈ names (vector args)) ∧
      (post.requestChanges = true → "--request-changes" ∈ names (vector args)) := by
  rw [gh, read_positional (isDashed_toString number)] at h
  cases hread : t.read none { positional := [toString number] } args with
  | none =>
      rw [hread] at h
      exact absurd h (by simp)
  | some p =>
      have hreads := Table.read_spec hfits hread
      have htext := hreads.text "--body" hbody
      have hon : ∀ name, p.on name = true → name ∈ names (vector args) := by
        intro name hon
        exact (hreads.on name hon).resolve_right (by simp [Parsed.on])
      rw [hread] at h
      simp only at h
      split_ifs at h
      rw [← Option.some.inj h]
      refine ⟨?_, hon _, hon _⟩
      rw [htext]
      simp [Parsed.text]

/-- What a call of `gh` is like that the script has made. -/
structure Vouched (space : Char → Bool) (sub : Sub) (tokens : Tokens) (t : Table)
    (args call : List String) : Prop where
  credential : ∃ secret ∈ tokens.values, secret ≠ ""
  screened : ∀ text ∈ texts (vector args), ∀ secret ∈ tokens.values, secret ≠ "" →
    ¬secret.toList <:+: text.toList
  body : ∀ post, gh t sub call = some post → post.body ∈ texts (vector args)
  review : sub = .review → ∀ post, gh t sub call = some post →
    (post.approve = true → Opens space post.body approve) ∧
      (post.requestChanges = true → Opens space post.body changes)
  comment : sub = .comment → ∀ post, gh t sub call = some post →
    Opens space post.body approve ∨ Opens space post.body changes

/-- **Only screened bodies with a matching verdict are posted.** -/
theorem posts_vouched {number : ℕ} {args call : List String} (hgh : Gh sub t)
    (hposts : posts sub = true)
    (h : script space sub number tokens args = .ok (["pr", sub.word] ++ call)) :
    Vouched space sub tokens t args call := by
  have hpassable := script_ok_iff.mp ⟨_, h⟩
  have hcall : call = toString number :: args := by
    simp only [script, bind_eq_ok_iff] at h
    obtain ⟨_, _, _, _, heq⟩ := h
    simpa using (Except.ok.inj heq).symm
  obtain ⟨body, hlast, hopened⟩ := hpassable.opened hposts
  have hbody := mem_texts_of_lastValue hlast
  have hpost : ∀ post, gh t sub call = some post → post.body = body ∧
      (post.approve = true → "--approve" ∈ names (vector args)) ∧
      (post.requestChanges = true → "--request-changes" ∈ names (vector args)) := by
    intro post hgh'
    rw [hcall] at hgh'
    have hread := gh_post (fits hgh hposts hpassable.names) hgh.body hgh'
    rwa [hlast] at hread
  constructor
  case credential => exact (hpassable.texts body hbody).credential hposts
  case screened => exact fun text htext => (hpassable.texts text htext).clean
  case body =>
    intro post hgh'
    rw [(hpost post hgh').1]
    exact hbody
  case review =>
    intro hreview post hgh'
    obtain ⟨heq, happrove, hchanges⟩ := hpost post hgh'
    rw [if_pos hreview] at hopened
    obtain ⟨verdict, hmem, his, hopens⟩ := hopened
    have hsame : ∀ name ∈ names (vector args), IsVerdict name →
        Opens space post.body (line name) := by
      intro name hname hisname
      rw [heq, hpassable.oneVerdict name hname verdict hmem hisname his]
      exact hopens
    rw [← line_approve, ← line_requestChanges]
    exact ⟨fun ha => hsame _ (happrove ha) (Or.inl rfl),
      fun hc => hsame _ (hchanges hc) (Or.inr rfl)⟩
  case comment =>
    intro hcomment post hgh'
    rw [if_neg (by rw [hcomment]; decide)] at hopened
    rw [(hpost post hgh').1]
    exact hopened

/-- The flags of `gh pr review`, without the short ones. -/
def ghReview : Table where
  kind name :=
    if name ∈ ["--body", "--body-file", "--repo"] then some .text
    else if name ∈ ["--approve", "--comment", "--help", "--request-changes"] then some .switch
    else none
  short _ _ _ := none

theorem ghReview_spec : Gh .review ghReview where
  body := by decide
  approve _ := by decide
  requestChanges _ := by decide
  noBlank name h := by
    have htexts : ∀ name ∈ ["--body", "--body-file", "--repo"], ' ' ∉ name.toList := by decide
    have hswitches : ∀ name ∈ ["--approve", "--comment", "--help", "--request-changes"],
        ' ' ∉ name.toList := by decide
    simp only [ghReview] at h
    split_ifs at h with htext hswitch
    · exact htexts name htext
    · exact hswitches name hswitch
    · exact absurd rfl h

/-- A review that approves. -/
theorem posts_vouched_review :
    Vouched Char.isWhitespace .review ⟨"sk-ant-oat-SECRET", "ghs_SECRET", ""⟩ ghReview
      ["--approve", "--body", "\n**判定: 承認 (APPROVE)** - ok"]
      ["3", "--approve", "--body", "\n**判定: 承認 (APPROVE)** - ok"] ∧
    gh ghReview .review ["3", "--approve", "--body", "\n**判定: 承認 (APPROVE)** - ok"] =
      some ⟨"\n**判定: 承認 (APPROVE)** - ok", true, false⟩ := by
  have h : script Char.isWhitespace .review 3 ⟨"sk-ant-oat-SECRET", "ghs_SECRET", ""⟩
      ["--approve", "--body", "\n**判定: 承認 (APPROVE)** - ok"] =
      .ok (["pr", Sub.review.word] ++
        ["3", "--approve", "--body", "\n**判定: 承認 (APPROVE)** - ok"]) := by
    decide +kernel
  exact ⟨posts_vouched ghReview_spec rfl h, by decide +kernel⟩

end Wrapper

end MailTransporter
