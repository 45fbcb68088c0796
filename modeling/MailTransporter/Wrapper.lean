import MailTransporter.Text.Flags
import MailTransporter.Text.Words

set_option autoImplicit false

/-! # The wrappers around `gh pr` (`claude-review.yml`)

The review workflow generates four scripts, `pr-view`, `pr-diff`, `pr-comment` and `pr-review`. A
script checks its arguments and then calls `gh` with them. The two that post something require a
body that carries a verdict and none of the credentials of the job. -/

namespace MailTransporter

open Text

namespace Wrapper

/-! ## What the generator writes into a script -/

/-- The `$sub` of the generator's loop. -/
inductive Sub
  | view
  | diff
  | comment
  | review
deriving DecidableEq

/-- `$sub` -/
def Sub.word : Sub → String
  | view => "view"
  | diff => "diff"
  | comment => "comment"
  | review => "review"

/-- `$posts` -/
def posts : Sub → Bool
  | .comment | .review => true
  | .view | .diff => false

/-- `$flags` -/
def flags : Sub → String
  | .view => " --json "
  | .diff => " "
  | .comment => " --body "
  | .review => " --approve --request-changes --body "

/-! ## The script -/

/-- An exit of a script that does not call `gh`, with what it writes to standard error. -/
structure Exit where
  code : ℕ
  message : String
  failed : code ≠ 0
deriving DecidableEq

/-- The variables of the environment that hold credentials; one that is not set counts as empty. -/
structure Tokens where
  claudeCodeOauthToken : String
  githubToken : String
  ghToken : String
deriving DecidableEq

def Tokens.values (t : Tokens) : List String := [t.claudeCodeOauthToken, t.githubToken, t.ghToken]

/-- The variables of the argument loop; `""` stands for nothing. -/
structure Loop where
  expectValue : String := ""
  verdict : String := ""
  body : String := ""
  haveBody : Bool := false
deriving DecidableEq

def refusedFlag (sub : Sub) (name : String) : Exit where
  code := 64
  message := "pr-" ++ sub.word ++ ": refusing flag " ++ name
  failed := by decide

def noCredential (sub : Sub) : Exit where
  code := 65
  message := "::error::pr-" ++ sub.word ++
    " refused to post: no credential in the environment to screen bodies against"
  failed := by decide

def credentialFound (sub : Sub) : Exit where
  code := 65
  message := "pr-" ++ sub.word ++ ": refusing to post a body containing a credential"
  failed := by decide

/-- The exits with status 66. -/
def refusedPost (sub : Sub) (text : String) : Exit where
  code := 66
  message := "pr-" ++ sub.word ++ ": " ++ text
  failed := by decide

/-- `check_secret` -/
def checkSecret (sub : Sub) (tokens : Tokens) (text : String) : Except Exit Unit :=
  if tokens.claudeCodeOauthToken ++ tokens.githubToken ++ tokens.ghToken = "" then
    if posts sub = true then .error (noCredential sub) else .ok ()
  else
    tokens.values.forM fun secret =>
      if secret ≠ "" ∧ secret.toList <:+: text.toList then .error (credentialFound sub) else .ok ()

/-- The check that only one of the two verdicts is given. -/
def setVerdict (sub : Sub) (s : Loop) (name : String) : Except Exit Loop :=
  if name = "--approve" ∨ name = "--request-changes" then
    if s.verdict ≠ "" ∧ s.verdict ≠ name then
      .error (refusedPost sub "--approve and --request-changes are mutually exclusive")
    else .ok { s with verdict := name }
  else .ok s

/-- `name` is the flag whose value `text` is. -/
def setBody (s : Loop) (name text : String) : Loop :=
  if name = "--body" then { s with body := text, haveBody := true } else s

/-- `case "$flags" in *" $name "*)` -/
def Admitted (sub : Sub) (name : String) : Prop :=
  ' ' :: name.toList ++ [' '] <:+: (flags sub).toList

instance (sub : Sub) (name : String) : Decidable (Admitted sub name) :=
  inferInstanceAs (Decidable (_ <:+: _))

/-- One turn of the argument loop. -/
def argument (sub : Sub) (tokens : Tokens) (s : Loop) (arg : String) : Except Exit Loop :=
  if s.expectValue ≠ "" then do
    checkSecret sub tokens arg
    .ok { setBody s s.expectValue arg with expectValue := "" }
  else if isDashed arg then
    let name := nameOf arg
    if Admitted sub name then do
      let s ← setVerdict sub s name
      match valueOf arg with
      | none => .ok (if name = "--body" ∨ name = "--json" then { s with expectValue := name } else s)
      | some value =>
          checkSecret sub tokens value
          .ok (setBody s name value)
    else .error (refusedFlag sub name)
  else do
    checkSecret sub tokens arg
    .ok s

/-- `$approve` -/
def approve : String := "**判定: 承認 (APPROVE)**"

/-- `$changes` -/
def changes : String := "**判定: 非承認 (REQUEST CHANGES)**"

/-- The loop that takes the leading `[[:space:]]` off; the locale says which characters these are. -/
def trimmed (space : Char → Bool) (body : String) : String :=
  String.ofList (body.toList.dropWhile space)

/-- The checks behind the argument loop. -/
def checkPost (space : Char → Bool) (sub : Sub) (s : Loop) : Except Exit Unit :=
  if posts sub = true then
    if s.haveBody = false then .error (refusedPost sub "needs --body")
    else
      let trimmed := trimmed space s.body
      if sub = .review then
        if s.verdict = "" then .error (refusedPost sub "needs --approve or --request-changes")
        else
          let want := if s.verdict = "--approve" then approve else changes
          if want.toList <+: trimmed.toList then .ok ()
          else .error (refusedPost sub ("the body must start with " ++ want))
      else if approve.toList <+: trimmed.toList ∨ changes.toList <+: trimmed.toList then .ok ()
      else .error (refusedPost sub ("the body must start with " ++ approve ++ " or " ++ changes))
  else .ok ()

/-- A script, called with `args` for the pull request `number`. It ends in a call of `gh` with the
arguments it returns, or exits. -/
def script (space : Char → Bool) (sub : Sub) (number : ℕ) (tokens : Tokens) (args : List String) :
    Except Exit (List String) := do
  let s ← args.foldlM (argument sub tokens) {}
  checkPost space sub s
  .ok (["pr", sub.word, toString number] ++ args)

/-! ## What `gh` makes of the call -/

/-- What `gh` posts: the body, and the verdicts that are true. -/
structure Post where
  body : String
  approve : Bool
  requestChanges : Bool
deriving DecidableEq

/-- The arguments behind `gh pr review` or `gh pr comment`, read with the flags `t` of that command.
A review needs a verdict. -/
def gh (t : Table) (sub : Sub) (args : List String) : Option Post :=
  match t.read none {} args with
  | none => none
  | some p =>
      let post := ⟨(p.text "--body").getD "", p.on "--approve", p.on "--request-changes"⟩
      if sub = .review ∧ post.approve = false ∧ post.requestChanges = false then none
      else some post

/-- The names `gh` gives its flags contain no blank; the body is a text, the verdicts are
booleans. -/
structure Gh (sub : Sub) (t : Table) : Prop where
  body : t.kind "--body" = some .text
  approve : sub = .review → t.kind "--approve" = some .switch
  requestChanges : sub = .review → t.kind "--request-changes" = some .switch
  noBlank : ∀ name, t.kind name ≠ none → ' ' ∉ name.toList

end Wrapper

end MailTransporter
