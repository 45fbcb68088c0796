import MailTransporter.ImapClient

set_option autoImplicit false

/-! # The maintenance commands (`cli.py`)

What a command prints is kept as a list of `Line`s, one constructor per `print`, so that a statement
can speak about the UIDs a command reported on; `Line.text` gives the text itself. -/

namespace MailTransporter

open Effect.Routine (raise attempt getSelf modifySelf settle)

/-- One `print` of a command, or of `main` about the exception that ended it. -/
inductive Line where
  | listing (text : String)
  | confirmFirst
  | noneCarries (keyword : String)
  | doesNotCarry (uid : ℕ) (keyword : String)
  | cleared (uid : ℕ) (keyword : String)
  | alreadyInserted (uid : ℕ) (inserted : String)
  | marked (uid : ℕ) (failed : String)
  | error (text : String)
deriving DecidableEq, Repr

def Line.text : Line → String
  | .listing text => text
  | .confirmFirst =>
      "Messages carrying the unverified keyword were already accepted by Gmail; re-queuing " ++
      "them inserts a duplicate. Pass --yes to confirm."
  | .noneCarries keyword => s!"No message carries {keyword}."
  | .doesNotCarry uid keyword => s!"uid={uid} does not carry {keyword}; skipped"
  | .cleared uid keyword =>
      s!"uid={uid} {keyword} cleared; it will be picked up by the next run"
  | .alreadyInserted uid inserted =>
      s!"uid={uid} already carries {inserted} (Gmail has it); not marking it as failed"
  | .marked uid failed => s!"uid={uid} marked {failed}; it will be skipped from now on"
  | .error text => s!"error: {text}"

/-- The session of a command and what it has printed, oldest line first. -/
structure CliState where
  mailbox : ICloudMailbox
  output : List Line

/-- A step of a command. -/
abbrev Command (α : Type) := Py CliState α

/-- The target of `retry`: `--all` or `--uid ...`, of which argparse requires exactly one. -/
inductive RetryTarget where
  | all
  | uids (uids : List ℕ)
deriving DecidableEq, Repr

structure RetryArgs where
  target : RetryTarget
  unverified : Bool
  yes : Bool
deriving DecidableEq, Repr

/-- One entry of `list-quarantined`. -/
structure Entry where
  uid : ℕ
  keyword : String
  inGmail : Bool
  headers : Option ICloudMailbox.Headers
deriving DecidableEq, Repr

namespace Cli

/-- `_mailbox` -/
def newMailbox (k : Keywords) (readonly : Bool) : ICloudMailbox :=
  { readonly := readonly, skipKeywords := k.quarantine }

def initial (k : Keywords) (readonly : Bool) : CliState := ⟨newMailbox k readonly, []⟩

/-- Call a method of the command's session. -/
def onMailbox {α : Type} (m : Mailbox α) : Command α :=
  m.on CliState.mailbox (fun mailbox s => { s with mailbox := mailbox })

def print (line : Line) : Command Unit :=
  modifySelf (fun s => { s with output := s.output ++ [line] })

def printAll : List Line → Command Unit
  | [] => pure ()
  | line :: rest => do
      print line
      printAll rest

/-- `with mailbox`: the session is closed however the body ends. -/
def withMailbox {α : Type} (body : Command α) : Command α := do
  onMailbox ICloudMailbox.connect
  let outcome ← attempt body
  onMailbox ICloudMailbox.close
  settle outcome

/-! ## `list-quarantined` -/

/-- The entry for a message carrying `flags`, before its headers are known. -/
def entryFor (k : Keywords) (uid : ℕ) (flags : List String) : Option Entry :=
  match k.quarantine.find? (hasFlag flags) with
  | none => none
  | some keyword =>
      some ⟨uid, keyword, decide (keyword = k.unverified) || hasFlag flags k.inserted, none⟩

def collect (parse : Option (List UInt8) → ICloudMailbox.Headers) (k : Keywords) :
    Mailbox (List Entry) := do
  let flags ← ICloudMailbox.inboxFlags
  let entries := flags.filterMap (fun item => entryFor k item.1 item.2)
  let headers ← ICloudMailbox.fetchHeaders parse (entries.map Entry.uid)
  let updated := entries.map (fun e => { e with headers := headers.lookup e.uid })
  pure (updated.insertionSort (fun a b => a.uid ≤ b.uid))

/-- What is printed about the entries without `--json`. -/
def report (entries : List Entry) : List String :=
  if entries = [] then ["No quarantined messages."]
  else
    let n := entries.length
    entries.flatMap (fun e =>
      let place := if e.inGmail then "in Gmail (re-queuing duplicates it)" else "not in Gmail"
      let uid := e.uid
      let keyword := e.keyword
      let date := (e.headers.map ICloudMailbox.Headers.date).getD ""
      let sender := (e.headers.map ICloudMailbox.Headers.sender).getD ""
      let subject := (e.headers.map ICloudMailbox.Headers.subject).getD ""
      [s!"uid={uid} {keyword} [{place}]", s!"    date:    {date}", s!"    from:    {sender}",
        s!"    subject: {subject}"]) ++
    [s!"\n{n} message(s). Re-queue with: mailtransporter retry --uid <UID>"]

/-- A character in a text of `json.dumps` with `ensure_ascii=False`. -/
def jsonChar (c : Char) : String :=
  match c.toNat with
  | 34 => "\\\""
  | 92 => "\\\\"
  | 8 => "\\b"
  | 9 => "\\t"
  | 10 => "\\n"
  | 12 => "\\f"
  | 13 => "\\r"
  | n =>
      if n < 16 then "\\u000" ++ String.ofList (Nat.toDigits 16 n)
      else if n < 32 then "\\u00" ++ String.ofList (Nat.toDigits 16 n)
      else String.singleton c

def jsonText (text : String) : String :=
  "\"" ++ String.join (text.toList.map jsonChar) ++ "\""

/-- The members of an entry, in the order in which they have been put into the dictionary. -/
def members (e : Entry) : List (String × String) :=
  [("uid", toString e.uid), ("keyword", jsonText e.keyword),
    ("in_gmail", if e.inGmail then "true" else "false")] ++
  match e.headers with
  | none => []
  | some headers => [("date", jsonText headers.date), ("from", jsonText headers.sender),
      ("subject", jsonText headers.subject)]

/-- `json.dumps(entries, indent=2, ensure_ascii=False)` -/
def dumps (entries : List Entry) : String :=
  if entries = [] then "[]"
  else
    let member (m : String × String) := "    " ++ jsonText m.1 ++ ": " ++ m.2
    let entry (e : Entry) :=
      "  \x7b\n" ++ ",\n".intercalate ((members e).map member) ++ "\n  \x7d"
    "[\n" ++ ",\n".intercalate (entries.map entry) ++ "\n]"

/-- `_cmd_list` -/
def cmdList (parse : Option (List UInt8) → ICloudMailbox.Headers) (k : Keywords) (json : Bool) :
    Command ℕ := do
  let entries ← withMailbox (onMailbox (collect parse k))
  printAll ((if json then [dumps entries] else report entries).map .listing)
  pure 0

/-! ## `retry` -/

/-- The `for` loop of `_cmd_retry`. -/
def retryAll (keyword : String) (carrying : List ℕ) : List ℕ → Command Unit
  | [] => pure ()
  | uid :: rest => do
      if uid ∈ carrying then do
        onMailbox (ICloudMailbox.removeKeyword uid keyword)
        print (.cleared uid keyword)
        retryAll keyword carrying rest
      else do
        print (.doesNotCarry uid keyword)
        retryAll keyword carrying rest

/-- `sorted(carrying) if args.all else list(args.uid)`; `search_keyword` lists ascending. -/
def retryUids (target : RetryTarget) (carrying : List ℕ) : List ℕ :=
  match target with
  | .all => ICloudMailbox.sortUids carrying.dedup
  | .uids uids => uids

/-- The keyword `retry` clears. -/
def retryKeyword (k : Keywords) (args : RetryArgs) : String :=
  if args.unverified then k.unverified else k.failed

def cmdRetry (k : Keywords) (args : RetryArgs) : Command ℕ :=
  if args.unverified && !args.yes then do
    print .confirmFirst
    pure 2
  else withMailbox do
    let keyword := retryKeyword k args
    let carrying ← onMailbox (ICloudMailbox.searchKeyword keyword)
    let uids := retryUids args.target carrying
    if uids = [] then do
      print (.noneCarries keyword)
      pure 0
    else do
      retryAll keyword carrying uids
      pure 0

/-! ## `mark-failed` -/

/-- `flags.get(uid, ())` -/
def flagsOf (flags : List (ℕ × List String)) (uid : ℕ) : List String := (flags.lookup uid).getD []

/-- The `for` loop of `_cmd_mark_failed`; returns whether a message was refused. -/
def markAll (k : Keywords) (flags : List (ℕ × List String)) : List ℕ → Command Bool
  | [] => pure false
  | uid :: rest => do
      if hasFlag (flagsOf flags uid) k.inserted then do
        print (.alreadyInserted uid k.inserted)
        let _ ← markAll k flags rest
        pure true
      else do
        onMailbox (ICloudMailbox.addKeyword uid k.failed)
        print (.marked uid k.failed)
        markAll k flags rest

def cmdMarkFailed (k : Keywords) (uids : List ℕ) : Command ℕ := withMailbox do
  onMailbox ICloudMailbox.requireKeywords
  let flags ← onMailbox ICloudMailbox.inboxFlags
  let refused ← markAll k flags uids
  pure (if refused then 1 else 0)

/-! ## `main` -/

/-- `main` turns a `MailboxError` of a command into an error line and exit code 1; any other
    exception leaves the process. -/
def exitCode : Except Exc ℕ → Except Exc ℕ
  | .ok code => .ok code
  | .error exc => if exc.isMailboxError then .ok 1 else .error exc

/-- The error line. -/
def errorLine {α : Type} : Except Exc α → List Line
  | .ok _ => []
  | .error exc => if exc.isMailboxError then [.error exc.text] else []

end Cli

end MailTransporter
