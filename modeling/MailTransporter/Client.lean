import MailTransporter.Config
import MailTransporter.Effect.Routine

set_option autoImplicit false

/-! # The calls the tool makes

One call per method of the libraries the tool drives (`imapclient`, the Gmail client, the clock, the
notifier), with the values a call returns and the exceptions that pass through the tool. Every call
may be answered by a value or by an exception. `Op.trashConstant` is no call but the reading of an
attribute of the package, which may raise as a call may.

`Op.issueTrash` is the one call that is not in the source: it stands immediately before a
`move_to_trash` and lets a history speak about the moves to the Trash that were issued. -/

namespace MailTransporter

/-- The RFC 822 content of a mail. `ident` says which mail it is, for histories in which two mails
    have the same bytes; the tool passes the content on and reads neither field. -/
structure RawMail where
  ident : ℕ
  bytes : List UInt8
deriving DecidableEq, Repr

/-! ## Exceptions -/

/-- The subclasses of `GmailError`, and the base class itself. -/
inductive GmailErrorClass where
  | base
  | retryable
  | permanent
  | auth
deriving DecidableEq, Repr

/-- The exceptions the tool raises or handles; `other` is any other subclass of `Exception`. -/
inductive Exc where
  | mailboxError (text : String)
  | messageGone (text : String)
  | abortRun (text : String)
  | gmailError (cls : GmailErrorClass) (text : String) (status : Option ℤ)
  | other (name text : String)
deriving DecidableEq, Repr

/-- `str(exc)` -/
def Exc.text : Exc → String
  | .mailboxError text => text
  | .messageGone text => text
  | .abortRun text => text
  | .gmailError _ text _ => text
  | .other _ text => text

instance : ToString Exc := ⟨Exc.text⟩

/-- `isinstance(exc, MailboxError)`: `MessageGone` is a subclass. -/
def Exc.isMailboxError : Exc → Bool
  | .mailboxError _ => true
  | .messageGone _ => true
  | _ => false

def Exc.isGmailError : Exc → Bool
  | .gmailError _ _ _ => true
  | _ => false

/-- `repr` of a string without quotes or escapes in it. -/
def pyRepr (s : String) : String := "'" ++ s ++ "'"

/-! ## Answers -/

/-- The reply to `SELECT`: `info.get(b"UIDVALIDITY")` and `info.get(b"PERMANENTFLAGS")`. -/
structure SelectInfo where
  uidvalidity : Option ℕ
  permanentFlags : Option (List String)
deriving Repr

/-- What a `FETCH` asks for. -/
inductive FetchItems where
  | message
  | flags
  | headers
deriving DecidableEq, Repr

/-- One item of a `FETCH` reply. A part may be absent; a body may be there and be NIL. -/
structure FetchItem where
  body : Option (Option RawMail)
  flags : Option (List String)
  headers : Option (List UInt8)
deriving Repr

/-- A `FETCH` reply, a dict keyed by UID. -/
abbrev Fetched := List (ℕ × FetchItem)

/-- The reply to `STORE`: the flags it reports, keyed by UID. -/
abbrev Stored := List (ℕ × List String)

/-- `TriggerResult` of `watcher.py` -/
structure TriggerResult where
  ok : Bool
  busy : Bool := false
  remaining : ℤ := 0
  error : Option String := none
deriving DecidableEq, Repr

/-! ## Calls -/

inductive Op where
  -- imapclient
  | openClient
  | login
  | selectFolder (folder : String) (readonly : Bool)
  | hasCapability (name : String)
  | search (criteria : List String)
  | fetch (uids : List ℕ) (items : FetchItems)
  | addFlags (uid : ℕ) (flag : String)
  | removeFlags (uid : ℕ) (flag : String)
  /-- `imapclient.TRASH`: an `AttributeError` where the package does not export the name. -/
  | trashConstant
  | findTrash
  | folderExists (folder : String)
  | createFolder (folder : String)
  | move (uid : ℕ) (folder : String)
  | copy (uid : ℕ) (folder : String)
  | uidExpunge (uid : ℕ)
  | logout
  | shutdown
  | idle
  | idleCheck (timeout : ℚ)
  | idleDone
  | noop
  -- the Gmail client
  | gmailClient
  | ensureLabel (name : String)
  | insertRaw (raw : RawMail) (labels : List String)
  -- the process
  | clock
  | sleep (seconds : ℚ)
  | trigger
  | touch (ttl : ℚ) (note : String)
  | issueTrash (raw : RawMail)
deriving DecidableEq

/-- The value a call returns. -/
@[reducible] def Value : Op → Type
  | .openClient => Unit
  | .login => Unit
  | .selectFolder _ _ => SelectInfo
  | .hasCapability _ => Bool
  | .search _ => List ℕ
  | .fetch _ _ => Fetched
  | .addFlags _ _ => Stored
  | .removeFlags _ _ => Stored
  | .trashConstant => Unit
  | .findTrash => Option String
  | .folderExists _ => Bool
  | .createFolder _ => Unit
  | .move _ _ => Unit
  | .copy _ _ => Unit
  | .uidExpunge _ => Unit
  | .logout => Unit
  | .shutdown => Unit
  | .idle => Unit
  | .idleCheck _ => Bool
  | .idleDone => Unit
  | .noop => Unit
  | .gmailClient => Unit
  | .ensureLabel _ => String
  | .insertRaw _ _ => String
  | .clock => ℚ
  | .sleep _ => Unit
  | .trigger => TriggerResult
  | .touch _ _ => Unit
  | .issueTrash _ => Unit

/-- The answer to a call: its value or an exception. -/
abbrev Reply (op : Op) := Effect.Answer Value Exc op

/-- A method of the tool working on the object `σ`. -/
abbrev Py (σ α : Type) := Effect.Routine Op Value Exc σ α

/-- Make a call. -/
def call {σ : Type} (op : Op) : Py σ (Value op) := Effect.Routine.call op

/-- What the sessions ask of `imapclient`. -/
def Op.isImap : Op → Bool
  | .openClient => true
  | .login => true
  | .selectFolder _ _ => true
  | .hasCapability _ => true
  | .search _ => true
  | .fetch _ _ => true
  | .addFlags _ _ => true
  | .removeFlags _ _ => true
  | .trashConstant => true
  | .findTrash => true
  | .folderExists _ => true
  | .createFolder _ => true
  | .move _ _ => true
  | .copy _ _ => true
  | .uidExpunge _ => true
  | .logout => true
  | .shutdown => true
  | .idle => true
  | .idleCheck _ => true
  | .idleDone => true
  | .noop => true
  | _ => false

end MailTransporter
