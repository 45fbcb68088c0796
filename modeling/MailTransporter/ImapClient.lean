import MailTransporter.Client
import Mathlib.Data.List.Sort
import Mathlib.Data.List.Dedup

set_option autoImplicit false

/-! # The mailbox (`imap_client.py`)

Each method of `ICloudMailbox` is a routine over the session object. A `try` block is a routine of
its own (`attempt`), and the handler is the match on its outcome, so what a `try` covers and what it
leaves out can be read off. Log messages are left out. -/

namespace MailTransporter

open Effect.Routine (raise attempt getSelf modifySelf settle)

/-- `TRASH_FOLDER_CANDIDATES` -/
def trashFolderCandidates : List String := ["Deleted Messages", "Trash"]

structure FetchedMessage where
  uid : ℕ
  raw : RawMail
  flags : List String
deriving Repr

namespace FetchedMessage

def seen (m : FetchedMessage) : Bool := decide ("\\Seen" ∈ m.flags)

def flagged (m : FetchedMessage) : Bool := decide ("\\Flagged" ∈ m.flags)

def hasKeyword (m : FetchedMessage) (keyword : String) : Bool := hasFlag m.flags keyword

end FetchedMessage

/-- `_matches`: the flags carry any of the keywords. -/
def matchesAny (flags keywords : List String) : Bool := keywords.any (hasFlag flags)

/-- The attributes of a session. `connected` is `_client is not None`. -/
structure ICloudMailbox where
  readonly : Bool
  skipKeywords : List String
  connected : Bool := false
  trashFolder : Option String := none
  uidvalidity : ℕ := 0
  supportsIdle : Bool := false
  supportsKeywords : Bool := false
deriving Repr

/-- A method of the session. -/
abbrev Mailbox (α : Type) := Py ICloudMailbox α

namespace ICloudMailbox

/-! ## Lifecycle -/

/-- The `try` of `connect`. -/
def openSession : Mailbox SelectInfo := do
  let self ← getSelf
  call .openClient
  call .login
  call (.selectFolder "INBOX" self.readonly)

def connect : Mailbox Unit := do
  match ← attempt openSession with
  | .error exc => raise (.mailboxError s!"IMAP connect failed: {exc}")
  | .ok info => do
      modifySelf (fun self => { self with
        connected := true
        uidvalidity := info.uidvalidity.getD 0 })
      let supportsIdle ← call (.hasCapability "IDLE")
      modifySelf (fun self => { self with
        supportsIdle := supportsIdle
        supportsKeywords := (info.permanentFlags.getD []).any (fun f => f == "\\*") })

def requireKeywords : Mailbox Unit := do
  let self ← getSelf
  if self.supportsKeywords then pure ()
  else raise (.mailboxError ("IMAP server does not advertise support for custom keywords " ++
    "(PERMANENTFLAGS lacks \\*); refusing to forward"))

def close : Mailbox Unit := do
  let self ← getSelf
  modifySelf (fun self => { self with connected := false })
  if self.connected then do
    match ← attempt (call .logout) with
    | .ok () => pure ()
    | .error _ => do
        let _ ← attempt (call .shutdown)
        pure ()
  else pure ()

/-- The property `client`. -/
def client : Mailbox Unit := do
  let self ← getSelf
  if self.connected then pure () else raise (.mailboxError "IMAP session is not connected")

/-! ## Queries -/

/-- The `SEARCH` criteria of `list_inbox_uids`. -/
def searchCriteria (keywords : List String) : List String :=
  ["NOT", "DELETED"] ++ keywords.flatMap (fun keyword => ["NOT", "KEYWORD", keyword])

/-- `sorted(int(u) for u in ...)` -/
def sortUids (uids : List ℕ) : List ℕ := uids.insertionSort (· ≤ ·)

/-- The `try` of `inbox_flags`. -/
def searchAndFetchFlags : Mailbox (List ℕ × Fetched) := do
  client
  let uids ← call (.search ["NOT", "DELETED"])
  if sortUids uids = [] then pure ([], [])
  else do
    client
    let fetched ← call (.fetch (sortUids uids) .flags)
    pure (sortUids uids, fetched)

/-- `(fetched.get(uid) or {}).get(b"FLAGS", ())` -/
def reportedFlags (fetched : Fetched) (uid : ℕ) : List String :=
  match fetched.lookup uid with
  | some item => item.flags.getD []
  | none => []

/-- The dict is a list of its items; the keys are distinct. -/
def inboxFlags : Mailbox (List (ℕ × List String)) := do
  match ← attempt searchAndFetchFlags with
  | .error exc => raise (.mailboxError s!"IMAP search failed: {exc}")
  | .ok (uids, fetched) => pure (uids.dedup.map (fun uid => (uid, reportedFlags fetched uid)))

/-- The `try` of `list_inbox_uids`. -/
def searchQueue (keywords : List String) : Mailbox (List ℕ) := do
  client
  let uids ← call (.search (searchCriteria keywords))
  pure (sortUids uids)

def listInboxUids (skipKeywords : Option (List String)) : Mailbox (List ℕ) := do
  let self ← getSelf
  let keywords := skipKeywords.getD self.skipKeywords
  match ← attempt (searchQueue keywords) with
  | .ok uids => pure uids
  | .error exc =>
      if keywords = [] then raise (.mailboxError s!"IMAP search failed: {exc}")
      else do
        let flags ← inboxFlags
        pure ((flags.filter (fun item => !matchesAny item.2 keywords)).map Prod.fst)

def searchKeyword (keyword : String) : Mailbox (List ℕ) := do
  let flags ← inboxFlags
  pure ((flags.filter (fun item => matchesAny item.2 [keyword])).map Prod.fst)

/-- The Date / From / Subject of a message, MIME-decoded. -/
structure Headers where
  date : String
  sender : String
  subject : String
deriving DecidableEq, Repr

/-- `parse` stands for `BytesHeaderParser` and `_decode_header` on the bytes of the header section,
    when there are any. -/
def fetchHeaders (parse : Option (List UInt8) → Headers) (uids : List ℕ) :
    Mailbox (List (ℕ × Headers)) := do
  if uids = [] then pure []
  else do
    match ← attempt (do client; call (.fetch uids .headers)) with
    | .error exc => raise (.mailboxError s!"IMAP header fetch failed: {exc}")
    | .ok fetched =>
        pure (uids.map (fun uid => (uid, parse ((fetched.lookup uid).bind FetchItem.headers))))

def fetchMessage (uid : ℕ) : Mailbox FetchedMessage := do
  match ← attempt (do client; call (.fetch [uid] .message)) with
  | .error exc => raise (.mailboxError s!"IMAP fetch failed for uid={uid}: {exc}")
  | .ok data =>
      match (data.lookup uid).bind FetchItem.body with
      | none => raise (.messageGone s!"uid={uid} is no longer in INBOX")
      | some none => raise (.other "TypeError" "cannot convert 'NoneType' object to bytes")
      | some (some raw) => pure ⟨uid, raw, reportedFlags data uid⟩

/-! ## Mutations -/

/-- `keyword.encode("ascii")` -/
def encodeAscii (keyword : String) : Mailbox Unit :=
  if isAscii keyword then pure ()
  else raise (.other "UnicodeEncodeError" "ordinal not in range(128)")

/-- The confirming re-fetch of `add_keyword` and `remove_keyword`. -/
def refetchFlags (uid : ℕ) : Mailbox (List String) := do
  client
  let fetched ← call (.fetch [uid] .flags)
  pure (reportedFlags fetched uid)

/-- The `try` of `add_keyword`: the flags one of the two replies reports. -/
def storeKeyword (uid : ℕ) (keyword : String) : Mailbox (List String) := do
  client
  encodeAscii keyword
  let response ← call (.addFlags uid keyword)
  if hasFlag ((response.lookup uid).getD []) keyword then pure ((response.lookup uid).getD [])
  else refetchFlags uid

def addKeyword (uid : ℕ) (keyword : String) : Mailbox Unit := do
  match ← attempt (storeKeyword uid keyword) with
  | .error exc =>
      raise (.mailboxError s!"IMAP STORE +FLAGS {keyword} failed for uid={uid}: {exc}")
  | .ok flags =>
      if hasFlag flags keyword then pure ()
      else raise (.mailboxError s!"IMAP server did not confirm keyword {keyword} on uid={uid}")

/-- The `try` of `remove_keyword`: a reply without the UID or still with the keyword is
    followed by a re-fetch. -/
def unstoreKeyword (uid : ℕ) (keyword : String) : Mailbox (List String) := do
  client
  encodeAscii keyword
  let response ← call (.removeFlags uid keyword)
  match response.lookup uid with
  | none => refetchFlags uid
  | some flags => if hasFlag flags keyword then refetchFlags uid else pure flags

def removeKeyword (uid : ℕ) (keyword : String) : Mailbox Unit := do
  match ← attempt (unstoreKeyword uid keyword) with
  | .error exc =>
      raise (.mailboxError s!"IMAP STORE -FLAGS {keyword} failed for uid={uid}: {exc}")
  | .ok flags =>
      if hasFlag flags keyword then
        raise (.mailboxError s!"IMAP server did not clear keyword {keyword} on uid={uid}")
      else pure ()

/-- The first of `candidates` that exists. -/
def firstExisting : List String → Mailbox (Option String)
  | [] => pure none
  | candidate :: rest => do
      client
      if ← call (.folderExists candidate) then pure (some candidate) else firstExisting rest

/-- The `try` of `trash_folder`: the argument `imapclient.TRASH` is evaluated before the server is
    asked, and an empty name counts as no name. -/
def findTrashFolder : Mailbox (Option String) := do
  client
  call .trashConstant
  match ← call .findTrash with
  | some name => if name = "" then firstExisting trashFolderCandidates else pure (some name)
  | none => firstExisting trashFolderCandidates

def trashFolderName : Mailbox String := do
  let self ← getSelf
  match self.trashFolder with
  | some name => pure name
  | none =>
      match ← attempt findTrashFolder with
      | .error exc => raise (.mailboxError s!"IMAP folder lookup failed: {exc}")
      | .ok none => raise (.mailboxError "Could not locate the Trash folder on the IMAP server")
      | .ok (some name) => do
          modifySelf (fun self => { self with trashFolder := some name })
          pure name

/-- Create `folder` unless it is there. -/
def createOnDemand (folder : String) : Mailbox Unit := do
  if ← call (.folderExists folder) then pure () else call (.createFolder folder)

/-- RFC 4315 `UID EXPUNGE` removes only this UID. -/
def copyAndExpunge (uid : ℕ) (folder : String) : Mailbox Unit := do
  call (.copy uid folder)
  let _ ← call (.addFlags uid deletedFlag)
  call (.uidExpunge uid)

/-- The `try` of `move_to_folder`. -/
def transfer (uid : ℕ) (folder : String) : Mailbox Unit := do
  createOnDemand folder
  if ← call (.hasCapability "MOVE") then call (.move uid folder)
  else if ← call (.hasCapability "UIDPLUS") then copyAndExpunge uid folder
  else raise (.mailboxError ("IMAP server supports neither MOVE nor UIDPLUS; refusing to move " ++
    s!"uid={uid} because the fallback could expunge unrelated mail"))

def moveToFolder (uid : ℕ) (folder : String) : Mailbox Unit := do
  client
  match ← attempt (transfer uid folder) with
  | .ok () => pure ()
  | .error exc =>
      if exc.isMailboxError then raise exc
      else
        let target := pyRepr folder
        raise (.mailboxError s!"IMAP move uid={uid} -> {target} failed: {exc}")

def moveToTrash (uid : ℕ) : Mailbox Unit := do
  let folder ← trashFolderName
  moveToFolder uid folder

/-! ## Waiting -/

/-- The outer `try` of `idle_wait`; `idle_done` is called however `idle_check` ends. -/
def idleOnce (timeout : ℚ) : Mailbox Bool := do
  call .idle
  let responses ← attempt (call (.idleCheck timeout))
  call .idleDone
  settle responses

/-- The value is whether the server pushed a response. -/
def idleWait (timeout : ℚ) : Mailbox Bool := do
  client
  match ← attempt (idleOnce timeout) with
  | .ok pushed => pure pushed
  | .error exc => raise (.mailboxError s!"IMAP IDLE failed: {exc}")

def noop : Mailbox Unit := do
  match ← attempt (do client; call .noop) with
  | .ok () => pure ()
  | .error exc => raise (.mailboxError s!"IMAP NOOP failed: {exc}")

end ICloudMailbox

end MailTransporter
