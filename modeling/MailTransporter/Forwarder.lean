import MailTransporter.ImapClient

set_option autoImplicit false

/-! # The sync loop (`forwarder.py`)

`Forwarder.run` with the helpers it is made of. The state of a run is the session, the `SyncResult`
being filled in and the list of rejections settled at the end; all three are mutable objects of the
source, so they survive an exception. The folder and keyword a quarantine uses are arguments, as in
the source. -/

namespace MailTransporter

open Effect.Routine (raise attempt getSelf modifySelf settle)

/-- `PER_MESSAGE_STATUSES` of `gmail_client.py` -/
def perMessageStatuses : List ℤ := [413]

/-- `GmailError.per_message` -/
def perMessage (status : Option ℤ) : Bool :=
  match status with
  | some code => decide (code ∈ perMessageStatuses)
  | none => false

structure SyncResult where
  listed : ℕ := 0
  forwarded : ℕ := 0
  trashed : ℕ := 0
  skipped : ℕ := 0
  retryLater : ℕ := 0
  quarantined : ℕ := 0
  remaining : ℕ := 0
  durationSeconds : ℚ := 0
  error : Option String := none
deriving DecidableEq, Repr

structure Rejection where
  uid : ℕ
  error : String
  perMessage : Bool := false
deriving DecidableEq, Repr

/-- The mutable objects of a run. -/
structure RunState where
  mailbox : ICloudMailbox
  result : SyncResult
  rejected : List Rejection

/-- A step of a run. -/
abbrev Run (α : Type) := Py RunState α

/-- Call a method of the run's session. -/
def onMailbox {α : Type} (m : Mailbox α) : Run α :=
  m.on RunState.mailbox (fun mailbox s => { s with mailbox := mailbox })

/-- Update the result. -/
def count (f : SyncResult → SyncResult) : Run Unit :=
  modifySelf (fun s => { s with result := f s.result })

def gmailLabelsFor (message : FetchedMessage) (extraLabelIds : List String) : List String :=
  ["INBOX"] ++ (if message.seen then [] else ["UNREAD"]) ++
    (if message.flagged then ["STARRED"] else []) ++ extraLabelIds

/-- `round(x, 3)`: ties go to the even neighbour. -/
def round3 (x : ℚ) : ℚ :=
  let low := (x * 1000).floor
  let rest := x * 1000 - low
  if rest < 1 / 2 then low / 1000
  else if 1 / 2 < rest then (low + 1) / 1000
  else if low % 2 = 0 then low / 1000
  else (low + 1) / 1000

/-- `result.error or text` -/
def SyncResult.keepError (result : SyncResult) (text : String) : Option String :=
  match result.error with
  | some first => if first = "" then some text else some first
  | none => some text

namespace Forwarder

/-! ## Quarantine -/

/-- The folder move of `_quarantine`. -/
def moveAside (uid : ℕ) (folder : String) : Run Unit := do
  match ← attempt (onMailbox (ICloudMailbox.moveToFolder uid folder)) with
  | .ok () => count (fun r => { r with quarantined := r.quarantined + 1 })
  | .error exc =>
      if exc.isMailboxError then
        raise (.abortRun s!"IMAP failure while quarantining uid={uid}: {exc}")
      else raise exc

def quarantine (o : ForwarderOptions) (uid : ℕ) (keyword folder : String) : Run Unit := do
  if o.quarantineMode = .keyword then do
    match ← attempt (onMailbox (ICloudMailbox.addKeyword uid keyword)) with
    | .ok () => count (fun r => { r with quarantined := r.quarantined + 1 })
    | .error exc => if exc.isMailboxError then moveAside uid folder else raise exc
  else moveAside uid folder

/-! ## One message -/

/-- The end of `_process`: the message has been inserted and goes to the Trash. -/
def trash (message : FetchedMessage) : Run Unit := do
  let uid := message.uid
  call (.issueTrash message.raw)
  match ← attempt (onMailbox (ICloudMailbox.moveToTrash uid)) with
  | .ok () => count (fun r => { r with trashed := r.trashed + 1 })
  | .error exc =>
      if exc.isMailboxError then
        raise (.abortRun s!"IMAP failure while trashing uid={uid}: {exc}")
      else raise exc

/-- `_process` once the insert has returned. -/
def recordInsert (o : ForwarderOptions) (message : FetchedMessage) : Run Unit := do
  count (fun r => { r with forwarded := r.forwarded + 1 })
  match ← attempt (onMailbox (ICloudMailbox.addKeyword message.uid o.keywords.inserted)) with
  | .ok () => trash message
  | .error exc =>
      if exc.isMailboxError then
        quarantine o message.uid o.keywords.unverified o.unverifiedFolder
      else raise exc

/-- `_process` for a message that is neither quarantined nor inserted yet. -/
def insert (o : ForwarderOptions) (extraLabels : List String) (message : FetchedMessage) :
    Run Unit := do
  match ← attempt (call (.insertRaw message.raw (gmailLabelsFor message extraLabels))) with
  | .ok _ => recordInsert o message
  | .error (.gmailError .auth text _) => raise (.abortRun text)
  | .error (.gmailError .retryable _ _) =>
      count (fun r => { r with retryLater := r.retryLater + 1 })
  | .error (.gmailError .permanent text status) =>
      modifySelf (fun s => { s with
        rejected := s.rejected ++ [⟨message.uid, text, MailTransporter.perMessage status⟩] })
  | .error exc => raise exc

def process (o : ForwarderOptions) (extraLabels : List String) (uid : ℕ) : Run Unit := do
  match ← attempt (onMailbox (ICloudMailbox.fetchMessage uid)) with
  | .error (.messageGone _) => count (fun r => { r with skipped := r.skipped + 1 })
  | .error exc =>
      if exc.isMailboxError then
        raise (.abortRun s!"IMAP failure while fetching uid={uid}: {exc}")
      else raise exc
  | .ok message =>
      if o.keywords.quarantine.any message.hasKeyword then
        count (fun r => { r with skipped := r.skipped + 1 })
      else if message.hasKeyword o.keywords.inserted then trash message
      else insert o extraLabels message

/-! ## Settling the rejections -/

/-- The `for` loop of `_settle_rejections`; an `AbortRun` ends it. -/
def quarantineAll (o : ForwarderOptions) : List Rejection → Run Unit
  | [] => pure ()
  | rejection :: rest => do
      match ← attempt (quarantine o rejection.uid o.keywords.failed o.failedFolder) with
      | .ok () => quarantineAll o rest
      | .error (.abortRun text) => count (fun r => { r with error := r.keepError text })
      | .error exc => raise exc

/-- The circuit breaker's condition. The threshold is any integer; zero switches it off. -/
def breakerTrips (threshold : ℤ) (suspicious : List Rejection) (forwarded : ℕ) : Bool :=
  decide (threshold ≠ 0) && decide (threshold ≤ suspicious.length) && decide (forwarded = 0)

/-- The breaker's message reads `suspicious[0]`. -/
def breakerMessage (suspicious : List Rejection) : Run String :=
  match suspicious with
  | [] => raise (.other "IndexError" "list index out of range")
  | first :: _ =>
      let n := suspicious.length
      let text := first.error
      pure (s!"{n} message(s) were rejected by Gmail and none were accepted; " ++
        "suspecting an account or configuration problem, they were not quarantined. " ++
        s!"First error: {text}")

def settleRejections (o : ForwarderOptions) : Run Unit := do
  let s ← getSelf
  let suspicious := s.rejected.filter (fun r => !r.perMessage)
  if breakerTrips o.rejectionThreshold suspicious s.result.forwarded then do
    let message ← breakerMessage suspicious
    count (fun r => { r with error := r.keepError message })
    quarantineAll o (s.rejected.filter Rejection.perMessage)
  else quarantineAll o s.rejected

/-! ## The run -/

/-- The `for` loop of `run`. The number of messages left is the length of the list the loop
    stopped at. -/
def processAll (o : ForwarderOptions) (extraLabels : List String) (started : ℚ) :
    List ℕ → Run Unit
  | [] => pure ()
  | uid :: rest => do
      let now ← call .clock
      if now - started > o.timeBudgetSeconds then
        count (fun r => { r with remaining := rest.length + 1 })
      else
        match ← attempt (process o extraLabels uid) with
        | .ok () => processAll o extraLabels started rest
        | .error (.abortRun text) =>
            count (fun r => { r with error := some text, remaining := rest.length + 1 })
        | .error exc => raise exc

/-- `[gmail.ensure_label(label)] if label else []` -/
def extraLabelIds (label : Option String) : Run (List String) :=
  match label with
  | none => pure []
  | some name =>
      if name = "" then pure []
      else do
        let id ← call (.ensureLabel name)
        pure [id]

/-- The body of the `with` statement. -/
def session (o : ForwarderOptions) (started : ℚ) : Run Unit := do
  onMailbox ICloudMailbox.requireKeywords
  call .gmailClient
  let extraLabels ← extraLabelIds o.label
  let uids ← onMailbox (ICloudMailbox.listInboxUids (some o.keywords.quarantine))
  count (fun r => { r with listed := uids.length })
  processAll o extraLabels started uids
  let s ← getSelf
  if s.rejected = [] then pure () else settleRejections o

/-- `with self._mailbox_factory() as mailbox`: the session is closed however the body ends. -/
def withMailbox (body : Run Unit) : Run Unit := do
  onMailbox ICloudMailbox.connect
  let outcome ← attempt body
  onMailbox ICloudMailbox.close
  settle outcome

def run (o : ForwarderOptions) : Run SyncResult := do
  let started ← call .clock
  match ← attempt (withMailbox (session o started)) with
  | .ok () => pure ()
  | .error exc =>
      if exc.isMailboxError || exc.isGmailError then
        count (fun r => { r with error := some exc.text })
      else raise exc
  let ended ← call .clock
  count (fun r => { r with durationSeconds := round3 (ended - started) })
  let s ← getSelf
  pure s.result

/-- The objects a run starts with: `build_mailbox` and an empty result. -/
def initial (o : ForwarderOptions) : RunState where
  mailbox := { readonly := false, skipKeywords := o.keywords.quarantine }
  result := {}
  rejected := []

end Forwarder

end MailTransporter
