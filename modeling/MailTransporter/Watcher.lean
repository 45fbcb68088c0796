import MailTransporter.ImapClient
import Mathlib.Data.Finset.Basic
import Mathlib.Algebra.Order.Field.Rat

set_option autoImplicit false

/-! # The watcher (`watcher.py`)

`WatchLoop.step` and the `run_forever` loop around it. The attributes of the `WatchLoop`, the IMAP
session and the two local variables of `run_forever` are the object the routines work on. The
heartbeat is a call (`touch`), and so is the notifier (`trigger`). -/

namespace MailTransporter

open Effect.Routine (raise attempt getSelf modifySelf settle)

def SHORT_DELAY : ℚ := 5
def BUSY_DELAY : ℚ := 20
def BASE_BACKOFF : ℚ := 30
def MAX_BACKOFF : ℚ := 600
def HEARTBEAT_MARGIN : ℚ := 120

/-- `WatcherSettings`, with `icloud.timeout` as `imapTimeout`. -/
structure WatcherSettings where
  imapTimeout : ℚ := 60
  quarantineKeywords : List String := [DEFAULT_FAILED_KEYWORD, DEFAULT_UNVERIFIED_KEYWORD]
  retriggerInterval : ℚ := 600
  idleTimeout : ℚ := 240
  pollInterval : ℚ := 60
  requestTimeout : ℚ := 900

/-- The attributes of a `WatchLoop`; the first two are settings. -/
structure WatchLoop where
  retriggerInterval : ℚ
  requestTimeout : ℚ
  notified : Finset ℕ := ∅
  lastTriggerAt : Option ℚ := none
  notBefore : ℚ := 0
  failures : ℕ := 0

/-- The objects `run_forever` works on. -/
structure Watch where
  loop : WatchLoop
  mailbox : ICloudMailbox
  backoff : ℚ := 5
  sessions : ℕ := 0

/-- A step of the watcher. -/
abbrev Watching (α : Type) := Py Watch α

/-- Call a method of the session. -/
def Watch.onMailbox {α : Type} (m : Mailbox α) : Watching α :=
  m.on Watch.mailbox (fun mailbox s => { s with mailbox := mailbox })

/-- Write attributes of the loop. -/
def Watch.onLoop (f : WatchLoop → WatchLoop) : Watching Unit :=
  modifySelf (fun s => { s with loop := f s.loop })

namespace WatchLoop

/-! ## One inspection of the INBOX -/

/-- `min(BASE_BACKOFF * 2 ** (failures - 1), MAX_BACKOFF)`: the power is an `int`, and the product
    with a `float` converts it to one, which 2^1024 is the first to be too large for. -/
@[irreducible] def backoffDelay (failures : ℕ) : Watching ℚ :=
  if 2 ^ 1024 ≤ 2 ^ (failures - 1) then
    raise (.other "OverflowError" "int too large to convert to float")
  else pure (min (BASE_BACKOFF * 2 ^ (failures - 1)) MAX_BACKOFF)

/-- `stale` -/
def stale (l : WatchLoop) (now : ℚ) : Bool :=
  match l.lastTriggerAt with
  | none => true
  | some last => decide (l.retriggerInterval ≤ now - last)

/-- The end of `step`: what becomes of the notifier's result. -/
def settleTrigger (now : ℚ) (uids : Finset ℕ) (result : TriggerResult) :
    Watching (Option ℚ) := do
  if result.ok then do
    Watch.onLoop (fun l => { l with
      failures := 0, notified := uids, lastTriggerAt := some now, notBefore := now })
    if 0 < result.remaining then do
      Watch.onLoop (fun l => { l with lastTriggerAt := none })
      pure (some SHORT_DELAY)
    else pure none
  else if result.busy then do
    Watch.onLoop (fun l => { l with notBefore := now + BUSY_DELAY })
    pure (some BUSY_DELAY)
  else do
    Watch.onLoop (fun l => { l with failures := l.failures + 1 })
    let self ← getSelf
    let delay ← backoffDelay self.loop.failures
    Watch.onLoop (fun l => { l with notBefore := now + delay })
    pure (some delay)

/-- `step` from the point on where it has decided to call the forwarder. -/
def notify (now : ℚ) (uids : Finset ℕ) : Watching (Option ℚ) := do
  let self ← getSelf
  call (.touch (self.loop.requestTimeout + HEARTBEAT_MARGIN) "calling forwarder")
  let result ← call .trigger
  call (.touch HEARTBEAT_MARGIN "forwarder answered")
  settleTrigger now uids result

/-- `step` once the INBOX has been listed at the time `now`. -/
def inspect (now : ℚ) (uids : Finset ℕ) : Watching (Option ℚ) := do
  Watch.onLoop (fun l => { l with notified := l.notified ∩ uids })
  if uids = ∅ then pure none
  else do
    let self ← getSelf
    let newUids := uids \ self.loop.notified
    if newUids = ∅ ∧ self.loop.stale now = false then pure none
    else if now < self.loop.notBefore then pure (some (self.loop.notBefore - now))
    else notify now uids

def step : Watching (Option ℚ) := do
  let now ← call .clock
  let uids ← Watch.onMailbox (ICloudMailbox.listInboxUids none)
  inspect now uids.toFinset

end WatchLoop

/-! ## `run_forever` -/

/-- `default_mailbox_factory` -/
def watcherMailbox (settings : WatcherSettings) : ICloudMailbox :=
  { readonly := true, skipKeywords := settings.quarantineKeywords }

namespace Watch

/-- The loop before the first session. -/
def initial (settings : WatcherSettings) : Watch where
  loop := {
    retriggerInterval := settings.retriggerInterval
    requestTimeout := settings.requestTimeout }
  mailbox := watcherMailbox settings

/-- Where `run_forever` stands between two passes. -/
inductive Phase where
  | connecting
  | serving
  | ended
deriving DecidableEq, Repr

/-- Entering the `with` statement. -/
def openSession (settings : WatcherSettings) : Watching Unit := do
  call (.touch (settings.imapTimeout * 3 + HEARTBEAT_MARGIN) "connecting to IMAP")
  modifySelf (fun s => { s with mailbox := watcherMailbox settings })
  onMailbox ICloudMailbox.connect
  modifySelf (fun s => { s with backoff := 5 })

/-- Waiting for mail when there is nothing to do. -/
def wait (settings : WatcherSettings) : Watching Unit := do
  let self ← getSelf
  if self.mailbox.supportsIdle then do
    call (.touch (settings.idleTimeout + settings.imapTimeout + HEARTBEAT_MARGIN) "IMAP IDLE")
    let _ ← onMailbox (ICloudMailbox.idleWait settings.idleTimeout)
    pure ()
  else do
    call (.touch (settings.pollInterval + HEARTBEAT_MARGIN) "polling")
    call (.sleep settings.pollInterval)

/-- One pass of the inner loop. -/
def serve (settings : WatcherSettings) : Watching Unit := do
  call (.touch (settings.imapTimeout + HEARTBEAT_MARGIN) "listing INBOX")
  match ← WatchLoop.step with
  | some delay => do
      call (.touch (delay + HEARTBEAT_MARGIN) "sleeping")
      call (.sleep delay)
  | none => wait settings

/-- One pass of the inner loop; an exception leaves the `with` statement. -/
def serveOrClose (settings : WatcherSettings) : Watching Unit := do
  match ← attempt (serve settings) with
  | .ok () => pure ()
  | .error exc => do
      onMailbox ICloudMailbox.close
      raise exc

/-- What follows the `except` clauses, both of which only log. -/
def reconnectBackoff : Watching Unit := do
  let self ← getSelf
  call (.touch (self.backoff + HEARTBEAT_MARGIN) "reconnect backoff")
  call (.sleep self.backoff)
  modifySelf (fun s => { s with backoff := min (s.backoff * 2) 300 })

/-- The part of the `try` block a pass stands in, and what happens when it raises. -/
def guarded (body : Watching Unit) : Watching Phase := do
  match ← attempt body with
  | .ok () => pure .serving
  | .error _ => do
      reconnectBackoff
      pure .connecting

/-- The condition of the outer loop and the attempt to connect. -/
def beginSession (settings : WatcherSettings) (maxSessions : Option ℕ) : Watching Phase := do
  let self ← getSelf
  if maxSessions.all (fun most => decide (self.sessions < most)) then do
    modifySelf (fun s => { s with sessions := s.sessions + 1 })
    guarded (openSession settings)
  else pure .ended

def pass (settings : WatcherSettings) (maxSessions : Option ℕ) : Phase → Watching Phase
  | .connecting => beginSession settings maxSessions
  | .serving => guarded (serveOrClose settings)
  | .ended => pure .ended

/-- The first `n` passes of `run_forever`: it goes on until the process is killed. -/
def runForever (settings : WatcherSettings) (maxSessions : Option ℕ) : ℕ → Phase → Watching Unit
  | 0, _ => pure ()
  | n + 1, phase => do
      let next ← pass settings maxSessions phase
      runForever settings maxSessions n next

end Watch

end MailTransporter
