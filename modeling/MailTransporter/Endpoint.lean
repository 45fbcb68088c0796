import MailTransporter.Effect.Mutex
import MailTransporter.Forwarder
import MailTransporter.Settings

set_option autoImplicit false

/-! # The `/sync` endpoint (`server.py`, `runtime.py`)

A request is a program that shares `_run_lock` with the other requests of the process: it checks the
caller, tries the lock, and in its section gets the forwarder, runs it and words the answer. The
calls of the forwarder are calls of the request, so the calls of any number of requests interleave in
any order.

A forwarder is represented by the settings it has been built from. `Process` holds the global
variables of the process. `Globals.built` and `Process.history` are no variables of the source: they
keep the forwarders the process has built, and what the requests have asked in their sections. -/

namespace MailTransporter

open Effect

/-- `type(exc).__name__` -/
def Exc.typeName : Exc → String
  | .mailboxError _ => "MailboxError"
  | .messageGone _ => "MessageGone"
  | .abortRun _ => "AbortRun"
  | .gmailError .base _ _ => "GmailError"
  | .gmailError .retryable _ _ => "GmailRetryableError"
  | .gmailError .permanent _ _ => "GmailPermanentError"
  | .gmailError .auth _ _ => "GmailAuthError"
  | .other name _ => name

/-- `SyncResult.ok` -/
def SyncResult.ok (result : SyncResult) : Bool := result.error.isNone

/-- `SyncResult.to_dict` -/
def SyncResult.toDict (result : SyncResult) : List (String × Json) :=
  [("listed", .int result.listed), ("forwarded", .int result.forwarded),
   ("trashed", .int result.trashed), ("skipped", .int result.skipped),
   ("retry_later", .int result.retryLater), ("quarantined", .int result.quarantined),
   ("remaining", .int result.remaining),
   ("duration_seconds", .float (.finite result.durationSeconds)),
   ("error", result.error.elim .null .str),
   ("status", .str (if result.ok then "ok" else "error"))]

/-- The exception as the process sees it. -/
def SettingsError.exc : SettingsError → Exc
  | .configError text => .other "ConfigError" text
  | .other name text => .other name text

/-- `build_forwarder`, and the values that are registered afterwards. -/
def buildForwarder (e : Environ) (registered : Secrets.Registered) :
    Except Exc ForwarderSettings × Secrets.Registered :=
  ((ForwarderSettings.fromEnv e).outcome registered).map (Except.mapError SettingsError.exc) id

namespace Endpoint

/-- `ALLOWED_INVOKER_SA` and `EXPECTED_AUDIENCE` -/
structure Caller where
  allowedInvoker : String
  expectedAudience : String

/-- An answer: the status code and the JSON object. -/
structure Response where
  status : ℤ
  body : List (String × Json)

/-- The calls of a request beside the lock. -/
inductive Call where
  -- `_google_transport()`, with `_transport_lock`
  | googleTransport
  | verifyToken (token audience : String)
  -- `_forwarder_lock` and `_forwarder`
  | lockForwarder
  | unlockForwarder
  | readForwarder
  | buildForwarder
  | storeForwarder (forwarder : ForwarderSettings)
  -- `_SECRET_VALUES`
  | secrets
  | forward (op : Op)

/-- What a call returns; `_google_transport`, `verify_oauth2_token` and `build_forwarder` may
    raise. -/
@[reducible] def Call.Value : Call → Type
  | .googleTransport => Except String Unit
  | .verifyToken _ _ => Except String (List (String × Json))
  | .lockForwarder => Unit
  | .unlockForwarder => Unit
  | .readForwarder => Option ForwarderSettings
  | .buildForwarder => Except Exc ForwarderSettings
  | .storeForwarder _ => Unit
  | .secrets => Secrets.Registered
  | .forward op => Reply op

/-- The calls that are made before the lock is tried. -/
def Call.isOutside : Call → Bool
  | .googleTransport => true
  | .verifyToken _ _ => true
  | _ => false

/-- A call of a section, and what it returned. -/
abbrev Event := (call : Call) × call.Value

/-- A part of a request that does not touch `_run_lock`. -/
abbrev Part (α : Type) := Program Call Call.Value α

def ask (call : Call) : Part (Call.Value call) := .call call .pure

/-! ## The request -/

/-- `bool(claims.get("email_verified")) and claims.get("email") == allowed_sa` -/
def accepts (allowedInvoker : String) (claims : List (String × Json)) : Bool :=
  ((claims.lookup "email_verified").getD .null).truthy &&
    match claims.lookup "email" with
    | some (.str email) => decide (email = allowedInvoker)
    | _ => false

def verifyInvoker (caller : Caller) (authorization : Option String) : Part Bool := do
  if caller.allowedInvoker = "" then pure true
  else if caller.expectedAudience = "" then pure false
  else
    match authorization with
    | none => pure false
    | some header =>
        if "Bearer ".toList.isPrefixOf header.toList then do
          let token := String.ofList (header.toList.drop "Bearer ".toList.length)
          match ← ask .googleTransport with
          | .error _ => pure false
          | .ok _ =>
              match ← ask (.verifyToken token caller.expectedAudience) with
              | .error _ => pure false
              | .ok claims => pure (accepts caller.allowedInvoker claims)
        else pure false

/-- `get_forwarder`; an exception leaves the `with` statement, too. -/
def getForwarder : Part (Except Exc ForwarderSettings) := do
  ask .lockForwarder
  let found ← ask .readForwarder
  let result ← match found with
    | some forwarder => pure (.ok forwarder)
    | none => do
        match ← ask .buildForwarder with
        | .error exc => pure (.error exc)
        | .ok forwarder => do
            ask (.storeForwarder forwarder)
            pure (.ok forwarder)
  ask .unlockForwarder
  pure result

/-- The program of the forwarder's `run`, with the mutable objects it starts with. -/
def forwarderRun (forwarder : ForwarderSettings) :
    Program Op Reply (Except Exc SyncResult × RunState) :=
  Forwarder.run forwarder.options (Forwarder.initial forwarder.options)

/-- `get_forwarder().run()` -/
def runForwarder : Part (Except Exc SyncResult) := do
  match ← getForwarder with
  | .error exc => pure (.error exc)
  | .ok forwarder => do
      let done ← (forwarderRun forwarder).via .forward (fun _ r => r)
      pure done.1

/-- The answer to a run: `payload["error"]` is scrubbed when it is a text that counts as true. -/
def resultResponse (registered : Secrets.Registered) (result : SyncResult) : Response where
  status := if result.ok then 200 else 500
  body := { result with
    error := result.error.map (fun text =>
      if text = "" then text else Secrets.errorText registered text) }.toDict

/-- The answer to an exception. -/
def failureResponse (registered : Secrets.Registered) (exc : Exc) : Response where
  status := 500
  body :=
    let name := exc.typeName
    [("status", .str "error"), ("error", .str (Secrets.errorText registered s!"{name}: {exc}"))]

def response (registered : Secrets.Registered) : Except Exc SyncResult → Response
  | .ok result => resultResponse registered result
  | .error exc => failureResponse registered exc

def respond (outcome : Except Exc SyncResult) : Part Response := do
  let registered ← ask .secrets
  pure (response registered outcome)

def forbidden : Response := ⟨403, [("status", .str "forbidden")]⟩

def busy : Response := ⟨409, [("status", .str "busy")]⟩

/-- `sync`, with the lock given back in the `finally` clause. -/
def sync (caller : Caller) (authorization : Option String) : Locked Call Call.Value Response := do
  let allowed ← (verifyInvoker caller authorization).unlocked
  if allowed then do
    let acquired ← .call .tryAcquire .pure
    if acquired then do
      let response ← (runForwarder >>= respond).unlocked
      .call .release (fun _ => .pure response)
    else pure busy
  else pure forbidden

/-! ## The process -/

/-- The global variables of the sections, and the forwarders built so far. -/
structure Globals where
  forwarder : Option ForwarderSettings := none
  forwarderLocked : Bool := false
  registered : Secrets.Registered := []
  built : List ForwarderSettings := []

/-- The process, with the world its forwarder works in. `transport` says whether `_transport` has
    been set. -/
structure Process (W : Type) where
  globals : Globals
  outside : W
  transport : Bool
  history : List Event

variable {W : Type}

/-- The process as it starts. -/
def Process.initial (w : W) : Process W := ⟨{}, w, false, []⟩

/-- The process with another call in its history. -/
def Process.noted (P : Process W) (call : Call) (r : call.Value) : Process W :=
  { P with history := P.history ++ [⟨call, r⟩] }

/-- What `verify_oauth2_token` may answer for a token and an audience. -/
abbrev Verifier := String → String → Except String (List (String × Json)) → Prop

/-- What the calls do, in a world that answers the forwarder as `E` says. Waiting for
    `_forwarder_lock` is a call that is not answered. -/
def Runs (V : Verifier) (E : Env Op Reply W) : Env Call Call.Value (Process W)
  | P, .googleTransport, r, P' =>
      (r = .ok () ∧ P' = { P with transport := true }) ∨
        (P.transport = false ∧ (∃ text, r = .error text) ∧ P' = P)
  | P, .verifyToken token audience, r, P' => V token audience r ∧ P' = P
  | P, .lockForwarder, r, P' => P.globals.forwarderLocked = false ∧
      P' = { P.noted .lockForwarder r with
        globals := { P.globals with forwarderLocked := true } }
  | P, .unlockForwarder, r, P' =>
      P' = { P.noted .unlockForwarder r with
        globals := { P.globals with forwarderLocked := false } }
  | P, .readForwarder, r, P' => r = P.globals.forwarder ∧ P' = P.noted .readForwarder r
  | P, .buildForwarder, r, P' => ∃ e : Environ, r = (buildForwarder e P.globals.registered).1 ∧
      P' = { P.noted .buildForwarder r with
        globals := { P.globals with
          registered := (buildForwarder e P.globals.registered).2 } }
  | P, .storeForwarder forwarder, r, P' =>
      P' = { P.noted (.storeForwarder forwarder) r with
        globals := { P.globals with
          forwarder := some forwarder, built := forwarder :: P.globals.built } }
  | P, .secrets, r, P' => r = P.globals.registered ∧ P' = P.noted .secrets r
  | P, .forward op, r, P' =>
      ∃ w', E P.outside op r w' ∧ P' = { P.noted (.forward op) r with outside := w' }

/-- The world moves on its own. -/
def Moves (others : W → W → Prop) (P P' : Process W) : Prop :=
  ∃ w', others P.outside w' ∧ P' = { P with outside := w' }

/-- The header of a request, and the answer to it. -/
abbrev Exchange := Option String × Response

/-- A request, which ends with its header and its answer. -/
def request (caller : Caller) (authorization : Option String) :
    Locked Call Call.Value Exchange := do
  let response ← sync caller authorization
  pure (authorization, response)

/-- The processes that are reached from the start, with any number of requests under way whose
    headers are some of `headers`. The world may move on its own, as `others` says. -/
def Reachable (V : Verifier) (E : Env Op Reply W) (others : W → W → Prop) (caller : Caller)
    (headers : Option String → Prop) (w : W) :
    Pool Call Call.Value (Process W) Exchange → Prop :=
  Pool.Reachable (Runs V E)
    (fun p => ∃ authorization, headers authorization ∧ p = request caller authorization)
    (Moves others) (.initial w)

end Endpoint

end MailTransporter
