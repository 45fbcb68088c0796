import MailTransporter.Forwarder
import MailTransporter.Effect.Layer

set_option autoImplicit false

/-! # The Gmail client (`gmail_client.py`)

The methods of `GmailClient` over the requests of the Gmail API. `GmailClient.carry` puts them in
the place of the calls `gmailClient`, `ensureLabel` and `insertRaw` of a run and hands every other call
on, so a run over requests is `(Forwarder.run o _).over (GmailClient.carry strLower)`.

`Request.execute` stands for `request.execute` with the retries the API library makes by itself.
`str.lower` on a label's name, which may be any text, is the parameter `strLower`. -/

namespace MailTransporter

open Effect
open Effect.Routine (raise getSelf modifySelf)

/-- `RESUMABLE_THRESHOLD` -/
def resumableThreshold : ℕ := 5 * 1024 * 1024

/-! ## Requests -/

/-- The body of a label that is to be created. -/
structure LabelBody where
  name : String
  labelListVisibility : String
  messageListVisibility : String
deriving DecidableEq

/-- `MediaIoBaseUpload` -/
structure MediaUpload where
  raw : RawMail
  mimetype : String
  resumable : Bool
deriving DecidableEq

/-- The requests of the API, for the user `me`. -/
inductive Request where
  | listLabels
  | createLabel (body : LabelBody)
  | insertMessage (internalDateSource : String) (labelIds : List String) (media : MediaUpload)
deriving DecidableEq

/-- A label of a listing: `label.get("name")` and `label.get("id")`. -/
structure Label where
  name : Option String
  id : Option String
deriving DecidableEq

/-- What a request returns: the listed labels, or the `id` of what it made. -/
@[reducible] def Found : Request → Type
  | .listLabels => List Label
  | .createLabel _ => Option String
  | .insertMessage _ _ _ => Option String

/-- The exceptions `_execute` handles: `HttpError` with `str(exc)` and the `error.message` of its
    content where there is one, `RefreshError`, and the errors of the transport. -/
inductive Failure where
  | http (status : ℤ) (text : String) (message : Option String)
  | refresh (text : String)
  | transport (text : String)
deriving DecidableEq

/-- The calls of a run over requests: those that are not the Gmail client's, `build` of the API
    library, and the requests. -/
inductive Wire where
  | tool (op : Op)
  | build (serviceName version : String)
  | execute (request : Request)
deriving DecidableEq

@[reducible] def Wire.Value : Wire → Type
  | .tool op => MailTransporter.Value op
  | .build _ _ => Unit
  | .execute request => Except Failure (Found request)

/-- A request is answered by what it returned or failed with, or raises what `_execute` lets
    through. -/
abbrev Wire.Reply (call : Wire) := Answer Wire.Value Exc call

/-! ## The errors -/

def classifyHttpError (status : ℤ) : GmailErrorClass :=
  if status = 401 then .auth
  else if status = 429 ∨ status ≥ 500 then .retryable
  -- A 403 is about the account or the project, not about this message.
  else if status = 403 then .retryable
  else if status ∈ [400, 404, 409, 410, 412, 413, 422] then .permanent
  else .retryable

/-- `_message` -/
def httpMessage (text : String) (message : Option String) : String := message.getD text

/-- The exception `_execute` raises. -/
def Failure.raised : Failure → Exc
  | .http status text message =>
      .gmailError (classifyHttpError status)
        s!"Gmail API error {status}: {httpMessage text message}"
        (if status = 0 then none else some status)
  | .refresh text => .gmailError .auth s!"Gmail OAuth refresh failed: {text}" none
  | .transport text => .gmailError .retryable s!"Gmail transport error: {text}" none

/-! ## The client -/

/-- The object: `_label_cache`. -/
structure GmailClient where
  labelCache : List (String × String) := []
deriving DecidableEq

/-- A method of the client. -/
abbrev Client (α : Type) := Routine Wire Wire.Value Exc GmailClient α

namespace GmailClient

/-- `_execute` -/
def execute (request : Request) : Client (Found request) := do
  match ← (Routine.call (Wire.execute request) : Client (Except Failure (Found request))) with
  | .ok found => pure found
  | .error failure => raise failure.raised

/-- `__init__`: a new client has an empty cache. -/
def init : Client Unit := do
  (Routine.call (Wire.build "gmail" "v1") : Client Unit)
  modifySelf (fun _ => {})

/-- `reply["id"]` -/
def idOf : Option String → Client String
  | some id => pure id
  | none => raise (.other "KeyError" (pyRepr "id"))

/-- `self._label_cache[name] = id` -/
def remember (name id : String) : Client Unit :=
  modifySelf (fun self => { self with labelCache := (name, id) :: self.labelCache })

/-- The label of a listing that has the name, whatever its case. -/
def findLabel (strLower : String → String) (name : String) (labels : List Label) : Option Label :=
  labels.find? (fun label => decide (strLower (label.name.getD "") = strLower name))

def ensureLabel (strLower : String → String) (name : String) : Client String := do
  let self ← getSelf
  match self.labelCache.lookup name with
  | some id => pure id
  | none =>
      let labels ← execute .listLabels
      match findLabel strLower name labels with
      | some label =>
          let id ← idOf label.id
          remember name id
          pure id
      | none =>
          let created ← execute (.createLabel ⟨name, "labelShow", "show"⟩)
          let id ← idOf created
          remember name id
          pure id

def insertRaw (raw : RawMail) (labelIds : List String) : Client String := do
  let media : MediaUpload :=
    ⟨raw, "message/rfc822", decide (raw.bytes.length > resumableThreshold)⟩
  let response ← execute (.insertMessage "dateHeader" labelIds media)
  idOf response

/-- The calls of a run, carried out by a client. -/
def carry (strLower : String → String) :
    (op : Op) → GmailClient → Program Wire Wire.Reply (Reply op × GmailClient)
  | .gmailClient, client => init client
  | .ensureLabel name, client => ensureLabel strLower name client
  | .insertRaw raw labels, client => insertRaw raw labels client
  | op, client => .call (.tool op) (fun r => .pure (r, client))

end GmailClient

/-- The calls that are the Gmail client's. -/
def Op.isGmail : Op → Bool
  | .gmailClient => true
  | .ensureLabel _ => true
  | .insertRaw _ _ => true
  | _ => false

namespace GmailClient

theorem carry_tool (strLower : String → String) {op : Op} (h : op.isGmail = false)
    (client : GmailClient) :
    carry strLower op client = .call (.tool op) (fun r => .pure (r, client)) := by
  cases op
  all_goals first | rfl | simp [Op.isGmail] at h

end GmailClient

end MailTransporter
