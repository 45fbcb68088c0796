import MailTransporter.Settlement
import MailTransporter.CliRules
import MailTransporter.Watcher

set_option autoImplicit false

/-! # What the mail server sees of a client

The IMAP session as a state machine of its own: a connection is greeted, logged in, selects a
folder, serves commands, idles and is left. `Permits` says which command is in order in which state,
for a client whose sessions are read-only and for one whose sessions are not.

`Polite` says of a program that in all its executions, whatever the server answers and whichever
call raises, every command is in order for the mode; `Leaves` that it ends without a session it has
entered. Between the connect and the close the programs make only `Op.isServed` calls, which leave
the session as it is. -/

namespace MailTransporter

open Effect
open Effect.Routine (raise attempt getSelf modifySelf settle)

/-- The connection to the mail server. `selected` is the state before the capability question at the
    end of `connect` has been answered; `leaving` the state after a failed `LOGOUT`. -/
inductive Connection where
  | closed
  | greeted
  | loggedIn
  | selected (readonly : Bool)
  | serving (readonly : Bool)
  | idling (readonly : Bool)
  | leaving
deriving DecidableEq

/-- The calls that are made in a session, and leave it as it is. -/
def Op.isServed (readonly : Bool) : Op → Bool
  | .openClient => false
  | .login => false
  | .selectFolder _ _ => false
  | .idle => false
  | .idleCheck _ => false
  | .idleDone => false
  | .logout => false
  | .shutdown => false
  | .addFlags _ _ => !readonly
  | .removeFlags _ _ => !readonly
  | .createFolder _ => !readonly
  | .move _ _ => !readonly
  | .copy _ _ => !readonly
  | .uidExpunge _ => !readonly
  | _ => true

theorem Op.isServed_of_isOn {uid : ℕ} {op : Op} (h : op.isOn uid = true) :
    op.isServed false = true := by
  cases op
  all_goals first | rfl | simp [Op.isOn] at h

namespace Connection

/-! ## The session -/

/-- The session has been handed to the code that uses it. -/
def isEntered : Connection → Bool
  | .serving _ => true
  | .idling _ => true
  | .leaving => true
  | _ => false

/-- The commands that are in order for a client whose sessions are read-only, or are not: it selects
    the INBOX in that mode, and asks for something that writes only if the mode is not read-only. -/
def Permits (readonly : Bool) (c : Connection) : Op → Prop
  | .openClient => c.isEntered = false
  | .login => c = .greeted
  | .selectFolder folder flag => c = .loggedIn ∧ folder = "INBOX" ∧ flag = readonly
  | .hasCapability _ => c = .selected readonly ∨ c = .serving readonly
  | .search _ => c = .serving readonly
  | .fetch _ _ => c = .serving readonly
  | .trashConstant => c = .serving readonly
  | .findTrash => c = .serving readonly
  | .folderExists _ => c = .serving readonly
  | .noop => c = .serving readonly
  | .addFlags _ _ => readonly = false ∧ c = .serving readonly
  | .removeFlags _ _ => readonly = false ∧ c = .serving readonly
  | .createFolder _ => readonly = false ∧ c = .serving readonly
  | .move _ _ => readonly = false ∧ c = .serving readonly
  | .copy _ _ => readonly = false ∧ c = .serving readonly
  | .uidExpunge _ => readonly = false ∧ c = .serving readonly
  | .idle => c = .serving readonly
  | .idleCheck _ => c = .idling readonly
  | .idleDone => c = .idling readonly
  | .logout => c = .serving readonly ∨ c = .idling readonly
  | .shutdown => c = .leaving
  | _ => True

/-- The connection after a call that returned or raised. -/
def next (c : Connection) : (op : Op) → Reply op → Connection
  | .openClient, .ok _ => .greeted
  | .openClient, .error _ => .closed
  | .login, .ok _ => .loggedIn
  | .selectFolder _ readonly, .ok _ => .selected readonly
  | .hasCapability _, .ok _ =>
      match c with
      | .selected readonly => .serving readonly
      | c => c
  | .idle, .ok _ =>
      match c with
      | .serving readonly => .idling readonly
      | c => c
  | .idleDone, .ok _ =>
      match c with
      | .idling readonly => .serving readonly
      | c => c
  | .logout, .ok _ => .closed
  | .logout, .error _ => .leaving
  | .shutdown, _ => .closed
  | _, _ => c

/-- Any server: a call may be answered by anything. -/
def Speaks : Env Op Reply Connection := fun c op r c' => c' = c.next op r

/-- Every command is in order for the mode. -/
def protocol (readonly : Bool) : Discipline Op Connection where
  rely := fun c c' => c' = c
  guard := Permits readonly

/-- In every execution every command is in order for the mode. -/
def Polite {α : Type} (readonly : Bool) (p : Program Op Reply α) : Prop :=
  ∀ c op next, Program.Steps Speaks (.closed, p) (c, .call op next) → c.Permits readonly op

/-- No execution ends in a session that was entered. -/
def Leaves {α : Type} (p : Program Op Reply α) : Prop :=
  ∀ c a, Program.Steps Speaks (.closed, p) (c, .pure a) → c.isEntered = false

variable {readonly : Bool}

theorem steps_safe {α : Type} {p p' : Program Op Reply α} {Q : α → Connection → Prop}
    {c : Connection} (h : p.Safe Speaks (protocol readonly) Q .closed)
    (hs : Program.Steps Speaks (.closed, p) (c, p')) :
    p'.Safe Speaks (protocol readonly) Q c := by
  have hunder := Program.Steps.under (protocol readonly).rely (fun _ => rfl) hs
  exact (h.steps (I := fun _ => True) (fun _ h => h) (fun _ _ h => h) trivial hunder).2

theorem polite_of_safe {α : Type} {p : Program Op Reply α} {Q : α → Connection → Prop}
    (h : p.Safe Speaks (protocol readonly) Q .closed) : Polite readonly p :=
  fun c _ _ hs => (steps_safe h hs c rfl).1

theorem leaves_of_safe {α : Type} {p : Program Op Reply α}
    (h : p.Safe Speaks (protocol readonly) (fun _ c => c.isEntered = false) .closed) : Leaves p :=
  fun _ _ hs => steps_safe h hs

/-! ## Calls in a session -/

theorem permits_served {op : Op} (h : op.isServed readonly = true) :
    (serving readonly).Permits readonly op := by
  cases op
  case hasCapability name => exact Or.inr rfl
  -- a session that is not read-only takes the commands that write
  all_goals first | rfl | trivial | simpa [Permits, Op.isServed] using h

theorem next_served {op : Op} (h : op.isServed readonly = true) (r : Reply op) :
    (serving readonly).next op r = serving readonly := by
  cases op
  all_goals first | (cases r <;> rfl) | cases h

/-- A program that makes only such calls leaves the session as it is. -/
theorem served {α : Type} {p : Program Op Reply α}
    (h : p.Uses (fun op => op.isServed readonly = true)) :
    p.Safe Speaks (protocol readonly) (fun _ c => c = serving readonly) (serving readonly) := by
  induction p with
  | pure a => rfl
  | call op next ih =>
      rintro c rfl
      refine ⟨permits_served h.1, ?_⟩
      rintro r c rfl
      rw [next_served h.1 r]
      exact ih r (h.2 r)

/-! ## Entering and leaving -/

theorem safe_command {σ : Type} {op : Op} {Q : Except Exc (Value op) → σ → Connection → Prop} {s : σ}
    {c : Connection} (hpermits : c.Permits readonly op) (h : ∀ r, Q r s (c.next op r)) :
    (call op : Py σ (Value op)).Safe Speaks (protocol readonly) Q s c := by
  rintro c₁ rfl
  refine ⟨hpermits, ?_⟩
  rintro r c₂ rfl
  exact h r

/-- `connect`: the session is entered if it returns, and not if it raises. -/
theorem connect_safe {s : ICloudMailbox} {c : Connection} (hs : s.readonly = readonly)
    (hc : c.isEntered = false) :
    ICloudMailbox.connect.Safe Speaks (protocol readonly) (fun o s' c' =>
      (o = .ok () ∧ s'.connected = true ∧ c' = serving readonly) ∨
      ((∃ e, o = .error e) ∧ c'.isEntered = false)) s c := by
  simp only [ICloudMailbox.connect, ICloudMailbox.openSession, Routine.safe_bind,
    Routine.safe_attempt, Routine.safe_getSelf, Routine.after_ok]
  refine safe_command hc (fun r => ?_)
  rcases r with e | _
  · exact Or.inr ⟨⟨_, rfl⟩, rfl⟩
  rw [Routine.after_ok, Routine.safe_bind]
  refine safe_command rfl (fun r => ?_)
  rcases r with e | _
  · exact Or.inr ⟨⟨_, rfl⟩, rfl⟩
  rw [Routine.after_ok]
  refine safe_command ⟨rfl, rfl, hs⟩ (fun r => ?_)
  rcases r with e | info
  · exact Or.inr ⟨⟨_, rfl⟩, rfl⟩
  simp only [Routine.safe_bind, Routine.safe_modifySelf, Routine.after_ok]
  refine safe_command (Or.inl (congrArg selected hs)) (fun r => ?_)
  rcases r with e | found
  · exact Or.inr ⟨⟨_, rfl⟩, rfl⟩
  · exact Or.inl ⟨rfl, rfl, congrArg serving hs⟩

/-- `close` in a session that is being used. -/
theorem close_safe {s : ICloudMailbox} {c : Connection} (hs : s.connected = true)
    (hc : c = serving readonly ∨ c = idling readonly) :
    ICloudMailbox.close.Safe Speaks (protocol readonly) (fun o _ c' => o = .ok () ∧ c' = closed)
      s c := by
  simp only [ICloudMailbox.close, Routine.safe_bind, Routine.safe_getSelf, Routine.after_ok,
    Routine.safe_modifySelf, hs, if_true, Routine.safe_attempt]
  refine safe_command hc (fun r => ?_)
  rcases r with e | _
  · simp only [Routine.safe_bind, Routine.safe_attempt]
    exact safe_command rfl (fun r => ⟨rfl, rfl⟩)
  · exact ⟨rfl, rfl⟩

/-! ## Code inside a session -/

/-- The routine makes only calls of the session, and does not close it. -/
structure Fit {σ α : Type} (part : σ → ICloudMailbox) (readonly : Bool) (m : Py σ α) : Prop where
  served : m.Uses (fun op => op.isServed readonly = true)
  keepsOpen : m.Keeps (fun s => (part s).connected)

namespace Fit

variable {σ α β : Type} {part : σ → ICloudMailbox} {update : ICloudMailbox → σ → σ}

theorem pure (a : α) : Fit part readonly (Pure.pure a : Py σ α) :=
  ⟨Routine.uses_pure a, Routine.keeps_pure a⟩

theorem getSelf : Fit part readonly (Routine.getSelf : Py σ σ) :=
  ⟨Routine.uses_getSelf, Routine.keeps_getSelf⟩

theorem raise (e : Exc) : Fit part readonly (Routine.raise e : Py σ α) :=
  ⟨Routine.uses_raise e, Routine.keeps_raise e⟩

theorem modify {f : σ → σ} (h : ∀ s, (part (f s)).connected = (part s).connected) :
    Fit part readonly (modifySelf f : Py σ Unit) :=
  ⟨Routine.uses_modifySelf f, Routine.keeps_modifySelf h⟩

theorem call {op : Op} (h : op.isServed readonly = true) :
    Fit part readonly (MailTransporter.call op : Py σ (Value op)) :=
  ⟨Routine.uses_call h, Routine.keeps_call op⟩

theorem bind {m : Py σ α} {f : α → Py σ β} (hm : Fit part readonly m)
    (hf : ∀ a, Fit part readonly (f a)) : Fit part readonly (m >>= f) :=
  ⟨Routine.uses_bind hm.served (fun a => (hf a).served),
    Routine.keeps_bind hm.keepsOpen (fun a => (hf a).keepsOpen)⟩

theorem on {m : Mailbox α} (hpart : ∀ mailbox s, part (update mailbox s) = mailbox)
    (hm : m.Uses (fun op => op.isServed readonly = true)) (hk : m.Keeps ICloudMailbox.connected) :
    Fit part readonly (m.on part update) :=
  ⟨Routine.uses_on hm, Routine.keeps_part hpart hk⟩

/-- The session stays as it is. -/
theorem safe {m : Py σ α} (h : Fit part readonly m) {s : σ} (hs : (part s).connected = true) :
    m.Safe Speaks (protocol readonly)
      (fun _ s' c => (part s').connected = true ∧ c = serving readonly) s (serving readonly) := by
  have hstays : m.Safe Speaks (protocol readonly) (fun _ _ c => c = serving readonly) s
      (serving readonly) :=
    Connection.served (h.served s)
  refine (hstays.also (fun _ => trivial) (h.keepsOpen s)).mono ?_
  exact fun _ _ _ h' => ⟨h'.2.trans hs, h'.1⟩

end Fit

/-- **The `with` statement.** -/
theorem with_safe {σ α : Type} {part : σ → ICloudMailbox} {update : ICloudMailbox → σ → σ}
    (hpart : ∀ mailbox s, part (update mailbox s) = mailbox) {body : Py σ α}
    (hbody : Fit part readonly body) {s : σ} {c : Connection} (hs : (part s).readonly = readonly)
    (hc : c.isEntered = false) :
    (do
      ICloudMailbox.connect.on part update
      let outcome ← attempt body
      ICloudMailbox.close.on part update
      settle outcome : Py σ α).Safe Speaks (protocol readonly) (fun _ _ c' => c'.isEntered = false)
        s c := by
  rw [Routine.safe_bind, Routine.safe_on]
  refine (connect_safe hs hc).mono ?_
  rintro r mailbox c₁ (⟨rfl, hconnected, rfl⟩ | ⟨⟨e, rfl⟩, hleft⟩)
  swap
  · exact hleft
  rw [Routine.after_ok, Routine.safe_bind, Routine.safe_attempt]
  refine (hbody.safe ((congrArg _ (hpart mailbox s)).trans hconnected)).mono ?_
  rintro outcome s₂ c₂ ⟨hopen₂, rfl⟩
  rw [Routine.after_ok, Routine.safe_bind, Routine.safe_on]
  refine (close_safe hopen₂ (Or.inl rfl)).mono ?_
  rintro r mailbox c₃ ⟨rfl, rfl⟩
  rw [Routine.after_ok, Routine.safe_settle]
  rfl

/-! ## The forwarder -/

section forwarder

open Forwarder Settlement

variable {o : ForwarderOptions}

theorem processAll_keepsOpen (extraLabels : List String) (started : ℚ) (uids : List ℕ) :
    (processAll o extraLabels started uids).Keeps isOpen := by
  induction uids with
  | nil => exact Routine.keeps_pure _
  | cons uid rest ih =>
      refine Routine.keeps_bind (Routine.keeps_call _) (fun now => ?_)
      split
      · exact count_keepsOpen _
      refine Routine.keeps_bind (Routine.keeps_attempt (process_keepsOpen extraLabels uid))
        (fun r => ?_)
      rcases r with e | _
      · cases e with
        | abortRun text => exact count_keepsOpen _
        | mailboxError text => exact Routine.keeps_raise _
        | messageGone text => exact Routine.keeps_raise _
        | gmailError cls text status => exact Routine.keeps_raise _
        | other name text => exact Routine.keeps_raise _
      · exact ih

theorem quarantineAll_keepsOpen (rejected : List Rejection) :
    (quarantineAll o rejected).Keeps isOpen := by
  induction rejected with
  | nil => exact Routine.keeps_pure _
  | cons rejection rest ih =>
      refine Routine.keeps_bind (Routine.keeps_attempt
        (quarantine_keeps count_keepsOpen onMailbox_keepsOpen _ _ _)) (fun r => ?_)
      rcases r with e | _
      · cases e with
        | abortRun text => exact count_keepsOpen _
        | mailboxError text => exact Routine.keeps_raise _
        | messageGone text => exact Routine.keeps_raise _
        | gmailError cls text status => exact Routine.keeps_raise _
        | other name text => exact Routine.keeps_raise _
      · exact ih

theorem settleRejections_keepsOpen : (settleRejections o).Keeps isOpen := by
  refine Routine.keeps_bind Routine.keeps_getSelf (fun s => ?_)
  dsimp only
  split
  · refine Routine.keeps_bind ?_ (fun message => ?_)
    · unfold breakerMessage
      split
      · exact Routine.keeps_raise _
      · exact Routine.keeps_pure _
    · exact Routine.keeps_bind (count_keepsOpen _) (fun _ => quarantineAll_keepsOpen _)
  · exact quarantineAll_keepsOpen _

/-- The body of the `with` statement does not close the session. -/
theorem session_keepsOpen (started : ℚ) : (session o started).Keeps isOpen := by
  refine Routine.keeps_bind (onMailbox_keepsOpen ICloudMailbox.requireKeywords_keeps) (fun _ => ?_)
  refine Routine.keeps_bind (Routine.keeps_call _) (fun _ => ?_)
  refine Routine.keeps_bind ?_ (fun labels => ?_)
  · cases o.label with
    | none => exact Routine.keeps_pure _
    | some name =>
        show Routine.Keeps (if _ then _ else _) _
        split
        · exact Routine.keeps_pure _
        · exact Routine.keeps_bind (Routine.keeps_call _) (fun _ => Routine.keeps_pure _)
  refine Routine.keeps_bind (onMailbox_keepsOpen (ICloudMailbox.listInboxUids_keeps _))
    (fun uids => ?_)
  refine Routine.keeps_bind (count_keepsOpen _) (fun _ => ?_)
  refine Routine.keeps_bind (processAll_keepsOpen _ _ _) (fun _ => ?_)
  refine Routine.keeps_bind Routine.keeps_getSelf (fun s => ?_)
  split
  · exact Routine.keeps_pure _
  · exact settleRejections_keepsOpen

/-- The calls of the body are those of a session that is not read-only. -/
theorem session_fit (started : ℚ) : Fit RunState.mailbox false (session o started) where
  served := session_uses (fun _ _ => Op.isServed_of_isOn) rfl rfl (fun _ => rfl) (fun _ => rfl)
    (fun _ => rfl) (fun _ => rfl) (fun _ _ => rfl) started
  keepsOpen := session_keepsOpen started

/-- A run of the forwarder. -/
theorem run_safe : (Forwarder.run o).Safe Speaks (protocol false) (fun _ _ c => c.isEntered = false)
    (Forwarder.initial o) closed := by
  rw [Forwarder.run, Routine.safe_bind]
  refine safe_command trivial (fun r => ?_)
  rcases r with e | started
  · rfl
  have hend : ∀ (s : RunState) (c : Connection), c.isEntered = false → (do
      let ended ← call .clock
      count (fun r => { r with durationSeconds := round3 (ended - started) })
      let s ← getSelf
      pure s.result : Run SyncResult).Safe Speaks (protocol false)
        (fun _ _ c => c.isEntered = false) s c := by
    intro s c hc
    rw [Routine.safe_bind]
    refine safe_command trivial (fun r => ?_)
    cases r <;> exact hc
  rw [Routine.after_ok, Routine.safe_bind, Routine.safe_attempt]
  refine (with_safe (fun _ _ => rfl) (session_fit started) rfl rfl).mono ?_
  intro outcome s c hc
  rw [Routine.after_ok]
  cases outcome with
  | ok _ => exact hend s c hc
  | error exc =>
      dsimp only
      split
      · exact hend _ c hc
      · exact hc

end forwarder

/-! ## The maintenance commands -/

theorem removeKeyword_served (uid : ℕ) (keyword : String) :
    (ICloudMailbox.removeKeyword uid keyword).Uses (fun op => op.isServed false = true) := by
  have hrefetch : (ICloudMailbox.refetchFlags uid).Uses (fun op => op.isServed false = true) :=
    ICloudMailbox.refetchFlags_done.mono (fun _ h => Op.isServed_of_isOn (Op.isOn_of_isDone h))
  refine Routine.uses_bind (Routine.uses_attempt ?_) (fun r => ?_)
  · refine Routine.uses_bind ICloudMailbox.client_uses (fun _ => ?_)
    refine Routine.uses_bind ICloudMailbox.encodeAscii_uses (fun _ => ?_)
    refine Routine.uses_bind (Routine.uses_call rfl) (fun response => ?_)
    cases response.lookup uid with
    | none => exact hrefetch
    | some flags =>
        dsimp only
        split
        · exact hrefetch
        · exact Routine.uses_pure _
  · cases r with
    | error e => exact Routine.uses_raise _
    | ok flags =>
        dsimp only
        split
        · exact Routine.uses_raise _
        · exact Routine.uses_pure _

theorem removeKeyword_keeps {τ : Type} {f : ICloudMailbox → τ} (uid : ℕ) (keyword : String) :
    (ICloudMailbox.removeKeyword uid keyword).Keeps f := by
  have hrefetch : (ICloudMailbox.refetchFlags uid).Keeps f := by
    refine Routine.keeps_bind ICloudMailbox.client_keeps (fun _ => ?_)
    exact Routine.keeps_bind (Routine.keeps_call _) (fun _ => Routine.keeps_pure _)
  refine Routine.keeps_bind (Routine.keeps_attempt ?_) (fun r => ?_)
  · refine Routine.keeps_bind ICloudMailbox.client_keeps (fun _ => ?_)
    refine Routine.keeps_bind ?_ (fun _ => ?_)
    · unfold ICloudMailbox.encodeAscii
      split
      · exact Routine.keeps_pure _
      · exact Routine.keeps_raise _
    refine Routine.keeps_bind (Routine.keeps_call _) (fun response => ?_)
    cases response.lookup uid with
    | none => exact hrefetch
    | some flags =>
        dsimp only
        split
        · exact hrefetch
        · exact Routine.keeps_pure _
  · cases r with
    | error e => exact Routine.keeps_raise _
    | ok flags =>
        dsimp only
        split
        · exact Routine.keeps_raise _
        · exact Routine.keeps_pure _

theorem fetchHeaders_keeps {τ : Type} {f : ICloudMailbox → τ}
    (parse : Option (List UInt8) → ICloudMailbox.Headers) (uids : List ℕ) :
    (ICloudMailbox.fetchHeaders parse uids).Keeps f := by
  unfold ICloudMailbox.fetchHeaders
  split
  · exact Routine.keeps_pure _
  · refine Routine.keeps_bind (Routine.keeps_attempt ?_) (fun r => ?_)
    · exact Routine.keeps_bind ICloudMailbox.client_keeps (fun _ => Routine.keeps_call _)
    · cases r with
      | error e => exact Routine.keeps_raise _
      | ok fetched => exact Routine.keeps_pure _

section commands

open Cli

variable {k : Keywords}

theorem print_fit (line : Line) : Fit CliState.mailbox readonly (Cli.print line) :=
  .modify (fun _ => rfl)

/-- The session of a command is entered and left around a body that is fit for it. -/
theorem withMailbox_safe {α : Type} {body : Command α} (h : Fit CliState.mailbox readonly body)
    {s : CliState} (hs : s.mailbox.readonly = readonly) :
    (withMailbox body).Safe Speaks (protocol readonly) (fun _ _ c => c.isEntered = false) s
      closed :=
  with_safe (fun _ _ => rfl) h hs rfl

theorem inboxFlags_fit : Fit CliState.mailbox readonly (Cli.onMailbox ICloudMailbox.inboxFlags) :=
  .on (fun _ _ => rfl) (ICloudMailbox.inboxFlags_uses (fun _ => rfl) (fun _ => rfl))
    ICloudMailbox.inboxFlags_keeps

theorem retryAll_fit (keyword : String) (carrying uids : List ℕ) :
    Fit CliState.mailbox false (retryAll keyword carrying uids) := by
  induction uids with
  | nil => exact .pure _
  | cons uid rest ih =>
      unfold retryAll
      split
      · refine .bind (.on (fun _ _ => rfl) (removeKeyword_served uid keyword)
          (removeKeyword_keeps uid keyword)) (fun _ => ?_)
        exact .bind (print_fit _) (fun _ => ih)
      · exact .bind (print_fit _) (fun _ => ih)

theorem markAll_fit (flags : List (ℕ × List String)) (uids : List ℕ) :
    Fit CliState.mailbox false (markAll k flags uids) := by
  induction uids with
  | nil => exact .pure _
  | cons uid rest ih =>
      unfold markAll
      split
      · refine .bind (print_fit _) (fun _ => ?_)
        exact .bind ih (fun _ => .pure _)
      · refine .bind (.on (fun _ _ => rfl)
          (ICloudMailbox.addKeyword_on.mono (fun _ => Op.isServed_of_isOn))
          (ICloudMailbox.addKeyword_keeps uid _)) (fun _ => ?_)
        exact .bind (print_fit _) (fun _ => ih)

theorem collect_fit (parse : Option (List UInt8) → ICloudMailbox.Headers) :
    Fit CliState.mailbox true (Cli.onMailbox (collect parse k)) := by
  refine .on (fun _ _ => rfl) ?_ ?_
  · refine Routine.uses_bind (ICloudMailbox.inboxFlags_uses (fun _ => rfl) (fun _ => rfl))
      (fun _ => ?_)
    exact Routine.uses_bind (ICloudMailbox.fetchHeaders_uses (fun _ => rfl) parse _)
      (fun _ => Routine.uses_pure _)
  · refine Routine.keeps_bind ICloudMailbox.inboxFlags_keeps (fun _ => ?_)
    exact Routine.keeps_bind (fetchHeaders_keeps parse _) (fun _ => Routine.keeps_pure _)

/-! ### The three commands -/

theorem cmdRetry_safe (args : RetryArgs) : (cmdRetry k args).Safe Speaks (protocol false)
    (fun _ _ c => c.isEntered = false) (Cli.initial k false) closed := by
  unfold cmdRetry
  split
  · rfl
  refine withMailbox_safe ?_ rfl
  refine .bind (.on (fun _ _ => rfl)
    (ICloudMailbox.searchKeyword_uses (fun _ => rfl) (fun _ => rfl) _)
    (Routine.keeps_bind ICloudMailbox.inboxFlags_keeps (fun _ => Routine.keeps_pure _)))
    (fun carrying => ?_)
  dsimp only
  split
  · exact .bind (print_fit _) (fun _ => .pure _)
  · exact .bind (retryAll_fit _ _ _) (fun _ => .pure _)

theorem cmdMarkFailed_safe (uids : List ℕ) : (cmdMarkFailed k uids).Safe Speaks (protocol false)
    (fun _ _ c => c.isEntered = false) (Cli.initial k false) closed := by
  refine withMailbox_safe ?_ rfl
  refine .bind (.on (fun _ _ => rfl) ICloudMailbox.requireKeywords_uses
    ICloudMailbox.requireKeywords_keeps) (fun _ => ?_)
  refine .bind inboxFlags_fit (fun flags => ?_)
  exact .bind (markAll_fit flags uids) (fun _ => .pure _)

theorem printAll_safe (lines : List Line) {s : CliState} {c : Connection}
    (hc : c.isEntered = false) :
    (printAll lines).Safe Speaks (protocol readonly) (fun _ _ c => c.isEntered = false) s c := by
  induction lines generalizing s with
  | nil => exact hc
  | cons line rest ih =>
      rw [printAll, Routine.safe_bind]
      exact ih

theorem cmdList_safe (parse : Option (List UInt8) → ICloudMailbox.Headers) (json : Bool) :
    (cmdList parse k json).Safe Speaks (protocol true) (fun _ _ c => c.isEntered = false)
      (Cli.initial k true) closed := by
  rw [cmdList, Routine.safe_bind]
  refine (withMailbox_safe (collect_fit parse) rfl).mono ?_
  intro r s c hc
  cases r with
  | error e => exact hc
  | ok entries =>
      rw [Routine.after_ok, Routine.safe_bind]
      refine (printAll_safe _ hc).mono ?_
      intro r s c hc
      cases r <;> exact hc

end commands

/-! ## The watcher -/

section watcher

open Watch (onLoop Phase pass openSession wait serve serveOrClose reconnectBackoff guarded
  beginSession runForever)

variable {settings : WatcherSettings}

theorem onLoop_fit (f : WatchLoop → WatchLoop) : Fit Watch.mailbox true (onLoop f) :=
  .modify (fun _ => rfl)

theorem settleTrigger_fit (now : ℚ) (uids : Finset ℕ) (result : TriggerResult) :
    Fit Watch.mailbox true (WatchLoop.settleTrigger now uids result) := by
  unfold WatchLoop.settleTrigger
  split
  · refine .bind (onLoop_fit _) (fun _ => ?_)
    split
    · exact .bind (onLoop_fit _) (fun _ => .pure _)
    · exact .pure _
  split
  · exact .bind (onLoop_fit _) (fun _ => .pure _)
  · refine .bind (onLoop_fit _) (fun _ => ?_)
    refine .bind .getSelf (fun self => ?_)
    refine .bind ?_ (fun delay => .bind (onLoop_fit _) (fun _ => .pure _))
    unfold WatchLoop.backoffDelay
    split
    · exact .raise _
    · exact .pure _

theorem step_fit : Fit Watch.mailbox true WatchLoop.step := by
  refine .bind (.call rfl) (fun now => ?_)
  refine .bind (.on (fun _ _ => rfl)
    (ICloudMailbox.listInboxUids_uses (fun _ => rfl) (fun _ => rfl) _)
    (ICloudMailbox.listInboxUids_keeps _)) (fun uids => ?_)
  refine .bind (onLoop_fit _) (fun _ => ?_)
  split
  · exact .pure _
  refine .bind .getSelf (fun self => ?_)
  dsimp only
  split
  · exact .pure _
  split
  · exact .pure _
  refine .bind .getSelf (fun self => ?_)
  refine .bind (.call rfl) (fun _ => ?_)
  refine .bind (.call rfl) (fun result => ?_)
  exact .bind (.call rfl) (fun _ => settleTrigger_fit now _ result)

/-- Where the inner loop stands: in a session, which is idling only after an exception. -/
def Serving (o : Except Exc Unit) (s : Watch) (c : Connection) : Prop :=
  s.mailbox.connected = true ∧ (c = serving true ∨ (∃ e, o = .error e) ∧ c = idling true)

/-- `idle_wait`: only a failed `DONE` leaves the session idling. -/
theorem idleWait_safe (timeout : ℚ) {s : Watch} (hs : s.mailbox.connected = true) :
    (do let _ ← Watch.onMailbox (ICloudMailbox.idleWait timeout); pure () : Watching Unit).Safe
      Speaks (protocol true) Serving s (serving true) := by
  rw [Routine.safe_bind, Watch.onMailbox, Routine.safe_on]
  simp only [ICloudMailbox.idleWait, ICloudMailbox.client, ICloudMailbox.idleOnce, Routine.safe_bind,
    Routine.safe_getSelf, Routine.after_ok, hs, if_true, Routine.safe_pure, Routine.safe_attempt]
  refine safe_command rfl (fun r => ?_)
  rcases r with e | _
  · exact ⟨hs, Or.inl rfl⟩
  rw [Routine.after_ok, Routine.safe_bind, Routine.safe_attempt]
  refine safe_command rfl (fun responses => ?_)
  rw [Routine.after_ok, Routine.safe_bind]
  refine safe_command rfl (fun r => ?_)
  rcases r with e | _
  · exact ⟨hs, Or.inr ⟨⟨_, rfl⟩, rfl⟩⟩
  rw [Routine.after_ok, Routine.safe_settle]
  cases responses with
  | error e => exact ⟨hs, Or.inl rfl⟩
  | ok pushed => exact ⟨hs, Or.inl rfl⟩

/-- What is fit for the session, at the end of a pass. -/
theorem serving_of_fit {m : Watching Unit} (h : Fit Watch.mailbox true m) {s : Watch}
    (hs : s.mailbox.connected = true) : m.Safe Speaks (protocol true) Serving s (serving true) :=
  (h.safe hs).mono (fun _ _ _ h' => ⟨h'.1, Or.inl h'.2⟩)

/-- What follows a step that is fit for the session. -/
theorem serving_of_bind {α : Type} {m : Watching α} {f : α → Watching Unit}
    (h : Fit Watch.mailbox true m) {s : Watch} (hs : s.mailbox.connected = true)
    (hf : ∀ a s', s'.mailbox.connected = true →
      (f a).Safe Speaks (protocol true) Serving s' (serving true)) :
    (m >>= f).Safe Speaks (protocol true) Serving s (serving true) := by
  rw [Routine.safe_bind]
  refine (h.safe hs).mono ?_
  rintro r s' c ⟨hs', rfl⟩
  cases r with
  | error e => exact ⟨hs', Or.inl rfl⟩
  | ok a => exact hf a s' hs'

theorem serve_safe {s : Watch} (hs : s.mailbox.connected = true) :
    (serve settings).Safe Speaks (protocol true) Serving s (serving true) := by
  refine serving_of_bind (.call rfl) hs (fun _ s₁ hs₁ => ?_)
  refine serving_of_bind step_fit hs₁ (fun delay s₂ hs₂ => ?_)
  cases delay with
  | some delay => exact serving_of_fit (.bind (.call rfl) (fun _ => .call rfl)) hs₂
  | none =>
      refine serving_of_bind .getSelf hs₂ (fun self s₃ hs₃ => ?_)
      split
      · exact serving_of_bind (.call rfl) hs₃ (fun _ s₄ hs₄ => idleWait_safe _ hs₄)
      · exact serving_of_fit (.bind (.call rfl) (fun _ => .call rfl)) hs₃

/-- Where `run_forever` stands between two passes. -/
def Stands : Phase → Watch → Connection → Prop
  | .serving, s, c => s.mailbox.connected = true ∧ c = serving true
  | _, _, c => c.isEntered = false

/-- The end of a pass: a session that is still served, or none. -/
def Passed (o : Except Exc Phase) (s : Watch) (c : Connection) : Prop :=
  ∀ next, o = .ok next → Stands next s c

/-- A part of the `try` block that returns in a session or raises outside of one. -/
theorem guarded_safe {body : Watching Unit} {s : Watch} {c : Connection}
    (h : body.Safe Speaks (protocol true) (fun o s' c' =>
      (o = .ok () ∧ s'.mailbox.connected = true ∧ c' = serving true) ∨
        ((∃ e, o = .error e) ∧ c'.isEntered = false)) s c) :
    (guarded body).Safe Speaks (protocol true) Passed s c := by
  rw [guarded, Routine.safe_bind, Routine.safe_attempt]
  refine h.mono ?_
  rintro r s₁ c₁ (⟨rfl, hs₁, rfl⟩ | ⟨⟨e, rfl⟩, hleft⟩)
  · rintro next ⟨⟩
    exact ⟨hs₁, rfl⟩
  simp only [Routine.after_ok, reconnectBackoff, Routine.safe_bind, Routine.safe_getSelf]
  refine safe_command trivial (fun r => ?_)
  rcases r with e | _
  · exact fun _ h' => absurd h' (by simp)
  rw [Routine.after_ok, Routine.safe_bind]
  refine safe_command trivial (fun r => ?_)
  rcases r with e | _
  · exact fun _ h' => absurd h' (by simp)
  · rintro next ⟨⟩
    exact hleft

theorem pass_safe (maxSessions : Option ℕ) {phase : Phase} {s : Watch} {c : Connection}
    (h : Stands phase s c) :
    (pass settings maxSessions phase).Safe Speaks (protocol true) Passed s c := by
  cases phase with
  | ended =>
      rintro next ⟨⟩
      exact h
  | connecting =>
      rw [Watch.pass, Watch.beginSession, Routine.safe_bind, Routine.safe_getSelf, Routine.after_ok]
      split
      swap
      · rintro next ⟨⟩
        exact h
      rw [Routine.safe_bind, Routine.safe_modifySelf, Routine.after_ok]
      refine guarded_safe ?_
      rw [openSession, Routine.safe_bind]
      refine safe_command trivial (fun r => ?_)
      rcases r with e | _
      · exact Or.inr ⟨⟨_, rfl⟩, h⟩
      simp only [Routine.after_ok, Routine.safe_bind, Routine.safe_modifySelf, Watch.onMailbox,
        Routine.safe_on]
      refine (connect_safe (s := watcherMailbox settings) rfl h).mono ?_
      rintro r mailbox c₁ (⟨rfl, hconnected, rfl⟩ | ⟨⟨e, rfl⟩, hleft⟩)
      · exact Or.inl ⟨rfl, hconnected, rfl⟩
      · exact Or.inr ⟨⟨_, rfl⟩, hleft⟩
  | serving =>
      obtain ⟨hs, rfl⟩ := h
      refine guarded_safe ?_
      rw [serveOrClose, Routine.safe_bind, Routine.safe_attempt]
      refine (serve_safe hs).mono ?_
      rintro r s₁ c₁ ⟨hs₁, hc₁⟩
      rw [Routine.after_ok]
      rcases r with e | _
      · have hc : c₁ = serving true ∨ c₁ = idling true := hc₁.imp_right And.right
        simp only [Routine.safe_bind, Watch.onMailbox, Routine.safe_on]
        refine (close_safe hs₁ hc).mono ?_
        rintro r mailbox c₂ ⟨rfl, rfl⟩
        exact Or.inr ⟨⟨_, rfl⟩, rfl⟩
      · rcases hc₁ with rfl | ⟨⟨e, he⟩, -⟩
        · exact Or.inl ⟨rfl, hs₁, rfl⟩
        · cases he

theorem runForever_safe (maxSessions : Option ℕ) (n : ℕ) {phase : Phase} {s : Watch}
    {c : Connection} (h : Stands phase s c) :
    (runForever settings maxSessions n phase).Safe Speaks (protocol true) (fun _ _ _ => True) s
      c := by
  induction n generalizing phase s c with
  | zero => trivial
  | succ n ih =>
      rw [runForever, Routine.safe_bind]
      refine (pass_safe maxSessions h).mono ?_
      intro r s₁ c₁ hpassed
      cases r with
      | error e => trivial
      | ok next => exact ih (hpassed next rfl)

end watcher

/-! ## Main results -/

/-- **A forwarder run keeps to the session**, which it opens for writing. -/
theorem forwarder_session (o : ForwarderOptions) :
    Polite false (Forwarder.run o (Forwarder.initial o)) ∧
      Leaves (Forwarder.run o (Forwarder.initial o)) :=
  ⟨polite_of_safe run_safe, leaves_of_safe run_safe⟩

/-- **The maintenance commands keep to the session**, and the report asks for nothing that writes:
    its session is read-only. -/
theorem commands_session (k : Keywords) :
    (∀ args, Polite false (Cli.cmdRetry k args (Cli.initial k false)) ∧
      Leaves (Cli.cmdRetry k args (Cli.initial k false))) ∧
    (∀ uids, Polite false (Cli.cmdMarkFailed k uids (Cli.initial k false)) ∧
      Leaves (Cli.cmdMarkFailed k uids (Cli.initial k false))) ∧
    (∀ parse json, Polite true (Cli.cmdList parse k json (Cli.initial k true)) ∧
      Leaves (Cli.cmdList parse k json (Cli.initial k true))) :=
  ⟨fun args => ⟨polite_of_safe (cmdRetry_safe args), leaves_of_safe (cmdRetry_safe args)⟩,
    fun uids =>
      ⟨polite_of_safe (cmdMarkFailed_safe uids), leaves_of_safe (cmdMarkFailed_safe uids)⟩,
    fun parse json =>
      ⟨polite_of_safe (cmdList_safe parse json), leaves_of_safe (cmdList_safe parse json)⟩⟩

/-- **The watcher keeps to the session**, however long it runs: it holds one session at a time,
    which is read-only, and sends nothing but `DONE` while it idles. -/
theorem watcher_session (settings : WatcherSettings) (maxSessions : Option ℕ) (n : ℕ) :
    Polite true (Watch.runForever settings maxSessions n .connecting (Watch.initial settings)) :=
  polite_of_safe (Q := fun _ _ => True) (runForever_safe maxSessions n rfl)

end Connection

end MailTransporter
