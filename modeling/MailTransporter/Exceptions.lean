import MailTransporter.ForwarderRules
import MailTransporter.Provider

set_option autoImplicit false

/-! # Which exceptions get out

`Recorded` is the environment that writes every call down with its answer and leaves open what the
answers are. Over it, each method of `ICloudMailbox` is shown to raise nothing but a `MailboxError`,
with two exceptions that are in the answers: `connect` asks for a capability outside of its `try`,
and `fetch_message` converts a body that may be NIL. A run passes these on, and has a third of its
own in the message of the circuit breaker. -/

namespace MailTransporter

open Effect
open Effect.Routine (raise attempt getSelf modifySelf settle)

namespace Exceptions

/-! ## Calls and answers -/

/-- A call and its answer. -/
abbrev Event := (op : Op) × Reply op

/-- A client that answers as `h` does, with a record of the calls and their answers. -/
def recorded {W : Type} (h : W → (op : Op) → Reply op × W) (w : W × List Event) (op : Op) :
    Reply op × (W × List Event) :=
  ((h w.1 op).1, ((h w.1 op).2, w.2 ++ [⟨op, (h w.1 op).1⟩]))

/-- A call may get the answers `A` allows. -/
def Recorded (A : (op : Op) → Reply op → Prop) : Env Op Reply (List Event) :=
  fun t op r t' => A op r ∧ t' = t ++ [⟨op, r⟩]

/-- The answers the code does not cope with: asking for `IDLE` raises an exception that is not
    `caught`, or the message that is fetched has NIL for a body. -/
def strange (caught : Exc → Bool) : (op : Op) → Reply op → Bool
  | .hasCapability name, .error e => decide (name = "IDLE") && !caught e
  | .fetch uids .message, .ok data =>
      uids.any (fun uid => decide ((data.lookup uid).bind FetchItem.body = some none))
  | _, _ => false

/-- What Gmail's answer to an insert means for the run. -/
inductive Verdict where
  | accepted
  | rejected (perMessage : Bool)
  | postponed
  | broken
deriving DecidableEq, Repr

def verdict : (op : Op) → Reply op → Option Verdict
  | .insertRaw _ _, .ok _ => some .accepted
  | .insertRaw _ _, .error (.gmailError .permanent _ status) =>
      some (.rejected (MailTransporter.perMessage status))
  | .insertRaw _ _, .error (.gmailError .retryable _ _) => some .postponed
  | .insertRaw _ _, .error (.gmailError .auth _ _) => some .postponed
  | .insertRaw _ _, .error _ => some .broken
  | _, _ => none

/-- No answer is strange. -/
def Plain (caught : Exc → Bool) (t : List Event) : Prop :=
  ∀ event ∈ t, strange caught event.1 event.2 = false

/-- The verdicts in the order of the inserts. -/
def verdicts (t : List Event) : List Verdict := t.filterMap (fun event => verdict event.1 event.2)

variable {c : Exc → Bool}

theorem plain_append {t new : List Event} : Plain c (t ++ new) ↔ Plain c t ∧ Plain c new := by
  unfold Plain
  rw [List.forall_mem_append]

/-- The record has gone on without inserts, and `clean` says whether without strange answers. -/
def Noting (c : Exc → Bool) (clean : Prop) (t t' : List Event) : Prop :=
  ∃ new, t' = t ++ new ∧ verdicts new = [] ∧ (Plain c new ↔ clean)

theorem Noting.refl (t : List Event) : Noting c True t t :=
  ⟨[], (List.append_nil t).symm, rfl, iff_of_true (fun _ h => absurd h List.not_mem_nil) trivial⟩

theorem Noting.trans {clean : Prop} {t t' t'' : List Event} (h : Noting c True t t')
    (h' : Noting c clean t' t'') : Noting c clean t t'' := by
  obtain ⟨new, rfl, hv, hp⟩ := h
  obtain ⟨new', rfl, hv', hp'⟩ := h'
  refine ⟨new ++ new', List.append_assoc _ _ _, ?_, ?_⟩
  · rw [verdicts, List.filterMap_append, ← verdicts, ← verdicts, hv, hv']
    rfl
  · rw [plain_append, hp, hp', true_and]

theorem Noting.plain {clean : Prop} {t t' : List Event} (h : Noting c clean t t')
    (ht : Plain c t) : Plain c t' ↔ clean := by
  obtain ⟨new, rfl, -, hp⟩ := h
  rw [plain_append, hp]
  exact and_iff_right ht

theorem Noting.verdicts {clean : Prop} {t t' : List Event} (h : Noting c clean t t') :
    verdicts t' = verdicts t := by
  obtain ⟨new, rfl, hv, -⟩ := h
  rw [Exceptions.verdicts, List.filterMap_append, ← Exceptions.verdicts, ← Exceptions.verdicts, hv,
    List.append_nil]

theorem Noting.congr {clean clean' : Prop} {t t' : List Event} (h : Noting c clean t t')
    (hc : clean ↔ clean') : Noting c clean' t t' := by
  obtain ⟨new, ht, hv, hp⟩ := h
  exact ⟨new, ht, hv, hp.trans hc⟩

theorem Noting.event {op : Op} {r : Reply op} {clean : Prop} (t : List Event)
    (hv : verdict op r = none) (hs : strange c op r = false ↔ clean) :
    Noting c clean t (t ++ [⟨op, r⟩]) := by
  refine ⟨[⟨op, r⟩], rfl, ?_, ?_⟩
  · simp [Exceptions.verdicts, hv]
  · simp [Plain, hs]

/-! ## Routines over the record -/

variable {A : (op : Op) → Reply op → Prop} {σ τ α β : Type}

theorem safe_event {op : Op} {Q : Except Exc (Value op) → σ → List Event → Prop} {s : σ}
    {t : List Event} (h : ∀ r, A op r → Q r s (t ++ [⟨op, r⟩])) :
    (call op : Py σ (Value op)).Safe (Recorded A) .alone Q s t := by
  refine Routine.safe_call_alone.mpr ?_
  intro r t' hE
  obtain ⟨hA, rfl⟩ := hE
  exact h r hA

/-- The routine gets no strange answer, and inserts nothing. -/
def Calm (A : (op : Op) → Reply op → Prop) (c : Exc → Bool) (m : Py σ α) : Prop :=
  ∀ s t, m.Safe (Recorded A) .alone (fun _ _ t' => Noting c True t t') s t

/-- Moreover it raises nothing but a `MailboxError`. -/
def Sound (A : (op : Op) → Reply op → Prop) (c : Exc → Bool) (m : Py σ α) : Prop :=
  ∀ s t, m.Safe (Recorded A) .alone (fun o _ t' => Noting c True t t' ∧
    ∀ e, o = .error e → e.isMailboxError = true) s t

theorem Sound.calm {m : Py σ α} (h : Sound A c m) : Calm A c m :=
  fun s t => (h s t).mono (fun _ _ _ h' => h'.1)

theorem sound_pure (a : α) : Sound A c (pure a : Py σ α) := fun _ t => ⟨.refl t, nofun⟩

theorem sound_raise {e : Exc} (h : e.isMailboxError = true) : Sound A c (raise e : Py σ α) := by
  refine fun _ t => ⟨.refl t, fun e' he => ?_⟩
  cases he
  exact h

theorem calm_raise (e : Exc) : Calm A c (raise e : Py σ α) := fun _ t => .refl t

theorem sound_getSelf : Sound A c (getSelf : Py σ σ) := fun _ t => ⟨.refl t, nofun⟩

theorem sound_modifySelf (f : σ → σ) : Sound A c (modifySelf f : Py σ Unit) :=
  fun _ t => ⟨.refl t, nofun⟩

theorem calm_call {op : Op} (hv : ∀ r, verdict op r = none) (hs : ∀ r, strange c op r = false) :
    Calm A c (call op : Py σ (Value op)) :=
  fun _ t => safe_event (fun r _ => .event t (hv r) (iff_of_true (hs r) trivial))

theorem calm_bind {m : Py σ α} {f : α → Py σ β} (hm : Calm A c m) (hf : ∀ a, Calm A c (f a)) :
    Calm A c (m >>= f) := by
  intro s t
  rw [Routine.safe_bind]
  refine (hm s t).mono ?_
  intro o s' t' h
  cases o with
  | error e => exact h
  | ok a => exact (hf a s' t').mono (fun _ _ _ h' => h.trans h')

theorem sound_bind {m : Py σ α} {f : α → Py σ β} (hm : Sound A c m) (hf : ∀ a, Sound A c (f a)) :
    Sound A c (m >>= f) := by
  intro s t
  rw [Routine.safe_bind]
  refine (hm s t).mono ?_
  rintro o s' t' ⟨h, he⟩
  cases o with
  | error e => exact ⟨h, fun e' heq => he e' (by cases heq; rfl)⟩
  | ok a =>
      rw [Routine.after_ok]
      refine (hf a s' t').mono ?_
      rintro o s'' t'' ⟨h', he'⟩
      exact ⟨h.trans h', he'⟩

/-- A `try` stops every exception. -/
theorem sound_attempt {m : Py σ α} (hm : Calm A c m) : Sound A c (attempt m) := by
  intro s t
  rw [Routine.safe_attempt]
  exact (hm s t).mono (fun _ _ _ h => ⟨h, nofun⟩)

/-! ## The methods that keep the promise -/

namespace Method

open ICloudMailbox

theorem client_sound : Sound A c client := by
  refine sound_bind sound_getSelf (fun self => ?_)
  split
  · exact sound_pure _
  · exact sound_raise rfl

theorem call_calm {op : Op} (hop : op.isImap = true) (hs : ∀ r, strange c op r = false) :
    Calm A c (call op : Mailbox (Value op)) := by
  refine calm_call ?_ hs
  intro r
  cases op
  case insertRaw raw labels => exact absurd hop Bool.false_ne_true
  all_goals rfl

theorem requireKeywords_sound : Sound A c requireKeywords := by
  refine sound_bind sound_getSelf (fun self => ?_)
  split
  · exact sound_pure _
  · exact sound_raise rfl

/-- `close` raises nothing at all. -/
theorem close_returns (s : ICloudMailbox) (t : List Event) :
    close.Safe (Recorded A) .alone (fun o _ t' => Noting c True t t' ∧ o = .ok ()) s t := by
  rw [close, Routine.safe_bind, Routine.safe_getSelf, Routine.after_ok, Routine.safe_bind,
    Routine.safe_modifySelf, Routine.after_ok]
  split
  swap
  · exact ⟨.refl t, rfl⟩
  rw [Routine.safe_bind, Routine.safe_attempt]
  refine safe_event (fun r _ => ?_)
  have hlogout : Noting c True t (t ++ [⟨.logout, r⟩]) := .event t rfl (iff_of_true rfl trivial)
  rw [Routine.after_ok]
  cases r with
  | ok _ => exact ⟨hlogout, rfl⟩
  | error e =>
      dsimp only
      rw [Routine.safe_bind, Routine.safe_attempt]
      refine safe_event (fun r _ => ?_)
      exact ⟨hlogout.trans (.event _ rfl (iff_of_true rfl trivial)), rfl⟩

theorem inboxFlags_sound : Sound A c inboxFlags := by
  refine sound_bind (sound_attempt ?_) (fun o => ?_)
  · refine calm_bind client_sound.calm (fun _ => ?_)
    refine calm_bind (call_calm rfl (fun _ => rfl)) (fun uids => ?_)
    split
    · exact (sound_pure _).calm
    · refine calm_bind client_sound.calm (fun _ => ?_)
      exact calm_bind (call_calm rfl (fun _ => rfl)) (fun _ => (sound_pure _).calm)
  · cases o with
    | error e => exact sound_raise rfl
    | ok p => exact sound_pure _

theorem listInboxUids_sound (skipKeywords : Option (List String)) :
    Sound A c (listInboxUids skipKeywords) := by
  refine sound_bind sound_getSelf (fun self => ?_)
  refine sound_bind (sound_attempt ?_) (fun o => ?_)
  · refine calm_bind client_sound.calm (fun _ => ?_)
    exact calm_bind (call_calm rfl (fun _ => rfl)) (fun _ => (sound_pure _).calm)
  · cases o with
    | ok uids => exact sound_pure _
    | error e =>
        show Sound A c (if _ then _ else _)
        split
        · exact sound_raise rfl
        · exact sound_bind inboxFlags_sound (fun _ => sound_pure _)

theorem searchKeyword_sound (keyword : String) : Sound A c (searchKeyword keyword) :=
  sound_bind inboxFlags_sound (fun _ => sound_pure _)

theorem fetchHeaders_sound (parse : Option (List UInt8) → Headers) (uids : List ℕ) :
    Sound A c (fetchHeaders parse uids) := by
  unfold fetchHeaders
  split
  · exact sound_pure _
  refine sound_bind (sound_attempt ?_) (fun o => ?_)
  · exact calm_bind client_sound.calm (fun _ => call_calm rfl (fun _ => rfl))
  · cases o with
    | error e => exact sound_raise rfl
    | ok fetched => exact sound_pure _

theorem encodeAscii_calm (keyword : String) : Calm A c (encodeAscii keyword) := by
  unfold encodeAscii
  split
  · exact (sound_pure _).calm
  · exact calm_raise _

theorem refetchFlags_calm (uid : ℕ) : Calm A c (refetchFlags uid) :=
  calm_bind client_sound.calm (fun _ =>
    calm_bind (call_calm rfl (fun _ => rfl)) (fun _ => (sound_pure _).calm))

theorem addKeyword_sound (uid : ℕ) (keyword : String) : Sound A c (addKeyword uid keyword) := by
  refine sound_bind (sound_attempt ?_) (fun o => ?_)
  · refine calm_bind client_sound.calm (fun _ => ?_)
    refine calm_bind (encodeAscii_calm keyword) (fun _ => ?_)
    refine calm_bind (call_calm rfl (fun _ => rfl)) (fun response => ?_)
    split
    · exact (sound_pure _).calm
    · exact refetchFlags_calm uid
  · cases o with
    | error e => exact sound_raise rfl
    | ok flags =>
        show Sound A c (if _ then _ else _)
        split
        · exact sound_pure _
        · exact sound_raise rfl

theorem removeKeyword_sound (uid : ℕ) (keyword : String) :
    Sound A c (removeKeyword uid keyword) := by
  refine sound_bind (sound_attempt ?_) (fun o => ?_)
  · refine calm_bind client_sound.calm (fun _ => ?_)
    refine calm_bind (encodeAscii_calm keyword) (fun _ => ?_)
    refine calm_bind (call_calm rfl (fun _ => rfl)) (fun response => ?_)
    split
    · exact refetchFlags_calm uid
    · split
      · exact refetchFlags_calm uid
      · exact (sound_pure _).calm
  · cases o with
    | error e => exact sound_raise rfl
    | ok flags =>
        show Sound A c (if _ then _ else _)
        split
        · exact sound_raise rfl
        · exact sound_pure _

theorem firstExisting_calm (candidates : List String) : Calm A c (firstExisting candidates) := by
  induction candidates with
  | nil => exact (sound_pure _).calm
  | cons candidate rest ih =>
      refine calm_bind client_sound.calm (fun _ => ?_)
      refine calm_bind (call_calm rfl (fun _ => rfl)) (fun found => ?_)
      split
      · exact (sound_pure _).calm
      · exact ih

theorem trashFolderName_sound : Sound A c trashFolderName := by
  refine sound_bind sound_getSelf (fun self => ?_)
  cases self.trashFolder with
  | some name => exact sound_pure _
  | none =>
      refine sound_bind (sound_attempt ?_) (fun o => ?_)
      · refine calm_bind client_sound.calm (fun _ => ?_)
        refine calm_bind (call_calm rfl (fun _ => rfl)) (fun _ => ?_)
        refine calm_bind (call_calm rfl (fun _ => rfl)) (fun found => ?_)
        cases found with
        | none => exact firstExisting_calm _
        | some name =>
            show Calm A c (if _ then _ else _)
            split
            · exact firstExisting_calm _
            · exact (sound_pure _).calm
      · rcases o with e | name
        · exact sound_raise rfl
        · cases name with
          | none => exact sound_raise rfl
          | some name => exact sound_bind (sound_modifySelf _) (fun _ => sound_pure _)

theorem capability_calm {name : String} (h : name ≠ "IDLE") :
    Calm A c (call (.hasCapability name) : Mailbox Bool) := by
  refine call_calm rfl (fun r => ?_)
  cases r with
  | ok _ => rfl
  | error e =>
      rw [strange, decide_eq_false h]
      rfl

theorem moveToFolder_sound (uid : ℕ) (folder : String) :
    Sound A c (moveToFolder uid folder) := by
  refine sound_bind client_sound (fun _ => ?_)
  refine sound_bind (sound_attempt ?_) (fun o => ?_)
  · refine calm_bind (calm_bind (call_calm rfl (fun _ => rfl)) (fun found => ?_)) (fun _ => ?_)
    · split
      · exact (sound_pure _).calm
      · exact call_calm rfl (fun _ => rfl)
    refine calm_bind (capability_calm (by decide)) (fun canMove => ?_)
    split
    · exact call_calm rfl (fun _ => rfl)
    refine calm_bind (capability_calm (by decide)) (fun uidPlus => ?_)
    split
    · refine calm_bind (call_calm rfl (fun _ => rfl)) (fun _ => ?_)
      exact calm_bind (call_calm rfl (fun _ => rfl)) (fun _ => call_calm rfl (fun _ => rfl))
    · exact calm_raise _
  · cases o with
    | ok _ => exact sound_pure _
    | error e =>
        show Sound A c (if _ then _ else _)
        split
        · next he => exact sound_raise he
        · exact sound_raise rfl

theorem moveToTrash_sound (uid : ℕ) : Sound A c (moveToTrash uid) :=
  sound_bind trashFolderName_sound (fun folder => moveToFolder_sound uid folder)

theorem idleWait_sound (timeout : ℚ) : Sound A c (idleWait timeout) := by
  refine sound_bind client_sound (fun _ => ?_)
  refine sound_bind (sound_attempt ?_) (fun o => ?_)
  · refine calm_bind (call_calm rfl (fun _ => rfl)) (fun _ => ?_)
    refine calm_bind (sound_attempt (call_calm rfl (fun _ => rfl))).calm (fun responses => ?_)
    refine calm_bind (call_calm rfl (fun _ => rfl)) (fun _ => ?_)
    cases responses with
    | ok pushed => exact (sound_pure _).calm
    | error e => exact calm_raise _
  · cases o with
    | ok pushed => exact sound_pure _
    | error e => exact sound_raise rfl

theorem noop_sound : Sound A c noop := by
  refine sound_bind (sound_attempt ?_) (fun o => ?_)
  · exact calm_bind client_sound.calm (fun _ => call_calm rfl (fun _ => rfl))
  · cases o with
    | ok _ => exact sound_pure _
    | error e => exact sound_raise rfl

/-! ## The two methods that do not -/

/-- What is caught includes every `MailboxError`. -/
def CatchesMailbox (c : Exc → Bool) : Prop := ∀ e, e.isMailboxError = true → c e = true

/-- `connect` raises what asking for the capability raises. -/
theorem connect_noting (hc : CatchesMailbox c) (s : ICloudMailbox) (t : List Event) :
    connect.Safe (Recorded A) .alone
      (fun o _ t' => Noting c (∀ e, o = .error e → c e = true) t t') s t := by
  have hopen : Calm A c openSession := by
    refine calm_bind sound_getSelf.calm (fun self => ?_)
    refine calm_bind (call_calm rfl (fun _ => rfl)) (fun _ => ?_)
    exact calm_bind (call_calm rfl (fun _ => rfl)) (fun _ => call_calm rfl (fun _ => rfl))
  rw [connect, Routine.safe_bind, Routine.safe_attempt]
  refine (hopen s t).mono ?_
  intro o s₁ t₁ h₁
  rw [Routine.after_ok]
  cases o with
  | error e =>
      refine h₁.congr (iff_of_true trivial ?_)
      intro e' he'
      cases he'
      exact hc _ rfl
  | ok info =>
      dsimp only
      rw [Routine.safe_bind, Routine.safe_modifySelf, Routine.after_ok, Routine.safe_bind]
      refine safe_event (fun r _ => ?_)
      cases r with
      | ok supportsIdle => exact h₁.trans (.event t₁ rfl (iff_of_true rfl nofun))
      | error e =>
          refine h₁.trans (.event t₁ rfl ?_)
          simp [strange]

/-- `fetch_message` raises a `TypeError` where the body is NIL. -/
theorem fetchMessage_noting (uid : ℕ) (s : ICloudMailbox) (t : List Event) :
    (fetchMessage uid).Safe (Recorded A) .alone (fun o s' t' => s' = s ∧
      Noting c (∀ e, o = .error e → e.isMailboxError = true) t t' ∧
      ∀ e, o = .error e → e.isMailboxError = true ∨ ∃ name text, e = .other name text) s t := by
  rw [fetchMessage, Routine.safe_bind, Routine.safe_attempt, Routine.safe_bind]
  have hmailbox : ∀ text (t' : List Event), Noting c True t t' → s = s ∧
      Noting c (∀ e, (.error (.mailboxError text) : Except Exc FetchedMessage) = .error e →
        e.isMailboxError = true) t t' ∧
      ∀ e, (.error (.mailboxError text) : Except Exc FetchedMessage) = .error e →
        e.isMailboxError = true ∨ ∃ name text, e = .other name text := by
    intro text t' h
    have hraised : ∀ e, (.error (.mailboxError text) : Except Exc FetchedMessage) = .error e →
        e.isMailboxError = true := by
      intro e he
      cases he
      rfl
    exact ⟨rfl, h.congr (iff_of_true trivial hraised), fun e he => Or.inl (hraised e he)⟩
  refine client_safe ?_ (fun text => hmailbox _ t (.refl t))
  rw [Routine.after_ok]
  refine safe_event (fun r _ => ?_)
  cases r with
  | error e => exact hmailbox _ _ (.event t rfl (iff_of_true rfl trivial))
  | ok data =>
      have hevent : ∀ clean : Prop, ((data.lookup uid).bind FetchItem.body ≠ some none ↔ clean) →
          Noting c clean t (t ++ [⟨.fetch [uid] .message, .ok data⟩]) := by
        intro clean hclean
        refine .event t rfl ?_
        rw [← hclean]
        simp [strange]
      rw [Routine.after_ok]
      dsimp only
      rcases hb : (data.lookup uid).bind FetchItem.body with _ | _ | raw
      · refine ⟨rfl, hevent _ (iff_of_true (by rw [hb]; exact (by simp)) ?_), ?_⟩
        · intro e he
          cases he
          rfl
        · intro e he
          cases he
          exact Or.inl rfl
      · refine ⟨rfl, hevent _ (iff_of_false (fun hne => hne hb) ?_), ?_⟩
        · exact fun hall => absurd (hall _ rfl) Bool.false_ne_true
        · intro e he
          cases he
          exact Or.inr ⟨_, _, rfl⟩
      · exact ⟨rfl, hevent _ (iff_of_true (by rw [hb]; exact (by simp)) (by simp)), by simp⟩

end Method

/-! ## The steps of a run -/

/-- What the `except` clause of `run` catches. -/
def caught (e : Exc) : Bool := e.isMailboxError || e.isGmailError

theorem caught_of_mailboxError {e : Exc} (h : e.isMailboxError = true) : caught e = true := by
  rw [caught, h, Bool.true_or]

/-- The step counts and talks to the mailbox, and raises nothing but `AbortRun`. -/
def Aborts (A : (op : Op) → Reply op → Prop) (m : Run Unit) : Prop :=
  ∀ s t, m.Safe (Recorded A) .alone (fun r s' t' => s.Same s' ∧ Noting caught True t t' ∧
    (r = .ok () ∨ ∃ text, r = .error (.abortRun text))) s t

theorem aborts_count {f : SyncResult → SyncResult} (hf : ∀ r, (f r).forwarded = r.forwarded) :
    Aborts A (count f) := fun s t => ⟨.count s (hf s.result), .refl t, Or.inl rfl⟩

theorem aborts_raise (text : String) : Aborts A (raise (.abortRun text)) :=
  fun s t => ⟨.refl s, .refl t, Or.inr ⟨text, rfl⟩⟩

/-- A `try` around a method, with a handler for `MailboxError`. -/
theorem aborts_attempt {m : Mailbox Unit} (hm : Sound A caught m) {f : Except Exc Unit → Run Unit}
    (hok : Aborts A (f (.ok ())))
    (herr : ∀ e, e.isMailboxError = true → Aborts A (f (.error e))) :
    Aborts A (attempt (onMailbox m) >>= f) := by
  intro s t
  rw [Routine.safe_bind, Routine.safe_attempt, safe_onMailbox]
  refine (hm s.mailbox t).mono ?_
  rintro r mailbox t' ⟨ht', hr⟩
  have hlater : ∀ {g : Run Unit}, Aborts A g → g.Safe (Recorded A) .alone
      (fun r s' t' => s.Same s' ∧ Noting caught True t t' ∧
        (r = .ok () ∨ ∃ text, r = .error (.abortRun text))) { s with mailbox := mailbox } t' := by
    intro g hg
    refine (hg _ t').mono ?_
    rintro r' s'' t'' ⟨hs, ht, h⟩
    exact ⟨⟨hs.rejected, hs.forwarded⟩, ht'.trans ht, h⟩
  rw [Routine.after_ok]
  cases r with
  | ok _ => exact hlater hok
  | error e => exact hlater (herr e (hr e rfl))

namespace Run

open Forwarder

/-- The handler that turns a `MailboxError` into an `AbortRun`. -/
theorem aborts_handler {e : Exc} (he : e.isMailboxError = true) (text : String) :
    Aborts A (if e.isMailboxError then raise (.abortRun text) else raise e) := by
  rw [if_pos he]
  exact aborts_raise text

theorem moveAside_aborts (uid : ℕ) (folder : String) : Aborts A (moveAside uid folder) :=
  aborts_attempt (Method.moveToFolder_sound uid folder) (aborts_count (fun _ => rfl))
    (fun _ he => aborts_handler he _)

theorem quarantine_aborts (o : ForwarderOptions) (uid : ℕ) (keyword folder : String) :
    Aborts A (quarantine o uid keyword folder) := by
  unfold quarantine
  split
  · refine aborts_attempt (Method.addKeyword_sound uid keyword) (aborts_count (fun _ => rfl)) ?_
    intro e he
    show Aborts A (if _ then _ else _)
    rw [if_pos he]
    exact moveAside_aborts uid folder
  · exact moveAside_aborts uid folder

/-- The answers of the code around the IMAP client: Gmail raises nothing but `GmailError`s, and the
    clock runs. -/
structure Answers (A : (op : Op) → Reply op → Prop) : Prop where
  gmailClient : ∀ e, A .gmailClient (.error e) → e.isGmailError = true
  ensureLabel : ∀ name e, A (.ensureLabel name) (.error e) → e.isGmailError = true
  insertRaw : ∀ raw labels e, A (.insertRaw raw labels) (.error e) → e.isGmailError = true
  clock : ∀ e, ¬A .clock (.error e)
  issueTrash : ∀ raw e, ¬A (.issueTrash raw) (.error e)

variable (hA : Answers A)

include hA

omit hA in
theorem trash_aborts (hissue : ∀ raw e, ¬A (.issueTrash raw) (.error e)) (message : FetchedMessage) :
    Aborts A (trash message) := by
  intro s t
  rw [trash, Routine.safe_bind]
  refine safe_event (fun r hr => ?_)
  cases r with
  | error e => exact absurd hr (hissue _ e)
  | ok _ =>
      have hevent : Noting caught True t (t ++ [⟨.issueTrash message.raw, .ok ()⟩]) :=
        .event t rfl (iff_of_true rfl trivial)
      have hmove : Aborts A
          (attempt (onMailbox (ICloudMailbox.moveToTrash message.uid)) >>= trashed message) :=
        aborts_attempt (Method.moveToTrash_sound message.uid)
          (aborts_count (f := fun r => { r with trashed := r.trashed + 1 }) (fun _ => rfl))
          (fun _ he => aborts_handler he _)
      rw [Routine.after_ok]
      refine (hmove s _).mono ?_
      rintro r s' t' ⟨hs, ht, h⟩
      exact ⟨hs, hevent.trans ht, h⟩

/-! ## What a run knows of the verdicts -/

omit hA

/-- The result and the rejections account for the verdicts so far, and nothing strange came. -/
structure Going (s : RunState) (t : List Event) : Prop where
  plain : Plain caught t
  unbroken : Verdict.broken ∉ verdicts t
  forwarded : s.result.forwarded = 0 ↔ Verdict.accepted ∉ verdicts t
  rejected : ∀ b, (∃ r ∈ s.rejected, r.perMessage = b) ↔ Verdict.rejected b ∈ verdicts t

theorem Going.later {s s' : RunState} {t t' : List Event} (h : Going s t) (hs : s.Same s')
    (ht : Noting caught True t t') : Going s' t' where
  plain := (ht.plain h.plain).mpr trivial
  unbroken := by
    rw [ht.verdicts]
    exact h.unbroken
  forwarded := by
    rw [ht.verdicts, hs.forwarded]
    exact h.forwarded
  rejected := by
    rw [ht.verdicts, hs.rejected]
    exact h.rejected

/-- The message of the breaker has no rejection to quote. -/
def Unsettled (o : ForwarderOptions) (t : List Event) : Prop :=
  o.rejectionThreshold < 0 ∧ Verdict.accepted ∉ verdicts t ∧ Verdict.broken ∉ verdicts t ∧
    Verdict.rejected false ∉ verdicts t ∧ Verdict.rejected true ∈ verdicts t

theorem Going.unsettled_iff {o : ForwarderOptions} {s : RunState} {t : List Event}
    (h : Going s t) : Unsettled o t ↔ s.rejected ≠ [] ∧
      s.rejected.filter (fun r => !r.perMessage) = [] ∧
      breakerTrips o.rejectionThreshold [] s.result.forwarded = true := by
  have hsuspicious : s.rejected.filter (fun r => !r.perMessage) = [] ↔
      Verdict.rejected false ∉ verdicts t := by
    rw [← h.rejected false, List.filter_eq_nil_iff]
    simp
  have htrips : breakerTrips o.rejectionThreshold [] s.result.forwarded = true ↔
      o.rejectionThreshold < 0 ∧ Verdict.accepted ∉ verdicts t := by
    rw [← h.forwarded]
    simp only [breakerTrips, List.length_nil, Bool.and_eq_true, decide_eq_true_eq]
    omega
  rw [hsuspicious, htrips]
  constructor
  · rintro ⟨hneg, haccepted, -, hfalse, htrue⟩
    refine ⟨?_, hfalse, hneg, haccepted⟩
    obtain ⟨r, hr, -⟩ := (h.rejected true).mpr htrue
    exact List.ne_nil_of_mem hr
  · rintro ⟨hne, hfalse, hneg, haccepted⟩
    refine ⟨hneg, haccepted, h.unbroken, hfalse, ?_⟩
    obtain ⟨r, hr⟩ := List.exists_mem_of_ne_nil _ hne
    refine (h.rejected true).mp ⟨r, hr, ?_⟩
    by_contra hp
    exact hfalse ((h.rejected false).mp ⟨r, hr, Bool.eq_false_iff.mpr hp⟩)

/-- `e` goes through the handlers of the loop. -/
structure Stopped (e : Exc) (t : List Event) : Prop where
  notAbort : ∀ text, e ≠ .abortRun text
  why : (caught e = true ∧ Plain caught t ∧ Verdict.broken ∈ verdicts t) ∨
    (caught e = false ∧ ¬Plain caught t)

/-- After a message the loop goes on or ends, and else the exception has been accounted for. -/
def Kept (r : Except Exc Unit) (s : RunState) (t : List Event) : Prop :=
  (Going s t ∧ (r = .ok () ∨ ∃ text, r = .error (.abortRun text))) ∨
    ∃ e, r = .error e ∧ Stopped e t

theorem Aborts.kept {m : Run Unit} (hm : Aborts A m) {s : RunState} {t : List Event}
    (h : Going s t) : m.Safe (Recorded A) .alone Kept s t := by
  refine (hm s t).mono ?_
  rintro r s' t' ⟨hs, ht, hr⟩
  exact Or.inl ⟨h.later hs ht, hr⟩

include hA

theorem recordInsert_kept (o : ForwarderOptions) (message : FetchedMessage) {s : RunState}
    {t : List Event}
    (h : Going { s with result := { s.result with forwarded := s.result.forwarded + 1 } } t) :
    (recordInsert o message).Safe (Recorded A) .alone Kept s t := by
  rw [recordInsert, Routine.safe_bind, safe_count, Routine.after_ok]
  refine Aborts.kept (aborts_attempt (Method.addKeyword_sound message.uid _)
    (trash_aborts hA.issueTrash message) ?_) h
  intro e he
  show Aborts A (if _ then _ else _)
  rw [if_pos he]
  exact quarantine_aborts o _ _ _

omit hA in
theorem verdicts_event {op : Op} {r : Reply op} {v : Verdict} (t : List Event)
    (h : verdict op r = some v) : verdicts (t ++ [⟨op, r⟩]) = verdicts t ++ [v] := by
  rw [verdicts, List.filterMap_append, ← verdicts]
  simp [h]

/-- The verdict on an insert, and what the run makes of it. -/
theorem insert_kept (o : ForwarderOptions) (extraLabels : List String) (message : FetchedMessage)
    {s : RunState} {t : List Event} (h : Going s t) :
    (insert o extraLabels message).Safe (Recorded A) .alone Kept s t := by
  rw [Forwarder.insert, Routine.safe_bind, Routine.safe_attempt]
  refine safe_event (fun r hr => ?_)
  have hplain : Plain caught (t ++ [⟨_, r⟩]) := by
    rw [plain_append]
    exact ⟨h.plain, by simp [Plain, strange]⟩
  rw [Routine.after_ok]
  cases r with
  | ok id =>
      have hv : verdicts
          (t ++ [⟨.insertRaw message.raw (gmailLabelsFor message extraLabels), .ok id⟩]) =
            verdicts t ++ [.accepted] := verdicts_event t rfl
      refine recordInsert_kept hA o message ⟨hplain, ?_, ?_, ?_⟩
      · simp [hv, h.unbroken]
      · simp [hv]
      · simp [hv, h.rejected]
  | error e =>
      obtain ⟨cls, text, status, rfl⟩ : ∃ cls text status, e = .gmailError cls text status := by
        have he := hA.insertRaw _ _ _ hr
        cases e with
        | gmailError cls text status => exact ⟨cls, text, status, rfl⟩
        | _ => exact absurd he Bool.false_ne_true
      cases cls with
      | auth =>
          refine Or.inl ⟨⟨hplain, ?_, ?_, ?_⟩, Or.inr ⟨text, rfl⟩⟩
          all_goals rw [verdicts_event (v := .postponed) t rfl]
          · simp [h.unbroken]
          · simp [h.forwarded]
          · simp [h.rejected]
      | retryable =>
          refine Or.inl ⟨⟨hplain, ?_, ?_, ?_⟩, Or.inl rfl⟩
          all_goals rw [verdicts_event (v := .postponed) t rfl]
          · simp [h.unbroken]
          · simp [h.forwarded]
          · simp [h.rejected]
      | permanent =>
          refine Or.inl ⟨⟨hplain, ?_, ?_, ?_⟩, Or.inl rfl⟩
          all_goals rw [verdicts_event (v := .rejected (MailTransporter.perMessage status)) t rfl]
          · simp [h.unbroken]
          · simp [h.forwarded]
          · intro b
            simp only [List.mem_append, List.mem_singleton, Verdict.rejected.injEq, or_and_right,
              exists_or, h.rejected, exists_eq_left]
            exact or_congr_right eq_comm
      | base =>
          refine Or.inr ⟨_, rfl, fun _ => Exc.noConfusion, Or.inl ⟨rfl, hplain, ?_⟩⟩
          rw [verdicts_event (v := .broken) t rfl]
          simp

theorem process_kept (o : ForwarderOptions) (extraLabels : List String) (uid : ℕ) {s : RunState}
    {t : List Event} (h : Going s t) :
    (process o extraLabels uid).Safe (Recorded A) .alone Kept s t := by
  rw [process, Routine.safe_bind, Routine.safe_attempt, safe_onMailbox]
  refine (Method.fetchMessage_noting (c := caught) uid s.mailbox t).mono ?_
  rintro r mailbox t' ⟨rfl, ht, hr⟩
  rw [Routine.after_ok]
  cases r with
  | error e =>
      rcases hr e rfl with he | ⟨name, text, rfl⟩
      · have hgoing : Going s t' := by
          refine h.later (RunState.Same.refl s) (ht.congr (iff_of_true ?_ trivial))
          intro e' he'
          cases he'
          exact he
        cases e with
        | messageGone text =>
            refine Aborts.kept (aborts_count ?_) hgoing
            exact fun _ => rfl
        | mailboxError text => exact Aborts.kept (aborts_handler he _) hgoing
        | _ => exact absurd he Bool.false_ne_true
      · refine Or.inr ⟨_, rfl, fun _ => Exc.noConfusion, Or.inr ⟨rfl, ?_⟩⟩
        rw [ht.plain h.plain]
        exact fun hall => absurd (hall _ rfl) Bool.false_ne_true
  | ok message =>
      have hgoing := h.later (RunState.Same.refl s) (ht.congr (iff_of_true (by simp) trivial))
      dsimp only
      split
      · refine Aborts.kept (aborts_count ?_) hgoing
        exact fun _ => rfl
      · split
        · exact Aborts.kept (trash_aborts hA.issueTrash message) hgoing
        · exact insert_kept hA o extraLabels message hgoing

/-- The loop ends, or is stopped by an exception. -/
def Ended (r : Except Exc Unit) (s : RunState) (t : List Event) : Prop :=
  (r = .ok () ∧ Going s t) ∨ ∃ e, r = .error e ∧ Stopped e t

theorem processAll_ended (o : ForwarderOptions) (extraLabels : List String) (started : ℚ)
    (uids : List ℕ) {s : RunState} {t : List Event} (h : Going s t) :
    (processAll o extraLabels started uids).Safe (Recorded A) .alone Ended s t := by
  induction uids generalizing s t with
  | nil => exact Or.inl ⟨rfl, h⟩
  | cons uid rest ih =>
      rw [processAll, Routine.safe_bind]
      refine safe_event (fun r hr => ?_)
      cases r with
      | error e => exact absurd hr (hA.clock e)
      | ok now =>
          have hgoing : Going s (t ++ [⟨.clock, .ok now⟩]) :=
            h.later (.refl s) (.event t rfl (iff_of_true rfl trivial))
          rw [Routine.after_ok]
          split
          · exact Or.inl ⟨rfl, hgoing.later (.count s rfl) (.refl _)⟩
          · rw [Routine.safe_bind, Routine.safe_attempt]
            refine (process_kept hA o extraLabels uid hgoing).mono ?_
            intro r s' t' hkept
            rw [Routine.after_ok]
            rcases hkept with ⟨hg, rfl | ⟨text, rfl⟩⟩ | ⟨e, rfl, hstop⟩
            · exact ih hg
            · exact Or.inl ⟨rfl, hg.later (.count s' rfl) (.refl _)⟩
            · cases e with
              | abortRun text => exact absurd rfl (hstop.notAbort text)
              | _ => exact Or.inr ⟨_, rfl, hstop⟩

omit hA in
theorem quarantineAll_returns (o : ForwarderOptions) (rejected : List Rejection) (s : RunState)
    (t : List Event) : (quarantineAll o rejected).Safe (Recorded A) .alone
      (fun r _ t' => r = .ok () ∧ Noting caught True t t') s t := by
  induction rejected generalizing s t with
  | nil => exact ⟨rfl, .refl t⟩
  | cons rejection rest ih =>
      rw [quarantineAll, Routine.safe_bind, Routine.safe_attempt]
      refine (quarantine_aborts o rejection.uid _ _ s t).mono ?_
      rintro r s' t' ⟨-, ht, hr⟩
      rw [Routine.after_ok]
      rcases hr with rfl | ⟨text, rfl⟩
      · refine (ih s' t').mono ?_
        rintro r s'' t'' ⟨hr, ht'⟩
        exact ⟨hr, ht.trans ht'⟩
      · exact ⟨rfl, ht⟩

/-- What `run` has to do with the outcome of its `try`. -/
def Accounted (o : ForwarderOptions) (outcome : Except Exc Unit) (t : List Event) : Prop :=
  (∀ e, outcome = .error e → caught e = true) ↔ Plain caught t ∧ ¬Unsettled o t

omit hA

theorem Accounted.later {o : ForwarderOptions} {outcome : Except Exc Unit} {t t' : List Event}
    (h : Accounted o outcome t) (ht : Noting caught True t t') : Accounted o outcome t' := by
  have hplain : Plain caught t' ↔ Plain caught t := by
    obtain ⟨new, rfl, -, hp⟩ := ht
    rw [plain_append, hp, and_true]
  unfold Accounted Unsettled
  rw [hplain, ht.verdicts]
  exact h

theorem accounted_ok {o : ForwarderOptions} {t : List Event} (hp : Plain caught t)
    (hu : ¬Unsettled o t) : Accounted o (.ok ()) t :=
  iff_of_true nofun ⟨hp, hu⟩

theorem accounted_caught {o : ForwarderOptions} {e : Exc} {t : List Event} (he : caught e = true)
    (hp : Plain caught t) (hu : ¬Unsettled o t) : Accounted o (.error e) t := by
  refine iff_of_true ?_ ⟨hp, hu⟩
  intro e' he'
  cases he'
  exact he

theorem Stopped.accounted {o : ForwarderOptions} {e : Exc} {t : List Event} (h : Stopped e t) :
    Accounted o (.error e) t := by
  rcases h.why with ⟨he, hp, hbroken⟩ | ⟨he, hp⟩
  · exact accounted_caught he hp (fun hu => hu.2.2.1 hbroken)
  · refine iff_of_false (fun hall => ?_) (fun hplain => hp hplain.1)
    exact absurd ((hall e rfl).symm.trans he) Bool.false_ne_true.symm

/-- Settling the rejections raises exactly where there is nothing to quote. -/
theorem settleRejections_accounted (o : ForwarderOptions) {s : RunState} {t : List Event}
    (h : Going s t) (hne : s.rejected ≠ []) :
    (settleRejections o).Safe (Recorded A) .alone (fun r _ t' => Accounted o r t') s t := by
  have hquarantineAll : ∀ rejected s', ¬Unsettled o t → (quarantineAll o rejected).Safe
      (Recorded A) .alone (fun r _ t' => Accounted o r t') s' t := by
    intro rejected s' hu
    refine (quarantineAll_returns o rejected s' t).mono ?_
    rintro r s'' t' ⟨rfl, ht⟩
    exact (accounted_ok h.plain hu).later ht
  rw [settleRejections, Routine.safe_bind, Routine.safe_getSelf, Routine.after_ok]
  dsimp only
  split
  · next htrips =>
    rw [Routine.safe_bind]
    unfold breakerMessage
    split
    · next hnil =>
      rw [hnil] at htrips
      have hu : Unsettled o t := h.unsettled_iff.mpr ⟨hne, hnil, htrips⟩
      refine iff_of_false (fun hall => ?_) (fun hclear => hclear.2 hu)
      exact absurd (hall _ rfl) Bool.false_ne_true
    · next first rest hcons =>
      rw [Routine.safe_pure, Routine.after_ok, Routine.safe_bind, safe_count, Routine.after_ok]
      refine hquarantineAll _ _ (fun hu => ?_)
      rw [(h.unsettled_iff.mp hu).2.1] at hcons
      exact absurd hcons (by simp)
  · next htrips =>
    refine hquarantineAll _ _ (fun hu => htrips ?_)
    obtain ⟨-, hnil, ht⟩ := h.unsettled_iff.mp hu
    rw [hnil]
    exact ht

/-- Nothing has been inserted yet. -/
structure Fresh (s : RunState) (t : List Event) : Prop extends Going s t where
  noVerdict : verdicts t = []

theorem Fresh.later {s s' : RunState} {t t' : List Event} (h : Fresh s t) (hs : s.Same s')
    (ht : Noting caught True t t') : Fresh s' t' where
  toGoing := h.toGoing.later hs ht
  noVerdict := ht.verdicts.trans h.noVerdict

theorem Fresh.settled {o : ForwarderOptions} {s : RunState} {t : List Event} (h : Fresh s t) :
    ¬Unsettled o t := by
  rintro ⟨-, -, -, -, htrue⟩
  rw [h.noVerdict] at htrue
  exact absurd htrue List.not_mem_nil

theorem Fresh.caught {o : ForwarderOptions} {s : RunState} {e : Exc} {t : List Event}
    (h : Fresh s t) (he : caught e = true) : Accounted o (.error e) t :=
  accounted_caught he h.plain h.settled

/-- A method before the loop: what it raises is caught. -/
theorem fresh_onMailbox {o : ForwarderOptions} {m : Mailbox α} (hm : Sound A Exceptions.caught m)
    {f : α → Run Unit} {s : RunState} {t : List Event} (h : Fresh s t)
    (hf : ∀ a s' t', Fresh s' t' → (f a).Safe (Recorded A) .alone
      (fun r _ t' => Accounted o r t') s' t') :
    (onMailbox m >>= f).Safe (Recorded A) .alone (fun r _ t' => Accounted o r t') s t := by
  rw [Routine.safe_bind, safe_onMailbox]
  refine (hm s.mailbox t).mono ?_
  rintro r mailbox t' ⟨ht, hr⟩
  have hfresh : Fresh { s with mailbox := mailbox } t' := h.later ⟨rfl, rfl⟩ ht
  cases r with
  | ok a => exact hf a _ t' hfresh
  | error e => exact hfresh.caught (caught_of_mailboxError (hr e rfl))

/-- A call of the Gmail client before the loop. -/
theorem fresh_call {o : ForwarderOptions} {op : Op} (hv : ∀ r, verdict op r = none)
    (hs : ∀ r, strange Exceptions.caught op r = false)
    (hr : ∀ e, A op (.error e) → e.isGmailError = true)
    {Q : Except Exc (Value op) → RunState → List Event → Prop} {s : RunState} {t : List Event}
    (h : Fresh s t) (hok : ∀ a t', Fresh s t' → Q (.ok a) s t')
    (herr : ∀ e t', Accounted o (.error e) t' → Q (.error e) s t') :
    (call op : Run (Value op)).Safe (Recorded A) .alone Q s t := by
  refine safe_event (fun r hA => ?_)
  have hfresh : Fresh s (t ++ [⟨op, r⟩]) :=
    h.later (.refl s) (.event t (hv r) (iff_of_true (hs r) trivial))
  cases r with
  | ok a => exact hok a _ hfresh
  | error e =>
      refine herr e _ (hfresh.caught ?_)
      rw [Exceptions.caught, hr e hA, Bool.or_true]

include hA

theorem session_accounted (o : ForwarderOptions) (started : ℚ) {s : RunState} {t : List Event}
    (h : Fresh s t) :
    (session o started).Safe (Recorded A) .alone (fun r _ t' => Accounted o r t') s t := by
  refine fresh_onMailbox Method.requireKeywords_sound h (fun _ s t h => ?_)
  rw [Routine.safe_bind]
  refine fresh_call (fun _ => rfl) (fun _ => rfl) hA.gmailClient h (fun _ t h => ?_)
    (fun _ _ h => h)
  have hqueue : ∀ extraLabels s t, Fresh s t → Routine.Safe (Recorded A) .alone (do
      let uids ← onMailbox (ICloudMailbox.listInboxUids (some o.keywords.quarantine))
      count (fun r => { r with listed := uids.length })
      processAll o extraLabels started uids
      let s ← getSelf
      if s.rejected = [] then pure () else settleRejections o)
      (fun r _ t' => Accounted o r t') s t := by
    intro extraLabels s t h
    refine fresh_onMailbox (Method.listInboxUids_sound _) h (fun uids s t h => ?_)
    rw [Routine.safe_bind, safe_count, Routine.after_ok, Routine.safe_bind]
    refine Routine.Safe.mono (processAll_ended hA o extraLabels started uids
      (h.toGoing.later (.count s rfl) (.refl t))) ?_
    rintro r s' t' (⟨rfl, hg⟩ | ⟨e, rfl, hstop⟩)
    · rw [Routine.after_ok, Routine.safe_bind, Routine.safe_getSelf, Routine.after_ok]
      split
      · next hnil => exact accounted_ok hg.plain (fun hu => (hg.unsettled_iff.mp hu).1 hnil)
      · next hne => exact settleRejections_accounted o hg hne
    · exact hstop.accounted
  unfold extraLabelIds
  split
  · exact hqueue [] s t h
  · split
    · exact hqueue [] s t h
    · rw [Routine.after_ok, Routine.safe_bind, Routine.safe_bind]
      exact fresh_call (fun _ => rfl) (fun _ => rfl) (hA.ensureLabel _) h
        (fun label t h => hqueue [label] s t h) (fun _ _ h => h)

theorem withMailbox_accounted (o : ForwarderOptions) (started : ℚ) {s : RunState} {t : List Event}
    (h : Fresh s t) :
    (withMailbox (session o started)).Safe (Recorded A) .alone (fun r _ t' => Accounted o r t')
      s t := by
  rw [withMailbox, Routine.safe_bind, safe_onMailbox]
  refine (Method.connect_noting (fun _ => caught_of_mailboxError) s.mailbox t).mono ?_
  intro r mailbox t' ht
  have hplain := ht.plain h.plain
  cases r with
  | error e =>
      have hsettled : ¬Unsettled o t' := by
        have hfresh := h.settled (o := o)
        unfold Unsettled at hfresh ⊢
        rw [ht.verdicts]
        exact hfresh
      rw [Routine.after_error, Accounted, hplain]
      exact (and_iff_left hsettled).symm
  | ok _ =>
      have hfresh : Fresh { s with mailbox := mailbox } t' :=
        h.later ⟨rfl, rfl⟩ (ht.congr (iff_of_true (by simp) trivial))
      rw [Routine.after_ok, Routine.safe_bind, Routine.safe_attempt]
      refine (session_accounted hA o started hfresh).mono ?_
      intro outcome s₁ t₁ h₁
      rw [Routine.after_ok, Routine.safe_bind, safe_onMailbox]
      refine (Method.close_returns (c := caught) s₁.mailbox t₁).mono ?_
      rintro r mailbox t₂ ⟨ht₂, rfl⟩
      rw [Routine.after_ok, Routine.safe_settle]
      exact h₁.later ht₂

/-- A run returns a result unless something strange came or the breaker has nothing to quote. -/
theorem run_accounted (o : ForwarderOptions) {s : RunState} {t : List Event} (h : Fresh s t) :
    (run o).Safe (Recorded A) .alone (fun r _ t' =>
      (∃ result, r = .ok result) ↔ Plain caught t' ∧ ¬Unsettled o t') s t := by
  rw [run, Routine.safe_bind]
  refine safe_event (fun r hr => ?_)
  cases r with
  | error e => exact absurd hr (hA.clock e)
  | ok started =>
  have hclock : ∀ {t : List Event} {now : ℚ},
      Noting caught True t (t ++ [⟨.clock, .ok now⟩]) :=
    .event _ rfl (iff_of_true rfl trivial)
  rw [Routine.after_ok, Routine.safe_bind, Routine.safe_attempt]
  refine (withMailbox_accounted hA o started (h.later (.refl s) hclock)).mono ?_
  intro outcome s₁ t₁ h₁
  rw [Routine.after_ok]
  -- the result is there once the outcome has been dealt with
  have hfinish : (∀ e, outcome = .error e → caught e = true) → ∀ s₂, Routine.Safe (Recorded A) .alone
      (do
        let ended ← call .clock
        count (fun r => { r with durationSeconds := round3 (ended - started) })
        let s ← getSelf
        pure s.result)
      (fun r _ t' => (∃ result, r = .ok result) ↔ Plain caught t' ∧ ¬Unsettled o t') s₂ t₁ := by
    intro hcaught s₂
    rw [Routine.safe_bind]
    refine safe_event (fun r hr => ?_)
    cases r with
    | error e => exact absurd hr (hA.clock e)
    | ok ended => exact iff_of_true ⟨_, rfl⟩ ((h₁.later hclock).mp hcaught)
  cases outcome with
  | ok _ => exact hfinish (by simp) s₁
  | error e =>
      dsimp only
      split
      · next he =>
        rw [Routine.safe_bind, safe_count]
        refine hfinish ?_ _
        intro e' he'
        cases he'
        exact he
      · next he =>
        refine iff_of_false (by simp) (fun hclear => he ?_)
        exact h₁.mpr hclear e rfl

end Run

/-! ## Against any client -/

/-- The methods of `ICloudMailbox`. -/
inductive IsMethod : (α : Type) → Mailbox α → Prop
  | connect : IsMethod Unit ICloudMailbox.connect
  | requireKeywords : IsMethod Unit ICloudMailbox.requireKeywords
  | close : IsMethod Unit ICloudMailbox.close
  | listInboxUids (skipKeywords : Option (List String)) :
      IsMethod (List ℕ) (ICloudMailbox.listInboxUids skipKeywords)
  | inboxFlags : IsMethod (List (ℕ × List String)) ICloudMailbox.inboxFlags
  | searchKeyword (keyword : String) : IsMethod (List ℕ) (ICloudMailbox.searchKeyword keyword)
  | fetchHeaders (parse : Option (List UInt8) → ICloudMailbox.Headers) (uids : List ℕ) :
      IsMethod (List (ℕ × ICloudMailbox.Headers)) (ICloudMailbox.fetchHeaders parse uids)
  | fetchMessage (uid : ℕ) : IsMethod FetchedMessage (ICloudMailbox.fetchMessage uid)
  | addKeyword (uid : ℕ) (keyword : String) : IsMethod Unit (ICloudMailbox.addKeyword uid keyword)
  | removeKeyword (uid : ℕ) (keyword : String) :
      IsMethod Unit (ICloudMailbox.removeKeyword uid keyword)
  | trashFolderName : IsMethod String ICloudMailbox.trashFolderName
  | moveToFolder (uid : ℕ) (folder : String) : IsMethod Unit (ICloudMailbox.moveToFolder uid folder)
  | moveToTrash (uid : ℕ) : IsMethod Unit (ICloudMailbox.moveToTrash uid)
  | idleWait (timeout : ℚ) : IsMethod Bool (ICloudMailbox.idleWait timeout)
  | noop : IsMethod Unit ICloudMailbox.noop

/-- The promise of the class, and the record of the calls that says whether it is kept. -/
def Promised (A : (op : Op) → Reply op → Prop) (m : Mailbox α) : Prop :=
  ∀ s t, m.Safe (Recorded A) .alone (fun o _ t' =>
    Noting Exc.isMailboxError (∀ e, o = .error e → e.isMailboxError = true) t t') s t

theorem Sound.promised {m : Mailbox α} (h : Sound A Exc.isMailboxError m) : Promised A m := by
  intro s t
  refine (h s t).mono ?_
  rintro o s' t' ⟨ht, he⟩
  exact ht.congr (iff_of_true trivial he)

theorem promised {m : Mailbox α} (h : IsMethod α m) : Promised A m := by
  cases h with
  | connect => exact Method.connect_noting (fun _ h => h)
  | requireKeywords => exact Method.requireKeywords_sound.promised
  | close =>
      intro s t
      refine (Method.close_returns (c := Exc.isMailboxError) s t).mono ?_
      rintro o s' t' ⟨ht, rfl⟩
      exact ht.congr (iff_of_true trivial nofun)
  | listInboxUids skipKeywords => exact (Method.listInboxUids_sound skipKeywords).promised
  | inboxFlags => exact Method.inboxFlags_sound.promised
  | searchKeyword keyword => exact (Method.searchKeyword_sound keyword).promised
  | fetchHeaders parse uids => exact (Method.fetchHeaders_sound parse uids).promised
  | fetchMessage uid =>
      exact fun s t => (Method.fetchMessage_noting uid s t).mono (fun _ _ _ h => h.2.1)
  | addKeyword uid keyword => exact (Method.addKeyword_sound uid keyword).promised
  | removeKeyword uid keyword => exact (Method.removeKeyword_sound uid keyword).promised
  | trashFolderName => exact Method.trashFolderName_sound.promised
  | moveToFolder uid folder => exact (Method.moveToFolder_sound uid folder).promised
  | moveToTrash uid => exact (Method.moveToTrash_sound uid).promised
  | idleWait timeout => exact (Method.idleWait_sound timeout).promised
  | noop => exact Method.noop_sound.promised

/-- The answers a client gives. -/
def answersOf {W : Type} (h : W → (op : Op) → Reply op × W) (op : Op) (r : Reply op) : Prop :=
  ∃ w, (h w op).1 = r

theorem exec_recorded {W : Type} {h : W → (op : Op) → Reply op × W} {m : Py σ α} {s : σ} {w : W}
    {Q : Except Exc α → σ → List Event → Prop} {t : List Event}
    (hm : m.Safe (Recorded (answersOf h)) .alone Q s t) :
    Q (m.exec (recorded h) s (w, t)).1.1 (m.exec (recorded h) s (w, t)).1.2
      (m.exec (recorded h) s (w, t)).2.2 :=
  Routine.Safe.exec (h := recorded h) (x := (w, t)) Prod.snd (fun x _ => ⟨⟨x.1, rfl⟩, rfl⟩)
    (fun _ => rfl) hm

/-- **Which exceptions get out.** Whatever the client answers, a method of `ICloudMailbox` raises
    something else than a `MailboxError` exactly if a strange answer came; and where Gmail raises
    nothing but `GmailError`s, a run ends with a result exactly if no strange answer came and the
    breaker did not trip without a rejection to quote. -/
theorem escapes_iff {W : Type} (h : W → (op : Op) → Reply op × W) (w : W) :
    (∀ (α : Type) (m : Mailbox α), IsMethod α m → ∀ self,
      (∀ e, (m.exec (recorded h) self (w, [])).1.1 = .error e → e.isMailboxError = true) ↔
        Plain Exc.isMailboxError (m.exec (recorded h) self (w, [])).2.2) ∧
    (Run.Answers (answersOf h) → ∀ o : ForwarderOptions,
      (∃ result, ((Forwarder.run o).exec (recorded h) (Forwarder.initial o) (w, [])).1.1 =
        .ok result) ↔
      Plain caught ((Forwarder.run o).exec (recorded h) (Forwarder.initial o) (w, [])).2.2 ∧
        ¬Run.Unsettled o
          ((Forwarder.run o).exec (recorded h) (Forwarder.initial o) (w, [])).2.2) := by
  have hplain : ∀ c, Plain c [] := fun c event hevent => absurd hevent List.not_mem_nil
  constructor
  · intro α m hm self
    exact ((exec_recorded (promised hm self [])).plain (hplain _)).symm
  · intro hA o
    have hfresh : Run.Fresh (Forwarder.initial o) [] :=
      ⟨⟨hplain _, List.not_mem_nil, iff_of_true rfl List.not_mem_nil,
        fun b => iff_of_false (by simp [Forwarder.initial]) List.not_mem_nil⟩, rfl⟩
    exact exec_recorded (Run.run_accounted hA o hfresh)

/-! ## Clients that break a run -/

/-- The connection is lost while the capability is asked for. -/
def lostAtIdle (w : World) : (op : Op) → Reply op × World
  | .hasCapability name =>
      if name = "IDLE" then (.error (.other "OSError" "socket error: EOF"), w)
      else Provider.handle {} 0 w (.hasCapability name)
  | op => Provider.handle {} 0 w op

/-- A server that sends NIL for every body. -/
def nilBodies (w : World) : (op : Op) → Reply op × World
  | .fetch uids .message => (.ok (uids.map (fun uid => (uid, ⟨some none, some [], none⟩))), w)
  | op => Provider.handle {} 0 w op

/-- A Gmail account for which every message is too large. -/
def tooLarge : Provider where
  gmail := fun _ => .error (.gmailError .permanent "Request entity too large" (some 413))

/-- A threshold below zero. -/
def negativeThreshold : ForwarderOptions := { ForwarderOptions.default with rejectionThreshold := -1 }

/-- A client around the Gmail client and the clock of a provider. -/
theorem answers_of_provider {P : Provider} (hP : ∀ raw e, P.gmail raw = .error e →
    e.isGmailError = true) {h : World → (op : Op) → Reply op × World}
    (hh : ∀ w op, op.isImap = false → (h w op).1 = P.reply 0 w op) :
    Run.Answers (answersOf h) where
  gmailClient := by
    rintro e ⟨w, hw⟩
    rw [hh w _ rfl] at hw
    cases hw
  ensureLabel := by
    rintro name e ⟨w, hw⟩
    rw [hh w _ rfl] at hw
    cases hw
  insertRaw := by
    rintro raw labels e ⟨w, hw⟩
    rw [hh w _ rfl] at hw
    exact hP raw e hw
  clock := by
    rintro e ⟨w, hw⟩
    rw [hh w _ rfl] at hw
    cases hw
  issueTrash := by
    rintro raw e ⟨w, hw⟩
    rw [hh w _ rfl] at hw
    cases hw

theorem lostAtIdle_answers : Run.Answers (answersOf lostAtIdle) := by
  refine answers_of_provider (P := {}) nofun ?_
  intro w op hop
  cases op
  case hasCapability name => exact absurd hop Bool.false_ne_true.symm
  all_goals rfl

theorem nilBodies_answers : Run.Answers (answersOf nilBodies) := by
  refine answers_of_provider (P := {}) nofun ?_
  intro w op hop
  cases op
  case fetch uids items => exact absurd hop Bool.false_ne_true.symm
  all_goals rfl

theorem tooLarge_answers : Run.Answers (answersOf (tooLarge.handle 0)) := by
  refine answers_of_provider (P := tooLarge) ?_ (fun _ _ _ => rfl)
  intro raw e h
  cases h
  rfl

/-- The session `connect` leaves. -/
def connectedSession : ICloudMailbox :=
  { (Forwarder.initial .default).mailbox with connected := true, supportsKeywords := true }

/-- An `OSError` gets out of `connect`, a `TypeError` out of `fetch_message`, and both out of a run,
    as does the `IndexError` of the breaker. -/
theorem exceptions_escape :
    (∃ e, (ICloudMailbox.connect.exec lostAtIdle (Forwarder.initial .default).mailbox
      oneMail).1.1 = .error e ∧ e.isMailboxError = false) ∧
    (∃ e, ((ICloudMailbox.fetchMessage 1).exec nilBodies connectedSession oneMail).1.1 = .error e ∧
      e.isMailboxError = false) ∧
    (Run.Answers (answersOf lostAtIdle) ∧ ∃ e, ((Forwarder.run .default).exec lostAtIdle
      (Forwarder.initial .default) oneMail).1.1 = .error e) ∧
    (Run.Answers (answersOf nilBodies) ∧ ∃ e, ((Forwarder.run .default).exec nilBodies
      (Forwarder.initial .default) oneMail).1.1 = .error e) ∧
    (Run.Answers (answersOf (tooLarge.handle 0)) ∧ ∃ e, ((Forwarder.run negativeThreshold).exec
      (tooLarge.handle 0) (Forwarder.initial negativeThreshold) oneMail).1.1 = .error e) := by
  refine ⟨⟨.other "OSError" "socket error: EOF", rfl, rfl⟩, ⟨.other "TypeError" _, rfl, rfl⟩,
    ⟨lostAtIdle_answers, .other "OSError" "socket error: EOF", ?_⟩,
    ⟨nilBodies_answers, .other "TypeError" "cannot convert 'NoneType' object to bytes", ?_⟩,
    ⟨tooLarge_answers, .other "IndexError" "list index out of range", ?_⟩⟩
  all_goals decide +kernel

instance (c : Exc → Bool) (t : List Event) : Decidable (Plain c t) :=
  inferInstanceAs (Decidable (∀ event ∈ t, strange c event.1 event.2 = false))

instance (o : ForwarderOptions) (t : List Event) : Decidable (Run.Unsettled o t) :=
  inferInstanceAs (Decidable (_ ∧ _))

/-- A run over an account for which every message is too large ends with a result. -/
theorem escapes_iff_tooLarge : ∃ result,
    ((Forwarder.run .default).exec (recorded (tooLarge.handle 0)) (Forwarder.initial .default)
      (oneMail, [])).1.1 = .ok result := by
  refine ((escapes_iff (tooLarge.handle 0) oneMail).2 tooLarge_answers .default).mpr ?_
  decide +kernel

end Exceptions

end MailTransporter
