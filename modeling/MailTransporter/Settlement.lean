import MailTransporter.Accounting
import MailTransporter.Inbox

set_option autoImplicit false

/-! # Settling what was rejected

A permanent rejection is settled after the loop. `Tally` connects the list of rejections with Gmail's
verdicts, whichever way a run ends, and `Clear` says that no answer came that `_process` hands on as
another exception than an `AbortRun`; such an answer ends the run before its settlement. -/

namespace MailTransporter

open Effect
open Effect.Routine (raise attempt getSelf modifySelf settle)
open Exceptions (Recorded recorded answersOf safe_event verdict verdicts strange caught Plain
  Noting Calm Aborts)

namespace Settlement

variable {A : (op : Op) → Reply op → Prop} {α β : Type}

/-! ## The rejections of a record -/

/-- The rejections among the verdicts, in the order they came in; `true` is a rejection about the
    message itself. -/
def refusals (t : List Exceptions.Event) : List Bool :=
  (verdicts t).filterMap (fun
    | .rejected perMessage => some perMessage
    | _ => none)

/-- The result and the rejections account for the verdicts so far. -/
structure Tally (s : RunState) (t : List Exceptions.Event) : Prop where
  forwarded : s.result.forwarded = (verdicts t).count .accepted
  rejected : s.rejected.map Rejection.perMessage = refusals t

/-- The step keeps the tally, however it ends. -/
def Tallied (A : (op : Op) → Reply op → Prop) (m : Run α) : Prop :=
  ∀ s t, Tally s t → m.Safe (Recorded A) .alone (fun _ s' t' => Tally s' t') s t

/-- Calls that are no insert leave the verdicts as they are. -/
theorem verdicts_event {op : Op} (hop : op.isInsert = false) (r : Reply op)
    (t : List Exceptions.Event) : verdicts (t ++ [⟨op, r⟩]) = verdicts t := by
  have hnone : verdict op r = none := by
    cases op
    case insertRaw raw labels => exact absurd hop nofun
    all_goals rfl
  simp [verdicts, hnone]

def uninserted : Growth (Recorded A) .alone (fun op => op.isInsert = false) where
  grow := fun t t' => verdicts t' = verdicts t
  refl := fun _ => rfl
  trans := fun h h' => h'.trans h
  rely := by
    rintro t _ rfl
    rfl
  step := by
    rintro t op r t' hop - ⟨-, rfl⟩
    exact verdicts_event hop r t

theorem Tally.later {s s' : RunState} {t t' : List Exceptions.Event} (h : Tally s t) (hs : s.Same s')
    (ht : verdicts t' = verdicts t) : Tally s' t' where
  forwarded := by
    rw [ht, hs.forwarded]
    exact h.forwarded
  rejected := by
    rw [refusals, ht, hs.rejected]
    exact h.rejected

theorem tallied_pure (a : α) : Tallied A (pure a) := fun _ _ h => h

theorem tallied_raise (e : Exc) : Tallied A (raise e : Run α) := fun _ _ h => h

theorem tallied_getSelf : Tallied A getSelf := fun _ _ h => h

theorem tallied_bind {m : Run α} {f : α → Run β} (hm : Tallied A m) (hf : ∀ a, Tallied A (f a)) :
    Tallied A (m >>= f) := by
  intro s t h
  rw [Routine.safe_bind]
  refine (hm s t h).mono ?_
  intro r s' t' h'
  cases r with
  | ok a => exact hf a s' t' h'
  | error e => exact h'

theorem tallied_attempt {m : Run α} (hm : Tallied A m) : Tallied A (attempt m) := by
  intro s t h
  rw [Routine.safe_attempt]
  exact hm s t h

theorem tallied_settle (r : Except Exc α) : Tallied A (settle r) := by
  cases r with
  | ok a => exact tallied_pure a
  | error e => exact tallied_raise e

theorem tallied_count {f : SyncResult → SyncResult} (hf : ∀ r, (f r).forwarded = r.forwarded) :
    Tallied A (count f) :=
  fun s _ h => h.later (.count s (hf s.result)) rfl

theorem tallied_call {op : Op} (hop : op.isInsert = false) : Tallied A (call op : Run (Value op)) :=
  fun s t h => safe_event (fun r _ => h.later (.refl s) (verdicts_event hop r t))

/-- A method of the session inserts nothing. -/
theorem tallied_onMailbox {m : Mailbox α} (hm : m.Uses (fun op => op.isImap = true)) :
    Tallied A (onMailbox m) := by
  intro s t h
  rw [safe_onMailbox]
  refine (Routine.Safe.of_uses uninserted hm (fun _ h => Op.isInsert_of_isImap h)
    (fun _ _ _ _ => trivial)).mono ?_
  exact fun _ mailbox _ ht => h.later ⟨rfl, rfl⟩ ht

open Forwarder

/-- A `try` around a method of the session. -/
theorem tallied_try {m : Mailbox α} (hm : m.Uses (fun op => op.isImap = true))
    {f : Except Exc α → Run β} (hf : ∀ r, Tallied A (f r)) :
    Tallied A (attempt (onMailbox m) >>= f) :=
  tallied_bind (tallied_attempt (tallied_onMailbox hm)) hf

theorem tallied_handler (e : Exc) (text : String) :
    Tallied A (if e.isMailboxError then raise (.abortRun text) else raise e : Run α) := by
  split
  · exact tallied_raise _
  · exact tallied_raise _

/-- Calls about a message are IMAP commands. -/
theorem isImap_of_isOn {uid : ℕ} {op : Op} (h : op.isOn uid = true) : op.isImap = true := by
  cases op <;> first | rfl | simp [Op.isOn] at h

theorem moveAside_tallied (uid : ℕ) (folder : String) : Tallied A (moveAside uid folder) := by
  refine tallied_try (ICloudMailbox.moveToFolder_on.mono (fun _ => isImap_of_isOn)) ?_
  intro r
  cases r with
  | ok _ => exact tallied_count (fun _ => rfl)
  | error e => exact tallied_handler e _

theorem quarantine_tallied (o : ForwarderOptions) (uid : ℕ) (keyword folder : String) :
    Tallied A (quarantine o uid keyword folder) := by
  unfold quarantine
  split
  swap
  · exact moveAside_tallied uid folder
  refine tallied_try (ICloudMailbox.addKeyword_on.mono (fun _ => isImap_of_isOn)) ?_
  intro r
  cases r with
  | ok _ => exact tallied_count (fun _ => rfl)
  | error e =>
      show Tallied A (if _ then _ else _)
      split
      · exact moveAside_tallied uid folder
      · exact tallied_raise e

theorem trash_tallied (message : FetchedMessage) : Tallied A (trash message) := by
  refine tallied_bind (tallied_call rfl) (fun _ => ?_)
  refine tallied_try (ICloudMailbox.moveToTrash_on.mono (fun _ => isImap_of_isOn)) ?_
  intro r
  cases r with
  | ok _ => exact tallied_count (fun _ => rfl)
  | error e => exact tallied_handler e _

/-- An accepted insert has been recorded, and the counter follows. -/
theorem recordInsert_tallied (o : ForwarderOptions) (message : FetchedMessage) {s : RunState}
    {t : List Exceptions.Event}
    (h : Tally { s with result := { s.result with forwarded := s.result.forwarded + 1 } } t) :
    (recordInsert o message).Safe (Recorded A) .alone (fun _ s' t' => Tally s' t') s t := by
  rw [recordInsert, Routine.safe_bind, safe_count, Routine.after_ok]
  refine tallied_try (ICloudMailbox.addKeyword_on.mono (fun _ => isImap_of_isOn)) ?_ _ t h
  intro r
  cases r with
  | ok _ => exact trash_tallied message
  | error e =>
      show Tallied A (if _ then _ else _)
      split
      · exact quarantine_tallied o _ _ _
      · exact tallied_raise e

/-- The verdict on an insert is counted or kept in the list of rejections. -/
theorem insert_tallied (o : ForwarderOptions) (extraLabels : List String)
    (message : FetchedMessage) : Tallied A (Forwarder.insert o extraLabels message) := by
  intro s t h
  rw [Forwarder.insert, Routine.safe_bind, Routine.safe_attempt]
  refine safe_event (fun r _ => ?_)
  -- a verdict that is neither an acceptance nor a rejection
  have hother : ∀ {op : Op} {r : Reply op} {v : Exceptions.Verdict}, verdict op r = some v →
      v ≠ .accepted → (∀ b, v ≠ .rejected b) → Tally s (t ++ [⟨op, r⟩]) := by
    intro op r v hv haccepted hrejected
    have hverdicts := Exceptions.Run.verdicts_event t hv
    refine ⟨?_, ?_⟩
    · rw [hverdicts, List.count_append, ← h.forwarded]
      simp [haccepted]
    · rw [refusals, hverdicts, List.filterMap_append, ← refusals, ← h.rejected]
      cases v with
      | rejected b => exact absurd rfl (hrejected b)
      | accepted => exact absurd rfl haccepted
      | _ => simp
  rw [Routine.after_ok]
  rcases r with e | id
  · rcases e with text | text | text | ⟨_ | _ | _ | _, text, status⟩ | ⟨name, text⟩
    case gmailError.permanent =>
      have hverdicts := @Exceptions.Run.verdicts_event
        (.insertRaw message.raw (gmailLabelsFor message extraLabels))
        (.error (.gmailError .permanent text status)) _ t rfl
      refine ⟨?_, ?_⟩
      · rw [hverdicts, List.count_append]
        simpa using h.forwarded
      · rw [refusals, hverdicts, List.filterMap_append, ← refusals, ← h.rejected]
        simp
    case gmailError.retryable =>
      exact (hother (v := .postponed) rfl (by simp) (by simp)).later (.count s rfl) rfl
    case gmailError.auth => exact hother (v := .postponed) rfl (by simp) (by simp)
    all_goals exact hother (v := .broken) rfl (by simp) (by simp)
  · refine recordInsert_tallied o message ⟨?_, ?_⟩
    · rw [Exceptions.Run.verdicts_event t rfl, List.count_append, ← h.forwarded]
      simp
    · rw [refusals, Exceptions.Run.verdicts_event t rfl, List.filterMap_append, ← refusals,
        ← h.rejected]
      simp

theorem process_tallied (o : ForwarderOptions) (extraLabels : List String) (uid : ℕ) :
    Tallied A (process o extraLabels uid) := by
  refine tallied_try (ICloudMailbox.fetchMessage_on.mono (fun _ => isImap_of_isOn)) ?_
  intro r
  rcases r with e | message
  · cases e with
    | messageGone text => exact tallied_count (fun _ => rfl)
    | mailboxError text => exact tallied_handler (.mailboxError text) _
    | abortRun text => exact tallied_handler (.abortRun text) _
    | gmailError cls text status => exact tallied_handler (.gmailError cls text status) _
    | other name text => exact tallied_handler (.other name text) _
  · show Tallied A (if _ then _ else if _ then _ else _)
    split
    · exact tallied_count (fun _ => rfl)
    · split
      · exact trash_tallied message
      · exact insert_tallied o extraLabels message

theorem processAll_tallied (o : ForwarderOptions) (extraLabels : List String) (started : ℚ)
    (uids : List ℕ) : Tallied A (processAll o extraLabels started uids) := by
  induction uids with
  | nil => exact tallied_pure ()
  | cons uid rest ih =>
      refine tallied_bind (tallied_call rfl) (fun now => ?_)
      split
      · exact tallied_count (fun _ => rfl)
      refine tallied_bind (tallied_attempt (process_tallied o extraLabels uid)) (fun r => ?_)
      cases r with
      | ok _ => exact ih
      | error e =>
          cases e with
          | abortRun text => exact tallied_count (fun _ => rfl)
          | _ => exact tallied_raise _

theorem quarantineAll_tallied (o : ForwarderOptions) (rejected : List Rejection) :
    Tallied A (quarantineAll o rejected) := by
  induction rejected with
  | nil => exact tallied_pure ()
  | cons rejection rest ih =>
      refine tallied_bind (tallied_attempt (quarantine_tallied o _ _ _)) (fun r => ?_)
      cases r with
      | ok _ => exact ih
      | error e =>
          cases e with
          | abortRun text => exact tallied_count (fun _ => rfl)
          | _ => exact tallied_raise _

theorem settleRejections_tallied (o : ForwarderOptions) : Tallied A (settleRejections o) := by
  refine tallied_bind tallied_getSelf (fun s => ?_)
  dsimp only
  split
  swap
  · exact quarantineAll_tallied o _
  refine tallied_bind ?_ (fun message => ?_)
  · unfold breakerMessage
    split
    · exact tallied_raise _
    · exact tallied_pure _
  · exact tallied_bind (tallied_count (fun _ => rfl)) (fun _ => quarantineAll_tallied o _)

theorem session_tallied (o : ForwarderOptions) (started : ℚ) : Tallied A (session o started) := by
  have hlook : ∀ {γ : Type} {m : Mailbox γ}, ICloudMailbox.Looks m → Tallied A (onMailbox m) :=
    fun hm => tallied_onMailbox (hm.mono (fun _ => Op.isImap_of_isLook))
  refine tallied_bind (hlook ICloudMailbox.requireKeywords_glances.looks) (fun _ => ?_)
  refine tallied_bind (tallied_call rfl) (fun _ => ?_)
  refine tallied_bind ?_ (fun labels => ?_)
  · unfold extraLabelIds
    split
    · exact tallied_pure _
    · split
      · exact tallied_pure _
      · exact tallied_bind (tallied_call rfl) (fun _ => tallied_pure _)
  refine tallied_bind (hlook (ICloudMailbox.listInboxUids_glances _).looks) (fun uids => ?_)
  refine tallied_bind (tallied_count (fun _ => rfl)) (fun _ => ?_)
  refine tallied_bind (processAll_tallied o labels started uids) (fun _ => ?_)
  refine tallied_bind tallied_getSelf (fun s => ?_)
  split
  · exact tallied_pure ()
  · exact settleRejections_tallied o

/-- **The tally of a run.** However a run ends, its list of rejections and its counter are what
    Gmail's verdicts say. -/
theorem run_tallied (o : ForwarderOptions) : Tallied A (run o) := by
  refine tallied_bind (tallied_call rfl) (fun started => ?_)
  refine tallied_bind (tallied_attempt ?_) (fun outcome => ?_)
  · refine tallied_bind (tallied_onMailbox (ICloudMailbox.connect_glances.looks.mono
      (fun _ => Op.isImap_of_isLook))) (fun _ => ?_)
    refine tallied_bind (tallied_attempt (session_tallied o started)) (fun outcome => ?_)
    refine tallied_bind (tallied_onMailbox (ICloudMailbox.close_glances.looks.mono
      (fun _ => Op.isImap_of_isLook))) (fun _ => ?_)
    exact tallied_settle outcome
  · have hrest : ∀ m : Run Unit, Tallied A m → Tallied A (do
        m
        let ended ← call .clock
        count (fun r => { r with durationSeconds := round3 (ended - started) })
        let s ← getSelf
        pure s.result) := by
      intro m hm
      refine tallied_bind hm (fun _ => ?_)
      refine tallied_bind (tallied_call rfl) (fun ended => ?_)
      refine tallied_bind (tallied_count (fun _ => rfl)) (fun _ => ?_)
      exact tallied_bind tallied_getSelf (fun s => tallied_pure _)
    cases outcome with
    | ok _ => exact hrest _ (tallied_pure ())
    | error exc =>
        by_cases hcaught : (exc.isMailboxError || exc.isGmailError) = true
        · simp only [hcaught, if_true]
          exact hrest _ (tallied_count (fun _ => rfl))
        · simp only [hcaught]
          exact hrest _ (tallied_raise exc)

/-! ## The answers that stop a run -/

/-- No insert was answered by another exception than those of Gmail, and no body was NIL. -/
structure Clear (t : List Exceptions.Event) : Prop where
  plain : Plain caught t
  unbroken : Exceptions.Verdict.broken ∉ verdicts t

theorem Clear.later {t t' : List Exceptions.Event} (h : Clear t) (ht : Noting caught True t t') :
    Clear t' where
  plain := (ht.plain h.plain).mpr trivial
  unbroken := by
    rw [ht.verdicts]
    exact h.unbroken

/-- What is clear was clear before. -/
theorem Clear.before {t t' : List Exceptions.Event} (h : Clear t') (ht : Noting caught True t t') :
    Clear t where
  plain := by
    obtain ⟨new, rfl, -, -⟩ := ht
    exact (Exceptions.plain_append.mp h.plain).1
  unbroken := by
    rw [← ht.verdicts]
    exact h.unbroken

/-- After a message the loop goes on or aborts, unless an answer has come that stops the run. -/
def Passed (r : Except Exc Unit) (t : List Exceptions.Event) : Prop :=
  (Clear t ∧ (r = .ok () ∨ ∃ text, r = .error (.abortRun text))) ∨
    (¬Clear t ∧ ∃ e, r = .error e ∧ ∀ text, e ≠ .abortRun text)

theorem passed_of_aborts {m : Run Unit} (hm : Aborts A m) {s : RunState}
    {t : List Exceptions.Event} (h : Clear t) :
    m.Safe (Recorded A) .alone (fun r _ t' => Passed r t') s t := by
  refine (hm s t).mono ?_
  rintro r s' t' ⟨-, ht, hr⟩
  exact Or.inl ⟨h.later ht, hr⟩

/-- Nothing around a run raises its `AbortRun`, and the note of a move is no request. -/
structure Own (A : (op : Op) → Reply op → Prop) : Prop where
  issueTrash : ∀ raw e, ¬A (.issueTrash raw) (.error e)
  insertRaw : ∀ raw labels text, ¬A (.insertRaw raw labels) (.error (.abortRun text))

/-- The rest of `_process` once the inserted keyword is confirmed or refused. -/
def insertMarked (o : ForwarderOptions) (message : FetchedMessage) : Except Exc Unit → Run Unit
  | .ok () => trash message
  | .error exc =>
      if exc.isMailboxError then
        quarantine o message.uid o.keywords.unverified o.unverifiedFolder
      else raise exc

theorem insert_passed (hA : Own A) (o : ForwarderOptions) (extraLabels : List String)
    (message : FetchedMessage) {s : RunState} {t : List Exceptions.Event} (h : Clear t) :
    (Forwarder.insert o extraLabels message).Safe (Recorded A) .alone (fun r _ t' => Passed r t')
      s t := by
  rw [Forwarder.insert, Routine.safe_bind, Routine.safe_attempt]
  refine safe_event (fun r hr => ?_)
  have hplain : Plain caught (t ++ [⟨_, r⟩]) := by
    rw [Exceptions.plain_append]
    exact ⟨h.plain, by simp [Plain, strange]⟩
  have hclear : ∀ {v : Exceptions.Verdict},
      verdict (.insertRaw message.raw (gmailLabelsFor message extraLabels)) r = some v →
      v ≠ .broken → Clear (t ++ [⟨_, r⟩]) := by
    intro v hv hne
    refine ⟨hplain, ?_⟩
    rw [Exceptions.Run.verdicts_event t hv]
    simp [h.unbroken, hne.symm]
  have hstop : ∀ {e : Exc}, r = .error e →
      verdict (.insertRaw message.raw (gmailLabelsFor message extraLabels)) r = some .broken →
      Passed (.error e) (t ++ [⟨_, r⟩]) := by
    intro e he hv
    refine Or.inr ⟨fun hc => hc.unbroken ?_, e, rfl, fun text htext => ?_⟩
    · rw [Exceptions.Run.verdicts_event t hv]
      simp
    · rw [he, htext] at hr
      exact hA.insertRaw _ _ text hr
  rw [Routine.after_ok]
  rcases r with e | id
  · rcases e with text | text | text | ⟨_ | _ | _ | _, text, status⟩ | ⟨name, text⟩
    case gmailError.permanent =>
      exact Or.inl
        ⟨hclear (v := .rejected (MailTransporter.perMessage status)) rfl (by simp), Or.inl rfl⟩
    case gmailError.retryable =>
      exact Or.inl ⟨hclear (v := .postponed) rfl (by simp), Or.inl rfl⟩
    case gmailError.auth =>
      exact Or.inl ⟨hclear (v := .postponed) rfl (by simp), Or.inr ⟨text, rfl⟩⟩
    all_goals exact hstop rfl rfl
  · have hrecord : ∀ s', (attempt (onMailbox (ICloudMailbox.addKeyword message.uid
        o.keywords.inserted)) >>= insertMarked o message).Safe (Recorded A) .alone
          (fun r _ t' => Passed r t') s'
        (t ++ [⟨.insertRaw message.raw (gmailLabelsFor message extraLabels), .ok id⟩]) := by
      intro s'
      refine passed_of_aborts (Exceptions.aborts_attempt
        (Exceptions.Method.addKeyword_sound message.uid _)
        (Exceptions.Run.trash_aborts hA.issueTrash message) ?_)
        (hclear (v := .accepted) rfl (by simp))
      intro e he
      show Aborts A (if _ then _ else _)
      rw [if_pos he]
      exact Exceptions.Run.quarantine_aborts o _ _ _
    dsimp only
    rw [recordInsert, Routine.safe_bind, safe_count, Routine.after_ok]
    exact hrecord _

/-- **Which exceptions leave the loop.** -/
theorem process_passed (hA : Own A) (o : ForwarderOptions) (extraLabels : List String) (uid : ℕ)
    {s : RunState} {t : List Exceptions.Event} (h : Clear t) :
    (process o extraLabels uid).Safe (Recorded A) .alone (fun r _ t' => Passed r t') s t := by
  have hskip : Aborts A (count (fun r => { r with skipped := r.skipped + 1 })) :=
    Exceptions.aborts_count (fun _ => rfl)
  rw [process, Routine.safe_bind, Routine.safe_attempt, safe_onMailbox]
  refine (Exceptions.Method.fetchMessage_noting (c := caught) uid s.mailbox t).mono ?_
  rintro r mailbox t' ⟨rfl, ht, hr⟩
  rw [Routine.after_ok]
  rcases r with e | message
  · rcases hr e rfl with he | ⟨name, text, rfl⟩
    · have hclear : Clear t' := by
        refine h.later (ht.congr (iff_of_true ?_ trivial))
        intro e' he'
        cases he'
        exact he
      cases e with
      | messageGone text => exact passed_of_aborts hskip hclear
      | mailboxError text =>
          exact passed_of_aborts (Exceptions.Run.aborts_handler (e := .mailboxError text) he _) hclear
      | _ => exact absurd he Bool.false_ne_true
    · -- the body of the message was NIL
      refine Or.inr ⟨fun hc => ?_, _, rfl, fun _ => Exc.noConfusion⟩
      have hall := (ht.plain h.plain).mp hc.plain
      exact absurd (hall _ rfl) Bool.false_ne_true
  · have hclear := h.later (ht.congr (iff_of_true (by simp) trivial))
    dsimp only
    split
    · exact passed_of_aborts hskip hclear
    · split
      · exact passed_of_aborts (Exceptions.Run.trash_aborts hA.issueTrash message) hclear
      · exact insert_passed hA o extraLabels message hclear

/-! ## The messages of a run -/

variable {k : Keywords} {o : ForwarderOptions}

/-- The message at `uid` is in the INBOX and does not carry the failed keyword. -/
structure Unmarked (k : Keywords) (w : World) (uid : ℕ) : Prop where
  given : uid < w.uidNext
  present : ∃ m ∈ w.messages, m.isAt uid = true
  unmarked : ∀ m ∈ w.messages, m.isAt uid = true → m.has k.failed = false

/-- The messages at `uid` are the same. -/
def SameAt (uid : ℕ) (w w' : World) : Prop :=
  w.uidNext ≤ w'.uidNext ∧ ∀ m : Message, m.isAt uid = true → (m ∈ w'.messages ↔ m ∈ w.messages)

theorem Unmarked.later {w w' : World} {uid : ℕ} (h : Unmarked k w uid) (hs : SameAt uid w w') :
    Unmarked k w' uid where
  given := Nat.lt_of_lt_of_le h.given hs.1
  present := by
    obtain ⟨m, hm, hat⟩ := h.present
    exact ⟨m, (hs.2 m hat).mpr hm, hat⟩
  unmarked := fun m hm hat => h.unmarked m ((hs.2 m hat).mp hm) hat

/-- No call names the message at `uid`. -/
def sparing (uid : ℕ) : Discipline Op World := ⟨fun w w' => w' = w, fun _ op => op.spares uid = true⟩

/-- The mailbox stays well formed, and the message at `uid` as it is. -/
def unmoved (uid : ℕ) : Growth Serves (sparing uid) (fun _ => True) where
  grow := fun w w' => WellFormed w → uid < w.uidNext → WellFormed w' ∧ SameAt uid w w'
  refl := fun w hw _ => ⟨hw, Nat.le_refl _, fun _ _ => Iff.rfl⟩
  trans := by
    intro a b c hab hbc ha hu
    obtain ⟨hb, hle, hsame⟩ := hab ha hu
    obtain ⟨hc, hle', hsame'⟩ := hbc hb (Nat.lt_of_lt_of_le hu hle)
    exact ⟨hc, hle.trans hle', fun m hat => (hsame' m hat).trans (hsame m hat)⟩
  rely := by
    rintro w _ rfl hw -
    exact ⟨hw, Nat.le_refl _, fun _ _ => Iff.rfl⟩
  step := fun _ hop hE hw hu => ⟨hE.wellFormed hw, hE.uidNext_le, fun _ hat => hE.frame hop hu hat⟩

/-- The way of a message through `_process` leaves the others alone. -/
theorem process_sameAt (extraLabels : List String) {u uid : ℕ} (hne : u ≠ uid) (s : RunState)
    (w : World) : (process o extraLabels u).Safe Serves (sparing uid)
      (fun _ _ w' => (unmoved uid).grow w w') s w :=
  process_follows (S := fun op => op.spares uid = true)
    (fun _ h => Op.spares_of_isAbout hne (Op.isAbout_of_isOn h)) (fun _ => rfl) (unmoved uid) (fun _ _ => rfl) (fun _ _ h => h)

/-- A mailbox stays well formed. -/
def sane : Growth Serves .alone (fun _ => True) where
  grow := fun w w' => WellFormed w → WellFormed w'
  refl := fun _ hw => hw
  trans := fun h h' hw => h' (h hw)
  rely := by
    rintro w _ rfl hw
    exact hw
  step := fun _ _ hE hw => hE.wellFormed hw

/-! ### What counting and talking to the mailbox leaves -/

section keeps

variable {τ : Type} {f : RunState → τ} (hcount : ∀ g, (count g).Keeps f)
  (hmailbox : ∀ {γ : Type} {m : Mailbox γ}, m.Keeps ICloudMailbox.connected → (onMailbox m).Keeps f)

theorem handler_keeps (e : Exc) (text : String) :
    (if e.isMailboxError then raise (.abortRun text) else raise e : Run α).Keeps f := by
  split
  · exact Routine.keeps_raise _
  · exact Routine.keeps_raise _

include hcount hmailbox

theorem moveAside_keeps (uid : ℕ) (folder : String) : (moveAside uid folder).Keeps f := by
  refine Routine.keeps_bind (Routine.keeps_attempt
    (hmailbox (ICloudMailbox.moveToFolder_keeps uid folder))) (fun r => ?_)
  cases r with
  | ok _ => exact hcount _
  | error e => exact handler_keeps e _

theorem quarantine_keeps (uid : ℕ) (keyword folder : String) :
    (quarantine o uid keyword folder).Keeps f := by
  unfold quarantine
  split
  swap
  · exact moveAside_keeps hcount hmailbox uid folder
  refine Routine.keeps_bind (Routine.keeps_attempt
    (hmailbox (ICloudMailbox.addKeyword_keeps uid keyword))) (fun r => ?_)
  cases r with
  | ok _ => exact hcount _
  | error e =>
      show Routine.Keeps (if _ then _ else _) _
      split
      · exact moveAside_keeps hcount hmailbox uid folder
      · exact Routine.keeps_raise _

theorem trash_keeps (message : FetchedMessage) : (trash message).Keeps f := by
  refine Routine.keeps_bind (Routine.keeps_call _) (fun _ => ?_)
  refine Routine.keeps_bind (Routine.keeps_attempt
    (hmailbox (ICloudMailbox.moveToTrash_keepsConnected message.uid))) (fun r => ?_)
  cases r with
  | ok _ => exact hcount _
  | error e => exact handler_keeps e _

theorem recordInsert_keeps (message : FetchedMessage) : (recordInsert o message).Keeps f := by
  refine Routine.keeps_bind (hcount _) (fun _ => ?_)
  refine Routine.keeps_bind (Routine.keeps_attempt
    (hmailbox (ICloudMailbox.addKeyword_keeps message.uid _))) (fun r => ?_)
  cases r with
  | ok _ => exact trash_keeps hcount hmailbox message
  | error e =>
      show Routine.Keeps (if _ then _ else _) _
      split
      · exact quarantine_keeps hcount hmailbox _ _ _
      · exact Routine.keeps_raise _

end keeps

/-- The list of rejections is not among what a mailbox method or a counter writes. -/
theorem onMailbox_keepsRejected (m : Mailbox α) : (onMailbox m).Keeps RunState.rejected :=
  Routine.keeps_on m (fun _ _ => rfl)

theorem count_keepsRejected (f : SyncResult → SyncResult) : (count f).Keeps RunState.rejected :=
  Routine.keeps_modifySelf (fun _ => rfl)

/-- The session is open. -/
def isOpen (s : RunState) : Bool := s.mailbox.connected

theorem onMailbox_keepsOpen {m : Mailbox α} (hm : m.Keeps ICloudMailbox.connected) :
    (onMailbox m).Keeps isOpen := by
  intro s
  rw [safe_onMailbox]
  exact hm s.mailbox

theorem count_keepsOpen (f : SyncResult → SyncResult) : (count f).Keeps isOpen :=
  Routine.keeps_modifySelf (fun _ => rfl)

theorem process_keepsOpen (extraLabels : List String) (uid : ℕ) :
    (process o extraLabels uid).Keeps isOpen := by
  refine Routine.keeps_bind (Routine.keeps_attempt
    (onMailbox_keepsOpen (ICloudMailbox.fetchMessage_keeps uid))) (fun r => ?_)
  rcases r with e | message
  · cases e with
    | messageGone text => exact count_keepsOpen _
    | mailboxError text => exact handler_keeps (.mailboxError text) _
    | abortRun text => exact handler_keeps (.abortRun text) _
    | gmailError cls text status => exact handler_keeps (.gmailError cls text status) _
    | other name text => exact handler_keeps (.other name text) _
  · show Routine.Keeps (if _ then _ else if _ then _ else _) _
    split
    · exact count_keepsOpen _
    · split
      · exact trash_keeps count_keepsOpen onMailbox_keepsOpen message
      · refine Routine.keeps_bind (Routine.keeps_attempt (Routine.keeps_call _)) (fun r => ?_)
        rcases r with e | id
        · rcases e with text | text | text | ⟨_ | _ | _ | _, text, status⟩ | ⟨name, text⟩
          case gmailError.retryable => exact count_keepsOpen _
          case gmailError.permanent => exact Routine.keeps_modifySelf (fun _ => rfl)
          all_goals exact Routine.keeps_raise _
        · exact recordInsert_keeps count_keepsOpen onMailbox_keepsOpen message

/-! ### What a message adds -/

/-- What a message may have added to the rejections. -/
def Adds (k : Keywords) (uid : ℕ) (s s' : RunState) (w' : World) : Prop :=
  s'.rejected = s.rejected ∨ ∃ text perMessage,
    s'.rejected = s.rejected ++ [⟨uid, text, perMessage⟩] ∧ Unmarked k w' uid

/-- A message that is offered to Gmail is still there when it is rejected. -/
theorem insert_adds {extraLabels : List String} {message : FetchedMessage} {s s' : RunState}
    (hs : s'.rejected = s.rejected) {w : World} (h : Unmarked o.keywords w message.uid) :
    (Forwarder.insert o extraLabels message).Safe Serves .alone
      (fun _ s'' w'' => Adds o.keywords message.uid s s'' w'') s' w := by
  rw [Forwarder.insert, Routine.safe_bind, Routine.safe_attempt]
  refine Routine.safe_call_alone.mpr (fun r w' hE => ?_)
  rw [Routine.after_ok]
  rcases r with e | id
  · rcases e with text | text | text | ⟨_ | _ | _ | _, text, status⟩ | ⟨name, text⟩
    case gmailError.permanent =>
      have hat : SameAt message.uid w w' :=
        ⟨hE.uidNext_le, fun m hat => hE.frame rfl h.given hat⟩
      refine Or.inr ⟨text, MailTransporter.perMessage status, ?_, h.later hat⟩
      show s'.rejected ++ [_] = _
      rw [hs]
    all_goals exact Or.inl hs
  · refine (Routine.Keeps.safe (recordInsert_keeps count_keepsRejected
      (fun _ => onMailbox_keepsRejected _) message) s' w').mono ?_
    exact fun _ s'' _ h' => Or.inl (Eq.trans h' hs)

theorem process_adds (extraLabels : List String) (uid : ℕ) (s : RunState) {w : World}
    (hw : WellFormed w) : (process o extraLabels uid).Safe Serves .alone
      (fun _ s' w' => Adds o.keywords uid s s' w') s w := by
  have hkeeps : ∀ {m : Run Unit} {s' : RunState} (w' : World), m.Keeps RunState.rejected →
      s'.rejected = s.rejected →
      m.Safe Serves .alone (fun _ s'' w'' => Adds o.keywords uid s s'' w'') s' w' := by
    intro m s' w' hm hs
    exact (Routine.Keeps.safe hm s' w').mono (fun _ _ _ h => Or.inl (Eq.trans h hs))
  simp only [process, Routine.safe_bind, Routine.safe_attempt, safe_onMailbox]
  refine (ICloudMailbox.fetchMessage_safe (sane.restrict (fun _ _ => trivial))
    (fun _ _ _ => trivial) uid).mono ?_
  rintro r mailbox w' ⟨-, hw', hok⟩
  rw [Routine.after_ok]
  rcases r with e | message
  · cases e with
    | messageGone text => exact hkeeps w' (count_keepsRejected _) rfl
    | mailboxError text => exact hkeeps w' (handler_keeps (.mailboxError text) _) rfl
    | abortRun text => exact hkeeps w' (handler_keeps (.abortRun text) _) rfl
    | gmailError cls text status =>
        exact hkeeps w' (handler_keeps (.gmailError cls text status) _) rfl
    | other name text => exact hkeeps w' (handler_keeps (.other name text) _) rfl
  · obtain ⟨rfl, w₁, hw₁, hdelivers⟩ := hok message rfl
    obtain ⟨rfl, m, hm, hat, -, hsame⟩ := Serves.delivers hdelivers
    dsimp only
    split
    · exact hkeeps w' (count_keepsRejected _) rfl
    · next hquarantine =>
      split
      · exact hkeeps w' (trash_keeps count_keepsRejected (fun _ => onMailbox_keepsRejected _) message)
          rfl
      · have hrejected : ({ s with mailbox := mailbox } : RunState).rejected = s.rejected := rfl
        refine insert_adds hrejected ?_
        have hwf : WellFormed w' := hw' hw
        have hu := (Message.isAt_iff.mp hat).2
        refine ⟨hu ▸ hwf.given m hm, ⟨m, hm, hat⟩, fun m' hm' hat' => ?_⟩
        rw [hwf.unique hm' hm ((Message.isAt_iff.mp hat').2.trans hu.symm)]
        have hflags : message.hasKeyword = m.has := funext hsame
        rw [hflags] at hquarantine
        refine Bool.eq_false_iff.mpr (fun hfailed => hquarantine ?_)
        simp [Keywords.quarantine, hfailed]

/-! ## The listing of a run -/

/-- `SEARCH` names no message twice. -/
def Names (A : (op : Op) → Reply op → Prop) : Prop :=
  ∀ criteria uids, A (.search criteria) (.ok uids) → uids.Nodup

theorem listInboxUids_nodup (hA : Names A) (skipKeywords : Option (List String))
    (s : ICloudMailbox) : (ICloudMailbox.listInboxUids skipKeywords).Safe (Env.answering A) .free
      (fun r _ _ => ∀ uids, r = .ok uids → uids.Nodup) s () := by
  rw [ICloudMailbox.listInboxUids, Routine.safe_bind, Routine.safe_getSelf, Routine.after_ok,
    Routine.safe_bind, Routine.safe_attempt]
  have hfallback : ∀ (e : Exc) s', (if skipKeywords.getD s.skipKeywords = [] then
        raise (.mailboxError s!"IMAP search failed: {e}")
      else do
        let flags ← ICloudMailbox.inboxFlags
        pure ((flags.filter (fun item =>
          !matchesAny item.2 (skipKeywords.getD s.skipKeywords))).map Prod.fst) :
        Mailbox (List ℕ)).Safe (Env.answering A) .free
          (fun r _ _ => ∀ uids, r = .ok uids → uids.Nodup) s' () := by
    intro e s'
    split
    · simp
    have hflags : ICloudMailbox.inboxFlags.Safe (Env.answering A) .free
        (fun r _ _ => ∀ flags, r = .ok flags → (flags.map Prod.fst).Nodup) s' () := by
      rw [ICloudMailbox.inboxFlags, Routine.safe_bind, Routine.safe_attempt]
      refine Program.safe_free _ (fun r => ?_)
      rcases r with ⟨e | ⟨uids, fetched⟩, s''⟩
      · simp
      · rintro flags ⟨⟩
        rw [List.map_map]
        have hid : (Prod.fst ∘ fun uid => (uid, ICloudMailbox.reportedFlags fetched uid)) = id := rfl
        rw [hid, List.map_id]
        exact List.nodup_dedup uids
    rw [Routine.safe_bind]
    refine hflags.mono ?_
    intro r s'' _ hr
    cases r with
    | error e => simp
    | ok flags =>
        rintro uids ⟨⟩
        exact (hr flags rfl).sublist (List.filter_sublist.map Prod.fst)
  rw [ICloudMailbox.searchQueue, Routine.safe_bind]
  refine ICloudMailbox.client_safe ?_ (fun text => hfallback _ s)
  rw [Routine.after_ok, Routine.safe_bind]
  refine Routine.safe_answer (fun r hr => ?_)
  cases r with
  | error e => exact hfallback e s
  | ok found =>
      rintro uids ⟨⟩
      exact (List.perm_insertionSort _ found).nodup_iff.mpr (hA _ found hr)

/-- `connect` returns with the session open. -/
theorem connect_opens (s : ICloudMailbox) : ICloudMailbox.connect.Safe
    (Env.answering fun _ _ => True) .free (fun r s' _ => r = .ok () → s'.connected = true) s () := by
  rw [ICloudMailbox.connect, Routine.safe_bind, Routine.safe_attempt]
  refine Program.safe_free _ (fun r => ?_)
  rcases r with ⟨e | info, s'⟩
  · simp
  · rw [Routine.after_ok]
    dsimp only
    rw [Routine.safe_bind, Routine.safe_modifySelf, Routine.after_ok, Routine.safe_bind]
    refine Routine.safe_answer (fun r _ => ?_)
    cases r with
    | error e => simp
    | ok supportsIdle => exact fun _ => rfl

/-- What a run knows when it has its listing. -/
theorem untilListed_listed (hA : Names A) (s : RunState) (t : List Exceptions.Event) :
    (untilListed o).Safe (Recorded A) .alone (fun r s' t' => ∀ started labels uids,
      r = .ok (started, labels, uids) → Noting caught True t t' ∧ isOpen s' = true ∧ uids.Nodup)
      s t := by
  have hevent : ∀ (op : Op) (r : Reply op) {t₁ : List Exceptions.Event}, Noting caught True t t₁ →
      verdict op r = none → strange caught op r = false →
      Noting caught True t (t₁ ++ [⟨op, r⟩]) :=
    fun _ _ _ ht hv hs => ht.trans (.event _ hv (iff_of_true hs trivial))
  have hstart : Noting caught True t t := .refl t
  rw [untilListed, Routine.safe_bind]
  refine safe_event (fun r _ => ?_)
  rcases r with e | started
  · simp
  have hclock := hevent .clock (.ok started) hstart rfl rfl
  rw [Routine.after_ok, Routine.safe_bind, safe_onMailbox]
  refine (Routine.Safe.also (A := fun _ _ => True)
    (Exceptions.Method.connect_noting (fun _ => Exceptions.caught_of_mailboxError) s.mailbox _)
    (fun _ => trivial) (connect_opens s.mailbox)).mono ?_
  rintro r mailbox t₁ ⟨ht₁, hopen⟩
  rcases r with e | _
  · simp
  have hopen : isOpen { s with mailbox := mailbox } = true := hopen rfl
  have ht₁ := hclock.trans (ht₁.congr (iff_of_true (by simp) trivial))
  have hkeep : ∀ {γ : Type} {m : Mailbox γ} {s₁ : RunState} {t₁ : List Exceptions.Event},
      Exceptions.Sound A caught m → m.Keeps ICloudMailbox.connected →
      Noting caught True t t₁ → isOpen s₁ = true →
      (onMailbox m).Safe (Recorded A) .alone
        (fun _ s₂ t₂ => Noting caught True t t₂ ∧ isOpen s₂ = true) s₁ t₁ := by
    intro γ m s₁ t₁ hm hk ht ho
    rw [safe_onMailbox]
    refine (Routine.Safe.also (A := fun _ _ => True) (hm s₁.mailbox t₁) (fun _ => trivial)
      (hk s₁.mailbox)).mono ?_
    rintro r mailbox t₂ ⟨⟨ht₂, -⟩, hsame⟩
    exact ⟨ht.trans ht₂, hsame.trans ho⟩
  rw [Routine.after_ok, Routine.safe_bind]
  refine (hkeep Exceptions.Method.requireKeywords_sound ICloudMailbox.requireKeywords_keeps ht₁
    hopen).mono ?_
  rintro r s₂ t₂ ⟨ht₂, ho₂⟩
  rcases r with e | _
  · simp
  rw [Routine.after_ok, Routine.safe_bind]
  refine safe_event (fun r _ => ?_)
  rcases r with e | ⟨⟩
  · simp
  have ht₃ := hevent .gmailClient (.ok ()) ht₂ rfl rfl
  -- the listing itself, once the label is known
  have hlist : ∀ (labels : List String) {t₃ : List Exceptions.Event}, Noting caught True t t₃ →
      Routine.Safe (Recorded A) .alone (do
        let uids ← onMailbox (ICloudMailbox.listInboxUids (some o.keywords.quarantine))
        pure (started, labels, uids)) (fun r s' t' => ∀ started labels uids,
          r = .ok (started, labels, uids) →
            Noting caught True t t' ∧ isOpen s' = true ∧ uids.Nodup) s₂ t₃ := by
    intro labels t₃ ht₃
    rw [Routine.safe_bind, safe_onMailbox]
    have hsound := Exceptions.Method.listInboxUids_sound (A := A) (c := caught)
      (some o.keywords.quarantine) s₂.mailbox t₃
    have hkeeps := ICloudMailbox.listInboxUids_keeps (f := ICloudMailbox.connected)
      (some o.keywords.quarantine) s₂.mailbox
    refine (Routine.Safe.also (A := A) (hsound.also (fun _ => trivial) hkeeps) (fun hE => hE.1)
      (listInboxUids_nodup hA _ s₂.mailbox)).mono ?_
    rintro r mailbox t₄ ⟨⟨⟨ht₄, -⟩, hsame⟩, hnodup⟩
    rcases r with e | uids
    · simp
    · rintro _ _ _ ⟨⟩
      exact ⟨ht₃.trans ht₄, Eq.trans hsame ho₂, hnodup uids rfl⟩
  rw [Routine.after_ok, Routine.safe_bind]
  unfold extraLabelIds
  split
  · exact hlist [] ht₃
  · split
    · exact hlist [] ht₃
    · rw [Routine.safe_bind]
      refine safe_event (fun r _ => ?_)
      rcases r with e | id
      · simp
      · exact hlist [id] (hevent (.ensureLabel _) (.ok id) ht₃ rfl rfl)

/-! ## A server that accepts the failed keyword -/

/-- The client `h`, whose account is seen through `f`, accepts the failed keyword: its `STORE` takes
    effect, and the reply says so if the message is there. -/
structure Accepts {X : Type} (k : Keywords) (h : X → (op : Op) → Reply op × X) (f : X → World) :
    Prop where
  serves : ∀ x op, Serves (f x) op (h x op).1 (f (h x op).2)
  names : Names (answersOf h)
  own : ∀ raw labels text, ¬answersOf h (.insertRaw raw labels) (.error (.abortRun text))
  failed : ∀ x uid, ∃ stored, (h x (.addFlags uid k.failed)).1 = .ok stored ∧
    f (h x (.addFlags uid k.failed)).2 = effect (.addFlags uid k.failed) (f x) ∧
    ((∃ m ∈ (f x).messages, m.isAt uid = true) →
      hasFlag ((stored.lookup uid).getD []) k.failed = true)

variable {X : Type} {h : X → (op : Op) → Reply op × X} {f : X → World}

theorem Accepts.answers (ha : Accepts k h f) : Own (answersOf h) where
  issueTrash := by
    rintro raw e ⟨x, hx⟩
    have hserves := ha.serves x (.issueTrash raw)
    rw [hx] at hserves
    exact absurd hserves.1 nofun
  insertRaw := ha.own

theorem Accepts.recorded (ha : Accepts k h f) : Accepts k (recorded h) (fun y => f y.1) where
  serves := fun y op => ha.serves y.1 op
  names := by
    rintro criteria uids ⟨y, hy⟩
    exact ha.names criteria uids ⟨y.1, hy⟩
  own := by
    rintro raw labels text ⟨y, hy⟩
    exact ha.own raw labels text ⟨y.1, hy⟩
  failed := fun y uid => ha.failed y.1 uid

/-- The message at `uid` carries the failed keyword. -/
def Marked (k : Keywords) (w : World) (uid : ℕ) : Prop :=
  ∃ m ∈ w.messages, m.isAt uid = true ∧ m.has k.failed = true

/-! ### One rejection -/

/-- A `STORE` leaves every message where it is and takes no keyword off. -/
theorem stored (u : ℕ) (flag : String) {w : World} {m : Message} (hm : m ∈ w.messages) :
    ∃ m' ∈ (effect (.addFlags u flag) w).messages, (∀ uid, m'.isAt uid = m.isAt uid) ∧
      (∀ f, m.has f = true → m'.has f = true) ∧ (m.isAt u = true → m'.has flag = true) := by
  refine ⟨_, mem_store.mpr ⟨m, hm, rfl⟩, fun uid => rfl, fun f hf => ?_, fun hat => ?_⟩
  · exact @has_flagsAfter (.addFlags u flag) (fun _ _ => nofun) m f hf
  · simp [Message.has, hat]

theorem Marked.store {w : World} {uid : ℕ} (h : Marked k w uid) (u : ℕ) (flag : String) :
    Marked k (effect (.addFlags u flag) w) uid := by
  obtain ⟨m, hm, hat, hfailed⟩ := h
  obtain ⟨m', hm', hat', hkeep, -⟩ := stored u flag hm
  exact ⟨m', hm', (hat' uid).trans hat, hkeep _ hfailed⟩

theorem exec_client {self : ICloudMailbox} (hc : self.connected = true) (x : X) :
    ICloudMailbox.client.exec h self x = ((.ok (), self), x) := by
  rw [ICloudMailbox.client, Routine.exec_bind, Routine.exec_getSelf]
  simp [hc]

/-- `add_keyword` confirms the failed keyword. -/
theorem addKeyword_exec (ha : Accepts k h f) (self : ICloudMailbox) (hc : self.connected = true)
    {x : X} {uid : ℕ} (hpresent : ∃ m ∈ (f x).messages, m.isAt uid = true) :
    (ICloudMailbox.addKeyword uid k.failed).exec h self x =
      ((.ok (), self), (h x (.addFlags uid k.failed)).2) := by
  obtain ⟨response, hok, -, hshown⟩ := ha.failed x uid
  have hshown := hshown hpresent
  have hstore : (ICloudMailbox.storeKeyword uid k.failed).exec h self x =
      ((.ok ((response.lookup uid).getD []), self), (h x (.addFlags uid k.failed)).2) := by
    have hcall : (call (.addFlags uid k.failed) : Mailbox Stored).exec h self x =
        ((.ok response, self), (h x (.addFlags uid k.failed)).2) := by
      rw [call, Routine.exec_call, hok]
    have hascii : (ICloudMailbox.encodeAscii k.failed).exec h self x = ((.ok (), self), x) := by
      rw [ICloudMailbox.encodeAscii, if_pos k.failedOk.ascii]
      rfl
    rw [ICloudMailbox.storeKeyword, Routine.exec_bind_ok _ _ _ (exec_client hc x),
      Routine.exec_bind_ok _ _ _ hascii, Routine.exec_bind_ok _ _ _ hcall, if_pos hshown]
    rfl
  have hattempt : (attempt (ICloudMailbox.storeKeyword uid k.failed)).exec h self x =
      ((.ok (.ok ((response.lookup uid).getD [])), self), (h x (.addFlags uid k.failed)).2) := by
    rw [Routine.exec_attempt, hstore]
  rw [ICloudMailbox.addKeyword, Routine.exec_bind_ok _ _ _ hattempt]
  dsimp only
  rw [if_pos hshown]
  rfl

/-- In keyword mode a rejected message that is there is marked. -/
theorem quarantine_exec (ha : Accepts k h f) (hmode : o.quarantineMode = .keyword) {s : RunState}
    (hopen : isOpen s = true) {x : X} {uid : ℕ} (folder : String)
    (hpresent : ∃ m ∈ (f x).messages, m.isAt uid = true) :
    (quarantine o uid k.failed folder).exec h s x =
      ((.ok (), s.withResult { s.result with quarantined := s.result.quarantined + 1 }),
        (h x (.addFlags uid k.failed)).2) := by
  have hadd := addKeyword_exec ha s.mailbox hopen hpresent
  have hattempt : (attempt (onMailbox (ICloudMailbox.addKeyword uid k.failed))).exec h s x =
      ((.ok (.ok ()), s), (h x (.addFlags uid k.failed)).2) := by
    rw [Routine.exec_attempt, onMailbox, Routine.exec_on, hadd]
  rw [quarantine, if_pos hmode, Routine.exec_bind_ok _ _ _ hattempt]
  rfl

/-! ### The settlement -/

/-- Every rejection is taken aside, and its message marked. -/
theorem settlement_marks (ha : Accepts k h f) (hk : o.keywords = k)
    (hmode : o.quarantineMode = .keyword) {rejected : List Rejection} {s : RunState} {x : X}
    (hopen : isOpen s = true)
    (hpresent : ∀ r ∈ rejected, ∃ m ∈ (f x).messages, m.isAt r.uid = true) :
    ∃ s' x', settlement h o rejected s x = (⟨[], none⟩, s', x') ∧ s.Same s' ∧
      (∀ r ∈ rejected, Marked k (f x') r.uid) ∧ ∀ uid, Marked k (f x) uid → Marked k (f x') uid := by
  induction rejected generalizing s x with
  | nil => exact ⟨s, x, rfl, .refl s, fun _ hr => absurd hr List.not_mem_nil, fun _ hm => hm⟩
  | cons rejection rest ih =>
      have hq := quarantine_exec ha hmode hopen o.failedFolder (hpresent _ List.mem_cons_self)
      obtain ⟨-, -, heffect, -⟩ := ha.failed x rejection.uid
      -- the others are still there
      have hrest : ∀ r ∈ rest, ∃ m ∈ (f (h x (.addFlags rejection.uid k.failed)).2).messages,
          m.isAt r.uid = true := by
        intro r hr
        obtain ⟨m, hm, hat⟩ := hpresent r (List.mem_cons_of_mem _ hr)
        obtain ⟨m', hm', hat', -⟩ := stored rejection.uid k.failed hm
        rw [heffect]
        exact ⟨m', hm', (hat' r.uid).trans hat⟩
      obtain ⟨s', x', hsettle, hsame, hall, hkeep⟩ := ih
        (s := s.withResult { s.result with quarantined := s.result.quarantined + 1 }) hopen hrest
      have hcount : s.Same (s.withResult { s.result with quarantined := s.result.quarantined + 1 }) :=
        .count s rfl
      refine ⟨s', x', ?_, hcount.trans hsame, ?_, ?_⟩
      · rw [settlement, hk, hq]
        exact hsettle
      · intro r hr
        rcases List.mem_cons.mp hr with rfl | hr
        · obtain ⟨m, hm, hat⟩ := hpresent r List.mem_cons_self
          obtain ⟨m', hm', hat', -, hflag⟩ := stored r.uid k.failed hm
          refine hkeep r.uid ?_
          rw [heffect]
          exact ⟨m', hm', (hat' r.uid).trans hat, hflag hat⟩
        · exact hall r hr
      · intro uid hm
        refine hkeep uid ?_
        rw [heffect]
        exact hm.store rejection.uid k.failed

/-! ### The loop -/

/-- The rejections so far are of messages that are still there, and not among those left. -/
structure Pending (k : Keywords) (uids : List ℕ) (s : RunState) (w : World) : Prop where
  wellFormed : WellFormed w
  isOpen : isOpen s = true
  passed : ∀ r ∈ s.rejected, r.uid ∉ uids
  unmarked : ∀ r ∈ s.rejected, Unmarked k w r.uid

/-- One message of the loop. -/
theorem process_pending (ha : Accepts k h f) (hk : o.keywords = k) {extraLabels : List String}
    {uid : ℕ} {rest : List ℕ} (hnodup : (uid :: rest).Nodup) {s : RunState} {x : X}
    (hp : Pending k (uid :: rest) s (f x)) {r : Except Exc Unit} {s' : RunState} {x' : X}
    (hprocess : (process o extraLabels uid).exec h s x = ((r, s'), x')) :
    Pending k rest s' (f x') := by
  have hserves : ∀ x op, Serves (f x) op (h x op).1 (f (h x op).2) := ha.serves
  have hwf : WellFormed (f x') := by
    have hgrow := Routine.Safe.exec f hserves (fun _ => rfl)
      (Routine.Safe.follows sane (fun _ _ => trivial) (process o extraLabels uid) s (f x))
    rw [hprocess] at hgrow
    exact hgrow hp.wellFormed
  have hopen : isOpen s' = true := by
    have hkeeps := (process_keepsOpen (o := o) extraLabels uid).exec h s x
    rw [hprocess] at hkeeps
    exact hkeeps.trans hp.isOpen
  have hadds := Routine.Safe.exec f hserves (fun _ => rfl)
    (process_adds (o := o) extraLabels uid s hp.wellFormed)
  rw [hprocess, hk] at hadds
  have hold : ∀ r ∈ s.rejected, r.uid ∉ rest ∧ Unmarked k (f x') r.uid := by
    intro r hr
    have hne : uid ≠ r.uid := fun he => hp.passed r hr (he ▸ List.mem_cons_self)
    have hunmarked := hp.unmarked r hr
    have hsame := Routine.Safe.exec f hserves (fun _ => rfl)
      (process_sameAt (o := o) extraLabels hne s (f x))
    rw [hprocess] at hsame
    obtain ⟨-, hat⟩ := hsame hp.wellFormed hunmarked.given
    exact ⟨fun hin => hp.passed r hr (List.mem_cons_of_mem _ hin), hunmarked.later hat⟩
  have hall : ∀ r ∈ s'.rejected, r.uid ∉ rest ∧ Unmarked k (f x') r.uid := by
    rcases hadds with hsame | ⟨text, perMessage, hnew, hunmarked⟩
    · rw [hsame]
      exact hold
    · intro r hr
      rw [hnew] at hr
      rcases List.mem_append.mp hr with hr | hr
      · exact hold r hr
      · rw [List.mem_singleton.mp hr]
        exact ⟨(List.nodup_cons.mp hnodup).1, hunmarked⟩
  exact ⟨hwf, hopen, fun r hr => (hall r hr).1, fun r hr => (hall r hr).2⟩

/-- **The loop.** It is over with the rejected messages still there and unmarked; and it was stopped
    by an exception exactly if an answer came that stops a run. -/
theorem loop_pending (ha : Accepts k h f) (hk : o.keywords = k) {extraLabels : List String}
    {started : ℚ} {uids : List ℕ} (hnodup : uids.Nodup) {s : RunState} {x : X}
    {t : List Exceptions.Event} (hp : Pending k uids s (f x)) (hc : Clear t) {ending : Forwarder.Ending}
    {s' : RunState} {x' : X} {t' : List Exceptions.Event}
    (hloop : loop (recorded h) o extraLabels started uids s (x, t) = (ending, s', (x', t'))) :
    Pending k [] s' (f x') ∧
      ((ending.outcome = .ok () ∧ Clear t') ∨ ((∃ e, ending.outcome = .error e) ∧ ¬Clear t')) := by
  have hdone : ∀ {uids : List ℕ} {s : RunState} {w : World}, Pending k uids s w → Pending k [] s w :=
    fun hp => ⟨hp.wellFormed, hp.isOpen, fun _ _ => List.not_mem_nil, hp.unmarked⟩
  induction uids generalizing s x t with
  | nil =>
      cases hloop
      exact ⟨hdone hp, Or.inl ⟨rfl, hc⟩⟩
  | cons uid rest ih =>
      rw [loop] at hloop
      have hclock := ha.serves x .clock
      rcases hr : h x .clock with ⟨e | now, x₁⟩
      · -- the clock runs
        rw [hr] at hclock
        exact absurd hclock.1 (by rintro ⟨⟩)
      rw [hr] at hclock
      have hx₁ : f x₁ = f x := Serves.effect_of_ok rfl hclock
      have hrecorded : recorded h (x, t) .clock = (.ok now, (x₁, t ++ [⟨.clock, .ok now⟩])) := by
        rw [recorded, hr]
      rw [hrecorded] at hloop
      dsimp only at hloop
      have hc₁ : Clear (t ++ [⟨.clock, .ok now⟩]) :=
        hc.later (.event t rfl (iff_of_true rfl trivial))
      rw [← hx₁] at hp
      by_cases hbudget : now - started > o.timeBudgetSeconds
      · rw [if_pos hbudget] at hloop
        cases hloop
        exact ⟨hdone hp, Or.inl ⟨rfl, hc₁⟩⟩
      rw [if_neg hbudget] at hloop
      rcases hprocess : (process o extraLabels uid).exec (recorded h) s
        (x₁, t ++ [⟨.clock, .ok now⟩]) with ⟨⟨r, s₁⟩, ⟨x₂, t₂⟩⟩
      rw [hprocess] at hloop
      have hp₂ : Pending k rest s₁ (f x₂) :=
        process_pending ha.recorded hk hnodup (x := (x₁, _)) hp hprocess
      have hpassed : Passed r t₂ := by
        have hpass := Exceptions.exec_recorded (w := x₁)
          (process_passed ha.answers o extraLabels uid (s := s) hc₁)
        rw [hprocess] at hpass
        exact hpass
      rcases hpassed with ⟨hc₂, rfl | ⟨text, rfl⟩⟩ | ⟨hc₂, e, rfl, hne⟩
      · exact ih (List.nodup_cons.mp hnodup).2 hp₂ hc₂ hloop
      · cases hloop
        exact ⟨hdone hp₂, Or.inl ⟨rfl, hc₂⟩⟩
      · cases e with
        | abortRun text => exact absurd rfl (hne text)
        | _ =>
            cases hloop
            exact ⟨hdone hp₂, Or.inr ⟨⟨_, rfl⟩, hc₂⟩⟩

/-! ### The end -/

/-- The calls at the end of a run. -/
def Op.isLast : Op → Bool
  | .logout => true
  | .shutdown => true
  | .clock => true
  | _ => false

theorem finish_uses (started : ℚ) (outcome : Except Exc Unit) :
    (finish started outcome).Uses (fun op => Op.isLast op = true) := by
  have hclose : (onMailbox ICloudMailbox.close).Uses (fun op => Op.isLast op = true) := by
    refine Routine.uses_on (Routine.uses_bind Routine.uses_getSelf (fun self => ?_))
    refine Routine.uses_bind (Routine.uses_modifySelf _) (fun _ => ?_)
    split
    swap
    · exact Routine.uses_pure _
    refine Routine.uses_bind (Routine.uses_attempt (Routine.uses_call rfl)) (fun r => ?_)
    cases r with
    | ok _ => exact Routine.uses_pure _
    | error e =>
        exact Routine.uses_bind (Routine.uses_attempt (Routine.uses_call rfl))
          (fun _ => Routine.uses_pure _)
  have hrest : ∀ m : Run Unit, m.Uses (fun op => Op.isLast op = true) → Routine.Uses (do
      m
      let ended ← call .clock
      count (fun r => { r with durationSeconds := round3 (ended - started) })
      let s ← getSelf
      pure s.result : Run SyncResult) (fun op => Op.isLast op = true) := by
    intro m hm
    refine Routine.uses_bind hm (fun _ => ?_)
    refine Routine.uses_bind (Routine.uses_call rfl) (fun ended => ?_)
    refine Routine.uses_bind (Routine.uses_modifySelf _) (fun _ => ?_)
    exact Routine.uses_bind Routine.uses_getSelf (fun s => Routine.uses_pure _)
  refine Routine.uses_bind hclose (fun _ => ?_)
  cases outcome with
  | ok _ => exact hrest (pure ()) (Routine.uses_pure _)
  | error exc =>
      by_cases hcaught : (exc.isMailboxError || exc.isGmailError) = true
      · simp only [hcaught, if_true]
        exact hrest _ (Routine.uses_modifySelf _)
      · simp only [hcaught]
        exact hrest (raise exc) (Routine.uses_raise _)

/-- They touch no message. -/
def ending : Growth Serves .alone (fun op => Op.isLast op = true) where
  grow := fun w w' => w' = w
  refl := fun _ => rfl
  trans := fun h h' => h'.trans h
  rely := fun h => h
  step := by
    intro w op r w' hop _ hE
    have heffect : effect op w = w := by
      cases op <;> first | rfl | exact absurd hop nofun
    rcases hE.cases with he | he
    · exact he
    · exact he.trans heffect

/-- And they are answered by nothing that stops a run. -/
def noted : Growth (Recorded A) .alone (fun op => Op.isLast op = true) where
  grow := Noting caught True
  refl := fun t => .refl t
  trans := fun h h' => h.trans h'
  rely := by
    intro t t' he
    cases he
    exact .refl t
  step := by
    rintro t op r t' hop - ⟨-, rfl⟩
    refine .event t ?_ (iff_of_true ?_ trivial)
    · cases op <;> first | rfl | exact absurd hop nofun
    · cases op <;> first | rfl | exact absurd hop nofun

/-- The end of a run leaves the account and the rejections. -/
theorem finish_ends (ha : Accepts k h f) (started : ℚ) (outcome : Except Exc Unit) {s : RunState}
    {x : X} {t : List Exceptions.Event} {r : Except Exc SyncResult} {s' : RunState} {x' : X}
    {t' : List Exceptions.Event}
    (hfinish : (finish started outcome).exec (recorded h) s (x, t) = ((r, s'), (x', t'))) :
    s.Same s' ∧ f x' = f x ∧ Noting caught True t t' := by
  have huses := finish_uses started outcome
  refine ⟨?_, ?_, ?_⟩
  · obtain ⟨s₁, w₁, hclose, hresult, hsame⟩ := close_exec (h := recorded h) s (x, t)
    rw [finish, Routine.exec_bind_ok _ _ _ hclose] at hfinish
    have hconclude := (conclude_exec (h := recorded h) started outcome s₁ w₁).1
    have hs' : ((conclude started outcome).exec (recorded h) s₁ w₁).1.2 = s' :=
      congrArg (fun p => p.1.2) hfinish
    rw [hs'] at hconclude
    exact ⟨hconclude.1.trans hsame, hconclude.2.trans (congrArg SyncResult.forwarded hresult)⟩
  · have hgrow := Routine.Safe.exec (h := recorded h) (x := (x, t)) (fun y => f y.1)
      (fun y op => ha.serves y.1 op) (fun _ => rfl)
      (Routine.Safe.of_uses ending (s := s) (w := f x) huses (fun _ h => h)
        (fun _ _ _ _ => trivial))
    rw [hfinish] at hgrow
    exact hgrow
  · have hgrow := Exceptions.exec_recorded (h := h) (w := x)
      (Routine.Safe.of_uses noted (s := s) (w := t) huses (fun _ h => h) (fun _ _ _ _ => trivial))
    rw [hfinish] at hgrow
    exact hgrow

/-- A settlement gets no answer that stops a run. -/
theorem settleRejections_noting (s : RunState) (t : List Exceptions.Event) :
    (settleRejections o).Safe (Recorded A) .alone (fun _ _ t' => Noting caught True t t') s t := by
  have hall : ∀ rejected s', (quarantineAll o rejected).Safe (Recorded A) .alone
      (fun _ _ t' => Noting caught True t t') s' t := by
    intro rejected s'
    refine (Exceptions.Run.quarantineAll_returns o rejected s' t).mono ?_
    exact fun _ _ _ h => h.2
  rw [settleRejections, Routine.safe_bind, Routine.safe_getSelf, Routine.after_ok]
  dsimp only
  split
  swap
  · exact hall _ s
  rw [Routine.safe_bind]
  unfold breakerMessage
  split
  · exact Noting.refl t
  · rw [Routine.safe_pure, Routine.after_ok, Routine.safe_bind, safe_count, Routine.after_ok]
    exact hall _ _

/-! ## When the rejections of a run are settled -/

/-- Every rejection the breaker does not spare carries the failed keyword. -/
def Settled (o : ForwarderOptions) (s : RunState) (w : World) : Prop :=
  ∀ r ∈ due o s, Marked o.keywords w r.uid

/-- The verdicts trip the breaker. -/
def tripped (o : ForwarderOptions) (t : List Exceptions.Event) : Bool :=
  decide (o.rejectionThreshold ≠ 0) && decide (o.rejectionThreshold ≤ (refusals t).count false) &&
    decide (Exceptions.Verdict.accepted ∉ verdicts t)

/-- The rejections among the verdicts that the breaker does not spare. -/
def owed (o : ForwarderOptions) (t : List Exceptions.Event) : List Bool :=
  if tripped o t then (refusals t).filter id else refusals t

/-- A tripped breaker has a rejection to quote. -/
def Quotes (o : ForwarderOptions) (t : List Exceptions.Event) : Prop :=
  tripped o t = true → false ∈ refusals t

namespace Tally

variable {s : RunState} {t : List Exceptions.Event}

theorem suspicious_length (h : Tally s t) :
    (suspicious s.rejected).length = (refusals t).count false := by
  rw [← h.rejected, List.count_eq_countP, List.countP_map, List.countP_eq_length_filter, suspicious]
  congr 2
  funext r
  simp

theorem trips_eq (h : Tally s t) : trips o s = tripped o t := by
  have hforwarded : s.result.forwarded = 0 ↔ Exceptions.Verdict.accepted ∉ verdicts t := by
    rw [h.forwarded, List.count_eq_zero]
  rw [trips, breakerTrips, tripped, h.suspicious_length, decide_eq_decide.mpr hforwarded]

theorem owed_eq (h : Tally s t) : (due o s).map Rejection.perMessage = owed o t := by
  rw [due, owed, h.trips_eq, ← h.rejected]
  by_cases ht : tripped o t = true
  · rw [if_pos ht, if_pos ht, List.filter_map]
    rfl
  · rw [if_neg ht, if_neg ht]

theorem quotes_iff (h : Tally s t) :
    Quotes o t ↔ (trips o s = true → suspicious s.rejected ≠ []) := by
  have hfalse : false ∈ refusals t ↔ suspicious s.rejected ≠ [] := by
    rw [← List.count_pos_iff, ← h.suspicious_length, List.length_pos_iff]
  rw [Quotes, h.trips_eq, hfalse]

end Tally

theorem due_subset {s : RunState} {r : Rejection} (hr : r ∈ due o s) : r ∈ s.rejected := by
  unfold due at hr
  split at hr
  · exact (List.mem_filter.mp hr).1
  · exact hr

/-- What is due depends on the rejections and the counter only. -/
theorem due_congr {s s' : RunState} (h : s.Same s') : due o s' = due o s ∧ trips o s' = trips o s := by
  have htrips : trips o s' = trips o s := by rw [trips, trips, h.rejected, h.forwarded]
  exact ⟨by rw [due, due, htrips, h.rejected], htrips⟩

/-- Nothing is settled where nothing is marked. -/
theorem settled_iff_of_unmarked {s : RunState} {w : World}
    (h : ∀ r ∈ s.rejected, Unmarked o.keywords w r.uid) : Settled o s w ↔ due o s = [] := by
  constructor
  · intro hs
    refine List.eq_nil_iff_forall_not_mem.mpr (fun r hr => ?_)
    obtain ⟨m, hm, hat, hfailed⟩ := hs r hr
    have hunmarked := (h r (due_subset hr)).unmarked m hm hat
    rw [hunmarked] at hfailed
    exact absurd hfailed nofun
  · intro hnil r hr
    rw [hnil] at hr
    exact absurd hr List.not_mem_nil

/-- The breaker that has nothing to quote ends the settlement before it has begun. -/
theorem settleRejections_unquoted {s : RunState} {w : X} (ht : trips o s = true)
    (hnil : suspicious s.rejected = []) :
    (settleRejections o).exec h s w =
      ((.error (.other "IndexError" "list index out of range"), s), w) := by
  rw [settleRejections, Routine.exec_bind_ok _ _ _ (exec_self h s w)]
  show (if trips o s then (breakerMessage (suspicious s.rejected) >>= _) else _ : Run Unit).exec h s
    w = _
  rw [if_pos ht, hnil]
  rfl

/-! ## The next run -/

/-- Nobody else is there, and the calls only look. -/
def onlyLooks : Discipline Op World := ⟨fun w w' => w' = w, fun _ op => op.isQuiet = true⟩

/-- The messages stay as they are. -/
def unchanged : Growth Serves onlyLooks (fun op => op.isImap = true) where
  grow := fun w w' => w'.messages = w.messages
  refl := fun _ => rfl
  trans := fun h h' => h'.trans h
  rely := fun h => congrArg World.messages h
  step := by
    intro w op r w' _ hop hE
    have heffect : (effect op w).messages = w.messages := by
      cases op <;> first | rfl | exact absurd hop nofun
    rcases hE.cases with he | he
    · rw [he]
    · rw [he, heffect]

/-- A marked message is only looked at: it is not offered to Gmail again. -/
theorem process_marked {uid : ℕ} {w : World} (hw : WellFormed w) (h : Marked o.keywords w uid)
    (extraLabels : List String) (s : RunState) :
    (process o extraLabels uid).Safe Serves onlyLooks (fun _ _ w' => w'.messages = w.messages)
      s w := by
  obtain ⟨m, hm, hat, hfailed⟩ := h
  simp only [process, Routine.safe_bind, Routine.safe_attempt, safe_onMailbox]
  refine (ICloudMailbox.fetchMessage_safe unchanged (fun _ _ hop => hop) uid).mono ?_
  rintro r mailbox w' ⟨-, hw', hok⟩
  rw [Routine.after_ok]
  rcases r with e | message
  · cases e with
    | messageGone text => exact hw'
    | _ =>
        dsimp only
        split
        · exact hw'
        · exact hw'
  · obtain ⟨rfl, w₁, hw₁, hdelivers⟩ := hok message rfl
    obtain ⟨rfl, m', hm', hat', -, hsame⟩ := Serves.delivers hdelivers
    have hin : m' ∈ w.messages := by
      rw [← hw₁]
      exact hm'
    have hu := (Message.isAt_iff.mp hat').2.trans (Message.isAt_iff.mp hat).2.symm
    rw [hw.unique hin hm hu] at hsame
    have hquarantine : o.keywords.quarantine.any message.hasKeyword = true := by
      have hhas : message.hasKeyword o.keywords.failed = true := (hsame _).trans hfailed
      simp [Keywords.quarantine, hhas]
    dsimp only
    rw [if_pos hquarantine]
    exact hw'

/-- Where nothing was rejected there is nothing to settle. -/
theorem settled_iff_of_nil {s : RunState} {w : World} (hnil : s.rejected = []) (Q : Prop) :
    Settled o s w ↔ due o s = [] ∨ Q := by
  have hdue : due o s = [] :=
    List.eq_nil_iff_forall_not_mem.mpr (fun r hr => by
      have hin := due_subset hr
      rw [hnil] at hin
      exact absurd hin List.not_mem_nil)
  refine iff_of_true (fun r hr => ?_) (Or.inl hdue)
  rw [hdue] at hr
  exact absurd hr List.not_mem_nil

/-- The settlement where the breaker, if it has tripped, has a rejection to quote: every rejection
    that is due has been marked. -/
theorem settleRejections_marks {h : X → (op : Op) → Reply op × X} {f : X → World}
    (ha : Accepts o.keywords h f) (hmode : o.quarantineMode = .keyword) {s : RunState} {x : X}
    {t : List Exceptions.Event} (hopen : isOpen s = true)
    (hpresent : ∀ r ∈ due o s, ∃ m ∈ (f x).messages, m.isAt r.uid = true)
    (hquote : trips o s = true → suspicious s.rejected ≠ []) : ∃ outcome s' x' t',
      (settleRejections o).exec (recorded h) s (x, t) = ((outcome, s'), (x', t')) ∧ s.Same s' ∧
      (∀ r ∈ due o s, Marked o.keywords (f x') r.uid) ∧ Noting caught True t t' := by
  have hopen' : isOpen (marked o s) = true := by
    unfold marked
    split
    · exact hopen
    · exact hopen
  obtain ⟨s', ⟨x', t'⟩, hsettle, hsame, hmarked, -⟩ :=
    settlement_marks ha.recorded rfl hmode (x := (x, t)) hopen' hpresent
  have hexec := settleRejections_exec (recorded h) o hquote hsettle
  have hnoting := Exceptions.exec_recorded (h := h) (w := x)
    (settleRejections_noting (o := o) s t)
  rw [hexec] at hnoting
  have hmark : s.Same (marked o s) := by
    unfold marked
    split
    · exact .count s rfl
    · exact .refl s
  exact ⟨_, _, x', t', hexec, hmark.trans hsame, hmarked, hnoting⟩

/-- **When the rejections are settled.** On a server that accepts the failed keyword, every rejection
    of a run that the breaker does not spare carries it when the run ends, however the run ends,
    exactly if nothing was owed or no answer came that stops a run and the breaker had a rejection
    to quote. And the next run only looks at a message that carries it. -/
theorem settled_iff {X : Type} (h : X → (op : Op) → Reply op × X) (f : X → World)
    (o : ForwarderOptions) (ha : Accepts o.keywords h f) (hmode : o.quarantineMode = .keyword) {x : X}
    (hw : WellFormed (f x)) {r : Except Exc SyncResult} {s' : RunState} {x' : X}
    {t' : List Exceptions.Event}
    (hrun : (run o).exec (recorded h) (initial o) (x, []) = ((r, s'), (x', t'))) :
    (Settled o s' (f x') ↔ owed o t' = [] ∨ (Clear t' ∧ Quotes o t')) ∧
      ∀ uid, Marked o.keywords (f x') uid → ∀ extraLabels s,
        (process o extraLabels uid).Safe Serves onlyLooks
          (fun _ _ w' => w'.messages = (f x').messages) s (f x') := by
  refine ⟨?_, fun uid hm extraLabels s => process_marked ?_ hm extraLabels s⟩
  swap
  · have hgrow := Routine.Safe.exec (h := recorded h) (x := (x, [])) (fun y => f y.1)
      (fun y op => ha.serves y.1 op) (fun _ => rfl)
      (Routine.Safe.follows sane (fun _ _ => trivial) (run o) (initial o) (f x))
    rw [hrun] at hgrow
    exact hgrow hw
  have htally : Tally s' t' := by
    have htallied := Exceptions.exec_recorded (h := h) (w := x)
      (run_tallied o (initial o) [] ⟨rfl, rfl⟩)
    rw [hrun] at htallied
    exact htallied
  have howed : owed o t' = [] ↔ due o s' = [] := by
    rw [← htally.owed_eq, List.map_eq_nil_iff]
  rw [howed, htally.quotes_iff]
  rcases hlisted : (untilListed o).exec (recorded h) (initial o) (x, []) with
    ⟨⟨e | ⟨started, labels, uids⟩, s₀⟩, ⟨x₀, t₀⟩⟩
  · have hunlisted := (run_unlisted hlisted).1
    rw [hrun] at hunlisted
    exact settled_iff_of_nil hunlisted _
  -- the loop begins with nothing rejected
  obtain ⟨ht₀, hopen₀, hnodup⟩ : Noting caught True [] t₀ ∧ isOpen s₀ = true ∧ uids.Nodup := by
    have hlist := Exceptions.exec_recorded (h := h) (w := x)
      (untilListed_listed (o := o) ha.names (initial o) [])
    rw [hlisted] at hlist
    exact hlist started labels uids rfl
  have hclear₀ : Clear t₀ :=
    Clear.later ⟨fun _ hin => absurd hin List.not_mem_nil, List.not_mem_nil⟩ ht₀
  have hrejected₀ : s₀.rejected = [] := by
    have hkeeps := (untilListed_keeps (o := o)).exec (recorded h) (initial o) (x, [])
    rw [hlisted] at hkeeps
    exact (Prod.mk.inj hkeeps).2
  have hw₀ : WellFormed (f x₀) := by
    have hgrow := Routine.Safe.exec (h := recorded h) (x := (x, [])) (fun y => f y.1)
      (fun y op => ha.serves y.1 op) (fun _ => rfl)
      (Routine.Safe.follows sane (fun _ _ => trivial) (untilListed o) (initial o) (f x))
    rw [hlisted] at hgrow
    exact hgrow hw
  have hpending₀ : Pending o.keywords uids
      (s₀.withResult { s₀.result with listed := uids.length }) (f x₀) := by
    refine ⟨hw₀, hopen₀, ?_, ?_⟩
    all_goals
      intro r hr
      rw [RunState.withResult_rejected, hrejected₀] at hr
      exact absurd hr List.not_mem_nil
  rcases hloop : loop (recorded h) o labels started uids
    (s₀.withResult { s₀.result with listed := uids.length }) (x₀, t₀) with ⟨ending, s₁, ⟨x₁, t₁⟩⟩
  obtain ⟨hp₁, hended⟩ := loop_pending ha rfl hnodup hpending₀ hclear₀ hloop
  have hafter := afterListed_exec (recorded h) o hloop
  generalize hs₂ : s₁.withResult (ending.report s₁.result) = s₂ at hafter
  have hrejected₂ : s₁.rejected = s₂.rejected := by rw [← hs₂]; rfl
  -- the run ends with the rejections of the loop unsettled
  have hunsettled : ∀ {e : Exc}, (afterListed o labels started uids).exec (recorded h) s₀ (x₀, t₀) =
      ((.error e, s₂), (x₁, t₁)) → s₂.Same s' ∧ Noting caught True t₁ t' ∧
        (Settled o s' (f x') ↔ due o s' = []) := by
    intro e hexec
    have hfinish := (run_exec hlisted hexec).symm.trans hrun
    obtain ⟨hsame, hfx, hnoting⟩ := finish_ends ha started (.error e) hfinish
    refine ⟨hsame, hnoting, settled_iff_of_unmarked (fun r hr => ?_)⟩
    rw [hsame.rejected, ← hrejected₂] at hr
    rw [hfx]
    exact hp₁.unmarked r hr
  rcases hended with ⟨hout, hclear₁⟩ | ⟨⟨e, hout⟩, hclear₁⟩
  swap
  · -- stopped: nothing has been settled
    rw [hout] at hafter
    obtain ⟨-, hnoting, hiff⟩ := hunsettled hafter
    rw [hiff]
    exact ⟨Or.inl, fun hor => hor.elim id (fun hand => absurd (hand.1.before hnoting) hclear₁)⟩
  rw [hout, hrejected₂] at hafter
  dsimp only at hafter
  by_cases hnil : s₂.rejected = []
  · rw [if_pos hnil] at hafter
    have hfinish := (run_exec hlisted hafter).symm.trans hrun
    obtain ⟨hsame, -⟩ := finish_ends ha started (.ok ()) hfinish
    exact settled_iff_of_nil (hsame.rejected.trans hnil) _
  rw [if_neg hnil] at hafter
  by_cases hquote : trips o s₂ = true → suspicious s₂.rejected ≠ []
  · -- settled: every rejection that is due has been marked
    have hopen₂ : isOpen s₂ = true := by
      rw [← hs₂]
      exact hp₁.isOpen
    have hpresent : ∀ r ∈ due o s₂, ∃ m ∈ (f x₁).messages, m.isAt r.uid = true := by
      intro r hr
      have hin := due_subset hr
      rw [← hrejected₂] at hin
      exact (hp₁.unmarked r hin).present
    obtain ⟨outcome, s₃, x₃, t₃, hexec, hsame₃, hmarked, hnoting₃⟩ :=
      settleRejections_marks ha hmode (t := t₁) hopen₂ hpresent hquote
    have hfinish := (run_exec hlisted (hafter.trans hexec)).symm.trans hrun
    obtain ⟨hsame, hfx, hnoting⟩ := finish_ends ha started outcome hfinish
    have hall := hsame₃.trans hsame
    refine iff_of_true (fun r hr => ?_) (Or.inr ⟨(hclear₁.later hnoting₃).later hnoting, ?_⟩)
    · rw [(due_congr hall).1] at hr
      rw [hfx]
      exact hmarked r hr
    · rw [(due_congr hall).2, hall.rejected]
      exact hquote
  · -- the breaker has tripped over nothing
    have ht : trips o s₂ = true := by
      by_contra hno
      exact hquote (fun h => absurd h hno)
    have hsuspicious : suspicious s₂.rejected = [] := by
      by_contra hno
      exact hquote (fun _ => hno)
    rw [settleRejections_unquoted ht hsuspicious] at hafter
    obtain ⟨hsame, -, hiff⟩ := hunsettled hafter
    rw [hiff, (due_congr hsame).2, hsame.rejected]
    exact ⟨Or.inl, fun hor => hor.elim id (fun hand => absurd hand.2 hquote)⟩

/-! ## An insert that ends the run -/

/-- The provider, with every UID named once. -/
def nameOnce (P : Provider) (w : World) : (op : Op) → Reply op × World
  | .search criteria => (.ok (w.searchInbox criteria).dedup, w)
  | op => P.handle 0 w op

theorem nameOnce_serves (P : Provider) (w : World) (op : Op) :
    Serves w op (nameOnce P w op).1 (nameOnce P w op).2 := by
  cases op
  case search criteria => exact ⟨Or.inl rfl, trivial⟩
  all_goals exact Provider.serves P 0 w _

theorem nameOnce_accepts (P : Provider)
    (hP : ∀ raw text, P.gmail raw ≠ .error (.abortRun text)) (k : Keywords) :
    Accepts k (nameOnce P) id where
  serves := nameOnce_serves P
  names := by
    rintro criteria uids ⟨w, hw⟩
    cases hw
    exact List.nodup_dedup _
  own := by
    rintro raw labels text ⟨w, hw⟩
    exact hP raw text hw
  failed := by
    intro w uid
    refine ⟨_, rfl, rfl, ?_⟩
    rintro ⟨m, hm, hat⟩
    cases hf : w.find uid with
    | none => exact absurd hat (by rw [World.find_none hf hm]; exact nofun)
    | some m' =>
        have hat' := (World.find_some hf).2
        simp [World.storedFlags, effect, World.find_store, hf, World.stored_of_isAt _ hat']

/-- The first mail is rejected, and the connection to Gmail is lost at the second. -/
def offline : Provider where
  gmail := fun raw =>
    if raw.ident = 0 then .error (.gmailError .permanent "Invalid mail" (some 400))
    else .error (.other "ServerNotFoundError" "Unable to find the server at gmail.googleapis.com")

theorem offline_accepts : Accepts Keywords.default (nameOnce offline) id := by
  refine nameOnce_accepts offline (fun raw text he => ?_) _
  unfold offline at he
  dsimp only at he
  split at he
  · cases he
  · cases he

/-- Two mails in the INBOX. -/
def twoMails : World :=
  ⟨[⟨"INBOX", 1, ⟨0, [72, 105]⟩, []⟩, ⟨"INBOX", 2, ⟨1, [72, 111]⟩, []⟩], ["INBOX"], 3, []⟩

/-- The run that is stopped. -/
def stopped : (Except Exc SyncResult × RunState) × World × List Exceptions.Event :=
  (run .default).exec (recorded (nameOnce offline)) (initial .default) (twoMails, [])

/-- **A rejection that is left behind.** The exception of the second insert ends the run before its
    settlement, and the first mail, rejected for good, does not carry the failed keyword. -/
theorem rejection_left_behind : Accepts Keywords.default (nameOnce offline) id ∧
    WellFormed twoMails ∧ (∀ result, stopped.1.1 ≠ .ok result) ∧
    due .default stopped.1.2 = [⟨1, "Invalid mail", false⟩] ∧
    ¬Settled .default stopped.1.2 stopped.2.1 := by
  have hdue : due .default stopped.1.2 = [⟨1, "Invalid mail", false⟩] := by decide +kernel
  have hmessages : stopped.2.1.messages = twoMails.messages := by decide +kernel
  refine ⟨offline_accepts, ⟨by decide, by decide⟩, ?_, hdue, fun hs => ?_⟩
  · have herror : (match stopped.1.1 with | .ok _ => true | .error _ => false) = false := by
      decide +kernel
    intro result he
    rw [he] at herror
    exact absurd herror nofun
  · obtain ⟨m, hm, hat, hfailed⟩ := hs ⟨1, "Invalid mail", false⟩ (by rw [hdue]; simp)
    rw [hmessages] at hm
    have hnone : ∀ m ∈ twoMails.messages, m.has Keywords.default.failed = false := by decide
    rw [show m.has ForwarderOptions.default.keywords.failed = false from hnone m hm] at hfailed
    exact absurd hfailed nofun

/-- Every mail is too large: the rejection is settled. -/
theorem tooLarge_accepts : Accepts Keywords.default (nameOnce Exceptions.tooLarge) id :=
  nameOnce_accepts _ (fun _ _ he => by cases he) _

theorem settled_iff_tooLarge : Settled .default
    ((run .default).exec (recorded (nameOnce Exceptions.tooLarge)) (initial .default)
      (twoMails, [])).1.2
    ((run .default).exec (recorded (nameOnce Exceptions.tooLarge)) (initial .default)
      (twoMails, [])).2.1 := by
  refine (settled_iff (nameOnce Exceptions.tooLarge) id .default tooLarge_accepts rfl
    (x := twoMails) ⟨by decide, by decide⟩ rfl).1.mpr (Or.inr ⟨⟨?_, ?_⟩, ?_⟩)
  · decide +kernel
  · decide +kernel
  · unfold Quotes
    decide +kernel

end Settlement

end MailTransporter
