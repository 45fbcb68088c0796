import MailTransporter.MailboxRules
import MailTransporter.Phases

set_option autoImplicit false

/-! # Rules for the sync loop

One rule per function of `Forwarder`, above the rules of the mailbox methods and again for any
environment and any discipline. The growth `G` here covers every call but `insert_raw`, whose two
sides a proof about a run has to connect itself.

`Forwarder.run_safe` is the rule of the loop: an invariant `J` of the loop and what holds after an
aborted message (`A`) are all a proof about a run has to supply, besides the rule for one message
and what the settlement does with `J` and `A`. -/

namespace MailTransporter

open Effect
open Effect.Routine (raise attempt getSelf modifySelf settle)

/-- `insert_raw` -/
def Op.isInsert : Op → Bool
  | .insertRaw _ _ => true
  | _ => false

/-- The calls a run makes whatever it finds. -/
def Op.isRoutine : Op → Bool
  | .clock => true
  | .gmailClient => true
  | .ensureLabel _ => true
  | op => op.isLook

/-- The calls a run makes around its work. -/
def Op.isSurvey : Op → Bool
  | .clock => true
  | .gmailClient => true
  | .ensureLabel _ => true
  | op => op.isSetup

theorem Op.isSurvey_of_isSetup {op : Op} (h : op.isSetup = true) : op.isSurvey = true := by
  unfold Op.isSurvey
  split
  · rfl
  · rfl
  · rfl
  · exact h

theorem Op.isRoutine_of_isLook {op : Op} (h : op.isLook = true) : op.isRoutine = true := by
  unfold Op.isRoutine
  split
  · rfl
  · rfl
  · rfl
  · exact h

theorem Op.isRoutine_of_isQuiet {op : Op} (h : op.isQuiet = true) : op.isRoutine = true :=
  Op.isRoutine_of_isLook (Op.isLook_of_isQuiet h)

theorem surveys {σ α : Type} {m : Py σ α} (h : m.Uses (fun op => op.isSetup = true)) :
    m.Uses (fun op => op.isSurvey = true) := h.mono (fun _ => Op.isSurvey_of_isSetup)

theorem Op.isInsert_of_isImap {op : Op} (h : op.isImap = true) : op.isInsert = false := by
  cases op <;> first | rfl | simp [Op.isImap] at h

theorem Op.isInsert_of_isRoutine {op : Op} (h : op.isRoutine = true) : op.isInsert = false := by
  cases op <;> first | rfl | simp [Op.isRoutine, Op.isLook, Op.isQuiet] at h

/-- What a step that only counts and talks to the mailbox leaves as it was. -/
structure RunState.Same (s s' : RunState) : Prop where
  rejected : s'.rejected = s.rejected
  forwarded : s'.result.forwarded = s.result.forwarded

namespace RunState.Same

@[refl] theorem refl (s : RunState) : s.Same s := ⟨rfl, rfl⟩

theorem trans {s s' s'' : RunState} (h : s.Same s') (h' : s'.Same s'') : s.Same s'' :=
  ⟨h'.rejected.trans h.rejected, h'.forwarded.trans h.forwarded⟩

/-- Another counter than `forwarded` has moved. -/
theorem count (s : RunState) {result : SyncResult} (h : result.forwarded = s.result.forwarded) :
    s.Same { s with result := result } := ⟨rfl, h⟩

end RunState.Same

/-- The session still names the same Trash, too. -/
structure RunState.Calm (s s' : RunState) : Prop extends RunState.Same s s' where
  trash : s'.mailbox.trashFolder = s.mailbox.trashFolder

theorem RunState.Calm.refl (s : RunState) : s.Calm s := ⟨RunState.Same.refl s, rfl⟩

theorem RunState.Calm.count (s : RunState) {result : SyncResult}
    (h : result.forwarded = s.result.forwarded) : s.Calm { s with result := result } :=
  ⟨RunState.Same.count s h, rfl⟩

/-- The error of the result has not moved either. -/
structure RunState.SameError (s s' : RunState) : Prop extends RunState.Calm s s' where
  error : s'.result.error = s.result.error

theorem RunState.SameError.refl (s : RunState) : s.SameError s := ⟨RunState.Calm.refl s, rfl⟩

/-- Another counter than `forwarded` has moved. -/
theorem RunState.SameError.count (s : RunState) {result : SyncResult}
    (h : result.forwarded = s.result.forwarded) (he : result.error = s.result.error) :
    s.SameError { s with result := result } := ⟨RunState.Calm.count s h, he⟩

theorem RunState.SameError.trans {s s' s'' : RunState} (h : s.SameError s')
    (h' : s'.SameError s'') : s.SameError s'' :=
  ⟨⟨h.toSame.trans h'.toSame, h'.trash.trans h.trash⟩, h'.error.trans h.error⟩

/-- The rejections and the counters a message moves are the same. -/
structure RunState.Level (s s' : RunState) : Prop where
  rejected : s'.rejected = s.rejected
  forwarded : s'.result.forwarded = s.result.forwarded
  trashed : s'.result.trashed = s.result.trashed
  skipped : s'.result.skipped = s.result.skipped
  retryLater : s'.result.retryLater = s.result.retryLater
  quarantined : s'.result.quarantined = s.result.quarantined

theorem RunState.Level.refl (s : RunState) : s.Level s := ⟨rfl, rfl, rfl, rfl, rfl, rfl⟩

/-- What the run itself writes into its result. -/
theorem RunState.Level.report (s : RunState) (listed remaining : ℕ) (duration : ℚ)
    (error : Option String) : s.Level { s with result := { s.result with
      listed := listed
      remaining := remaining
      durationSeconds := duration
      error := error } } := ⟨rfl, rfl, rfl, rfl, rfl, rfl⟩

theorem RunState.Level.mailbox {s s' : RunState} (h : s.Calm s') (hr : s'.result = s.result) :
    s.Level s' := by
  refine ⟨h.rejected, ?_, ?_, ?_, ?_, ?_⟩ <;> rw [hr]

/-- And the session still names the same Trash. -/
structure RunState.Steady (s s' : RunState) : Prop extends RunState.Level s s' where
  trash : s'.mailbox.trashFolder = s.mailbox.trashFolder

theorem RunState.Steady.refl (s : RunState) : s.Steady s := ⟨RunState.Level.refl s, rfl⟩

theorem RunState.Steady.report (s : RunState) (listed remaining : ℕ) (duration : ℚ)
    (error : Option String) : s.Steady { s with result := { s.result with
      listed := listed
      remaining := remaining
      durationSeconds := duration
      error := error } } := ⟨.report s listed remaining duration error, rfl⟩

theorem RunState.Steady.mailbox {s s' : RunState} (h : s.Calm s') (hr : s'.result = s.result) :
    s.Steady s' := ⟨.mailbox h hr, h.trash⟩

variable {W : Type} {E : Env Op Reply W} {D : Discipline Op W}

@[simp] theorem safe_onMailbox {α : Type} {m : Mailbox α} {Q : Except Exc α → RunState → W → Prop}
    {s : RunState} {w : W} : (onMailbox m).Safe E D Q s w ↔
      m.Safe E D (fun o mailbox w' => Q o { s with mailbox := mailbox } w') s.mailbox w :=
  Routine.safe_on

@[simp] theorem safe_count {f : SyncResult → SyncResult} {Q : Except Exc Unit → RunState → W → Prop}
    {s : RunState} {w : W} :
    (count f).Safe E D Q s w ↔ Q (.ok ()) { s with result := f s.result } w := Iff.rfl

namespace Forwarder

/-! ## The calls of one message -/

section uses

variable {o : ForwarderOptions} {uid : ℕ}

theorem moveAside_done {folder : String} :
    (moveAside uid folder).Uses (fun op => op.isDone uid = true) := by
  refine Routine.uses_bind (Routine.uses_attempt
    (Routine.uses_on ICloudMailbox.moveToFolder_done)) (fun o => ?_)
  cases o with
  | ok _ => exact Routine.uses_modifySelf _
  | error e =>
      show Routine.Uses (if _ then _ else _) _
      split
      · exact Routine.uses_raise _
      · exact Routine.uses_raise _

theorem quarantine_done {keyword folder : String} :
    (quarantine o uid keyword folder).Uses (fun op => op.isDone uid = true) := by
  unfold quarantine
  split
  swap
  · exact moveAside_done
  refine Routine.uses_bind (Routine.uses_attempt
    (Routine.uses_on ICloudMailbox.addKeyword_done)) (fun o => ?_)
  cases o with
  | ok _ => exact Routine.uses_modifySelf _
  | error e =>
      show Routine.Uses (if _ then _ else _) _
      split
      · exact moveAside_done
      · exact Routine.uses_raise _

theorem quarantine_uses {keyword folder : String} :
    (quarantine o uid keyword folder).Uses (fun op => op.isOn uid = true) :=
  quarantine_done.mono (fun _ => Op.isOn_of_isDone)

section done

variable {S : Op → Prop} (hdone : ∀ op, op.isDone uid = true → S op)
  (hissue : ∀ raw, S (.issueTrash raw))

include hdone hissue

theorem trash_uses {message : FetchedMessage} (hu : message.uid = uid) : (trash message).Uses S := by
  subst hu
  refine Routine.uses_bind (Routine.uses_call (hissue _)) (fun _ => ?_)
  refine Routine.uses_bind (Routine.uses_attempt
    (Routine.uses_on (ICloudMailbox.moveToTrash_done.mono hdone))) (fun o => ?_)
  cases o with
  | ok _ => exact Routine.uses_modifySelf _
  | error e =>
      show Routine.Uses (if _ then _ else _) _
      split
      · exact Routine.uses_raise _
      · exact Routine.uses_raise _

theorem recordInsert_uses {message : FetchedMessage} (hu : message.uid = uid) :
    (recordInsert o message).Uses S := by
  refine Routine.uses_bind (Routine.uses_modifySelf _) (fun _ => ?_)
  refine Routine.uses_bind (Routine.uses_attempt (Routine.uses_on
    (ICloudMailbox.addKeyword_done.mono (fun op h => hdone op (hu ▸ h))))) (fun r => ?_)
  cases r with
  | ok _ => exact trash_uses hdone hissue hu
  | error e =>
      show Routine.Uses (if _ then _ else _) _
      split
      · exact quarantine_done.mono (fun op h => hdone op (hu ▸ h))
      · exact Routine.uses_raise _

/-- The insert is made with the labels of the message and the extra ones. -/
theorem insert_labelled {extraLabels : List String} {message : FetchedMessage}
    (hinsert : S (.insertRaw message.raw (gmailLabelsFor message extraLabels)))
    (hu : message.uid = uid) : (insert o extraLabels message).Uses S := by
  refine Routine.uses_bind (Routine.uses_attempt (Routine.uses_call hinsert)) (fun r => ?_)
  rcases r with e | id
  · rcases e with _ | _ | _ | ⟨_ | _ | _ | _, _, _⟩ | _
    case gmailError.retryable => exact Routine.uses_modifySelf _
    case gmailError.permanent => exact Routine.uses_modifySelf _
    all_goals exact Routine.uses_raise _
  · exact recordInsert_uses hdone hissue hu

theorem insert_uses (hinsert : ∀ raw labels, S (.insertRaw raw labels)) {extraLabels : List String}
    {message : FetchedMessage} (hu : message.uid = uid) :
    (insert o extraLabels message).Uses S := insert_labelled hdone hissue (hinsert _ _) hu

end done

variable {S : Op → Prop} (hon : ∀ op, op.isOn uid = true → S op)
  (hissue : ∀ raw, S (.issueTrash raw))

include hon hissue

/-- What every call about a message follows, the way of the message through `_process` follows. -/
theorem process_follows (G : Growth E D (fun _ => True))
    (hinsert : ∀ raw labels, S (.insertRaw raw labels)) (hguard : ∀ w op, S op → D.guard w op)
    {extraLabels : List String} {s : RunState} {w : W} :
    (process o extraLabels uid).Safe E D (fun _ _ w' => G.grow w w') s w := by
  have hrest : ∀ {m : Run Unit} {s' : RunState} {w' : W}, m.Uses S → G.grow w w' →
      m.Safe E D (fun _ _ w'' => G.grow w w'') s' w' := by
    intro m s' w' hm hw'
    refine (Routine.Safe.of_uses G hm (fun _ _ => trivial) (fun v op _ => hguard v op)).mono ?_
    exact fun _ _ _ hw'' => G.trans hw' hw''
  have hskip : ∀ f : SyncResult → SyncResult, (count f).Uses S := fun f => Routine.uses_modifySelf _
  have hdone : ∀ op, op.isDone uid = true → S op := fun op h => hon op (Op.isOn_of_isDone h)
  simp only [process, Routine.safe_bind, Routine.safe_attempt, safe_onMailbox]
  have hfetch : (ICloudMailbox.fetchMessage uid).Safe E D (fun _ _ w' => G.grow w w') s.mailbox w :=
    Routine.Safe.of_uses G ICloudMailbox.fetchMessage_on (fun _ _ => trivial)
      (fun v op _ hop => hguard v op (hon op hop))
  refine (hfetch.also (fun _ => trivial) (ICloudMailbox.fetchMessage_uid s.mailbox)).mono ?_
  rintro r mailbox w' ⟨hw', hok⟩
  rw [Routine.after_ok]
  rcases r with e | message
  · cases e with
    | messageGone text => exact hrest (hskip _) hw'
    | mailboxError text => exact hrest (Routine.uses_raise _) hw'
    | abortRun text => exact hrest (Routine.uses_raise _) hw'
    | gmailError cls text status => exact hrest (Routine.uses_raise _) hw'
    | other name text => exact hrest (Routine.uses_raise _) hw'
  · have hu := hok message rfl
    dsimp only
    split
    · exact hrest (hskip _) hw'
    · split
      · exact hrest (trash_uses hdone hissue hu) hw'
      · exact hrest (insert_uses hdone hissue hinsert hu) hw'

end uses

section uses

variable {o : ForwarderOptions} {S : Op → Prop} (hon : ∀ uid op, op.isOn uid = true → S op)

include hon

theorem quarantineAll_uses (rejected : List Rejection) : (quarantineAll o rejected).Uses S := by
  induction rejected with
  | nil => exact Routine.uses_pure _
  | cons rejection rest ih =>
      refine Routine.uses_bind (Routine.uses_attempt (quarantine_uses.mono (hon _))) (fun r => ?_)
      rcases r with e | _
      · cases e with
        | abortRun text => exact Routine.uses_modifySelf _
        | mailboxError text => exact Routine.uses_raise _
        | messageGone text => exact Routine.uses_raise _
        | gmailError cls text status => exact Routine.uses_raise _
        | other name text => exact Routine.uses_raise _
      · exact ih

theorem settleRejections_uses : (settleRejections o).Uses S := by
  refine Routine.uses_bind Routine.uses_getSelf (fun s => ?_)
  dsimp only
  split
  · refine Routine.uses_bind ?_ (fun message => ?_)
    · unfold breakerMessage
      split
      · exact Routine.uses_raise _
      · exact Routine.uses_pure _
    · exact Routine.uses_bind (Routine.uses_modifySelf _) (fun _ => quarantineAll_uses hon _)
  · exact quarantineAll_uses hon _

theorem process_labelled (hissue : ∀ raw, S (.issueTrash raw)) {extraLabels : List String}
    (hinsert : ∀ message : FetchedMessage,
      S (.insertRaw message.raw (gmailLabelsFor message extraLabels))) (uid : ℕ) :
    (process o extraLabels uid).Uses S := by
  have hdone : ∀ {v} op, op.isDone v = true → S op := fun op h => hon _ op (Op.isOn_of_isDone h)
  refine Routine.uses_bind (Routine.uses_attempt (Routine.uses_on
    (ICloudMailbox.fetchMessage_on.mono (hon uid)))) (fun r => ?_)
  rcases r with e | message
  · cases e with
    | messageGone text => exact Routine.uses_modifySelf _
    | mailboxError text => exact Routine.uses_raise _
    | abortRun text => exact Routine.uses_raise _
    | gmailError cls text status => exact Routine.uses_raise _
    | other name text => exact Routine.uses_raise _
  · show Routine.Uses (if _ then _ else if _ then _ else _) _
    split
    · exact Routine.uses_modifySelf _
    · split
      · exact trash_uses hdone hissue rfl
      · exact insert_labelled hdone hissue (hinsert message) rfl

theorem process_uses (hissue : ∀ raw, S (.issueTrash raw))
    (hinsert : ∀ raw labels, S (.insertRaw raw labels)) (extraLabels : List String) (uid : ℕ) :
    (process o extraLabels uid).Uses S := process_labelled hon hissue (fun _ => hinsert _ _) uid

theorem processAll_labelled (hclock : S .clock) (hissue : ∀ raw, S (.issueTrash raw))
    {extraLabels : List String} (hinsert : ∀ message : FetchedMessage,
      S (.insertRaw message.raw (gmailLabelsFor message extraLabels))) (started : ℚ)
    (uids : List ℕ) : (processAll o extraLabels started uids).Uses S := by
  induction uids with
  | nil => exact Routine.uses_pure _
  | cons uid rest ih =>
      refine Routine.uses_bind (Routine.uses_call hclock) (fun now => ?_)
      split
      · exact Routine.uses_modifySelf _
      refine Routine.uses_bind (Routine.uses_attempt (process_labelled hon hissue hinsert uid))
        (fun r => ?_)
      rcases r with e | _
      · cases e with
        | abortRun text => exact Routine.uses_modifySelf _
        | mailboxError text => exact Routine.uses_raise _
        | messageGone text => exact Routine.uses_raise _
        | gmailError cls text status => exact Routine.uses_raise _
        | other name text => exact Routine.uses_raise _
      · exact ih

/-- The body of the `with` statement from the listing on. -/
theorem listed_labelled (hclock : S .clock) (hsearch : ∀ criteria, S (.search criteria))
    (hfetch : ∀ uids, S (.fetch uids .flags)) (hissue : ∀ raw, S (.issueTrash raw))
    {extraLabels : List String} (hinsert : ∀ message : FetchedMessage,
      S (.insertRaw message.raw (gmailLabelsFor message extraLabels))) (started : ℚ) :
    Routine.Uses (do
      let uids ← onMailbox (ICloudMailbox.listInboxUids (some o.keywords.quarantine))
      count (fun r => { r with listed := uids.length })
      processAll o extraLabels started uids
      let s ← getSelf
      if s.rejected = [] then pure () else settleRejections o : Run Unit) S := by
  refine Routine.uses_bind (Routine.uses_on (ICloudMailbox.listInboxUids_uses hsearch hfetch _))
    (fun uids => ?_)
  refine Routine.uses_bind (Routine.uses_modifySelf _) (fun _ => ?_)
  refine Routine.uses_bind (processAll_labelled hon hclock hissue hinsert _ _) (fun _ => ?_)
  refine Routine.uses_bind Routine.uses_getSelf (fun s => ?_)
  split
  · exact Routine.uses_pure _
  · exact settleRejections_uses hon

omit hon in
theorem extraLabelIds_uses (hlabel : ∀ name, S (.ensureLabel name)) (label : Option String) :
    (extraLabelIds label).Uses S := by
  cases label with
  | none => exact Routine.uses_pure _
  | some name =>
      show Routine.Uses (if _ then _ else _) _
      split
      · exact Routine.uses_pure _
      · exact Routine.uses_bind (Routine.uses_call (hlabel name)) (fun _ => Routine.uses_pure _)

/-- The calls of the body of the `with` statement. -/
theorem session_uses (hclock : S .clock) (hclient : S .gmailClient)
    (hlabel : ∀ name, S (.ensureLabel name)) (hsearch : ∀ criteria, S (.search criteria))
    (hfetch : ∀ uids, S (.fetch uids .flags)) (hissue : ∀ raw, S (.issueTrash raw))
    (hinsert : ∀ raw labels, S (.insertRaw raw labels)) (started : ℚ) :
    (session o started).Uses S := by
  refine Routine.uses_bind (Routine.uses_on ICloudMailbox.requireKeywords_uses) (fun _ => ?_)
  refine Routine.uses_bind (Routine.uses_call hclient) (fun _ => ?_)
  refine Routine.uses_bind (extraLabelIds_uses hlabel o.label) (fun labels => ?_)
  exact listed_labelled hon hclock hsearch hfetch hissue (fun _ => hinsert _ _) started

/-- The calls of a run: those it makes whatever it finds, and those about one message. -/
theorem run_uses (hroutine : ∀ op, op.isRoutine = true → S op) (hissue : ∀ raw, S (.issueTrash raw))
    (hinsert : ∀ raw labels, S (.insertRaw raw labels)) : (run o).Uses S := by
  have hsetup : ∀ {σ α : Type} {m : Py σ α}, m.Uses (fun op => op.isGlance = true) → m.Uses S :=
    fun hm => hm.mono (fun op hop => hroutine op (Op.isRoutine_of_isLook (Op.isLook_of_isGlance hop)))
  have hsession : ∀ started, (session o started).Uses S :=
    session_uses hon (hroutine _ rfl) (hroutine _ rfl) (fun _ => hroutine _ rfl)
      (fun _ => hroutine _ rfl) (fun _ => hroutine _ rfl) hissue hinsert
  refine Routine.uses_bind (Routine.uses_call (hroutine _ rfl)) (fun started => ?_)
  refine Routine.uses_bind (Routine.uses_attempt ?_) (fun r => ?_)
  · refine Routine.uses_bind (Routine.uses_on (hsetup ICloudMailbox.connect_glances)) (fun _ => ?_)
    refine Routine.uses_bind (Routine.uses_attempt (hsession started)) (fun outcome => ?_)
    refine Routine.uses_bind (Routine.uses_on (hsetup ICloudMailbox.close_glances)) (fun _ => ?_)
    exact Routine.uses_settle outcome
  · have hend : (do
        let ended ← call .clock
        count (fun r => { r with durationSeconds := round3 (ended - started) })
        let s ← getSelf
        pure s.result : Run SyncResult).Uses S := by
      refine Routine.uses_bind (Routine.uses_call (hroutine _ rfl)) (fun ended => ?_)
      refine Routine.uses_bind (Routine.uses_modifySelf _) (fun _ => ?_)
      exact Routine.uses_bind Routine.uses_getSelf (fun _ => Routine.uses_pure _)
    rcases r with e | _
    · show Routine.Uses (if _ then _ else _ ) _
      split
      · exact Routine.uses_bind (Routine.uses_modifySelf _) (fun _ => hend)
      · exact Routine.uses_bind (Routine.uses_raise _) (fun _ => hend)
    · exact hend

end uses

variable (G : Growth E D (fun op => op.isInsert = false))
  (quiet : ∀ w op, op.isRoutine = true → D.guard w op) {o : ForwarderOptions}

/-- The growth, as the mailbox methods need it. -/
def imapGrowth : Growth E D (fun op => op.isImap = true) :=
  G.restrict (fun _ => Op.isInsert_of_isImap)

/-- The growth, as the loop itself needs it. -/
def routineGrowth : Growth E D (fun op => op.isRoutine = true) :=
  G.restrict (fun _ => Op.isInsert_of_isRoutine)

@[simp] theorem imapGrowth_grow : (imapGrowth G).grow = G.grow := rfl

include quiet in
theorem quiet_of_isQuiet (w : W) (op : Op) (h : op.isQuiet = true) : D.guard w op :=
  quiet w op (Op.isRoutine_of_isQuiet h)

/-- A guarded call of the run itself. -/
theorem safe_own_call {σ : Type} {op : Op} {Q : Except Exc (Value op) → σ → W → Prop} {s : σ}
    {w : W} (hop : op.isInsert = false) (hg : ∀ w', G.grow w w' → D.guard w' op)
    (h : ∀ r w', G.grow w w' → Q r s w') : (call op : Py σ (Value op)).Safe E D Q s w := by
  intro w₁ hr
  have hg₁ := hg w₁ (G.rely hr)
  refine ⟨hg₁, fun r w₂ hE => h r w₂ ?_⟩
  exact G.trans (G.rely hr) (G.step hop hg₁ hE)

include G quiet

/-! ## Quarantine and Trash -/

/-- The guards a move of `uid` into `folder` meets. -/
structure MayMove (E : Env Op Reply W) (D : Discipline Op W) (grow : W → W → Prop) (uid : ℕ)
    (folder : String) (w : W) : Prop where
  move : ∀ w', grow w w' → D.guard w' (.move uid folder)
  copy : ∀ w', grow w w' → D.guard w' (.copy uid folder)
  after : ∀ w₁ w₂ w₃, grow w w₁ → E w₁ (.copy uid folder) (.ok ()) w₂ → grow w₂ w₃ →
    D.guard w₃ (.addFlags uid deletedFlag) ∧ D.guard w₃ (.uidExpunge uid)

omit quiet in
theorem MayMove.later {uid : ℕ} {folder : String} {w w' : W}
    (h : MayMove E D G.grow uid folder w) (hw : G.grow w w') :
    MayMove E D G.grow uid folder w' where
  move := fun v hv => h.move v (G.trans hw hv)
  copy := fun v hv => h.copy v (G.trans hw hv)
  after := fun v₁ v₂ v₃ hv => h.after v₁ v₂ v₃ (G.trans hw hv)

theorem moveAside_safe {uid : ℕ} {folder : String} {s : RunState} {w : W}
    (hmove : MayMove E D G.grow uid folder w) :
    (moveAside uid folder).Safe E D (fun r s' w' => s.SameError s' ∧ G.grow w w' ∧
      ((r = .ok () ∧ ∃ w₁, G.grow w w₁ ∧ ICloudMailbox.Completes E w₁ uid folder w') ∨
        ∃ text, r = .error (.abortRun text))) s w := by
  simp only [moveAside, Routine.safe_bind, Routine.safe_attempt, safe_onMailbox]
  refine (ICloudMailbox.moveToFolder_safe (imapGrowth G) (quiet_of_isQuiet quiet)
    hmove.move hmove.copy hmove.after).mono ?_
  rintro r mailbox w' ⟨rfl, hw', ⟨rfl, hc⟩ | ⟨e, rfl, he⟩⟩
  · exact ⟨.count s rfl rfl, hw', Or.inl ⟨rfl, hc⟩⟩
  · simp only [Routine.after_ok, he, if_true]
    exact ⟨.refl s, hw', Or.inr ⟨_, rfl⟩⟩

/-- The marker a quarantine left: a confirmed keyword, or a completed move. -/
def Quarantined (E : Env Op Reply W) (o : ForwarderOptions) (w : W) (uid : ℕ)
    (keyword folder : String) (w' : W) : Prop :=
  (o.quarantineMode = .keyword ∧ ICloudMailbox.Confirms E w uid keyword w') ∨
  ICloudMailbox.Completes E w uid folder w'

/-- `_quarantine` returns only with a marker in place and raises nothing but `AbortRun`. -/
theorem quarantine_safe {uid : ℕ} {keyword folder : String} {s : RunState} {w : W}
    (hstore : o.quarantineMode = .keyword → ∀ w', G.grow w w' → D.guard w' (.addFlags uid keyword))
    (hmove : MayMove E D G.grow uid folder w) :
    (quarantine o uid keyword folder).Safe E D (fun r s' w' => s.SameError s' ∧ G.grow w w' ∧
      ((r = .ok () ∧ ∃ w₁, G.grow w w₁ ∧ Quarantined E o w₁ uid keyword folder w') ∨
        ∃ text, r = .error (.abortRun text))) s w := by
  have haside : ∀ {s₁ : RunState} {w₁ : W}, s.SameError s₁ → G.grow w w₁ →
      (moveAside uid folder).Safe E D (fun r s' w' => s.SameError s' ∧ G.grow w w' ∧
        ((r = .ok () ∧ ∃ w₁, G.grow w w₁ ∧ Quarantined E o w₁ uid keyword folder w') ∨
          ∃ text, r = .error (.abortRun text))) s₁ w₁ := by
    intro s₁ w₁ hs₁ hw₁
    refine (moveAside_safe G quiet (hmove.later G hw₁)).mono ?_
    rintro r s' w' ⟨hs', hw', ⟨rfl, w₂, hw₂, hc⟩ | ⟨text, rfl⟩⟩
    · exact ⟨hs₁.trans hs', G.trans hw₁ hw', Or.inl ⟨rfl, w₂, G.trans hw₁ hw₂, Or.inr hc⟩⟩
    · exact ⟨hs₁.trans hs', G.trans hw₁ hw', Or.inr ⟨text, rfl⟩⟩
  unfold quarantine
  split
  swap
  · exact haside (.refl s) (G.refl w)
  · next hmode =>
    simp only [Routine.safe_bind, Routine.safe_attempt, safe_onMailbox]
    refine (ICloudMailbox.addKeyword_safe (imapGrowth G) (hstore hmode)
      (fun w' _ => quiet w' _ rfl)).mono ?_
    rintro r mailbox w' ⟨rfl, hw', ⟨rfl, w₁, hw₁, hc⟩ | ⟨text, rfl⟩⟩
    · exact ⟨.count s rfl rfl, hw', Or.inl ⟨rfl, w₁, hw₁, Or.inl ⟨hmode, hc⟩⟩⟩
    · exact haside (.refl s) hw'

/-- The end of `_process`, for whatever folder the server names as its Trash. -/
theorem trash_safe {message : FetchedMessage} {s : RunState} {w : W}
    (hissue : ∀ w', G.grow w w' → D.guard w' (.issueTrash message.raw))
    (hmove : ∀ folder, MayMove E D G.grow message.uid folder w) :
    (trash message).Safe E D (fun _ s' w' => s.Same s' ∧ G.grow w w') s w := by
  simp only [trash, Routine.safe_bind]
  refine safe_own_call G rfl hissue ?_
  intro r w₂ hw₂
  cases r with
  | error e => exact ⟨RunState.Same.refl s, hw₂⟩
  | ok _ =>
      simp only [Routine.after_ok, Routine.safe_bind, Routine.safe_attempt, safe_onMailbox]
      refine (ICloudMailbox.moveToTrash_safe (imapGrowth G) (quiet_of_isQuiet quiet)
        (fun folder => ((hmove folder).later G hw₂).move)
        (fun folder => ((hmove folder).later G hw₂).copy)
        (fun folder => ((hmove folder).later G hw₂).after)
        (fun w' op _ hop => quiet w' op (Op.isRoutine_of_isLook hop))).mono ?_
      rintro r mailbox w' ⟨hw', ⟨rfl, -⟩ | ⟨e, rfl⟩⟩
      · exact ⟨⟨rfl, rfl⟩, G.trans hw₂ hw'⟩
      · dsimp only
        split <;> exact ⟨⟨rfl, rfl⟩, G.trans hw₂ hw'⟩

/-- The rest of `_trash` once the move has ended. -/
def trashed (message : FetchedMessage) : Except Exc Unit → Run Unit
  | .ok () => count (fun r => { r with trashed := r.trashed + 1 })
  | .error exc =>
      if exc.isMailboxError then
        raise (.abortRun s!"IMAP failure while trashing uid={message.uid}: {exc}")
      else raise exc

/-- The end of `_process` in a session of which it is known (`N`) which Trash it may find. -/
theorem trash_named {N : ICloudMailbox → W → Prop} {message : FetchedMessage} {s : RunState} {w : W}
    (stable : ∀ {mailbox w w'}, G.grow w w' → N mailbox w → N mailbox w') (hN : N s.mailbox w)
    (hissue : ∀ w', G.grow w w' → D.guard w' (.issueTrash message.raw))
    (hname : ∀ w', G.grow w w' → N s.mailbox w' → ICloudMailbox.trashFolderName.Safe E D
      (fun r mailbox w'' => G.grow w' w'' ∧ N mailbox w'' ∧
        ∀ name, r = .ok name → MayMove E D G.grow message.uid name w'') s.mailbox w') :
    (trash message).Safe E D
      (fun _ s' w' => s.Same s' ∧ G.grow w w' ∧ N s'.mailbox w') s w := by
  rw [trash, Routine.safe_bind]
  refine safe_own_call G rfl hissue ?_
  intro r w₁ hw₁
  have hN₁ := stable hw₁ hN
  cases r with
  | error e => exact ⟨RunState.Same.refl s, hw₁, hN₁⟩
  | ok _ =>
  rw [Routine.after_ok, Routine.safe_bind, Routine.safe_attempt, safe_onMailbox,
    ICloudMailbox.moveToTrash, Routine.safe_bind]
  refine (hname w₁ hw₁ hN₁).mono ?_
  rintro r mailbox w₂ ⟨hw₂, hN₂, hmove⟩
  have hfinish : ∀ (r : Except Exc Unit) (w' : W), G.grow w₂ w' →
      (trashed message r).Safe E D (fun _ s' w' => s.Same s' ∧ G.grow w w' ∧ N s'.mailbox w')
        { s with mailbox := mailbox } w' := by
    intro r w' hw'
    have hgrown := G.trans hw₁ (G.trans hw₂ hw')
    cases r with
    | ok _ => exact ⟨⟨rfl, rfl⟩, hgrown, stable hw' hN₂⟩
    | error e =>
        unfold trashed
        dsimp only
        split
        · exact ⟨⟨rfl, rfl⟩, hgrown, stable hw' hN₂⟩
        · exact ⟨⟨rfl, rfl⟩, hgrown, stable hw' hN₂⟩
  cases r with
  | error e => exact hfinish (.error e) w₂ (G.refl w₂)
  | ok name =>
      rw [Routine.after_ok]
      have hmove := hmove name rfl
      refine (ICloudMailbox.moveToFolder_safe (imapGrowth G) (quiet_of_isQuiet quiet)
        hmove.move hmove.copy hmove.after).mono ?_
      rintro r mailbox' w₃ ⟨rfl, hw₃, -⟩
      exact hfinish r w₃ hw₃

/-! ## One message -/

/-- The marker an accepted message got. -/
def Recorded (E : Env Op Reply W) (o : ForwarderOptions) (w : W) (uid : ℕ) (w' : W) : Prop :=
  ICloudMailbox.Confirms E w uid o.keywords.inserted w' ∨
  Quarantined E o w uid o.keywords.unverified o.unverifiedFolder w'

/-- After an insert `_process` returns only with a marker in place. -/
theorem recordInsert_safe {message : FetchedMessage} {s : RunState} {w : W}
    (hstore : ∀ w', G.grow w w' → D.guard w' (.addFlags message.uid o.keywords.inserted))
    (hunverified : ∀ w', G.grow w w' → D.guard w' (.addFlags message.uid o.keywords.unverified))
    (hmove : MayMove E D G.grow message.uid o.unverifiedFolder w)
    (hissue : ∀ w₁ w₂, G.grow w w₁ →
      ICloudMailbox.Confirms E w₁ message.uid o.keywords.inserted w₂ → G.grow w w₂ →
      ∀ w', G.grow w₂ w' → D.guard w' (.issueTrash message.raw))
    (htrash : ∀ w₁ w₂, G.grow w w₁ →
      ICloudMailbox.Confirms E w₁ message.uid o.keywords.inserted w₂ → G.grow w w₂ →
      ∀ folder, MayMove E D G.grow message.uid folder w₂) :
    (recordInsert o message).Safe E D (fun r s' w' => s'.rejected = s.rejected ∧ G.grow w w' ∧
      (r = .ok () → ∃ w₁ w₂, G.grow w w₁ ∧ Recorded E o w₁ message.uid w₂ ∧ G.grow w w₂ ∧
        G.grow w₂ w')) s w := by
  simp only [recordInsert, Routine.safe_bind, Routine.safe_attempt, safe_onMailbox, safe_count,
    Routine.after_ok]
  refine (ICloudMailbox.addKeyword_safe (imapGrowth G) hstore (fun w' _ => quiet w' _ rfl)).mono ?_
  rintro r mailbox w' ⟨-, hw', ⟨rfl, w₁, hw₁, hc⟩ | ⟨text, rfl⟩⟩
  · refine (trash_safe G quiet (hissue w₁ w' hw₁ hc hw') (htrash w₁ w' hw₁ hc hw')).mono ?_
    rintro r s' w'' ⟨hs', hw''⟩
    refine ⟨hs'.rejected, G.trans hw' hw'', fun _ => ⟨w₁, w', hw₁, Or.inl hc, hw', hw''⟩⟩
  · refine (quarantine_safe G quiet (fun _ v hv => hunverified v (G.trans hw' hv))
      (hmove.later G hw')).mono ?_
    rintro r s' w'' ⟨hs', hw'', ⟨rfl, w₁, hw₁, hq⟩ | ⟨text', rfl⟩⟩
    · exact ⟨hs'.rejected, G.trans hw' hw'', fun _ =>
        ⟨w₁, w'', G.trans hw' hw₁, Or.inr hq, G.trans hw' hw'', G.refl w''⟩⟩
    · exact ⟨hs'.rejected, G.trans hw' hw'', by simp⟩

omit G quiet in
/-- The insert, and what each answer leads to. -/
theorem insert_at {extraLabels : List String} {message : FetchedMessage}
    {Q : Except Exc Unit → RunState → W → Prop} {s : RunState} {w : W}
    (hguard : ∀ w', D.rely w w' →
      D.guard w' (.insertRaw message.raw (gmailLabelsFor message extraLabels)))
    (hok : ∀ id w₁ w', D.rely w w₁ →
      E w₁ (.insertRaw message.raw (gmailLabelsFor message extraLabels)) (.ok id) w' →
      (recordInsert o message).Safe E D Q s w')
    (hraise : ∀ e e' w₁ w', D.rely w w₁ →
      E w₁ (.insertRaw message.raw (gmailLabelsFor message extraLabels)) (.error e) w' →
      Q (.error e') s w')
    (hlater : ∀ text status w₁ w', D.rely w w₁ →
      E w₁ (.insertRaw message.raw (gmailLabelsFor message extraLabels))
        (.error (.gmailError .retryable text status)) w' →
      ∀ s', s.Calm s' → Q (.ok ()) s' w')
    (hreject : ∀ text status w₁ w', D.rely w w₁ →
      E w₁ (.insertRaw message.raw (gmailLabelsFor message extraLabels))
        (.error (.gmailError .permanent text status)) w' →
      Q (.ok ()) { s with rejected := s.rejected ++
        [⟨message.uid, text, MailTransporter.perMessage status⟩] } w') :
    (insert o extraLabels message).Safe E D Q s w := by
  simp only [insert, Routine.safe_bind, Routine.safe_attempt]
  rw [safe_call']
  intro w₁ hr
  refine ⟨hguard w₁ hr, fun r w₂ hE => ?_⟩
  simp only [Routine.after_ok]
  split
  · exact hok _ w₁ w₂ hr hE
  · exact hraise _ _ w₁ w₂ hr hE
  · exact hlater _ _ w₁ w₂ hr hE _ (.count s rfl)
  · exact hreject _ _ w₁ w₂ hr hE
  · exact hraise _ _ w₁ w₂ hr hE

omit quiet in
/-- The same, where the others follow the growth. -/
theorem insert_safe {extraLabels : List String} {message : FetchedMessage}
    {Q : Except Exc Unit → RunState → W → Prop} {s : RunState} {w : W}
    (hguard : ∀ w', G.grow w w' →
      D.guard w' (.insertRaw message.raw (gmailLabelsFor message extraLabels)))
    (hok : ∀ id w₁ w', G.grow w w₁ →
      E w₁ (.insertRaw message.raw (gmailLabelsFor message extraLabels)) (.ok id) w' →
      (recordInsert o message).Safe E D Q s w')
    (hraise : ∀ e e' w₁ w', G.grow w w₁ →
      E w₁ (.insertRaw message.raw (gmailLabelsFor message extraLabels)) (.error e) w' →
      Q (.error e') s w')
    (hlater : ∀ text status w₁ w', G.grow w w₁ →
      E w₁ (.insertRaw message.raw (gmailLabelsFor message extraLabels))
        (.error (.gmailError .retryable text status)) w' →
      ∀ s', s.Calm s' → Q (.ok ()) s' w')
    (hreject : ∀ text status w₁ w', G.grow w w₁ →
      E w₁ (.insertRaw message.raw (gmailLabelsFor message extraLabels))
        (.error (.gmailError .permanent text status)) w' →
      Q (.ok ()) { s with rejected := s.rejected ++
        [⟨message.uid, text, MailTransporter.perMessage status⟩] } w') :
    (insert o extraLabels message).Safe E D Q s w :=
  insert_at (fun w' hr => hguard w' (G.rely hr)) (fun id w₁ w' hr => hok id w₁ w' (G.rely hr))
    (fun e e' w₁ w' hr => hraise e e' w₁ w' (G.rely hr))
    (fun text status w₁ w' hr => hlater text status w₁ w' (G.rely hr))
    (fun text status w₁ w' hr => hreject text status w₁ w' (G.rely hr))

omit G quiet in
/-- `_process` up to the decision what to do with the message, from what is known of the fetch. -/
theorem process_of_fetch {extraLabels : List String} {uid : ℕ}
    {Q : Except Exc Unit → RunState → W → Prop} {s : RunState} {w : W} {R : W → Prop}
    {F : FetchedMessage → W → Prop}
    (hfetch : (ICloudMailbox.fetchMessage uid).Safe E D (fun r mailbox w' =>
      mailbox = s.mailbox ∧ R w' ∧ ∀ message, r = .ok message → F message w') s.mailbox w)
    (hskip : ∀ s' w', s.Calm s' → R w' → Q (.ok ()) s' w')
    (hraise : ∀ e s' w', s.Calm s' → R w' → Q (.error e) s' w')
    (htrash : ∀ message s' w', s.Calm s' → R w' → F message w' →
      message.hasKeyword o.keywords.inserted = true →
      o.keywords.quarantine.any message.hasKeyword = false → (trash message).Safe E D Q s' w')
    (hinsert : ∀ message s' w', s.Calm s' → R w' → F message w' →
      message.hasKeyword o.keywords.inserted = false →
      o.keywords.quarantine.any message.hasKeyword = false →
      (insert o extraLabels message).Safe E D Q s' w') :
    (process o extraLabels uid).Safe E D Q s w := by
  simp only [process, Routine.safe_bind, Routine.safe_attempt, safe_onMailbox]
  refine hfetch.mono ?_
  rintro r mailbox w' ⟨rfl, hw', hok⟩
  simp only [Routine.after_ok]
  split
  · exact hskip _ _ ⟨⟨rfl, rfl⟩, rfl⟩ hw'
  · split
    · exact hraise _ _ _ ⟨⟨rfl, rfl⟩, rfl⟩ hw'
    · exact hraise _ _ _ ⟨⟨rfl, rfl⟩, rfl⟩ hw'
  · next message =>
    have hF := hok message rfl
    split
    · exact hskip _ _ ⟨⟨rfl, rfl⟩, rfl⟩ hw'
    · next hquarantine =>
      have hquarantine := Bool.eq_false_iff.mpr hquarantine
      split
      · next hinserted =>
        exact htrash message _ w' ⟨⟨rfl, rfl⟩, rfl⟩ hw' hF hinserted hquarantine
      · next hinserted =>
        exact hinsert message _ w' ⟨⟨rfl, rfl⟩, rfl⟩ hw' hF (Bool.eq_false_iff.mpr hinserted)
          hquarantine

/-- The same for any environment. -/
theorem process_safe {extraLabels : List String} {uid : ℕ}
    {Q : Except Exc Unit → RunState → W → Prop} {s : RunState} {w : W}
    (hskip : ∀ s' w', s.Calm s' → G.grow w w' → Q (.ok ()) s' w')
    (hraise : ∀ e s' w', s.Calm s' → G.grow w w' → Q (.error e) s' w')
    (htrash : ∀ message s' w₁ w', s.Calm s' → G.grow w w₁ →
      ICloudMailbox.Delivers E w₁ message w' → G.grow w w' → message.uid = uid →
      message.hasKeyword o.keywords.inserted = true →
      o.keywords.quarantine.any message.hasKeyword = false → (trash message).Safe E D Q s' w')
    (hinsert : ∀ message s' w₁ w', s.Calm s' → G.grow w w₁ →
      ICloudMailbox.Delivers E w₁ message w' → G.grow w w' → message.uid = uid →
      message.hasKeyword o.keywords.inserted = false →
      o.keywords.quarantine.any message.hasKeyword = false →
      (insert o extraLabels message).Safe E D Q s' w') :
    (process o extraLabels uid).Safe E D Q s w := by
  refine process_of_fetch
    (ICloudMailbox.fetchMessage_safe (imapGrowth G) (quiet_of_isQuiet quiet) uid) hskip hraise ?_ ?_
  · rintro message s' w' hs' hw' ⟨huid, w₁, hw₁, hd⟩
    exact htrash message s' w₁ w' hs' hw₁ hd hw' huid
  · rintro message s' w' hs' hw' ⟨huid, w₁, hw₁, hd⟩
    exact hinsert message s' w₁ w' hs' hw₁ hd hw' huid

/-! ## Settling the rejections -/

omit G quiet in
/-- Settling goes through a list, handing the list that is left on; an abort ends it with an
    error in the result. -/
theorem quarantineAll_safe {P : List Rejection → W → Prop}
    (hq : ∀ rejection rest s w, P (rejection :: rest) w →
      (quarantine o rejection.uid o.keywords.failed o.failedFolder).Safe E D
        (fun r s' w' => (r = .ok () → P rest w') ∧
          (s'.result.error = none → s.result.error = none)) s w)
    {rejected : List Rejection} {s : RunState} {w : W} (hP : P rejected w) :
    (quarantineAll o rejected).Safe E D (fun r s' w' => r = .ok () → s'.result.error = none →
      P [] w' ∧ s.result.error = none) s w := by
  induction rejected generalizing s w with
  | nil => exact fun _ he => ⟨hP, he⟩
  | cons rejection rest ih =>
      simp only [quarantineAll, Routine.safe_bind, Routine.safe_attempt]
      refine (hq rejection rest s w hP).mono ?_
      rintro r s' w' ⟨hok, herr⟩
      simp only [Routine.after_ok]
      split
      · refine (ih (hok rfl)).mono ?_
        intro r s'' w'' h hr he
        exact ⟨(h hr he).1, herr (h hr he).2⟩
      · intro _ he
        simp only [SyncResult.keepError] at he
        split at he
        · split at he <;> exact absurd he (by simp)
        · exact absurd he (by simp)
      · simp

/-- A rejection that may be quarantined leaves the list. -/
theorem quarantine_next {P : W → Prop} {rejection : Rejection} {s : RunState} {w : W}
    (hstore : ∀ w', G.grow w w' → D.guard w' (.addFlags rejection.uid o.keywords.failed))
    (hmove : MayMove E D G.grow rejection.uid o.failedFolder w)
    (hdone : ∀ w₁ w', G.grow w w₁ →
      Quarantined E o w₁ rejection.uid o.keywords.failed o.failedFolder w' → G.grow w w' →
      P w') :
    (quarantine o rejection.uid o.keywords.failed o.failedFolder).Safe E D
      (fun r s' w' => (r = .ok () → P w') ∧
        (s'.result.error = none → s.result.error = none)) s w := by
  refine (quarantine_safe G quiet (fun _ => hstore) hmove).mono ?_
  rintro r s' w' ⟨hs', hw', ⟨rfl, w₁, hw₁, hq⟩ | ⟨text, rfl⟩⟩
  · exact ⟨fun _ => hdone w₁ w' hw₁ hq hw', fun he => hs'.error ▸ he⟩
  · exact ⟨nofun, fun he => hs'.error ▸ he⟩

omit G quiet in
theorem settleRejections_safe {P : List Rejection → W → Prop}
    (hq : ∀ rejection rest s w, P (rejection :: rest) w →
      (quarantine o rejection.uid o.keywords.failed o.failedFolder).Safe E D
        (fun r s' w' => (r = .ok () → P rest w') ∧
          (s'.result.error = none → s.result.error = none)) s w)
    {s : RunState} {w : W}
    (htrip : breakerTrips o.rejectionThreshold (s.rejected.filter (fun r => !r.perMessage))
      s.result.forwarded = true → P (s.rejected.filter Rejection.perMessage) w)
    (hsettle : breakerTrips o.rejectionThreshold (s.rejected.filter (fun r => !r.perMessage))
      s.result.forwarded = false → P s.rejected w) :
    (settleRejections o).Safe E D (fun r s' w' => r = .ok () → s'.result.error = none →
      breakerTrips o.rejectionThreshold (s.rejected.filter (fun r => !r.perMessage))
        s.result.forwarded = false ∧ P [] w' ∧ s.result.error = none) s w := by
  simp only [settleRejections, Routine.safe_bind, Routine.safe_getSelf, Routine.after_ok]
  split
  · next ht =>
    simp only [Routine.safe_bind]
    unfold breakerMessage
    split
    · simp
    · simp only [Routine.safe_pure, Routine.after_ok, Routine.safe_bind, safe_count]
      refine (quarantineAll_safe hq (htrip ht)).mono ?_
      intro r s' w' h hr he
      have herr := (h hr he).2
      simp only [SyncResult.keepError] at herr
      split at herr
      · split at herr <;> exact absurd herr (by simp)
      · exact absurd herr (by simp)
  · next ht =>
    have ht := Bool.eq_false_iff.mpr ht
    exact (quarantineAll_safe hq (hsettle ht)).mono (fun r s' w' h hr he => ⟨ht, h hr he⟩)

/-! ## The run

The loop itself makes routine calls only, so its rules ask for a growth of these. -/

section grown

omit G quiet

variable {S : Op → Prop} (R : Growth E D S) (allowed : ∀ w op, S op → D.guard w op)

include R allowed

/-- A call that follows a growth. -/
theorem safe_grown_call {σ : Type} {op : Op} {Q : Except Exc (Value op) → σ → W → Prop} {s : σ}
    {w : W} (hop : S op) (h : ∀ r w', R.grow w w' → Q r s w') :
    (call op : Py σ (Value op)).Safe E D Q s w := by
  intro w₁ hr
  have hg := allowed w₁ op hop
  refine ⟨hg, fun r w₂ hE => h r w₂ ?_⟩
  exact R.trans (R.rely hr) (R.step hop hg hE)

/-- A method of the session that follows a growth, inside a run. -/
theorem safe_grown {α : Type} {m : Mailbox α} {Q : Except Exc α → RunState → W → Prop}
    {s : RunState} {w : W} (hm : m.Uses S) (hk : ICloudMailbox.KeepsTrash m)
    (h : ∀ r s' w', s.Calm s' → s'.result = s.result → R.grow w w' → Q r s' w') :
    (onMailbox m).Safe E D Q s w := by
  rw [safe_onMailbox]
  have hgrow : m.Safe E D (fun _ _ w' => R.grow w w') s.mailbox w :=
    Routine.Safe.of_uses R hm (fun _ hop => hop) (fun w' op _ => allowed w' op)
  refine (hgrow.also (fun _ => trivial) (hk s.mailbox)).mono ?_
  rintro r mailbox w' ⟨hw', htrash⟩
  exact h r _ w' ⟨⟨rfl, rfl⟩, htrash⟩ rfl hw'

end grown

section run

omit G

variable (R : Growth E D (fun op => op.isRoutine = true))

include R

/-- A call of the loop itself. -/
theorem safe_routine_call {σ : Type} {op : Op} {Q : Except Exc (Value op) → σ → W → Prop} {s : σ}
    {w : W} (hop : op.isRoutine = true) (h : ∀ r w', R.grow w w' → Q r s w') :
    (call op : Py σ (Value op)).Safe E D Q s w := safe_grown_call R quiet hop h

/-- Looking at the mailbox, inside a run. -/
theorem safe_looks {α : Type} {m : Mailbox α} {Q : Except Exc α → RunState → W → Prop}
    {s : RunState} {w : W} (hm : ICloudMailbox.Looks m) (hk : ICloudMailbox.KeepsTrash m)
    (h : ∀ r s' w', s.Calm s' → s'.result = s.result → R.grow w w' → Q r s' w') :
    (onMailbox m).Safe E D Q s w :=
  safe_grown R quiet (hm.mono (fun _ => Op.isRoutine_of_isLook)) hk h

section loop

variable {J : List ℕ → RunState → W → Prop} {A : RunState → W → Prop}
  (stable : ∀ {uids s s' w w'}, s.Calm s' → R.grow w w' → J uids s w → J uids s' w')
  (stableA : ∀ {s s' w w'}, s.Calm s' → R.grow w w' → A s w → A s' w')

include stable stableA

/-- **The loop rule.** The invariant knows the UIDs that are left. -/
theorem processAll_safe {extraLabels : List String}
    (hprocess : ∀ uid rest s w, J (uid :: rest) s w → (process o extraLabels uid).Safe E D
      (fun r s' w' => (r = .ok () → J rest s' w') ∧
        ∀ text, r = .error (.abortRun text) → A s' w') s w)
    {started : ℚ} {uids : List ℕ} {s : RunState} {w : W} (hJ : J uids s w) :
    (processAll o extraLabels started uids).Safe E D (fun r s' w' => r = .ok () →
      (∃ left, J left s' w') ∨ (A s' w' ∧ s'.result.error ≠ none)) s w := by
  induction uids generalizing s w with
  | nil => exact fun _ => Or.inl ⟨[], hJ⟩
  | cons uid rest ih =>
      simp only [processAll, Routine.safe_bind]
      refine safe_routine_call quiet R rfl ?_
      intro now w₁ hw₁
      have hJ₁ := stable (RunState.Calm.refl s) hw₁ hJ
      cases now with
      | error e => simp
      | ok now =>
          simp only [Routine.after_ok]
          split
          · rw [safe_count]
            exact fun _ => Or.inl ⟨uid :: rest, stable (.count s rfl) hw₁ hJ⟩
          · simp only [Routine.safe_bind, Routine.safe_attempt]
            refine (hprocess uid rest s w₁ hJ₁).mono ?_
            rintro r s' w' ⟨hok, habort⟩
            simp only [Routine.after_ok]
            split
            · exact ih (hok rfl)
            · next text =>
              rw [safe_count]
              intro _
              exact Or.inr ⟨stableA (.count s' rfl) (R.refl w') (habort text rfl), by simp⟩
            · simp

variable {I : RunState → W → Prop}
  (stableI : ∀ {s s' w w'}, s.Calm s' → R.grow w w' → I s w → I s' w')

include stableI

theorem session_safe
    (hlist : ∀ s w, I s w → (onMailbox (ICloudMailbox.listInboxUids
      (some o.keywords.quarantine))).Safe E D
        (fun r s' w' => ∀ uids, r = .ok uids → J uids s' w') s w)
    (hprocess : ∀ extraLabels uid rest s w, J (uid :: rest) s w →
      (process o extraLabels uid).Safe E D (fun r s' w' => (r = .ok () → J rest s' w') ∧
        ∀ text, r = .error (.abortRun text) → A s' w') s w)
    {End : W → Prop} (hend : ∀ left s w, J left s w → s.rejected = [] → End w)
    (hsettle : ∀ s w, (∃ left, J left s w) ∨ (A s w ∧ s.result.error ≠ none) → s.rejected ≠ [] →
      (settleRejections o).Safe E D
        (fun r s' w' => r = .ok () → s'.result.error = none → End w') s w)
    {started : ℚ} {s : RunState} {w : W} (hI : I s w) :
    (session o started).Safe E D (fun r s' w' => r = .ok () → s'.result.error = none → End w')
      s w := by
  simp only [session, Routine.safe_bind]
  refine safe_looks quiet R ICloudMailbox.requireKeywords_glances.looks
    ICloudMailbox.requireKeywords_keeps ?_
  intro r s₁ w₁ hs₁ _ hw₁
  have hI₁ := stableI hs₁ hw₁ hI
  cases r with
  | error e => simp
  | ok _ =>
  simp only [Routine.after_ok, Routine.safe_bind]
  refine safe_routine_call quiet R rfl ?_
  intro r w₂ hw₂
  have hI₂ := stableI (RunState.Calm.refl _) hw₂ hI₁
  cases r with
  | error e => simp
  | ok _ =>
  simp only [Routine.after_ok, Routine.safe_bind]
  have hrest : ∀ extraLabels s₃ w₃, I s₃ w₃ → Routine.Safe E D (do
      let uids ← onMailbox (ICloudMailbox.listInboxUids (some o.keywords.quarantine))
      count (fun r => { r with listed := uids.length })
      processAll o extraLabels started uids
      let s ← getSelf
      if s.rejected = [] then pure () else settleRejections o)
      (fun r s' w' => r = .ok () → s'.result.error = none → End w') s₃ w₃ := by
    intro extraLabels s₃ w₃ hI₃
    rw [Routine.safe_bind]
    refine (hlist s₃ w₃ hI₃).mono ?_
    intro r s₄ w₄ hJ₄
    cases r with
    | error e => simp
    | ok uids =>
        simp only [Routine.after_ok, Routine.safe_bind, safe_count]
        refine Routine.Safe.mono (processAll_safe (J := J) quiet R stable stableA
          (hprocess extraLabels) (stable (.count s₄ rfl) (R.refl w₄) (hJ₄ uids rfl))) ?_
        intro r s₅ w₅ h₅
        cases r with
        | error e => simp
        | ok _ =>
            simp only [Routine.after_ok, Routine.safe_bind, Routine.safe_getSelf]
            split
            · next hnil =>
              rcases h₅ rfl with ⟨left, hJ₅⟩ | ⟨_, herr⟩
              · exact fun _ _ => hend left s₅ w₅ hJ₅ hnil
              · exact fun _ he => absurd he herr
            · next hne =>
              exact hsettle s₅ w₅ (h₅ rfl) hne
  unfold extraLabelIds
  split
  · exact hrest [] _ _ hI₂
  · split
    · exact hrest [] _ _ hI₂
    · simp only [Routine.safe_bind]
      refine safe_routine_call quiet R rfl ?_
      intro r w₃ hw₃
      cases r with
      | error e => simp
      | ok label => exact hrest [label] _ _ (stableI (RunState.Calm.refl _) hw₃ hI₂)

/-- **The rule of a run.** `I` holds until the INBOX is listed, `J` is the invariant of the loop, `A`
    is what holds when a message made the run abort, and `End` is what a run that returns without an
    error establishes. -/
theorem run_safe_listing
    (hlist : ∀ s w, I s w → (onMailbox (ICloudMailbox.listInboxUids
      (some o.keywords.quarantine))).Safe E D
        (fun r s' w' => ∀ uids, r = .ok uids → J uids s' w') s w)
    (hprocess : ∀ extraLabels uid rest s w, J (uid :: rest) s w →
      (process o extraLabels uid).Safe E D (fun r s' w' => (r = .ok () → J rest s' w') ∧
        ∀ text, r = .error (.abortRun text) → A s' w') s w)
    {End : W → Prop} (hend : ∀ left s w, J left s w → s.rejected = [] → End w)
    (hsettle : ∀ s w, (∃ left, J left s w) ∨ (A s w ∧ s.result.error ≠ none) → s.rejected ≠ [] →
      (settleRejections o).Safe E D
        (fun r s' w' => r = .ok () → s'.result.error = none → End w') s w)
    (stableEnd : ∀ {w w'}, R.grow w w' → End w → End w')
    {s : RunState} {w : W} (hI : I s w) :
    (run o).Safe E D (fun r _ w' => ∀ result, r = .ok result → result.error = none → End w')
      s w := by
  simp only [run, withMailbox, Routine.safe_bind]
  refine safe_routine_call quiet R rfl ?_
  intro started w₁ hw₁
  have hI₁ := stableI (RunState.Calm.refl s) hw₁ hI
  cases started with
  | error e => simp
  | ok started =>
  simp only [Routine.after_ok, Routine.safe_bind, Routine.safe_attempt]
  have hfinish : ∀ s' w', (s'.result.error = none → End w') → Routine.Safe E D (do
      let ended ← call .clock
      count (fun r => { r with durationSeconds := round3 (ended - started) })
      let s ← getSelf
      pure s.result) (fun r _ w' => ∀ result, r = .ok result → result.error = none → End w')
      s' w' := by
    intro s' w' h
    simp only [Routine.safe_bind]
    refine safe_routine_call quiet R rfl ?_
    intro ended w'' hw''
    cases ended with
    | error e => simp
    | ok ended =>
        simp only [Routine.after_ok, Routine.safe_bind, safe_count, Routine.safe_getSelf,
          Routine.safe_pure]
        rintro result ⟨⟩ he
        exact stableEnd hw'' (h he)
  have houtcome : ∀ (outcome : Except Exc Unit) s' w',
      (outcome = .ok () → s'.result.error = none → End w') →
      (conclude started outcome).Safe E D
        (fun r _ w' => ∀ result, r = .ok result → result.error = none → End w') s' w' := by
    intro outcome s' w' h
    cases outcome with
    | ok _ => exact hfinish s' w' (h rfl)
    | error exc =>
        unfold conclude
        dsimp only
        split
        · rw [Routine.safe_bind, safe_count]
          exact hfinish _ w' (by simp)
        · simp
  refine safe_looks quiet R ICloudMailbox.connect_glances.looks ICloudMailbox.connect_keepsTrash ?_
  intro r s₂ w₂ hs₂ _ hw₂
  cases r with
  | error e => exact houtcome (.error e) s₂ w₂ (by simp)
  | ok _ =>
  simp only [Routine.after_ok, Routine.safe_bind, Routine.safe_attempt]
  refine Routine.Safe.mono (session_safe (J := J) quiet R stable stableA stableI hlist hprocess hend
    hsettle (stableI hs₂ hw₂ hI₁)) ?_
  intro outcome s₃ w₃ h₃
  refine safe_looks quiet R ICloudMailbox.close_glances.looks ICloudMailbox.close_keepsTrash ?_
  intro r s₄ w₄ hs₄ hres hw₄
  cases r with
  | error e => exact houtcome (.error e) s₄ w₄ (by simp)
  | ok _ =>
      simp only [Routine.after_ok, Routine.safe_settle]
      refine houtcome outcome s₄ w₄ ?_
      intro ho he
      exact stableEnd hw₄ (h₃ ho (hres ▸ he))

end loop

/-- The rule for an invariant that need not know which UIDs are left. -/
theorem run_safe {J A : RunState → W → Prop}
    (stable : ∀ {s s' w w'}, s.Calm s' → R.grow w w' → J s w → J s' w')
    (stableA : ∀ {s s' w w'}, s.Calm s' → R.grow w w' → A s w → A s' w')
    (hprocess : ∀ extraLabels uid s w, J s w → (process o extraLabels uid).Safe E D
      (fun r s' w' => (r = .ok () → J s' w') ∧ ∀ text, r = .error (.abortRun text) → A s' w') s w)
    {End : W → Prop} (hend : ∀ s w, J s w → s.rejected = [] → End w)
    (hsettle : ∀ s w, J s w ∨ (A s w ∧ s.result.error ≠ none) → s.rejected ≠ [] →
      (settleRejections o).Safe E D
        (fun r s' w' => r = .ok () → s'.result.error = none → End w') s w)
    (stableEnd : ∀ {w w'}, R.grow w w' → End w → End w')
    {s : RunState} {w : W} (hJ : J s w) :
    (run o).Safe E D (fun r _ w' => ∀ result, r = .ok result → result.error = none → End w')
      s w := by
  refine run_safe_listing quiet R (J := fun _ => J) (I := J) stable stableA stable ?_
    (fun extraLabels uid _ => hprocess extraLabels uid) (fun _ => hend) ?_ stableEnd hJ
  · intro s w hJ
    refine safe_looks quiet R (ICloudMailbox.listInboxUids_glances _).looks
      (ICloudMailbox.listInboxUids_keeps _) ?_
    exact fun _ s' w' hs' _ hw' _ _ => stable hs' hw' hJ
  · rintro s w (⟨_, hJ⟩ | hA) hne
    · exact hsettle s w (Or.inl hJ) hne
    · exact hsettle s w (Or.inr hA) hne

/-! ### Rejected messages wait for their settlement -/

section rejecting

/-- A message leaves nothing on the list of rejections, or itself with `N` known of it. -/
def Adds (N : ℕ → W → Prop) (uid : ℕ) (s s' : RunState) (w' : W) : Prop :=
  s'.rejected = s.rejected ∨ ∃ text perMessage,
    s'.rejected = s.rejected ++ [⟨uid, text, perMessage⟩] ∧ N uid w'

/-- `N` is known of all that is on the list, and no UID is left that is on it. -/
structure Pending (N : ℕ → W → Prop) (left : List ℕ) (s : RunState) (w : W) : Prop where
  known : ∀ r ∈ s.rejected, N r.uid w
  distinct : (s.rejected.map Rejection.uid ++ left).Nodup

variable {K A : W → Prop} {N : ℕ → W → Prop}
  (stableK : ∀ {w w'}, R.grow w w' → K w → K w') (stableA : ∀ {w w'}, R.grow w w' → A w → A w')
  (stableN : ∀ {uid w w'}, R.grow w w' → A w → N uid w → N uid w') (weaker : ∀ {w}, K w → A w)

omit quiet R in
/-- The next message has been handled. -/
theorem Pending.next {uid : ℕ} {rest : List ℕ} {s s' : RunState} {w w' : W}
    (h : Pending N (uid :: rest) s w) (hadds : Adds N uid s s' w')
    (hother : ∀ u, u ≠ uid → N u w → N u w') : Pending N rest s' w' := by
  have hperm : (s.rejected.map Rejection.uid ++ uid :: rest).Perm
      (uid :: (s.rejected.map Rejection.uid ++ rest)) := List.perm_middle
  obtain ⟨hout, hnodup⟩ := List.nodup_cons.mp (hperm.nodup_iff.mp h.distinct)
  have hknown : ∀ r ∈ s.rejected, N r.uid w' := by
    intro r hr
    refine hother r.uid (fun he => hout ?_) (h.known r hr)
    exact List.mem_append_left _ (he ▸ List.mem_map_of_mem hr)
  rcases hadds with hsame | ⟨text, perMessage, hmore, hN⟩
  · exact ⟨hsame ▸ hknown, hsame ▸ hnodup⟩
  · refine ⟨fun r hr => ?_, ?_⟩
    · rw [hmore] at hr
      rcases List.mem_append.mp hr with hr | hr
      · exact hknown r hr
      · rw [List.mem_singleton.mp hr]
        exact hN
    · rw [hmore, List.map_append, List.append_assoc]
      exact h.distinct

include stableK stableA stableN weaker

/-- **The rule of a run that leaves alone what it has rejected.** `K` holds from message to message,
    `A` after an aborted one, and `N` is known of a rejected message until it is settled. -/
theorem run_rejecting
    (hlist : ∀ s w, K w → (onMailbox (ICloudMailbox.listInboxUids
      (some o.keywords.quarantine))).Safe E D (fun r s' w' => K w' ∧ s'.rejected = s.rejected ∧
        ∀ uids, r = .ok uids → uids.Nodup) s w)
    (hprocess : ∀ extraLabels uid s w, K w → (process o extraLabels uid).Safe E D
      (fun r s' w' => Adds N uid s s' w' ∧ (∀ u, u ≠ uid → N u w → N u w') ∧
        (r = .ok () → K w') ∧ ∀ text, r = .error (.abortRun text) → A w') s w)
    (hquarantine : ∀ uid s w, A w → N uid w →
      (quarantine o uid o.keywords.failed o.failedFolder).Safe E D (fun _ s' w' => A w' ∧
        (K w → K w') ∧ (∀ u, N u w → N u w') ∧ s'.result.error = s.result.error) s w)
    {s : RunState} {w : W} (hs : s.rejected = []) (hK : K w) :
    (run o).Safe E D (fun r _ w' => ∀ result, r = .ok result → result.error = none → K w')
      s w := by
  refine run_safe_listing quiet R (J := fun left s w => K w ∧ Pending N left s w)
    (A := fun s w => A w ∧ ∀ r ∈ s.rejected, N r.uid w) (I := fun s w => K w ∧ s.rejected = [])
    ?_ ?_ ?_ ?_ ?_ (fun _ s w hJ _ => hJ.1) ?_ stableK ⟨hK, hs⟩
  · rintro uids s s' w w' hsame hw ⟨hK, hP⟩
    refine ⟨stableK hw hK, ?_, ?_⟩
    · rw [hsame.rejected]
      exact fun r hr => stableN hw (weaker hK) (hP.known r hr)
    · rw [hsame.rejected]
      exact hP.distinct
  · rintro s s' w w' hsame hw ⟨hA, hN⟩
    rw [hsame.rejected]
    exact ⟨stableA hw hA, fun r hr => stableN hw hA (hN r hr)⟩
  · rintro s s' w w' hsame hw ⟨hK, hnil⟩
    exact ⟨stableK hw hK, hsame.rejected.trans hnil⟩
  · rintro s w ⟨hK, hnil⟩
    refine (hlist s w hK).mono ?_
    rintro r s' w' ⟨hK', hsame, hnodup⟩ uids hok
    have hnil' := hsame.trans hnil
    refine ⟨hK', ?_, ?_⟩
    · rw [hnil']
      exact nofun
    · rw [hnil']
      exact hnodup uids hok
  · rintro extraLabels uid rest s w ⟨hK, hP⟩
    refine (hprocess extraLabels uid s w hK).mono ?_
    rintro r s' w' ⟨hadds, hother, hok, habort⟩
    have hnext := hP.next hadds hother
    exact ⟨fun hr => ⟨hok hr, hnext⟩, fun text hr => ⟨habort text hr, hnext.known⟩⟩
  · intro s w hstart _
    have hq : ∀ (rejection : Rejection) (rest : List Rejection) (s₁ : RunState) w₁,
        (A w₁ ∧ ((∃ left, K w ∧ Pending N left s w) → K w₁) ∧
          ∀ r ∈ rejection :: rest, N r.uid w₁) →
        (quarantine o rejection.uid o.keywords.failed o.failedFolder).Safe E D
          (fun r s' w' => (r = .ok () → A w' ∧ ((∃ left, K w ∧ Pending N left s w) → K w') ∧
            ∀ r ∈ rest, N r.uid w') ∧ (s'.result.error = none → s₁.result.error = none)) s₁ w₁ := by
      rintro rejection rest s₁ w₁ ⟨hA₁, hK₁, hN₁⟩
      refine (hquarantine rejection.uid s₁ w₁ hA₁ (hN₁ rejection List.mem_cons_self)).mono ?_
      rintro r s' w' ⟨hA', hK', hN', herror⟩
      refine ⟨fun _ => ⟨hA', fun h => hK' (hK₁ h), fun r hr => ?_⟩, fun he => herror ▸ he⟩
      exact hN' r.uid (hN₁ r (List.mem_cons_of_mem _ hr))
    have hA : A w ∧ ∀ r ∈ s.rejected, N r.uid w := by
      rcases hstart with ⟨left, hK, hP⟩ | ⟨hA, -⟩
      · exact ⟨weaker hK, hP.known⟩
      · exact hA
    refine (settleRejections_safe (P := fun rejected w' => A w' ∧
      ((∃ left, K w ∧ Pending N left s w) → K w') ∧ ∀ r ∈ rejected, N r.uid w') hq ?_ ?_).mono ?_
    · exact fun _ => ⟨hA.1, fun ⟨_, hK, _⟩ => hK, fun r hr => hA.2 r (List.mem_filter.mp hr).1⟩
    · exact fun _ => ⟨hA.1, fun ⟨_, hK, _⟩ => hK, hA.2⟩
    · intro r s' w' h hr he
      obtain ⟨-, ⟨-, hK, -⟩, herror⟩ := h hr he
      rcases hstart with hJ | ⟨-, hne⟩
      · exact hK hJ
      · exact absurd herror hne

end rejecting

end run

/-! ### A run, however it ends -/

section anyhow

omit G quiet

variable (allowed : ∀ w op, op.isSurvey = true → D.guard w op)
  (R : Growth E D (fun op => op.isSurvey = true)) {K Q : RunState → W → Prop}
  (hQ : ∀ {s w}, K s w → Q s w)

include allowed R

section session

variable {I : RunState → W → Prop} {J : List ℕ → RunState → W → Prop}
  (stableJ : ∀ {uids s s' w w'}, s.Steady s' → R.grow w w' → J uids s w → J uids s' w')
  (stableI : ∀ {s s' w w'}, s.Steady s' → R.grow w w' → I s w → I s' w')
  (hI : ∀ {s w}, I s w → Q s w)
  (hlist : ∀ s w, I s w → (onMailbox (ICloudMailbox.listInboxUids
    (some o.keywords.quarantine))).Safe E D (fun r s' w' => (∀ uids, r = .ok uids → J uids s' w') ∧
      ∀ e, r = .error e → Q s' w') s w)
  (hsettle : ∀ s w, K s w → s.rejected ≠ [] →
    (settleRejections o).Safe E D (fun _ s' w' => Q s' w') s w)

include hQ stableJ stableI hI hlist hsettle

/-- A session around a loop of which it is known how it ends. -/
theorem session_of_loop {started : ℚ}
    (hloop : ∀ extraLabels uids s w, J uids s w → (processAll o extraLabels started uids).Safe E D
      (fun r s' w' => (r = .ok () → K s' w') ∧ ∀ e, r = .error e → Q s' w') s w)
    {s : RunState} {w : W} (h : I s w) :
    (session o started).Safe E D (fun _ s' w' => Q s' w') s w := by
  simp only [session, Routine.safe_bind]
  refine safe_grown R allowed (surveys ICloudMailbox.requireKeywords_setup)
    ICloudMailbox.requireKeywords_keeps ?_
  intro r s₁ w₁ hs₁ hres₁ hw₁
  have h₁ := stableI (.mailbox hs₁ hres₁) hw₁ h
  cases r with
  | error e => exact hI h₁
  | ok _ =>
  simp only [Routine.after_ok, Routine.safe_bind]
  refine safe_grown_call R allowed rfl ?_
  intro r w₂ hw₂
  have h₂ := stableI (.refl _) hw₂ h₁
  cases r with
  | error e => exact hI h₂
  | ok _ =>
  simp only [Routine.after_ok, Routine.safe_bind]
  have hrest : ∀ extraLabels s₃ w₃, I s₃ w₃ → Routine.Safe E D (do
      let uids ← onMailbox (ICloudMailbox.listInboxUids (some o.keywords.quarantine))
      count (fun r => { r with listed := uids.length })
      processAll o extraLabels started uids
      let s ← getSelf
      if s.rejected = [] then pure () else settleRejections o) (fun _ s' w' => Q s' w') s₃ w₃ := by
    intro extraLabels s₃ w₃ h₃
    rw [Routine.safe_bind]
    refine (hlist s₃ w₃ h₃).mono ?_
    rintro r s₄ w₄ ⟨hok, herror⟩
    cases r with
    | error e => exact herror e rfl
    | ok uids =>
        simp only [Routine.after_ok, Routine.safe_bind, safe_count]
        refine Routine.Safe.mono (hloop extraLabels uids _ w₄
          (stableJ (.report s₄ _ _ _ _) (R.refl w₄) (hok uids rfl))) ?_
        rintro r s₅ w₅ ⟨hok₅, herror₅⟩
        cases r with
        | error e => exact herror₅ e rfl
        | ok _ =>
            simp only [Routine.after_ok, Routine.safe_bind, Routine.safe_getSelf]
            split
            · exact hQ (hok₅ rfl)
            · next hne => exact hsettle s₅ w₅ (hok₅ rfl) hne
  unfold extraLabelIds
  split
  · exact hrest [] _ _ h₂
  · split
    · exact hrest [] _ _ h₂
    · simp only [Routine.safe_bind]
      refine safe_grown_call R allowed rfl ?_
      intro r w₃ hw₃
      cases r with
      | error e => exact hI (stableI (.refl _) hw₃ h₂)
      | ok label => exact hrest [label] _ _ (stableI (.refl _) hw₃ h₂)

end session

/-- A run around a session of which it is known how it ends. `I` is what holds when the session
    opens, and may speak of the time at which the run has started. -/
theorem run_of_session {I : ℚ → RunState → W → Prop}
    (stableI : ∀ {started s s' w w'}, s.Steady s' → R.grow w w' → I started s w → I started s' w')
    (hI : ∀ {started s w}, I started s w → Q s w)
    (stableQ : ∀ {s s' w w'}, s.Steady s' → R.grow w w' → Q s w → Q s' w')
    (hsession : ∀ started s w, I started s w →
      (session o started).Safe E D (fun _ s' w' => Q s' w') s w)
    {s : RunState} {w : W}
    (hstart : (call .clock : Run ℚ).Safe E D (fun r s' w' =>
      (∀ started, r = .ok started → I started s' w') ∧ ∀ e, r = .error e → Q s' w') s w) :
    (run o).Safe E D (fun r s' w' => Q s' w' ∧ ∀ result, r = .ok result → result = s'.result)
      s w := by
  simp only [run, withMailbox, Routine.safe_bind]
  refine hstart.mono ?_
  rintro started s₁ w₁ ⟨hok, herror⟩
  cases started with
  | error e => exact ⟨herror e rfl, by simp⟩
  | ok started =>
  have h₁ := hok started rfl
  simp only [Routine.after_ok, Routine.safe_bind, Routine.safe_attempt]
  have hfinish : ∀ s' w', Q s' w' → Routine.Safe E D (do
      let ended ← call .clock
      count (fun r => { r with durationSeconds := round3 (ended - started) })
      let s ← getSelf
      pure s.result)
      (fun r s' w' => Q s' w' ∧ ∀ result, r = .ok result → result = s'.result) s' w' := by
    intro s' w' hq
    simp only [Routine.safe_bind]
    refine safe_grown_call R allowed rfl ?_
    intro ended w'' hw''
    cases ended with
    | error e => exact ⟨stableQ (.refl s') hw'' hq, by simp⟩
    | ok ended =>
        simp only [Routine.after_ok, Routine.safe_bind, safe_count, Routine.safe_getSelf,
          Routine.safe_pure]
        refine ⟨stableQ (.report s' _ _ _ _) hw'' hq, ?_⟩
        intro result hresult
        cases hresult
        rfl
  have houtcome : ∀ (outcome : Except Exc Unit) s' w', Q s' w' →
      (conclude started outcome).Safe E D
        (fun r s' w' => Q s' w' ∧ ∀ result, r = .ok result → result = s'.result) s' w' := by
    intro outcome s' w' hq
    cases outcome with
    | ok _ => exact hfinish s' w' hq
    | error exc =>
        unfold conclude
        dsimp only
        split
        · rw [Routine.safe_bind, safe_count]
          exact hfinish _ w' (stableQ (.report s' _ _ _ _) (R.refl w') hq)
        · exact ⟨hq, by simp⟩
  refine safe_grown R allowed (surveys ICloudMailbox.connect_setup)
    ICloudMailbox.connect_keepsTrash ?_
  intro r s₂ w₂ hs₂ hres₂ hw₂
  have h₂ := stableI (.mailbox hs₂ hres₂) hw₂ h₁
  cases r with
  | error e => exact houtcome (.error e) s₂ w₂ (hI h₂)
  | ok _ =>
  simp only [Routine.after_ok, Routine.safe_bind, Routine.safe_attempt]
  refine Routine.Safe.mono (hsession started s₂ w₂ h₂) ?_
  intro outcome s₃ w₃ h₃
  refine safe_grown R allowed (surveys ICloudMailbox.close_setup)
    ICloudMailbox.close_keepsTrash ?_
  intro r s₄ w₄ hs₄ hres₄ hw₄
  have h₄ := stableQ (.mailbox hs₄ hres₄) hw₄ h₃
  cases r with
  | error e => exact houtcome (.error e) s₄ w₄ h₄
  | ok _ =>
      simp only [Routine.after_ok, Routine.safe_settle]
      exact houtcome outcome s₄ w₄ h₄

variable {I : RunState → W → Prop} {J : List ℕ → RunState → W → Prop}
  (stableJ : ∀ {uids s s' w w'}, s.Steady s' → R.grow w w' → J uids s w → J uids s' w')
  (stableK : ∀ {s s' w w'}, s.Steady s' → R.grow w w' → K s w → K s' w')
  (hJ : ∀ {uids s w}, J uids s w → K s w)
  (hprocess : ∀ extraLabels uid rest s w, J (uid :: rest) s w →
    (process o extraLabels uid).Safe E D (fun r s' w' => (r = .ok () → J rest s' w') ∧
      (∀ text, r = .error (.abortRun text) → K s' w') ∧ ∀ e, r = .error e → Q s' w') s w)

include stableJ stableK hJ hprocess hQ

/-- The loop, whatever stops it. -/
theorem processAll_always {extraLabels : List String} {started : ℚ}
    {uids : List ℕ} {s : RunState} {w : W} (h : J uids s w) :
    (processAll o extraLabels started uids).Safe E D (fun r s' w' =>
      (r = .ok () → K s' w') ∧ ∀ e, r = .error e → Q s' w') s w := by
  induction uids generalizing s w with
  | nil => exact ⟨fun _ => hJ h, by simp⟩
  | cons uid rest ih =>
      simp only [processAll, Routine.safe_bind]
      refine safe_grown_call R allowed rfl ?_
      intro now w₁ hw₁
      have h₁ := stableJ (.refl s) hw₁ h
      cases now with
      | error e => exact ⟨by simp, fun _ _ => hQ (hJ h₁)⟩
      | ok now =>
          simp only [Routine.after_ok]
          split
          · rw [safe_count]
            exact ⟨fun _ => stableK (.report s _ _ _ _) (R.refl w₁) (hJ h₁), by simp⟩
          · simp only [Routine.safe_bind, Routine.safe_attempt]
            refine (hprocess extraLabels uid rest s w₁ h₁).mono ?_
            rintro r s' w' ⟨hok, habort, herror⟩
            simp only [Routine.after_ok]
            split
            · exact ih (hok rfl)
            · next text =>
              rw [safe_count]
              exact ⟨fun _ => stableK (.report s' _ _ _ _) (R.refl w') (habort text rfl),
                (by simp)⟩
            · next e _ => exact ⟨by simp, fun _ _ => herror e rfl⟩

variable (stableI : ∀ {s s' w w'}, s.Steady s' → R.grow w w' → I s w → I s' w')
  (hI : ∀ {s w}, I s w → Q s w)
  (hlist : ∀ s w, I s w → (onMailbox (ICloudMailbox.listInboxUids
    (some o.keywords.quarantine))).Safe E D (fun r s' w' => (∀ uids, r = .ok uids → J uids s' w') ∧
      ∀ e, r = .error e → Q s' w') s w)
  (hsettle : ∀ s w, K s w → s.rejected ≠ [] →
    (settleRejections o).Safe E D (fun _ s' w' => Q s' w') s w)

include stableI hI hlist hsettle

/-- **The rule of a run that may end in any way.** `I` holds until the INBOX is listed, `J` is the
    invariant of the loop, `K` is what the settlement starts from, and `Q` is what holds of the
    objects of the run when it ends; what it returns is the result among them. -/
theorem run_always (stableQ : ∀ {s s' w w'}, s.Steady s' → R.grow w w' → Q s w → Q s' w')
    {s : RunState} {w : W} (h : I s w) :
    (run o).Safe E D (fun r s' w' => Q s' w' ∧ ∀ result, r = .ok result → result = s'.result)
      s w := by
  refine run_of_session allowed R (I := fun _ => I) stableI hI stableQ ?_ ?_
  · intro started s₁ w₁ h₁
    refine session_of_loop allowed R hQ (J := J) stableJ stableI hI hlist hsettle ?_ h₁
    intro extraLabels uids s₂ w₂ h₂
    exact processAll_always (J := J) allowed R hQ stableJ stableK hJ hprocess h₂
  · refine safe_grown_call R allowed rfl ?_
    intro r w₁ hw₁
    have h₁ := stableI (.refl s) hw₁ h
    exact ⟨fun _ _ => h₁, fun _ _ => hI h₁⟩

end anyhow

end Forwarder

end MailTransporter
