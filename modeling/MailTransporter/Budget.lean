import MailTransporter.Settlement

set_option autoImplicit false

/-! # The time budget

`run` asks the clock before every message. A `Shift` follows a run through any answers: which
messages have been begun, and whether the last reading of the clock still has a message or an insert
to its credit. A reading beyond the budget ends the shift, whatever the clock says afterwards.

What was begun is finished: the settlement of the rejections is no new work. -/

namespace MailTransporter

open Effect
open Effect.Routine (attempt getSelf modifySelf)

/-- Where a run stands: `due` and `owed` say that the last reading of the clock is good for a message
    and for an insert, `beyond` that some reading exceeded the budget. -/
structure Shift where
  started : Option ℚ := none
  due : Bool := false
  owed : Bool := false
  beyond : Bool := false
  begun : List ℕ := []
deriving DecidableEq

namespace Shift

/-- A reading of the clock. The first one starts the shift. -/
def read (budget : ℚ) (w : Shift) (now : ℚ) : Shift :=
  match w.started with
  | none => { w with started := some now }
  | some started =>
      if now - started > budget then { w with due := false, owed := false, beyond := true }
      else { w with due := !w.beyond, owed := !w.beyond }

/-- The shift after a call. -/
def next (budget : ℚ) (w : Shift) : (op : Op) → Reply op → Shift
  | .clock, .ok now => w.read budget now
  | .fetch uids .message, _ =>
      if w.due then { w with due := false, begun := w.begun ++ uids } else w
  | .insertRaw _ _, _ => { w with owed := false }
  | _, _ => w

/-- The calls in order: a message is asked for on a reading of the clock of its own, an insert
    follows on the same reading, and nothing is done to a message that was not begun. -/
def Allowed (w : Shift) : Op → Prop
  | .fetch uids .message => (∃ uid, uids = [uid]) ∧ w.due = true
  | .insertRaw _ _ => w.due = false ∧ w.owed = true
  | .addFlags uid _ => uid ∈ w.begun
  | .removeFlags _ _ => False
  | .move uid _ => uid ∈ w.begun
  | .copy uid _ => uid ∈ w.begun
  | .uidExpunge uid => uid ∈ w.begun
  | _ => True

/-- Any clock, any servers. -/
def Passes (budget : ℚ) : Env Op Reply Shift := fun w op r w' => w' = w.next budget op r

def working : Discipline Op Shift where
  rely := fun w w' => w' = w
  guard := Allowed

/-- In every execution every call is in order. -/
def Punctual (budget : ℚ) {α : Type} (p : Program Op Reply α) : Prop :=
  ∀ w op next, Program.Steps (Passes budget) ({}, p) (w, .call op next) → Allowed w op

variable {budget : ℚ} {w w' : Shift} {uid : ℕ}

theorem safe_counted {σ : Type} {op : Op} {Q : Except Exc (Value op) → σ → Shift → Prop} {s : σ}
    (hallowed : Allowed w op) (h : ∀ r, Q r s (w.next budget op r)) :
    (call op : Py σ (Value op)).Safe (Passes budget) working Q s w := by
  rintro w₁ rfl
  refine ⟨hallowed, ?_⟩
  rintro r w₂ rfl
  exact h r

/-! ## Work on a message -/

/-- What the work between two readings of the clock may change. -/
structure Later (w w' : Shift) : Prop where
  started : w'.started = w.started
  beyond : w'.beyond = w.beyond
  begun : ∀ uid ∈ w.begun, uid ∈ w'.begun

theorem Later.refl (w : Shift) : w.Later w := ⟨rfl, rfl, fun _ h => h⟩

theorem Later.trans {w₁ w₂ w₃ : Shift} (h : w₁.Later w₂) (h' : w₂.Later w₃) : w₁.Later w₃ where
  started := h'.started.trans h.started
  beyond := h'.beyond.trans h.beyond
  begun := fun uid hu => h'.begun uid (h.begun uid hu)

/-- The calls that are no readings of the clock. -/
def isWork : Op → Bool
  | .clock => false
  | _ => true

theorem next_later {op : Op} (h : isWork op = true) (r : Reply op) : w.Later (w.next budget op r) := by
  unfold next
  split
  · simp [isWork] at h
  · split
    · exact ⟨rfl, rfl, fun _ hu => List.mem_append_left _ hu⟩
    · exact Later.refl w
  · exact ⟨rfl, rfl, fun _ hu => hu⟩
  · exact Later.refl w

/-- Work goes on within a shift. -/
def shift (budget : ℚ) : Growth (Passes budget) working (fun op => isWork op = true) where
  grow := Later
  refl := Later.refl
  trans := Later.trans
  rely := by
    rintro w w' rfl
    exact Later.refl _
  step := by
    rintro w op r w' hop - rfl
    exact next_later hop r

/-- The calls made about a message that has been begun. -/
def IsAbout (uid : ℕ) (op : Op) : Prop := op.isDone uid = true ∨ ∃ raw, op = .issueTrash raw

theorem IsAbout.isWork {op : Op} (h : IsAbout uid op) : isWork op = true := by
  rcases h with h | ⟨raw, rfl⟩
  · cases op
    all_goals first | rfl | simp [Op.isDone, Op.isOn] at h
  · rfl

theorem IsAbout.allowed {op : Op} (h : IsAbout uid op) (hu : uid ∈ w.begun) : Allowed w op := by
  rcases h with h | ⟨raw, rfl⟩
  swap
  · trivial
  cases op with
  | fetch uids items =>
      cases items with
      | message => simp [Op.isDone] at h
      | flags => trivial
      | headers => trivial
  | addFlags v flag =>
      have hv : v = uid := of_decide_eq_true h
      exact hv ▸ hu
  | move v folder =>
      have hv : v = uid := of_decide_eq_true h
      exact hv ▸ hu
  | copy v folder =>
      have hv : v = uid := of_decide_eq_true h
      exact hv ▸ hu
  | uidExpunge v =>
      have hv : v = uid := of_decide_eq_true h
      exact hv ▸ hu
  | removeFlags v flag => simp [Op.isDone, Op.isOn] at h
  | insertRaw raw labels => simp [Op.isDone, Op.isOn] at h
  | _ => trivial

theorem about_safe {α : Type} {m : Run α} (hm : m.Uses (IsAbout uid)) (hu : uid ∈ w.begun)
    (s : RunState) : m.Safe (Passes budget) working (fun _ _ w' => w.Later w') s w :=
  Routine.Safe.of_uses (shift budget) hm (fun _ h => h.isWork)
    (fun _ _ hw' h => h.allowed (hw'.begun uid hu))

/-- The rejections are of messages that have been begun. -/
def Noted (s : RunState) (w : Shift) : Prop := ∀ r ∈ s.rejected, r.uid ∈ w.begun

theorem Noted.later {s s' : RunState} (h : Noted s w) (hs : s'.rejected = s.rejected)
    (hw : w.Later w') : Noted s' w' := by
  intro r hr
  rw [hs] at hr
  exact hw.begun _ (h r hr)

/-- The fetch that begins a message. -/
theorem fetchMessage_safe (hdue : w.due = true) (s : ICloudMailbox) :
    (ICloudMailbox.fetchMessage uid).Safe (Passes budget) working (fun r s' w' => s' = s ∧
      w.Later w' ∧ ∀ message, r = .ok message → message.uid = uid ∧ uid ∈ w'.begun ∧
        w'.due = false ∧ w'.owed = w.owed) s w := by
  simp only [ICloudMailbox.fetchMessage, Routine.safe_bind, Routine.safe_attempt]
  refine ICloudMailbox.client_safe ?_ (fun text => ⟨rfl, Later.refl w, by simp⟩)
  rw [Routine.after_ok]
  refine safe_counted ⟨⟨uid, rfl⟩, hdue⟩ (fun r => ?_)
  have hlater : w.Later (w.next budget (.fetch [uid] .message) r) := next_later rfl r
  have hnext : w.next budget (.fetch [uid] .message) r =
      { w with due := false, begun := w.begun ++ [uid] } := if_pos hdue
  rw [hnext] at hlater ⊢
  rcases r with e | data
  · exact ⟨rfl, hlater, by simp⟩
  simp only [Routine.after_ok]
  split
  · exact ⟨rfl, hlater, by simp⟩
  · exact ⟨rfl, hlater, by simp⟩
  · refine ⟨rfl, hlater, fun message hmessage => ?_⟩
    cases hmessage
    exact ⟨rfl, List.mem_append_right _ (List.mem_singleton_self _), rfl, rfl⟩

variable {o : ForwarderOptions} {s : RunState}

/-- Work on a message that adds nothing to the rejections. -/
theorem finished_safe {m : Run Unit} (hm : m.Uses (IsAbout uid)) (hkeeps : m.Keeps RunState.rejected)
    (hu : uid ∈ w.begun) (hs : Noted s w) : m.Safe (Passes budget) working
      (fun _ s' w' => Noted s' w' ∧ w.Later w') s w := by
  refine ((about_safe hm hu s).also (fun _ => trivial) (hkeeps s)).mono ?_
  rintro r s' w' ⟨hw', hs'⟩
  exact ⟨hs.later hs' hw', hw'⟩

theorem trash_shift {message : FetchedMessage} (hu : message.uid ∈ w.begun) (hs : Noted s w) :
    (Forwarder.trash message).Safe (Passes budget) working
      (fun _ s' w' => Noted s' w' ∧ w.Later w') s w :=
  finished_safe (Forwarder.trash_uses (fun _ => Or.inl) (fun raw => Or.inr ⟨raw, rfl⟩) rfl)
    (Settlement.trash_keeps Settlement.count_keepsRejected
      (fun _ => Settlement.onMailbox_keepsRejected _) message) hu hs

/-- An insert, on the reading its message was begun on. -/
theorem insert_shift {extraLabels : List String} {message : FetchedMessage}
    (hu : message.uid ∈ w.begun) (hdue : w.due = false) (howed : w.owed = true) (hs : Noted s w) :
    (Forwarder.insert o extraLabels message).Safe (Passes budget) working
      (fun _ s' w' => Noted s' w' ∧ w.Later w') s w := by
  have hafter : ∀ {r w₁ w₂}, working.rely w w₁ → Passes budget w₁ (.insertRaw message.raw
      (gmailLabelsFor message extraLabels)) r w₂ → w.Later w₂ := by
    rintro r w₁ w₂ rfl rfl
    exact next_later rfl r
  refine Forwarder.insert_at ?_ ?_ ?_ ?_ ?_
  · rintro w₁ rfl
    exact ⟨hdue, howed⟩
  · intro id w₁ w₂ hr hE
    have hw₂ := hafter hr hE
    refine Routine.Safe.mono (finished_safe (Forwarder.recordInsert_uses (fun _ => Or.inl)
      (fun raw => Or.inr ⟨raw, rfl⟩) rfl) (Settlement.recordInsert_keeps
        Settlement.count_keepsRejected (fun _ => Settlement.onMailbox_keepsRejected _) message)
      (hw₂.begun _ hu) (hs.later rfl hw₂)) ?_
    exact fun _ _ _ h => ⟨h.1, hw₂.trans h.2⟩
  · exact fun _ _ w₁ w₂ hr hE => ⟨hs.later rfl (hafter hr hE), hafter hr hE⟩
  · exact fun _ _ w₁ w₂ hr hE s' hs' => ⟨hs.later hs'.rejected (hafter hr hE), hafter hr hE⟩
  · intro text status w₁ w₂ hr hE
    have hw₂ := hafter hr hE
    refine ⟨fun r hmem => ?_, hw₂⟩
    rcases List.mem_append.mp hmem with hmem | hmem
    · exact hs.later rfl hw₂ r hmem
    · rw [List.mem_singleton.mp hmem]
      exact hw₂.begun _ hu

/-- A message, on a reading of the clock within the budget. -/
theorem process_shift (extraLabels : List String) (hdue : w.due = true) (howed : w.owed = true)
    (hs : Noted s w) : (Forwarder.process o extraLabels uid).Safe (Passes budget) working
      (fun _ s' w' => Noted s' w' ∧ w.Later w') s w := by
  refine Forwarder.process_of_fetch (fetchMessage_safe hdue s.mailbox) ?_ ?_ ?_ ?_
  · exact fun s' w' hs' hw' => ⟨hs.later hs'.rejected hw', hw'⟩
  · exact fun e s' w' hs' hw' => ⟨hs.later hs'.rejected hw', hw'⟩
  · rintro message s' w' hs' hw' ⟨huid, hu, -, -⟩ - -
    refine Routine.Safe.mono (trash_shift (huid ▸ hu) (hs.later hs'.rejected hw')) ?_
    exact fun _ _ _ h => ⟨h.1, hw'.trans h.2⟩
  · rintro message s' w' hs' hw' ⟨huid, hu, hnot, howed'⟩ - -
    refine Routine.Safe.mono (insert_shift (huid ▸ hu) hnot (howed'.trans howed)
      (hs.later hs'.rejected hw')) ?_
    exact fun _ _ _ h => ⟨h.1, hw'.trans h.2⟩

/-! ## The loop -/

/-- The loop is about to read the clock. -/
structure Between (started : ℚ) (s : RunState) (w : Shift) : Prop where
  started : w.started = some started
  beyond : w.beyond = false
  noted : Noted s w

theorem processAll_shift {extraLabels : List String} {started : ℚ} (uids : List ℕ)
    (h : Between started s w) :
    (Forwarder.processAll o extraLabels started uids).Safe (Passes o.timeBudgetSeconds) working
      (fun _ s' w' => Noted s' w') s w := by
  induction uids generalizing s w with
  | nil => exact h.noted
  | cons uid rest ih =>
      rw [Forwarder.processAll, Routine.safe_bind]
      refine safe_counted trivial (fun r => ?_)
      rcases r with e | now
      · exact h.noted
      rw [Routine.after_ok]
      have hread : w.next o.timeBudgetSeconds .clock (.ok now) =
          if now - started > o.timeBudgetSeconds then
            { w with due := false, owed := false, beyond := true }
          else { w with due := true, owed := true } := by
        simp only [next, read, h.started, h.beyond, Bool.not_false]
      rw [hread]
      split
      · exact h.noted
      -- the reading is good for one message and one insert
      rw [Routine.safe_bind, Routine.safe_attempt]
      refine Routine.Safe.mono (process_shift extraLabels rfl rfl h.noted) ?_
      rintro r s' w' ⟨hs', hw'⟩
      rw [Routine.after_ok]
      split
      · exact ih ⟨hw'.started.trans h.started, hw'.beyond.trans h.beyond, hs'⟩
      · exact hs'
      · exact hs'

/-- The settlement of the rejections is no new work. -/
theorem quarantineAll_shift (rejected : List Rejection) (h : ∀ r ∈ rejected, r.uid ∈ w.begun) :
    (Forwarder.quarantineAll o rejected).Safe (Passes budget) working (fun _ _ _ => True) s w := by
  induction rejected generalizing s w with
  | nil => trivial
  | cons rejection rest ih =>
      rw [Forwarder.quarantineAll, Routine.safe_bind, Routine.safe_attempt]
      refine (about_safe (Forwarder.quarantine_done.mono (fun _ => Or.inl))
        (h rejection List.mem_cons_self) s).mono ?_
      intro r s' w' hw'
      rw [Routine.after_ok]
      split
      · exact ih (fun r hr => hw'.begun _ (h r (List.mem_cons_of_mem _ hr)))
      · trivial
      · trivial

theorem settleRejections_shift (hs : Noted s w) :
    (Forwarder.settleRejections o).Safe (Passes budget) working (fun _ _ _ => True) s w := by
  rw [Forwarder.settleRejections, Routine.safe_bind, Routine.safe_getSelf, Routine.after_ok]
  dsimp only
  split
  · rw [Routine.safe_bind]
    unfold Forwarder.breakerMessage
    split
    · trivial
    · rw [Routine.safe_pure, Routine.after_ok, Routine.safe_bind, safe_count, Routine.after_ok]
      exact quarantineAll_shift _ (fun r hr => hs r (List.mem_filter.mp hr).1)
  · exact quarantineAll_shift _ hs

/-! ## The run -/

/-- The calls around the loop, which the shift does not count. -/
def isAside : Op → Bool
  | .gmailClient => true
  | .ensureLabel _ => true
  | .search _ => true
  | .fetch _ .flags => true
  | op => op.isSetup

theorem next_aside {op : Op} (h : isAside op = true) (r : Reply op) : w.next budget op r = w := by
  cases op
  case clock => simp [isAside, Op.isSetup] at h
  case insertRaw raw labels => simp [isAside, Op.isSetup] at h
  case fetch uids items =>
    cases items
    case message => simp [isAside, Op.isSetup] at h
    all_goals rfl
  all_goals rfl

theorem allowed_aside {op : Op} (h : isAside op = true) : Allowed w op := by
  cases op
  case fetch uids items =>
    cases items
    case message => simp [isAside, Op.isSetup] at h
    all_goals trivial
  all_goals trivial

theorem isAside_of_isSetup {op : Op} (h : op.isSetup = true) : isAside op = true := by
  cases op
  all_goals first | rfl | simp [Op.isSetup] at h

/-- The calls around the loop leave the shift where it is. -/
def pause (budget : ℚ) : Growth (Passes budget) working (fun op => isAside op = true) where
  grow := fun w w' => w' = w
  refl := fun _ => rfl
  trans := fun h h' => h'.trans h
  rely := fun h => h
  step := fun hop _ hE => hE.trans (next_aside hop _)

theorem extraLabelIds_keeps (label : Option String) :
    (Forwarder.extraLabelIds label).Keeps RunState.rejected := by
  unfold Forwarder.extraLabelIds
  split
  · exact Routine.keeps_pure _
  · split
    · exact Routine.keeps_pure _
    · exact Routine.keeps_bind (Routine.keeps_call _) (fun _ => Routine.keeps_pure _)

theorem aside_safe {α : Type} {m : Run α} (hm : m.Uses (fun op => isAside op = true))
    (hkeeps : m.Keeps RunState.rejected) (s : RunState) (w : Shift) :
    m.Safe (Passes budget) working (fun _ s' w' => s'.rejected = s.rejected ∧ w' = w) s w := by
  have hpause : m.Safe (Passes budget) working (fun _ _ w' => w' = w) s w :=
    Routine.Safe.of_uses (pause budget) hm (fun _ h => h) (fun _ _ _ h => allowed_aside h)
  refine (hpause.also (fun _ => trivial) (hkeeps s)).mono ?_
  exact fun _ _ _ h => ⟨h.2, h.1⟩

/-- What a run does outside of its loop is in order at any time. -/
theorem idle_safe {α : Type} {m : Run α} (hm : m.Uses (fun op => isAside op = true ∨ op = .clock))
    (s : RunState) (w : Shift) : m.Safe (Passes budget) working (fun _ _ _ => True) s w := by
  have hfree : Growth (Passes budget) working (fun op => isAside op = true ∨ op = .clock) := {
    grow := fun _ _ => True
    refl := fun _ => trivial
    trans := fun _ _ => trivial
    rely := fun _ => trivial
    step := fun _ _ _ => trivial }
  refine (Routine.Safe.of_uses hfree hm (fun _ h => h) ?_).mono (fun _ _ _ _ => trivial)
  rintro w' op - (h | rfl)
  · exact allowed_aside h
  · trivial

/-- The run after its session. -/
theorem reported_safe (started : ℚ) (outcome : Except Exc Unit) (s : RunState) (w : Shift) :
    (Forwarder.conclude started outcome).Safe (Passes budget) working (fun _ _ _ => True) s w := by
  have htail : Routine.Uses (do
      let ended ← call .clock
      count (fun r => { r with durationSeconds := round3 (ended - started) })
      let s ← getSelf
      pure s.result : Run SyncResult) (fun op => isAside op = true ∨ op = .clock) := by
    refine Routine.uses_bind (Routine.uses_call (Or.inr rfl)) (fun _ => ?_)
    refine Routine.uses_bind (Routine.uses_modifySelf _) (fun _ => ?_)
    exact Routine.uses_bind Routine.uses_getSelf (fun _ => Routine.uses_pure _)
  unfold Forwarder.conclude
  cases outcome with
  | ok _ => exact idle_safe htail s w
  | error exc =>
      dsimp only
      split
      · exact idle_safe (Routine.uses_bind (Routine.uses_modifySelf _) (fun _ => htail)) s w
      · trivial

theorem session_shift {started : ℚ} (h : Between started s w) :
    (Forwarder.session o started).Safe (Passes o.timeBudgetSeconds) working (fun _ _ _ => True)
      s w := by
  have hlater : ∀ {s s' : RunState} {w w' : Shift}, Between started s w →
      s'.rejected = s.rejected ∧ w' = w → Between started s' w' := by
    rintro s s' w w' h ⟨hs, rfl⟩
    exact ⟨h.started, h.beyond, h.noted.later hs (Later.refl _)⟩
  have hmailbox : ∀ {α : Type} {m : Mailbox α}, m.Uses (fun op => isAside op = true) →
      ∀ s w, (onMailbox m).Safe (Passes o.timeBudgetSeconds) working
        (fun _ s' w' => s'.rejected = s.rejected ∧ w' = w) s w :=
    fun hm => aside_safe (Routine.uses_on hm) (Settlement.onMailbox_keepsRejected _)
  rw [Forwarder.session, Routine.safe_bind]
  refine (hmailbox (ICloudMailbox.requireKeywords_setup.mono (fun _ => isAside_of_isSetup))
    s w).mono ?_
  rintro r s₁ w₁ h₁
  rcases r with e | _
  · trivial
  rw [Routine.after_ok, Routine.safe_bind]
  refine safe_counted trivial (fun r => ?_)
  rcases r with e | _
  · trivial
  rw [Routine.after_ok, Routine.safe_bind]
  refine (aside_safe (Forwarder.extraLabelIds_uses (fun _ => rfl) o.label)
    (extraLabelIds_keeps o.label) s₁ _).mono ?_
  rintro r s₂ w₂ h₂
  rcases r with e | extraLabels
  · trivial
  rw [Routine.after_ok, Routine.safe_bind]
  refine (hmailbox (ICloudMailbox.listInboxUids_uses (fun _ => rfl) (fun _ => rfl) _) s₂ w₂).mono ?_
  rintro r s₃ w₃ h₃
  rcases r with e | uids
  · trivial
  have hbetween := hlater (hlater (hlater h h₁) h₂) h₃
  rw [Routine.after_ok, Routine.safe_bind, safe_count, Routine.after_ok, Routine.safe_bind]
  refine Routine.Safe.mono (processAll_shift uids ⟨hbetween.started, hbetween.beyond,
    hbetween.noted⟩) ?_
  intro r s₄ w₄ hs₄
  rcases r with e | _
  · trivial
  rw [Routine.after_ok, Routine.safe_bind, Routine.safe_getSelf, Routine.after_ok]
  split
  · trivial
  · exact settleRejections_shift hs₄

theorem run_shift : (Forwarder.run o).Safe (Passes o.timeBudgetSeconds) working
    (fun _ _ _ => True) (Forwarder.initial o) {} := by
  rw [Forwarder.run, Routine.safe_bind]
  refine safe_counted trivial (fun r => ?_)
  rcases r with e | started
  · trivial
  rw [Routine.after_ok, Routine.safe_bind, Routine.safe_attempt, Forwarder.withMailbox,
    Routine.safe_bind]
  refine (aside_safe (Routine.uses_on (ICloudMailbox.connect_setup.mono
    (fun _ => isAside_of_isSetup))) (Settlement.onMailbox_keepsRejected _) _ _).mono ?_
  rintro r s₁ w₁ ⟨hs₁, rfl⟩
  rcases r with e | _
  · exact reported_safe started (.error e) s₁ _
  rw [Routine.after_ok, Routine.safe_bind, Routine.safe_attempt]
  have hbetween : Between started s₁ { started := some started } := by
    refine ⟨rfl, rfl, fun r hr => ?_⟩
    rw [hs₁] at hr
    exact absurd hr List.not_mem_nil
  refine Routine.Safe.mono (session_shift hbetween) ?_
  intro outcome s₂ w₂ _
  rw [Routine.after_ok, Routine.safe_bind]
  refine (aside_safe (Routine.uses_on (ICloudMailbox.close_setup.mono
    (fun _ => isAside_of_isSetup))) (Settlement.onMailbox_keepsRejected _) s₂ w₂).mono ?_
  rintro r s₃ w₃ -
  rcases r with e | _
  · exact reported_safe started (.error e) s₃ w₃
  · rw [Routine.after_ok, Routine.safe_settle]
    exact reported_safe started outcome s₃ w₃

/-! ## Main result -/

/-- **The budget is asked before every message.** Whatever the servers answer and however the clock
    goes, each message is begun on a reading of the clock of its own that lies within the budget,
    and sends at most one insert on it. After a reading beyond the budget no message is begun and
    no insert is sent, and a run touches no message that it has not begun. -/
theorem budget_kept (o : ForwarderOptions) :
    Punctual o.timeBudgetSeconds (Forwarder.run o (Forwarder.initial o)) := by
  intro w op next hs
  have hunder := Program.Steps.under working.rely (fun _ => rfl) hs
  exact ((Program.Safe.steps (I := fun _ => True) (fun _ h => h) (fun _ _ h => h) (run_shift (o := o))
    trivial hunder).2 w rfl).1

end Shift

end MailTransporter
