import MailTransporter.Connection
import Mathlib.Tactic.Linarith
import Mathlib.Tactic.NormNum

set_option autoImplicit false

/-! # The daemon

`run_forever` as an operator sees it from outside: when it connects, and how long it waits between
two attempts. Every IMAP call, the clock and the notifier may fail in any way; only `sleep` and the
heartbeat, which stand outside of the `try` statement, return.

`Pace` follows the run. A reconnect wait is a `sleep` outside of a session, and the attempts that
failed since the last session are counted by their waits. -/

namespace MailTransporter

open Effect
open Effect.Routine (raise attempt getSelf modifySelf settle)

/-- Where the daemon stands: whether it is in a session, how many reconnect waits there were since
    the last one, and whether it has waited since its last attempt to connect. -/
structure Pace where
  entered : Bool := false
  waits : ℕ := 0
  rested : Bool := true
deriving DecidableEq

/-- The `waits`-th wait in a row is this long. -/
def reconnectDelay (waits : ℕ) : ℚ := min (5 * 2 ^ waits) 300

theorem reconnectDelay_succ (waits : ℕ) :
    reconnectDelay (waits + 1) = min (reconnectDelay waits * 2) 300 := by
  have hpow : (5 : ℚ) * 2 ^ (waits + 1) = 5 * 2 ^ waits * 2 := by
    rw [pow_succ, mul_assoc]
  unfold reconnectDelay
  rw [hpow]
  by_cases h : (5 : ℚ) * 2 ^ waits ≤ 300
  · rw [min_eq_left h]
  · have hle : (300 : ℚ) ≤ 5 * 2 ^ waits := le_of_not_ge h
    rw [min_eq_right hle, min_eq_right (by linarith), min_eq_right (by norm_num)]

namespace Pace

/-- The pace after a call that returned or raised. -/
def next (w : Pace) : (op : Op) → Reply op → Pace
  | .openClient, _ => { w with rested := false }
  | .hasCapability _, .ok _ => { w with entered := true, waits := 0 }
  | .logout, _ => { w with entered := false }
  | .sleep _, .ok _ => if w.entered then w else { w with waits := w.waits + 1, rested := true }
  | _, _ => w

/-- The calls that stand outside of the `try` statement. -/
def Returns : (op : Op) → Reply op → Prop
  | .touch _ _, .error _ => False
  | .sleep _, .error _ => False
  | _, _ => True

/-- Any servers and any forwarder. -/
def Patient : Env Op Reply Pace := fun w op r w' => Returns op r ∧ w' = w.next op r

/-- What the daemon keeps to: it connects only outside of a session and once it has rested, and
    outside of a session it waits exactly as long as it is due. -/
def Allowed (w : Pace) : Op → Prop
  | .openClient => w.entered = false ∧ w.rested = true
  | .sleep seconds => w.entered = false → seconds = reconnectDelay w.waits
  | _ => True

def pacing : Discipline Op Pace where
  rely := fun w w' => w' = w
  guard := Allowed

/-- In every execution every call is allowed. -/
def Paced {α : Type} (p : Program Op Reply α) : Prop :=
  ∀ w op next, Program.Steps Patient ({}, p) (w, .call op next) → Allowed w op

/-- No execution ends with an exception. -/
def Survives {σ α : Type} (p : Program Op Reply (Except Exc α × σ)) : Prop :=
  ∀ w o, Program.Steps Patient ({}, p) (w, .pure o) → ∃ a, o.1 = .ok a

theorem safe_paced {σ : Type} {op : Op} {Q : Except Exc (Value op) → σ → Pace → Prop} {s : σ}
    {w : Pace} (hallowed : Allowed w op) (h : ∀ r, Returns op r → Q r s (w.next op r)) :
    (call op : Py σ (Value op)).Safe Patient pacing Q s w := by
  rintro w₁ rfl
  refine ⟨hallowed, ?_⟩
  rintro r w₂ ⟨hreturns, rfl⟩
  exact h r hreturns

/-! ## In a session -/

/-- The calls made in a session. -/
def isWithin : Op → Bool
  | .openClient => false
  | .logout => false
  | _ => true

theorem isWithin_of_isServed {op : Op} (h : op.isServed true = true) : isWithin op = true := by
  cases op
  all_goals first | rfl | simp [Op.isServed] at h

/-- In a session, with no wait behind it. -/
def Within (w : Pace) : Prop := w.entered = true ∧ w.waits = 0

/-- Calls made in a session leave it entered. -/
def stay : Growth Patient pacing (fun op => isWithin op = true) where
  grow := fun w w' => w.Within → w'.Within
  refl := fun _ h => h
  trans := fun h h' hw => h' (h hw)
  rely := by
    rintro w w' rfl
    exact id
  step := by
    rintro w op r w' hop - ⟨-, rfl⟩ ⟨hentered, hwaits⟩
    unfold next
    split
    · exact absurd hop (by simp [isWithin])
    · exact ⟨rfl, rfl⟩
    · exact absurd hop (by simp [isWithin])
    · rw [if_pos hentered]
      exact ⟨hentered, hwaits⟩
    · exact ⟨hentered, hwaits⟩

theorem allowed_within {w : Pace} (hw : w.Within) {op : Op} (h : isWithin op = true) :
    Allowed w op := by
  cases op
  case openClient => simp [isWithin] at h
  case sleep seconds => exact fun hleft => absurd (hw.1.symm.trans hleft) (by simp)
  all_goals trivial

variable {settings : WatcherSettings}

/-- `idle_wait` makes calls of the session. -/
theorem idleWait_within (timeout : ℚ) :
    (ICloudMailbox.idleWait timeout).Uses (fun op => isWithin op = true) := by
  refine Routine.uses_bind ICloudMailbox.client_uses (fun _ => ?_)
  refine Routine.uses_bind (Routine.uses_attempt ?_) (fun r => ?_)
  · refine Routine.uses_bind (Routine.uses_call rfl) (fun _ => ?_)
    refine Routine.uses_bind (Routine.uses_attempt (Routine.uses_call rfl)) (fun responses => ?_)
    exact Routine.uses_bind (Routine.uses_call rfl) (fun _ => Routine.uses_settle responses)
  · cases r with
    | ok pushed => exact Routine.uses_pure _
    | error e => exact Routine.uses_raise _

theorem idleWait_keeps (timeout : ℚ) :
    (ICloudMailbox.idleWait timeout).Keeps ICloudMailbox.connected := by
  refine Routine.keeps_bind (ICloudMailbox.client_keeps) (fun _ => ?_)
  refine Routine.keeps_bind (Routine.keeps_attempt ?_) (fun r => ?_)
  · refine Routine.keeps_bind (Routine.keeps_call _) (fun _ => ?_)
    refine Routine.keeps_bind (Routine.keeps_attempt (Routine.keeps_call _)) (fun responses => ?_)
    exact Routine.keeps_bind (Routine.keeps_call _) (fun _ => Routine.keeps_settle responses)
  · cases r with
    | ok pushed => exact Routine.keeps_pure _
    | error e => exact Routine.keeps_raise _

/-- A pass of the inner loop makes calls of the session only. -/
theorem serve_within : (Watch.serve settings).Uses (fun op => isWithin op = true) := by
  have hstep := Connection.step_fit.served.mono (fun _ => isWithin_of_isServed)
  refine Routine.uses_bind (Routine.uses_call rfl) (fun _ => ?_)
  refine Routine.uses_bind hstep (fun delay => ?_)
  cases delay with
  | some delay => exact Routine.uses_bind (Routine.uses_call rfl) (fun _ => Routine.uses_call rfl)
  | none =>
      refine Routine.uses_bind Routine.uses_getSelf (fun self => ?_)
      split
      · refine Routine.uses_bind (Routine.uses_call rfl) (fun _ => ?_)
        exact Routine.uses_bind (Routine.uses_on (idleWait_within _)) (fun _ => Routine.uses_pure _)
      · exact Routine.uses_bind (Routine.uses_call rfl) (fun _ => Routine.uses_call rfl)

theorem serve_keeps : (Watch.serve settings).Keeps (fun s => s.mailbox.connected) := by
  refine Routine.keeps_bind (Routine.keeps_call _) (fun _ => ?_)
  refine Routine.keeps_bind Connection.step_fit.keepsOpen (fun delay => ?_)
  cases delay with
  | some delay => exact Routine.keeps_bind (Routine.keeps_call _) (fun _ => Routine.keeps_call _)
  | none =>
      refine Routine.keeps_bind Routine.keeps_getSelf (fun self => ?_)
      split
      · refine Routine.keeps_bind (Routine.keeps_call _) (fun _ => ?_)
        exact Routine.keeps_bind (Routine.keeps_part (fun _ _ => rfl) (idleWait_keeps _))
          (fun _ => Routine.keeps_pure _)
      · exact Routine.keeps_bind (Routine.keeps_call _) (fun _ => Routine.keeps_call _)

/-! ### The backoff is set by the outer loop only -/

theorem onMailbox_keeps {α : Type} (m : Mailbox α) : (Watch.onMailbox m).Keeps Watch.backoff :=
  Routine.keeps_on m (fun _ _ => rfl)

theorem onLoop_keeps (f : WatchLoop → WatchLoop) : (Watch.onLoop f).Keeps Watch.backoff :=
  Routine.keeps_modifySelf (fun _ => rfl)

theorem settleTrigger_keeps (now : ℚ) (uids : Finset ℕ) (result : TriggerResult) :
    (WatchLoop.settleTrigger now uids result).Keeps Watch.backoff := by
  unfold WatchLoop.settleTrigger
  split
  · refine Routine.keeps_bind (onLoop_keeps _) (fun _ => ?_)
    split
    · exact Routine.keeps_bind (onLoop_keeps _) (fun _ => Routine.keeps_pure _)
    · exact Routine.keeps_pure _
  split
  · exact Routine.keeps_bind (onLoop_keeps _) (fun _ => Routine.keeps_pure _)
  · refine Routine.keeps_bind (onLoop_keeps _) (fun _ => ?_)
    refine Routine.keeps_bind Routine.keeps_getSelf (fun self => ?_)
    refine Routine.keeps_bind ?_ (fun delay => Routine.keeps_bind (onLoop_keeps _)
      (fun _ => Routine.keeps_pure _))
    unfold WatchLoop.backoffDelay
    split
    · exact Routine.keeps_raise _
    · exact Routine.keeps_pure _

theorem step_keeps : WatchLoop.step.Keeps Watch.backoff := by
  refine Routine.keeps_bind (Routine.keeps_call _) (fun now => ?_)
  refine Routine.keeps_bind (onMailbox_keeps _) (fun uids => ?_)
  refine Routine.keeps_bind (onLoop_keeps _) (fun _ => ?_)
  split
  · exact Routine.keeps_pure _
  refine Routine.keeps_bind Routine.keeps_getSelf (fun self => ?_)
  dsimp only
  split
  · exact Routine.keeps_pure _
  split
  · exact Routine.keeps_pure _
  refine Routine.keeps_bind Routine.keeps_getSelf (fun self => ?_)
  refine Routine.keeps_bind (Routine.keeps_call _) (fun _ => ?_)
  refine Routine.keeps_bind (Routine.keeps_call _) (fun result => ?_)
  exact Routine.keeps_bind (Routine.keeps_call _) (fun _ => settleTrigger_keeps now _ result)

theorem serve_keepsBackoff : (Watch.serve settings).Keeps Watch.backoff := by
  refine Routine.keeps_bind (Routine.keeps_call _) (fun _ => ?_)
  refine Routine.keeps_bind step_keeps (fun delay => ?_)
  cases delay with
  | some delay => exact Routine.keeps_bind (Routine.keeps_call _) (fun _ => Routine.keeps_call _)
  | none =>
      refine Routine.keeps_bind Routine.keeps_getSelf (fun self => ?_)
      split
      · refine Routine.keeps_bind (Routine.keeps_call _) (fun _ => ?_)
        exact Routine.keeps_bind (onMailbox_keeps _) (fun _ => Routine.keeps_pure _)
      · exact Routine.keeps_bind (Routine.keeps_call _) (fun _ => Routine.keeps_call _)

/-- Work done in a session. -/
theorem within_safe {w : Pace} (hw : w.Within) {s : Watch} (hs : s.mailbox.connected = true) :
    (Watch.serve settings).Safe Patient pacing (fun _ s' w' => w'.Within ∧
      s'.mailbox.connected = true ∧ s'.backoff = s.backoff) s w := by
  have hstays : (Watch.serve settings).Safe Patient pacing
      (fun _ _ w' => w.Within → w'.Within) s w :=
    Routine.Safe.of_uses stay serve_within (fun _ h => h)
      (fun _ _ hgrow hop => allowed_within (hgrow hw) hop)
  refine ((hstays.also (fun _ => trivial) (serve_keeps s)).also (fun _ => trivial)
    (serve_keepsBackoff s)).mono ?_
  rintro o s' w' ⟨⟨hgrow, hconnected⟩, hbackoff⟩
  exact ⟨hgrow hw, hconnected.trans hs, hbackoff⟩

/-! ## Between the sessions -/

/-- Outside of a session, with the backoff that is due. -/
structure Outside (s : Watch) (w : Pace) : Prop where
  left : w.entered = false
  due : s.backoff = reconnectDelay w.waits

/-- `connect`: it enters a session if it returns. -/
theorem connect_safe {s : ICloudMailbox} {w : Pace} (hleft : w.entered = false)
    (hrested : w.rested = true) : ICloudMailbox.connect.Safe Patient pacing (fun o s' w' =>
      (o = .ok () ∧ s'.connected = true ∧ w'.Within) ∨
      ((∃ e, o = .error e) ∧ w'.entered = false ∧ w'.waits = w.waits)) s w := by
  have hfailed : ∀ {e : Exc} {s' : ICloudMailbox} {w' : Pace}, w'.entered = w.entered →
      w'.waits = w.waits → ((Except.error e : Except Exc Unit) = .ok () ∧ s'.connected = true ∧
        w'.Within) ∨ ((∃ e', (Except.error e : Except Exc Unit) = .error e') ∧ w'.entered = false ∧
        w'.waits = w.waits) :=
    fun hentered hwaits => Or.inr ⟨⟨_, rfl⟩, hentered.trans hleft, hwaits⟩
  simp only [ICloudMailbox.connect, ICloudMailbox.openSession, Routine.safe_bind,
    Routine.safe_attempt, Routine.safe_getSelf, Routine.after_ok]
  refine safe_paced ⟨hleft, hrested⟩ (fun r _ => ?_)
  rcases r with e | _
  · exact hfailed rfl rfl
  rw [Routine.after_ok, Routine.safe_bind]
  refine safe_paced trivial (fun r _ => ?_)
  rcases r with e | _
  · exact hfailed rfl rfl
  rw [Routine.after_ok]
  refine safe_paced trivial (fun r _ => ?_)
  rcases r with e | info
  · exact hfailed rfl rfl
  simp only [Routine.safe_bind, Routine.safe_modifySelf, Routine.after_ok]
  refine safe_paced trivial (fun r _ => ?_)
  rcases r with e | found
  · exact hfailed rfl rfl
  · exact Or.inl ⟨rfl, rfl, rfl, rfl⟩

/-- `close` leaves the session, whatever the server answers. -/
theorem close_safe {s : ICloudMailbox} (hs : s.connected = true) (w : Pace) :
    ICloudMailbox.close.Safe Patient pacing
      (fun o _ w' => o = .ok () ∧ w' = { w with entered := false }) s w := by
  simp only [ICloudMailbox.close, Routine.safe_bind, Routine.safe_getSelf, Routine.after_ok,
    Routine.safe_modifySelf, hs, if_true, Routine.safe_attempt]
  refine safe_paced trivial (fun r _ => ?_)
  rcases r with e | _
  · simp only [Routine.safe_bind, Routine.safe_attempt]
    exact safe_paced trivial (fun r _ => ⟨rfl, rfl⟩)
  · exact ⟨rfl, rfl⟩

/-- Where `run_forever` stands between two passes. -/
def Stands : Watch.Phase → Watch → Pace → Prop
  | .serving, s, w => w.Within ∧ s.mailbox.connected = true ∧ s.backoff = 5
  | _, s, w => Outside s w ∧ w.rested = true

/-- A part of the `try` block that returns in a session or raises outside of one. The wait that
    follows an exception is the one that is due. -/
theorem guarded_safe {body : Watching Unit} {s : Watch} {w : Pace}
    (h : body.Safe Patient pacing (fun o s' w' =>
      (o = .ok () ∧ Stands .serving s' w') ∨ ((∃ e, o = .error e) ∧ Outside s' w')) s w) :
    (Watch.guarded body).Safe Patient pacing
      (fun o s' w' => ∃ next, o = .ok next ∧ Stands next s' w') s w := by
  rw [Watch.guarded, Routine.safe_bind, Routine.safe_attempt]
  refine h.mono ?_
  rintro r s₁ w₁ (⟨rfl, hserving⟩ | ⟨⟨e, rfl⟩, hout⟩)
  · exact ⟨.serving, rfl, hserving⟩
  simp only [Routine.after_ok, Watch.reconnectBackoff, Routine.safe_bind, Routine.safe_getSelf]
  refine safe_paced trivial (fun r hreturns => ?_)
  rcases r with e | _
  · exact hreturns.elim
  rw [Routine.after_ok, Routine.safe_bind]
  refine safe_paced (fun _ => hout.due) (fun r hreturns => ?_)
  rcases r with e | _
  · exact hreturns.elim
  -- The sleep outside of a session is the wait that is counted.
  have hnext : ∀ u v, (w₁.next (.touch (s₁.backoff + HEARTBEAT_MARGIN) "reconnect backoff")
      (.ok u)).next (.sleep s₁.backoff) (.ok v) =
        { w₁ with waits := w₁.waits + 1, rested := true } := by
    intro u v
    simp [next, hout.left]
  rw [hnext]
  refine ⟨.connecting, rfl, ⟨hout.left, ?_⟩, rfl⟩
  show min (s₁.backoff * 2) 300 = reconnectDelay (w₁.waits + 1)
  rw [reconnectDelay_succ, hout.due]

theorem pass_safe (maxSessions : Option ℕ) {phase : Watch.Phase} {s : Watch} {w : Pace}
    (h : Stands phase s w) : (Watch.pass settings maxSessions phase).Safe Patient pacing
      (fun o s' w' => ∃ next, o = .ok next ∧ Stands next s' w') s w := by
  cases phase with
  | ended => exact ⟨.ended, rfl, h⟩
  | connecting =>
      obtain ⟨hout, hrested⟩ := h
      rw [Watch.pass, Watch.beginSession, Routine.safe_bind, Routine.safe_getSelf, Routine.after_ok]
      split
      swap
      · exact ⟨.ended, rfl, hout, hrested⟩
      rw [Routine.safe_bind, Routine.safe_modifySelf, Routine.after_ok]
      refine guarded_safe ?_
      rw [Watch.openSession, Routine.safe_bind]
      refine safe_paced trivial (fun r hreturns => ?_)
      rcases r with e | _
      · exact hreturns.elim
      simp only [Routine.after_ok, Routine.safe_bind, Routine.safe_modifySelf, Watch.onMailbox,
        Routine.safe_on]
      refine (connect_safe hout.left hrested).mono ?_
      rintro r mailbox w₁ (⟨rfl, hconnected, hwithin⟩ | ⟨⟨e, rfl⟩, hleft, hwaits⟩)
      · exact Or.inl ⟨rfl, hwithin, hconnected, rfl⟩
      · refine Or.inr ⟨⟨_, rfl⟩, hleft, ?_⟩
        rw [hwaits]
        exact hout.due
  | serving =>
      obtain ⟨hwithin, hconnected, hbackoff⟩ := h
      refine guarded_safe ?_
      rw [Watch.serveOrClose, Routine.safe_bind, Routine.safe_attempt]
      refine (within_safe hwithin hconnected).mono ?_
      rintro r s₁ w₁ ⟨hwithin₁, hconnected₁, hbackoff₁⟩
      rw [Routine.after_ok]
      have hdue := hbackoff₁.trans hbackoff
      rcases r with e | _
      · simp only [Routine.safe_bind, Watch.onMailbox, Routine.safe_on]
        refine (close_safe hconnected₁ w₁).mono ?_
        rintro r mailbox w₂ ⟨rfl, rfl⟩
        refine Or.inr ⟨⟨_, rfl⟩, rfl, ?_⟩
        show s₁.backoff = reconnectDelay w₁.waits
        rw [hwithin₁.2, hdue]
        norm_num [reconnectDelay]
      · exact Or.inl ⟨rfl, hwithin₁, hconnected₁, hdue⟩

theorem runForever_safe (maxSessions : Option ℕ) (n : ℕ) {phase : Watch.Phase} {s : Watch}
    {w : Pace} (h : Stands phase s w) :
    (Watch.runForever settings maxSessions n phase).Safe Patient pacing
      (fun o _ _ => o = .ok ()) s w := by
  induction n generalizing phase s w with
  | zero => rfl
  | succ n ih =>
      rw [Watch.runForever, Routine.safe_bind]
      refine (pass_safe maxSessions h).mono ?_
      rintro r s₁ w₁ ⟨next, rfl, hnext⟩
      exact ih hnext

theorem initial_stands (settings : WatcherSettings) :
    Stands .connecting (Watch.initial settings) {} := by
  refine ⟨⟨rfl, ?_⟩, rfl⟩
  show (5 : ℚ) = reconnectDelay 0
  norm_num [reconnectDelay]

/-! ## Main results -/

/-- **The daemon keeps going, and never hammers the server.** No exception of the IMAP client, the
    clock or the notifier ends `run_forever`. Between two attempts to connect it waits once, for
    `5 * 2 ^ k` seconds and at most five minutes after the `k`-th failure in a row, and a session
    that was entered starts the count over. -/
theorem watcher_paced (settings : WatcherSettings) (maxSessions : Option ℕ) (n : ℕ) :
    Paced (Watch.runForever settings maxSessions n .connecting (Watch.initial settings)) ∧
      Survives (Watch.runForever settings maxSessions n .connecting (Watch.initial settings)) := by
  have hsafe : (Watch.runForever settings maxSessions n .connecting).Safe Patient pacing
      (fun o _ _ => o = .ok ()) (Watch.initial settings) {} :=
    runForever_safe maxSessions n (initial_stands settings)
  have hsteps : ∀ {w p}, Program.Steps Patient
      ({}, Watch.runForever settings maxSessions n .connecting (Watch.initial settings)) (w, p) →
      p.Safe Patient pacing (fun o _ => o.1 = .ok ()) w := by
    intro w p hs
    have hunder := Program.Steps.under pacing.rely (fun _ => rfl) hs
    exact (Program.Safe.steps (I := fun _ => True) (fun _ h => h) (fun _ _ h => h) hsafe trivial
      hunder).2
  exact ⟨fun w op next hs => (hsteps hs w rfl).1, fun w o hs => ⟨(), hsteps hs⟩⟩

end Pace

end MailTransporter
