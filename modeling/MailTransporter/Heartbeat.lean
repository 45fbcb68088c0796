import MailTransporter.WatchLoop
import MailTransporter.Effect.Meter
import Mathlib.Tactic.Linarith

set_option autoImplicit false

/-! # The heartbeat (`health.py`) and the time the watcher takes

Before every blocking operation `run_forever` announces how long it may take. `Pulse` is its
environment: no call takes longer than its timeout. What is left of the time announced last is a
`Meter`, and with timeouts of at most 40 seconds it is never used up. The listing of the INBOX is
the tightest: two `SEARCH`, a `FETCH` and the `LOGOUT` have to do with the time of one command and
the margin. -/

namespace MailTransporter

open Effect
open Effect.Routine (raise attempt getSelf modifySelf settle)

structure Heartbeat where
  deadline : ℚ
  note : String
deriving Repr

namespace Heartbeat

/-- `__init__`, at the time `now` -/
def start (startupGrace now : ℚ) : Heartbeat := ⟨now + startupGrace, "starting"⟩

/-- `touch`, at the time `now` -/
def touch (ttl : ℚ) (note : String) (now : ℚ) : Heartbeat := ⟨now + max ttl 0, note⟩

/-- `ok`, at the time `now`: `/healthz` answers 200, and 503 otherwise. -/
def ok (h : Heartbeat) (now : ℚ) : Bool := decide (now ≤ h.deadline)

end Heartbeat

/-- The time and the heartbeat, and whether the watcher has touched it yet. -/
structure Pulse where
  now : ℚ
  heartbeat : Heartbeat
  touched : Bool := false

namespace Pulse

/-- The watcher starts. -/
def starting (startupGrace now : ℚ) : Pulse := ⟨now, .start startupGrace now, false⟩

def touch (p : Pulse) (ttl : ℚ) (note : String) : Pulse := ⟨p.now, .touch ttl note p.now, true⟩

/-- `seconds` later -/
def after (p : Pulse) (seconds : ℚ) : Pulse := { p with now := p.now + seconds }

/-- The heartbeat has not been touched yet, or is in time. -/
def Healthy (p : Pulse) : Prop := p.touched = true → p.heartbeat.ok p.now = true

/-- What was announced last leaves `seconds`. -/
structure Left (seconds : ℚ) (p : Pulse) : Prop where
  touched : p.touched = true
  deadline : p.now + seconds ≤ p.heartbeat.deadline

theorem Left.healthy {seconds : ℚ} {p : Pulse} (h : p.Left seconds) (hpos : 0 ≤ seconds) :
    p.Healthy := by
  intro _
  have hdeadline := h.deadline
  exact decide_eq_true (by linarith)

theorem Left.less {seconds seconds' : ℚ} {p : Pulse} (hle : seconds' ≤ seconds)
    (h : p.Left seconds) : p.Left seconds' := by
  refine ⟨h.touched, ?_⟩
  have hdeadline := h.deadline
  linarith

theorem Left.after {seconds elapsed : ℚ} {p : Pulse} (h : p.Left (elapsed + seconds)) :
    (p.after elapsed).Left seconds := by
  refine ⟨h.touched, ?_⟩
  have hdeadline := h.deadline
  show p.now + elapsed + seconds ≤ p.heartbeat.deadline
  linarith

/-- A touch leaves what it announces. -/
theorem left_touch (p : Pulse) {ttl seconds : ℚ} (note : String) (h : seconds ≤ max ttl 0) :
    (p.touch ttl note).Left seconds := by
  refine ⟨rfl, ?_⟩
  show p.now + seconds ≤ p.now + max ttl 0
  linarith

end Pulse

/-! ## The time a call takes -/

section timed

variable (settings : WatcherSettings)

/-- The longest a call takes before it returns or raises. -/
def limit : Op → ℚ
  | .openClient => settings.imapTimeout
  | .login => settings.imapTimeout
  | .selectFolder _ _ => settings.imapTimeout
  | .search _ => settings.imapTimeout
  | .fetch _ _ => settings.imapTimeout
  | .idle => settings.imapTimeout
  | .idleCheck timeout => max timeout 0
  | .idleDone => settings.imapTimeout
  | .logout => settings.imapTimeout
  | .trigger => settings.requestTimeout
  | _ => 0

/-- The servers and the notifier answer what they like within their time; `sleep` takes the time it
    is told. -/
def Timed : Env Op Reply Pulse
  | p, .touch ttl note, r, p' => r = .ok () ∧ p' = p.touch ttl note
  | p, .sleep seconds, _, p' => p' = p.after (max seconds 0)
  | p, .clock, r, p' => r = .ok p.now ∧ p' = p
  | p, op, _, p' => ∃ elapsed, 0 ≤ elapsed ∧ elapsed ≤ limit settings op ∧ p' = p.after elapsed

/-- What a call takes of the time that is left. -/
def price : Op → ℚ
  | .sleep seconds => max seconds 0
  | op => limit settings op

/-- **The meter of the heartbeat.** -/
def stopwatch : Meter ℚ (Timed settings) Pulse.Healthy where
  left := fun seconds p => p.Left seconds
  metered := fun op => (∀ ttl note, op ≠ .touch ttl note) ∧ 0 ≤ price settings op
  price := price settings
  nonneg := fun hop => hop.2
  sound := fun hpos h => h.healthy hpos
  less := fun hle h => h.less hle
  charge := by
    intro p op r p' seconds hop h hE
    -- a call that took less than its limit leaves more
    have hwithin : ∀ elapsed, elapsed ≤ limit settings op → price settings op = limit settings op →
        p' = p.after elapsed → p'.Left seconds := by
      rintro elapsed hle hprice rfl
      exact Pulse.Left.after (h.less (by rw [hprice]; linarith))
    cases op
    case touch ttl note => exact absurd rfl (hop.1 ttl note)
    case sleep seconds' =>
      obtain rfl : p' = p.after (max seconds' 0) := hE
      exact Pulse.Left.after h
    case clock =>
      obtain ⟨-, rfl⟩ := hE
      exact h.less (le_of_eq (zero_add seconds).symm)
    all_goals
      obtain ⟨elapsed, -, hle, rfl⟩ := hE
      exact hwithin elapsed hle rfl rfl

end timed

section budget

variable {settings : WatcherSettings}

/-- The settings are positive, and the watcher skips the two quarantine keywords. -/
structure WatcherSettings.Accepted (settings : WatcherSettings) : Prop where
  imapTimeout : 0 < settings.imapTimeout
  retriggerInterval : 0 < settings.retriggerInterval
  idleTimeout : 0 < settings.idleTimeout
  pollInterval : 0 < settings.pollInterval
  requestTimeout : 0 < settings.requestTimeout
  quarantineKeywords : ∃ k : Keywords, settings.quarantineKeywords = [k.failed, k.unverified]

/-! ## The session -/

/-- A call that takes no more than one command. -/
theorem takes_command {σ : Type} {op : Op} (hT : 0 ≤ settings.imapTimeout)
    (hop : ∀ ttl note, op ≠ .touch ttl note) (hprice : price settings op = settings.imapTimeout) :
    (call op : Py σ (Value op)).Takes (stopwatch settings) settings.imapTimeout := by
  have hmetered : (stopwatch settings).metered op := ⟨hop, by rw [hprice]; exact hT⟩
  have htakes := Routine.takes_call (ε := Exc) (σ := σ) hmetered
  rwa [show (stopwatch settings).price op = settings.imapTimeout from hprice] at htakes

/-- A call that takes no time. -/
theorem takes_moment {σ : Type} {op : Op} (hop : ∀ ttl note, op ≠ .touch ttl note)
    (hprice : price settings op = 0) :
    (call op : Py σ (Value op)).Takes (stopwatch settings) 0 := by
  have hmetered : (stopwatch settings).metered op := ⟨hop, le_of_eq hprice.symm⟩
  have htakes := Routine.takes_call (ε := Exc) (σ := σ) hmetered
  rwa [show (stopwatch settings).price op = 0 from hprice] at htakes

namespace ICloudMailbox

theorem client_takes : client.Takes (stopwatch settings) 0 := by
  refine Routine.takes_bind_free Routine.takes_getSelf (le_refl 0) (fun self => ?_)
  split
  · exact Routine.takes_pure ()
  · exact Routine.takes_raise _

variable (hT : 0 ≤ settings.imapTimeout)
include hT

/-- Connecting, logging in and selecting the INBOX. -/
theorem connect_takes : connect.Takes (stopwatch settings) (3 * settings.imapTimeout) := by
  have hopen : openSession.Takes (stopwatch settings)
      (settings.imapTimeout + (settings.imapTimeout + settings.imapTimeout)) := by
    refine Routine.takes_bind_free Routine.takes_getSelf (by linarith) (fun self => ?_)
    refine Routine.takes_bind (takes_command hT nofun rfl) (by linarith) (fun _ => ?_)
    refine Routine.takes_bind (takes_command hT nofun rfl) hT (fun _ => ?_)
    exact takes_command hT nofun rfl
  have hsum : 3 * settings.imapTimeout =
      settings.imapTimeout + (settings.imapTimeout + settings.imapTimeout) := by linarith
  rw [hsum]
  refine Routine.takes_then (Routine.takes_attempt hopen) (fun o => ?_)
  cases o with
  | error e => exact Routine.takes_raise _
  | ok info =>
      refine Routine.takes_then (Routine.takes_modifySelf _) (fun _ => ?_)
      refine Routine.takes_then (takes_moment nofun rfl) (fun _ => ?_)
      exact Routine.takes_modifySelf _

theorem close_takes : close.Takes (stopwatch settings) settings.imapTimeout := by
  refine Routine.takes_bind_free Routine.takes_getSelf hT (fun self => ?_)
  refine Routine.takes_bind_free (Routine.takes_modifySelf _) hT (fun _ => ?_)
  split
  · refine Routine.takes_then (Routine.takes_attempt (takes_command hT nofun rfl)) (fun o => ?_)
    cases o with
    | ok _ => exact Routine.takes_pure ()
    | error e =>
        refine Routine.takes_then (Routine.takes_attempt (takes_moment nofun rfl)) (fun _ => ?_)
        exact Routine.takes_pure ()
  · exact (Routine.takes_pure ()).mono hT

theorem inboxFlags_takes :
    inboxFlags.Takes (stopwatch settings) (settings.imapTimeout + settings.imapTimeout) := by
  have hfetch : searchAndFetchFlags.Takes (stopwatch settings)
      (settings.imapTimeout + settings.imapTimeout) := by
    refine Routine.takes_bind_free client_takes (by linarith) (fun _ => ?_)
    refine Routine.takes_bind (takes_command hT nofun rfl) hT (fun uids => ?_)
    split
    · exact (Routine.takes_pure _).mono hT
    · refine Routine.takes_bind_free client_takes hT (fun _ => ?_)
      exact Routine.takes_then (takes_command hT nofun rfl) (fun _ => Routine.takes_pure _)
  refine Routine.takes_then (Routine.takes_attempt hfetch) (fun o => ?_)
  cases o with
  | error e => exact Routine.takes_raise _
  | ok found => exact Routine.takes_pure _

/-- The `SEARCH` that excludes the keywords, and the fallback to a `SEARCH` and a `FETCH`. -/
theorem listInboxUids_takes (skipKeywords : Option (List String)) :
    (listInboxUids skipKeywords).Takes (stopwatch settings) (3 * settings.imapTimeout) := by
  have hsearch : ∀ keywords, (searchQueue keywords).Takes (stopwatch settings)
      settings.imapTimeout := by
    intro keywords
    refine Routine.takes_bind_free client_takes hT (fun _ => ?_)
    exact Routine.takes_then (takes_command hT nofun rfl) (fun _ => Routine.takes_pure _)
  have hsum : 3 * settings.imapTimeout =
      settings.imapTimeout + (settings.imapTimeout + settings.imapTimeout) := by linarith
  rw [hsum]
  refine Routine.takes_bind_free Routine.takes_getSelf (by linarith) (fun self => ?_)
  refine Routine.takes_bind (Routine.takes_attempt (hsearch _)) (by linarith) (fun o => ?_)
  cases o with
  | ok uids => exact (Routine.takes_pure _).mono (by linarith)
  | error e =>
      dsimp only
      split
      · exact (Routine.takes_raise _).mono (by linarith)
      · exact Routine.takes_then (inboxFlags_takes hT) (fun _ => Routine.takes_pure _)

theorem idleWait_takes {timeout : ℚ} (htimeout : 0 ≤ timeout) :
    (idleWait timeout).Takes (stopwatch settings) (timeout + 2 * settings.imapTimeout) := by
  have hcheck : (call (.idleCheck timeout) : Mailbox Bool).Takes (stopwatch settings) timeout := by
    have hprice : price settings (.idleCheck timeout) = timeout := max_eq_left htimeout
    have hmetered : (stopwatch settings).metered (.idleCheck timeout) :=
      ⟨nofun, by rw [hprice]; exact htimeout⟩
    have htakes := Routine.takes_call (ε := Exc) (σ := ICloudMailbox) hmetered
    rwa [show (stopwatch settings).price (.idleCheck timeout) = timeout from hprice] at htakes
  have honce : (idleOnce timeout).Takes (stopwatch settings)
      (settings.imapTimeout + (timeout + settings.imapTimeout)) := by
    refine Routine.takes_bind (takes_command hT nofun rfl) (by linarith) (fun _ => ?_)
    refine Routine.takes_bind (Routine.takes_attempt hcheck) hT (fun o => ?_)
    exact Routine.takes_then (takes_command hT nofun rfl) (fun _ => Routine.takes_settle o)
  have hsum : timeout + 2 * settings.imapTimeout =
      settings.imapTimeout + (timeout + settings.imapTimeout) := by linarith
  rw [hsum]
  refine Routine.takes_bind_free client_takes (by linarith) (fun _ => ?_)
  refine Routine.takes_then (Routine.takes_attempt honce) (fun o => ?_)
  cases o with
  | ok pushed => exact Routine.takes_pure _
  | error e => exact Routine.takes_raise _

end ICloudMailbox

/-! ## The loop -/

namespace Pulse

variable {p : Pulse} {s : Watch}

/-- What is announced is there to be taken, whatever was left before. -/
theorem safe_touch {ttl : ℚ} {note : String} {Q : Except Exc Unit → Watch → Pulse → Prop}
    (h : p.Healthy) (hQ : Q (.ok ()) s (p.touch ttl note)) :
    (call (.touch ttl note) : Watching Unit).Safe (Timed settings) (.keeping Healthy) Q s p := by
  refine Routine.safe_call_keeping.mpr ⟨h, fun r p' hE => ?_⟩
  obtain ⟨rfl, rfl⟩ := hE
  exact hQ

/-- A routine that takes no more than is left. -/
theorem safe_takes {α : Type} {m : Watching α} {c rest : ℚ}
    {Q : Except Exc α → Watch → Pulse → Prop} (hm : m.Takes (stopwatch settings) c)
    (hrest : 0 ≤ rest) (h : p.Left (c + rest)) (hQ : ∀ r s' p', p'.Left rest → Q r s' p') :
    m.Safe (Timed settings) (.keeping Healthy) Q s p :=
  (hm.safe s p rest hrest h).mono hQ

/-- A method of the session, which leaves the loop alone. -/
theorem safe_session {α : Type} {m : Mailbox α} {c rest : ℚ}
    {Q : Except Exc α → Watch → Pulse → Prop} (hm : m.Takes (stopwatch settings) c)
    (hrest : 0 ≤ rest) (h : p.Left (c + rest))
    (hQ : ∀ r mailbox p', p'.Left rest → Q r { s with mailbox := mailbox } p') :
    (Watch.onMailbox m).Safe (Timed settings) (.keeping Healthy) Q s p :=
  Routine.safe_on.mpr ((hm.safe s.mailbox p rest hrest h).mono hQ)

end Pulse

open Pulse (safe_touch safe_takes safe_session)

theorem sleep_takes {seconds : ℚ} (h : 0 ≤ seconds) :
    (call (.sleep seconds) : Watching Unit).Takes (stopwatch settings) seconds := by
  have hprice : price settings (.sleep seconds) = seconds := max_eq_left h
  have hmetered : (stopwatch settings).metered (.sleep seconds) :=
    ⟨nofun, by rw [hprice]; exact h⟩
  have htakes := Routine.takes_call (ε := Exc) (σ := Watch) hmetered
  rwa [show (stopwatch settings).price (.sleep seconds) = seconds from hprice] at htakes

/-- The end of `step` makes no call, and asks for no negative wait. -/
theorem settleTrigger_nonneg {now : ℚ} {uids : Finset ℕ} {result : TriggerResult} {s : Watch}
    {p : Pulse} : (WatchLoop.settleTrigger now uids result).Safe (Timed settings)
      (.keeping Pulse.Healthy)
      (fun r _ p' => p' = p ∧ ∀ delay, r = .ok (some delay) → 0 ≤ delay) s p := by
  unfold WatchLoop.settleTrigger Watch.onLoop
  by_cases hok : result.ok = true
  · rw [if_pos hok, Routine.safe_bind, Routine.safe_modifySelf, Routine.after_ok]
    split
    · refine ⟨rfl, fun delay h => ?_⟩
      cases h
      decide +kernel
    · exact ⟨rfl, nofun⟩
  rw [if_neg hok]
  by_cases hbusy : result.busy = true
  · rw [if_pos hbusy]
    refine ⟨rfl, fun delay h => ?_⟩
    cases h
    decide +kernel
  rw [if_neg hbusy, Routine.safe_bind, Routine.safe_modifySelf, Routine.after_ok,
    Routine.safe_bind, Routine.safe_getSelf, Routine.after_ok, Routine.safe_bind]
  dsimp only
  generalize s.loop.failures + 1 = failures
  rcases Nat.lt_or_ge 1024 failures with hn | hn
  · rw [WatchLoop.backoffDelay_of_lt hn]
    exact ⟨rfl, nofun⟩
  · rw [WatchLoop.backoffDelay_of_le hn]
    refine ⟨rfl, fun delay h => ?_⟩
    cases h
    exact le_of_lt (WatchLoop.delayAfter_bounds failures).1

/-! ### The settings of the loop -/

/-- A routine that leaves the settings of the loop. -/
abbrev KeepsSettings {α : Type} (m : Watching α) : Prop :=
  m.Keeps (fun s => s.loop.requestTimeout)

theorem onMailbox_keeps {α : Type} (m : Mailbox α) : KeepsSettings (Watch.onMailbox m) :=
  Routine.keeps_on m (fun _ _ => rfl)

theorem settleTrigger_keeps (now : ℚ) (uids : Finset ℕ) (result : TriggerResult) :
    KeepsSettings (WatchLoop.settleTrigger now uids result) := by
  unfold WatchLoop.settleTrigger Watch.onLoop
  split
  · refine Routine.keeps_bind (Routine.keeps_modifySelf (fun _ => rfl)) (fun _ => ?_)
    split
    · refine Routine.keeps_bind (Routine.keeps_modifySelf (fun _ => rfl)) (fun _ => ?_)
      exact Routine.keeps_pure _
    · exact Routine.keeps_pure _
  split
  · refine Routine.keeps_bind (Routine.keeps_modifySelf (fun _ => rfl)) (fun _ => ?_)
    exact Routine.keeps_pure _
  · refine Routine.keeps_bind (Routine.keeps_modifySelf (fun _ => rfl)) (fun _ => ?_)
    refine Routine.keeps_bind Routine.keeps_getSelf (fun self => ?_)
    refine Routine.keeps_bind ?_ (fun delay => ?_)
    · unfold WatchLoop.backoffDelay
      split
      · exact Routine.keeps_raise _
      · exact Routine.keeps_pure _
    · refine Routine.keeps_bind (Routine.keeps_modifySelf (fun _ => rfl)) (fun _ => ?_)
      exact Routine.keeps_pure _

theorem step_keeps : KeepsSettings WatchLoop.step := by
  refine Routine.keeps_bind (Routine.keeps_call _) (fun now => ?_)
  refine Routine.keeps_bind (onMailbox_keeps _) (fun uids => ?_)
  refine Routine.keeps_bind (Routine.keeps_modifySelf (fun _ => rfl)) (fun _ => ?_)
  split
  · exact Routine.keeps_pure _
  refine Routine.keeps_bind Routine.keeps_getSelf (fun self => ?_)
  dsimp only
  split
  · exact Routine.keeps_pure _
  split
  · exact Routine.keeps_pure _
  · refine Routine.keeps_bind Routine.keeps_getSelf (fun self => ?_)
    refine Routine.keeps_bind (Routine.keeps_call _) (fun _ => ?_)
    refine Routine.keeps_bind (Routine.keeps_call _) (fun result => ?_)
    refine Routine.keeps_bind (Routine.keeps_call _) (fun _ => ?_)
    exact settleTrigger_keeps _ _ _

theorem serve_keeps (settings : WatcherSettings) : KeepsSettings (Watch.serve settings) := by
  refine Routine.keeps_bind (Routine.keeps_call _) (fun _ => ?_)
  refine Routine.keeps_bind step_keeps (fun next => ?_)
  cases next with
  | some delay =>
      exact Routine.keeps_bind (Routine.keeps_call _) (fun _ => Routine.keeps_call _)
  | none =>
      refine Routine.keeps_bind Routine.keeps_getSelf (fun self => ?_)
      split
      · refine Routine.keeps_bind (Routine.keeps_call _) (fun _ => ?_)
        exact Routine.keeps_bind (onMailbox_keeps _) (fun _ => Routine.keeps_pure ())
      · exact Routine.keeps_bind (Routine.keeps_call _) (fun _ => Routine.keeps_call _)

theorem guarded_keeps {body : Watching Unit} (h : KeepsSettings body) :
    KeepsSettings (Watch.guarded body) := by
  refine Routine.keeps_bind (Routine.keeps_attempt h) (fun o => ?_)
  cases o with
  | ok _ => exact Routine.keeps_pure _
  | error e =>
      refine Routine.keeps_bind ?_ (fun _ => Routine.keeps_pure _)
      refine Routine.keeps_bind Routine.keeps_getSelf (fun self => ?_)
      refine Routine.keeps_bind (Routine.keeps_call _) (fun _ => ?_)
      refine Routine.keeps_bind (Routine.keeps_call _) (fun _ => ?_)
      exact Routine.keeps_modifySelf (fun _ => rfl)

theorem pass_keeps (settings : WatcherSettings) (maxSessions : Option ℕ) (phase : Watch.Phase) :
    KeepsSettings (Watch.pass settings maxSessions phase) := by
  cases phase with
  | connecting =>
      refine Routine.keeps_bind Routine.keeps_getSelf (fun self => ?_)
      split
      · refine Routine.keeps_bind (Routine.keeps_modifySelf (fun _ => rfl)) (fun _ => ?_)
        refine guarded_keeps ?_
        refine Routine.keeps_bind (Routine.keeps_call _) (fun _ => ?_)
        refine Routine.keeps_bind (Routine.keeps_modifySelf (fun _ => rfl)) (fun _ => ?_)
        refine Routine.keeps_bind (onMailbox_keeps _) (fun _ => ?_)
        exact Routine.keeps_modifySelf (fun _ => rfl)
      · exact Routine.keeps_pure _
  | serving =>
      refine guarded_keeps ?_
      refine Routine.keeps_bind (Routine.keeps_attempt (serve_keeps settings)) (fun o => ?_)
      cases o with
      | ok _ => exact Routine.keeps_pure ()
      | error e =>
          exact Routine.keeps_bind (onMailbox_keeps _) (fun _ => Routine.keeps_raise e)
  | ended => exact Routine.keeps_pure _

/-! ### Within the budget -/

variable (h : settings.Accepted) (hT : settings.imapTimeout ≤ 40)
include h hT

/-- The call of the notifier, once it has been announced. -/
theorem notify_within {now : ℚ} {uids : Finset ℕ} {s : Watch} {p : Pulse}
    (hs : s.loop.requestTimeout = settings.requestTimeout) (hp : p.Left settings.imapTimeout) :
    (WatchLoop.notify now uids).Safe (Timed settings) (.keeping Pulse.Healthy)
      (fun r _ p' => p'.Left settings.imapTimeout ∧ ∀ delay, r = .ok (some delay) → 0 ≤ delay)
      s p := by
  have htrigger : (call .trigger : Watching TriggerResult).Takes (stopwatch settings)
      settings.requestTimeout := Routine.takes_call ⟨nofun, h.requestTimeout.le⟩
  have hleft : (p.touch (settings.requestTimeout + HEARTBEAT_MARGIN) "calling forwarder").Left
      (settings.requestTimeout + settings.imapTimeout) := by
    refine Pulse.left_touch p _ (le_trans ?_ (le_max_left _ _))
    rw [HEARTBEAT_MARGIN]
    linarith
  rw [WatchLoop.notify, Routine.safe_bind, Routine.safe_getSelf, Routine.after_ok,
    Routine.safe_bind, hs]
  refine safe_touch (hp.healthy h.imapTimeout.le) ?_
  rw [Routine.after_ok, Routine.safe_bind]
  refine safe_takes htrigger h.imapTimeout.le hleft ?_
  intro r s₁ p₁ hp₁
  cases r with
  | error e => exact ⟨hp₁, nofun⟩
  | ok result =>
      have hanswered : (p₁.touch HEARTBEAT_MARGIN "forwarder answered").Left
          settings.imapTimeout := by
        refine Pulse.left_touch p₁ _ (le_trans ?_ (le_max_left _ _))
        rw [HEARTBEAT_MARGIN]
        linarith
      rw [Routine.after_ok, Routine.safe_bind]
      refine safe_touch (hp₁.healthy h.imapTimeout.le) ?_
      rw [Routine.after_ok]
      refine settleTrigger_nonneg.mono ?_
      intro r s₂ p₂ hsettled
      obtain ⟨rfl, hdelay⟩ := hsettled
      exact ⟨hanswered, hdelay⟩

/-- One inspection of the INBOX leaves time for the `LOGOUT`. -/
theorem step_within {s : Watch} {p : Pulse}
    (hs : s.loop.requestTimeout = settings.requestTimeout)
    (hp : p.Left (4 * settings.imapTimeout)) :
    WatchLoop.step.Safe (Timed settings) (.keeping Pulse.Healthy) (fun r _ p' =>
      p'.Left settings.imapTimeout ∧ ∀ delay, r = .ok (some delay) → 0 ≤ delay) s p := by
  have hpos := h.imapTimeout
  have hlisting : p.Left (3 * settings.imapTimeout + settings.imapTimeout) :=
    hp.less (by linarith)
  simp only [WatchLoop.step, Routine.safe_bind]
  refine Routine.safe_call_keeping.mpr ⟨hp.healthy (by linarith), fun r p₁ hE => ?_⟩
  obtain ⟨rfl, rfl⟩ := hE
  rw [Routine.after_ok, Routine.safe_bind]
  refine safe_session (ICloudMailbox.listInboxUids_takes hpos.le none) hpos.le hlisting ?_
  intro r mailbox p₂ hp₂
  cases r with
  | error e => exact ⟨hp₂, by simp⟩
  | ok uids =>
      rw [Routine.after_ok, WatchLoop.inspect, Routine.safe_bind, Watch.onLoop,
        Routine.safe_modifySelf, Routine.after_ok]
      split
      · exact ⟨hp₂, by simp⟩
      rw [Routine.safe_bind, Routine.safe_getSelf, Routine.after_ok]
      dsimp only
      split
      · exact ⟨hp₂, by simp⟩
      split
      · next hearly =>
        refine ⟨hp₂, fun delay hdelay => ?_⟩
        cases hdelay
        exact le_of_lt (sub_pos.mpr hearly)
      · exact notify_within h hT hs hp₂

/-- `IDLE` with its `DONE`, or the sleep between two polls. -/
theorem wait_within {s : Watch} {p : Pulse} (hp : p.Left settings.imapTimeout) :
    (Watch.wait settings).Safe (Timed settings) (.keeping Pulse.Healthy)
      (fun _ _ p' => p'.Left settings.imapTimeout) s p := by
  have hpos := h.imapTimeout
  rw [Watch.wait, Routine.safe_bind, Routine.safe_getSelf, Routine.after_ok]
  split
  · have htakes : (Watch.onMailbox (ICloudMailbox.idleWait settings.idleTimeout)).Takes
        (stopwatch settings) (settings.idleTimeout + 2 * settings.imapTimeout) :=
      Routine.takes_on (ICloudMailbox.idleWait_takes hpos.le h.idleTimeout.le)
    have hleft : (p.touch (settings.idleTimeout + settings.imapTimeout + HEARTBEAT_MARGIN)
        "IMAP IDLE").Left
        (settings.idleTimeout + 2 * settings.imapTimeout + settings.imapTimeout) := by
      refine Pulse.left_touch p _ (le_trans ?_ (le_max_left _ _))
      rw [HEARTBEAT_MARGIN]
      linarith
    rw [Routine.safe_bind]
    refine safe_touch (hp.healthy hpos.le) ?_
    rw [Routine.after_ok, Routine.safe_bind]
    refine safe_takes htakes hpos.le hleft ?_
    intro r s₁ p₁ hp₁
    cases r with
    | error e => exact hp₁
    | ok pushed => exact hp₁
  · have hleft : (p.touch (settings.pollInterval + HEARTBEAT_MARGIN) "polling").Left
        (settings.pollInterval + settings.imapTimeout) := by
      refine Pulse.left_touch p _ (le_trans ?_ (le_max_left _ _))
      rw [HEARTBEAT_MARGIN]
      linarith
    rw [Routine.safe_bind]
    refine safe_touch (hp.healthy hpos.le) ?_
    rw [Routine.after_ok]
    exact safe_takes (sleep_takes h.pollInterval.le) hpos.le hleft (fun _ _ _ hp' => hp')

/-- One pass of the inner loop. -/
theorem serve_within {s : Watch} {p : Pulse}
    (hs : s.loop.requestTimeout = settings.requestTimeout) (hp : p.Healthy) :
    (Watch.serve settings).Safe (Timed settings) (.keeping Pulse.Healthy)
      (fun _ _ p' => p'.Left settings.imapTimeout) s p := by
  have hpos := h.imapTimeout
  rw [Watch.serve, Routine.safe_bind]
  refine safe_touch hp ?_
  have hlisting : (p.touch (settings.imapTimeout + HEARTBEAT_MARGIN) "listing INBOX").Left
      (4 * settings.imapTimeout) := by
    refine Pulse.left_touch p _ (le_trans ?_ (le_max_left _ _))
    rw [HEARTBEAT_MARGIN]
    linarith
  rw [Routine.after_ok, Routine.safe_bind]
  refine (step_within h hT hs hlisting).mono ?_
  intro r s₁ p₁ hstep
  obtain ⟨hp₁, hdelay⟩ := hstep
  cases r with
  | error e => exact hp₁
  | ok next =>
      cases next with
      | some delay =>
          have hnonneg := hdelay delay rfl
          rw [Routine.after_ok, Routine.safe_bind]
          refine safe_touch (hp₁.healthy hpos.le) ?_
          have hleft : (p₁.touch (delay + HEARTBEAT_MARGIN) "sleeping").Left
              (delay + settings.imapTimeout) := by
            refine Pulse.left_touch p₁ _ (le_trans ?_ (le_max_left _ _))
            rw [HEARTBEAT_MARGIN]
            linarith
          exact safe_takes (sleep_takes hnonneg) hpos.le hleft (fun _ _ _ hp' => hp')
      | none =>
          rw [Routine.after_ok]
          exact wait_within h hT hp₁

/-- An exception leaves time for the `LOGOUT` of `__exit__`. -/
theorem serveOrClose_within {s : Watch} {p : Pulse}
    (hs : s.loop.requestTimeout = settings.requestTimeout) (hp : p.Healthy) :
    (Watch.serveOrClose settings).Safe (Timed settings) (.keeping Pulse.Healthy)
      (fun _ _ p' => p'.Healthy) s p := by
  have hpos := h.imapTimeout
  rw [Watch.serveOrClose, Routine.safe_bind, Routine.safe_attempt]
  refine (serve_within h hT hs hp).mono ?_
  intro r s₁ p₁ hp₁
  rw [Routine.after_ok]
  cases r with
  | ok _ => exact hp₁.healthy hpos.le
  | error e =>
      have hlogout : p₁.Left (settings.imapTimeout + 0) := hp₁.less (by linarith)
      rw [Routine.safe_bind]
      refine safe_takes (Routine.takes_on (ICloudMailbox.close_takes hpos.le)) (le_refl 0)
        hlogout ?_
      intro r s₂ p₂ hp₂
      cases r with
      | error e => exact hp₂.healthy (le_refl 0)
      | ok _ => exact hp₂.healthy (le_refl 0)

omit hT in
theorem openSession_within {s : Watch} {p : Pulse} (hp : p.Healthy) :
    (Watch.openSession settings).Safe (Timed settings) (.keeping Pulse.Healthy)
      (fun _ _ p' => p'.Healthy) s p := by
  have hpos := h.imapTimeout
  have hleft : (p.touch (settings.imapTimeout * 3 + HEARTBEAT_MARGIN) "connecting to IMAP").Left
      (3 * settings.imapTimeout + 0) := by
    refine Pulse.left_touch p _ (le_trans ?_ (le_max_left _ _))
    rw [HEARTBEAT_MARGIN]
    linarith
  rw [Watch.openSession, Routine.safe_bind]
  refine safe_touch hp ?_
  rw [Routine.after_ok, Routine.safe_bind, Routine.safe_modifySelf, Routine.after_ok,
    Routine.safe_bind]
  refine safe_takes (Routine.takes_on (ICloudMailbox.connect_takes hpos.le)) (le_refl 0) hleft ?_
  intro r s₁ p₁ hp₁
  cases r with
  | error e => exact hp₁.healthy (le_refl 0)
  | ok _ => exact hp₁.healthy (le_refl 0)

omit h hT in
/-- The backoff after an exception is announced, however long it is. -/
theorem guarded_within {body : Watching Unit} {s : Watch} {p : Pulse}
    (hbody : body.Safe (Timed settings) (.keeping Pulse.Healthy) (fun _ _ p' => p'.Healthy) s p) :
    (Watch.guarded body).Safe (Timed settings) (.keeping Pulse.Healthy)
      (fun _ _ p' => p'.Healthy) s p := by
  rw [Watch.guarded, Routine.safe_bind, Routine.safe_attempt]
  refine hbody.mono ?_
  intro r s₁ p₁ hp₁
  rw [Routine.after_ok]
  cases r with
  | ok _ => exact hp₁
  | error e =>
      have hleft : (p₁.touch (s₁.backoff + HEARTBEAT_MARGIN) "reconnect backoff").Left
          (max s₁.backoff 0) := by
        refine Pulse.left_touch p₁ _ (max_le_max ?_ (le_refl 0))
        rw [HEARTBEAT_MARGIN]
        linarith
      rw [Routine.safe_bind, Watch.reconnectBackoff, Routine.safe_bind, Routine.safe_getSelf,
        Routine.after_ok, Routine.safe_bind]
      refine safe_touch hp₁ ?_
      rw [Routine.after_ok, Routine.safe_bind]
      refine Routine.safe_call_keeping.mpr ⟨hleft.healthy (le_max_right _ _), fun r p₂ hE => ?_⟩
      obtain rfl : p₂ = _ := hE
      have hslept := Pulse.Left.after (hleft.less (le_of_eq (add_zero (max s₁.backoff 0))))
      cases r with
      | error e => exact hslept.healthy (le_refl 0)
      | ok _ => exact hslept.healthy (le_refl 0)

/-- One pass of `run_forever`. -/
theorem pass_within {maxSessions : Option ℕ} {phase : Watch.Phase} {s : Watch} {p : Pulse}
    (hs : s.loop.requestTimeout = settings.requestTimeout) (hp : p.Healthy) :
    (Watch.pass settings maxSessions phase).Safe (Timed settings) (.keeping Pulse.Healthy)
      (fun _ _ p' => p'.Healthy) s p := by
  cases phase with
  | connecting =>
      rw [Watch.pass, Watch.beginSession, Routine.safe_bind, Routine.safe_getSelf,
        Routine.after_ok]
      split
      · rw [Routine.safe_bind, Routine.safe_modifySelf, Routine.after_ok]
        exact guarded_within (openSession_within h hp)
      · exact hp
  | serving => exact guarded_within (serveOrClose_within h hT hs hp)
  | ended => exact hp

/-- The loop keeps its settings, and every pass the heartbeat. -/
theorem runForever_within (maxSessions : Option ℕ) (passes : ℕ) (phase : Watch.Phase) {s : Watch}
    {p : Pulse} (hs : s.loop.requestTimeout = settings.requestTimeout) (hp : p.Healthy) :
    (Watch.runForever settings maxSessions passes phase).Safe (Timed settings)
      (.keeping Pulse.Healthy) (fun _ _ p' => p'.Healthy) s p := by
  induction passes generalizing phase s p with
  | zero => exact hp
  | succ passes ih =>
      rw [Watch.runForever, Routine.safe_bind]
      have hkeeps := pass_keeps settings maxSessions phase s
      refine ((pass_within h hT hs hp).also (fun _ => trivial) hkeeps).mono ?_
      intro r s₁ p₁ hpass
      obtain ⟨hp₁, hloop⟩ := hpass
      cases r with
      | error e => exact hp₁
      | ok next => exact ih next (hloop.trans hs) hp₁

end budget

/-! ## A slow server -/

/-- Every command takes as long as it may. The server refuses to search for keywords and does not
    answer a `FETCH` in time. -/
def slow (settings : WatcherSettings) (p : Pulse) : (op : Op) → Reply op × Pulse
  | .touch ttl note => (.ok (), p.touch ttl note)
  | .sleep seconds => (.ok (), p.after (max seconds 0))
  | .clock => (.ok p.now, p)
  | .openClient => (.ok (), p.after settings.imapTimeout)
  | .login => (.ok (), p.after settings.imapTimeout)
  | .selectFolder _ _ => (.ok ⟨none, none⟩, p.after settings.imapTimeout)
  | .hasCapability _ => (.ok false, p.after 0)
  | .search criteria =>
      (if criteria = ["NOT", "DELETED"] then .ok [1] else .error (.other "error" "BADCHARSET"),
        p.after settings.imapTimeout)
  | .fetch _ _ => (.error (.other "timeout" "timed out"), p.after settings.imapTimeout)
  | .logout => (.ok (), p.after settings.imapTimeout)
  | _ => (.error (.other "OSError" "unavailable"), p.after 0)

variable {settings : WatcherSettings}

theorem slow_timed (h : settings.Accepted) (p : Pulse) (op : Op) :
    Timed settings p op (slow settings p op).1 (slow settings p op).2 := by
  have hT := h.imapTimeout.le
  have hR := h.requestTimeout.le
  cases op
  case touch ttl note => exact ⟨rfl, rfl⟩
  case sleep seconds => exact rfl
  case clock => exact ⟨rfl, rfl⟩
  case idleCheck timeout => exact ⟨0, le_refl 0, le_max_right _ _, rfl⟩
  case openClient => exact ⟨_, hT, le_refl _, rfl⟩
  case login => exact ⟨_, hT, le_refl _, rfl⟩
  case selectFolder folder readonly => exact ⟨_, hT, le_refl _, rfl⟩
  case search criteria => exact ⟨_, hT, le_refl _, rfl⟩
  case fetch uids items => exact ⟨_, hT, le_refl _, rfl⟩
  case logout => exact ⟨_, hT, le_refl _, rfl⟩
  case idle => exact ⟨0, le_refl 0, hT, rfl⟩
  case idleDone => exact ⟨0, le_refl 0, hT, rfl⟩
  case trigger => exact ⟨0, le_refl 0, hR, rfl⟩
  all_goals exact ⟨0, le_refl 0, le_refl 0, rfl⟩

/-- The watcher as it has connected. -/
def connected (settings : WatcherSettings) : Watch :=
  { Watch.initial settings with
    sessions := 1
    mailbox := { watcherMailbox settings with connected := true } }

theorem connects (settings : WatcherSettings) (p : Pulse) : ∃ p',
    (Watch.pass settings none .connecting).exec (slow settings) (Watch.initial settings) p =
      ((.ok .serving, connected settings), p') :=
  ⟨_, rfl⟩

/-- The listing falls back and fails, and the `LOGOUT` follows: four commands in the time that was
    announced for one. -/
theorem lists_late {first second : String} (h : settings.quarantineKeywords = [first, second])
    (p : Pulse) : ∃ e s',
    (Watch.serveOrClose settings).exec (slow settings) (connected settings) p =
      ((.error e, s'), ((((p.touch (settings.imapTimeout + HEARTBEAT_MARGIN) "listing INBOX").after
        settings.imapTimeout).after settings.imapTimeout).after settings.imapTimeout).after
        settings.imapTimeout) := by
  obtain ⟨imapTimeout, keywords, retriggerInterval, idleTimeout, pollInterval, requestTimeout⟩ :=
    settings
  subst h
  exact ⟨_, _, rfl⟩

/-- A run of the watcher, once it has been started. -/
abbrev Beats (settings : WatcherSettings) (maxSessions : Option ℕ) (passes : ℕ)
    (startupGrace now : ℚ) (p : Pulse) : Prop :=
  ∃ left, Program.Steps (Timed settings) (.starting startupGrace now,
    Watch.runForever settings maxSessions passes .connecting (Watch.initial settings)) (p, left)

theorem slow_late (settings : WatcherSettings) (h : settings.Accepted)
    (hT : 40 < settings.imapTimeout) (startupGrace now : ℚ) :
    ∃ p, Beats settings none 2 startupGrace now p ∧ ¬p.Healthy := by
  obtain ⟨k, hk⟩ := h.quarantineKeywords
  obtain ⟨p₁, hconnects⟩ := connects settings (.starting startupGrace now)
  obtain ⟨e, s', hlate⟩ := lists_late hk p₁
  have hfirst := Program.exec_steps (slow settings) (slow_timed h)
    (Watch.pass settings none .connecting (Watch.initial settings)) (.starting startupGrace now)
  have hsecond := Program.exec_steps (slow settings) (slow_timed h)
    (Watch.serveOrClose settings (connected settings)) p₁
  rw [Routine.exec] at hconnects hlate
  rw [hconnects] at hfirst
  rw [hlate] at hsecond
  -- the run stands after the `LOGOUT`, before the backoff is announced
  refine ⟨_, ⟨_, (hfirst.bind _).trans (((hsecond.bind _).bind _).bind _)⟩, ?_⟩
  intro hhealthy
  have hok : p₁.now + settings.imapTimeout + settings.imapTimeout + settings.imapTimeout +
      settings.imapTimeout ≤ p₁.now + max (settings.imapTimeout + HEARTBEAT_MARGIN) 0 :=
    of_decide_eq_true (hhealthy rfl)
  rw [HEARTBEAT_MARGIN, max_eq_left (by linarith)] at hok
  linarith

/-! ## Main results -/

/-- **The heartbeat covers the work it announces exactly if no command takes more than 40 seconds.**
    A call under way leaves the deadline where it is: it is enough to look when it has ended. -/
theorem heartbeat_covers_iff (h : settings.Accepted) :
    (∀ maxSessions passes startupGrace now p, Beats settings maxSessions passes startupGrace now p →
      p.touched = true → p.heartbeat.ok p.now = true) ↔ settings.imapTimeout ≤ 40 := by
  constructor
  · intro hcovers
    by_contra hT
    obtain ⟨p, hbeats, hlate⟩ := slow_late settings h (not_le.mp hT) 300 0
    exact hlate (hcovers none 2 300 0 p hbeats)
  · intro hT maxSessions passes startupGrace now p hbeats
    obtain ⟨left, hsteps⟩ := hbeats
    have hstart : (Pulse.starting startupGrace now).Healthy := fun h => absurd h nofun
    have hsafe := runForever_within h hT maxSessions passes .connecting
      (s := Watch.initial settings) rfl hstart
    exact (Program.Safe.always hsafe (fun _ _ hp => hp) hsteps).1

/-- The default settings, with another timeout. -/
theorem accepted_default {imapTimeout : ℚ} (h : 0 < imapTimeout) :
    WatcherSettings.Accepted { imapTimeout := imapTimeout } :=
  ⟨h, by norm_num, by norm_num, by norm_num, by norm_num, Keywords.default, rfl⟩

/-- With a timeout of half a minute the heartbeat is in time. -/
theorem heartbeat_covers_halfMinute :
    (∀ maxSessions passes startupGrace now p,
      Beats { imapTimeout := 30 } maxSessions passes startupGrace now p →
        p.touched = true → p.heartbeat.ok p.now = true) ↔ (30 : ℚ) ≤ 40 :=
  heartbeat_covers_iff (accepted_default (by decide +kernel))

/-- With the default timeout of a minute, a slow server makes `/healthz` answer 503. -/
theorem default_timeout_late : ∃ p, Beats {} none 2 300 0 p ∧ p.touched = true ∧
    p.heartbeat.ok p.now = false := by
  obtain ⟨p, hbeats, hlate⟩ := slow_late {} (accepted_default (by decide +kernel))
    (by decide +kernel) 300 0
  obtain ⟨htouched, hok⟩ := Classical.not_imp.mp hlate
  exact ⟨p, hbeats, htouched, Bool.eq_false_iff.mpr hok⟩

end MailTransporter
