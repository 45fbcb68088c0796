import MailTransporter.WatchLoop

set_option autoImplicit false

/-! # The backoff of the watcher

`Timeline` is the environment of `run_forever`: time passes at every call and between calls, `sleep`
takes at least as long as it is told, and every call of the notifier is written down with the time
at which it was made. A failed trigger is followed by its delay as long as the failure counter does
not reach 1025: there the product of `step` raises an `OverflowError` before the delay is known. -/

namespace MailTransporter

open Effect
open Effect.Routine (raise attempt getSelf modifySelf)

namespace WatchLoop

/-! ## The delay of one turn -/

variable {settings : WatcherSettings} {past : List Past} {l : WatchLoop} {t : Turn}
  {result : TriggerResult}

/-- A failed trigger sets its delay if and only if it is at most the 1024th in a row. -/
theorem delay_iff (h : Reachable settings past l) (hcalled : (t.take l).1.called = true)
    (ha : t.answer = .ok result) (hok : result.ok = false) (hbusy : result.busy = false) (n : ℕ)
    (hn : n = failuresSince (past.map Past.completed) + 1) :
    ((t.take l).1.outcome = .ok (some (delayAfter n)) ∧
      (t.take l).2.notBefore = t.now + delayAfter n) ↔ n ≤ 1024 := by
  have htracks := tracks_of_reachable h
  rw [← htracks.failures] at hn
  subst hn
  have htook := took t l
  generalize (t.take l).1 = p at htook hcalled ⊢
  generalize (t.take l).2 = l' at htook ⊢
  cases htook with
  | unlisted e he => exact absurd hcalled nofun
  | empty he => exact absurd hcalled nofun
  | known he hknown hstale => exact absurd hcalled nofun
  | early he hearly => exact absurd hcalled nofun
  | unanswered he hdue e he' =>
      rw [ha] at he'
      cases he'
  | answered he hdue result' ha' hs =>
      rw [ha] at ha'
      cases ha'
      cases hs with
      | drained hok' _ =>
          rw [hok] at hok'
          cases hok'
      | remaining hok' _ =>
          rw [hok] at hok'
          cases hok'
      | busy _ hbusy' =>
          rw [hbusy] at hbusy'
          cases hbusy'
      | failed _ _ hle => exact ⟨fun _ => hle, fun _ => ⟨rfl, rfl⟩⟩
      | overflowed _ _ hlt =>
          have hlt : 1024 < l.failures + 1 := hlt
          exact ⟨fun h => absurd h.1 nofun, fun hle => by omega⟩

/-! ## The time of a run -/

/-- A call of the notifier. -/
structure Attempt where
  time : ℚ
  answer : Except Exc TriggerResult
deriving DecidableEq

namespace Attempt

def completed (a : Attempt) : Option TriggerResult := a.answer.toOption

def failed (a : Attempt) : Bool := a.completed.any (fun r => !r.ok && !r.busy)

end Attempt

/-- The present time, and the calls of the notifier so far, newest first. -/
structure Timeline where
  time : ℚ
  attempts : List Attempt

/-- Time passes and the notifier is not called. -/
def Elapses (w w' : Timeline) : Prop := w.time ≤ w'.time ∧ w'.attempts = w.attempts

theorem Elapses.refl (w : Timeline) : Elapses w w := ⟨le_refl _, rfl⟩

theorem Elapses.trans {a b c : Timeline} (h : Elapses a b) (h' : Elapses b c) : Elapses a c :=
  ⟨le_trans h.1 h'.1, h'.2.trans h.2⟩

/-- Servers and the notifier may answer anything; the process itself does as it is told. A negative
    number of seconds to sleep is an error. -/
def Passes : Env Op Reply Timeline
  | w, .trigger, r, w' => w.time ≤ w'.time ∧ w'.attempts = ⟨w.time, r⟩ :: w.attempts
  | w, .sleep seconds, r, w' => Elapses w w' ∧
      (w.time + seconds ≤ w'.time ∧ r = .ok () ∨ seconds < 0 ∧ ∃ e, r = .error e)
  | w, .clock, r, w' => Elapses w w' ∧ ∃ now, r = .ok now ∧ w.time ≤ now ∧ now ≤ w'.time
  | w, .touch _ _, r, w' => Elapses w w' ∧ r = .ok ()
  | w, _, _, w' => Elapses w w'

theorem Passes.elapses {w w' : Timeline} {op : Op} {r : Reply op} (hop : op ≠ .trigger)
    (h : Passes w op r w') : Elapses w w' := by
  cases op
  case trigger => exact absurd rfl hop
  case sleep seconds => exact h.1
  case clock => exact h.1
  case touch ttl note => exact h.1
  all_goals exact h

/-- The failures in a row among the calls so far. -/
def failuresOf (attempts : List Attempt) : ℕ := failuresSince (attempts.map Attempt.completed)

/-- Once `seconds` more have passed, the delay after the last call is over, if that call failed and
    the failure set a delay. -/
def DueIn (seconds : ℚ) (w : Timeline) : Prop :=
  ∀ a earlier, w.attempts = a :: earlier → a.failed = true → failuresOf (a :: earlier) ≤ 1024 →
    a.time + delayAfter (failuresOf (a :: earlier)) ≤ w.time + seconds

theorem DueIn.elapses {seconds seconds' : ℚ} {w w' : Timeline} (h : DueIn seconds w)
    (hattempts : w'.attempts = w.attempts) (htime : w.time + seconds ≤ w'.time + seconds') :
    DueIn seconds' w' := by
  intro a earlier ha hfailed hle
  rw [hattempts] at ha
  exact le_trans (h a earlier ha hfailed hle) htime

/-- Any two calls in a row of which the first failed are a delay apart. -/
def Spaced : List Attempt → Prop
  | [] => True
  | [_] => True
  | b :: a :: earlier =>
      (a.failed = true → failuresOf (a :: earlier) ≤ 1024 →
        a.time + delayAfter (failuresOf (a :: earlier)) ≤ b.time) ∧ Spaced (a :: earlier)

theorem Spaced.of_append {later : List Attempt} {b a : Attempt} {earlier : List Attempt}
    (h : Spaced (later ++ b :: a :: earlier)) (hfailed : a.failed = true)
    (hle : failuresOf (a :: earlier) ≤ 1024) :
    a.time + delayAfter (failuresOf (a :: earlier)) ≤ b.time := by
  induction later with
  | nil => exact h.1 hfailed hle
  | cons c later ih =>
      cases later with
      | nil => exact ih h.2
      | cons d later => exact ih h.2

/-- The notifier is called only when the delay after the last call is over. -/
def pacing : Discipline Op Timeline where
  rely := Elapses
  guard := fun w op => op = .trigger → DueIn 0 w

/-- Every call but that of the notifier lets time pass only. -/
def elapsing : Growth Passes pacing (fun op => op ≠ .trigger) where
  grow := Elapses
  refl := Elapses.refl
  trans := Elapses.trans
  rely := id
  step := fun hop _ hE => hE.elapses hop

theorem spaced_step {w w' : Timeline} {op : Op} {r : Reply op} (hg : pacing.guard w op)
    (hE : Passes w op r w') (h : Spaced w.attempts) : Spaced w'.attempts := by
  by_cases hop : op = .trigger
  · subst hop
    have hdue := hg rfl
    rw [hE.2]
    cases hw : w.attempts with
    | nil => trivial
    | cons a earlier =>
        rw [hw] at h
        refine ⟨fun hfailed hle => ?_, h⟩
        have := hdue a earlier hw hfailed hle
        linarith
  · rw [(hE.elapses hop).2]
    exact h

/-! ## The run -/

/-- What holds between two turns: the loop counts the failures, and the delay is over. -/
structure Paced (seconds : ℚ) (s : Watch) (w : Timeline) : Prop where
  failures : s.loop.failures = failuresOf w.attempts
  due : DueIn seconds w

theorem Paced.elapses {seconds seconds' : ℚ} {s s' : Watch} {w w' : Timeline}
    (h : Paced seconds s w) (hloop : s'.loop = s.loop) (hattempts : w'.attempts = w.attempts)
    (htime : w.time + seconds ≤ w'.time + seconds') : Paced seconds' s' w' :=
  ⟨by rw [hloop, hattempts]; exact h.failures, h.due.elapses hattempts htime⟩

theorem Paced.later {s s' : Watch} {w w' : Timeline} (h : Paced 0 s w) (hloop : s'.loop = s.loop)
    (hw : Elapses w w') : Paced 0 s' w' :=
  h.elapses hloop hw.2 (by have := hw.1; linarith)

/-- A method of the session that calls no notifier. -/
theorem safe_onMailbox {α : Type} {m : Mailbox α} {Q : Except Exc α → Watch → Timeline → Prop}
    {s : Watch} {w : Timeline} (hm : m.Uses (fun op => op ≠ .trigger)) (h : Paced 0 s w)
    (hQ : ∀ r s' w', s'.loop = s.loop → Elapses w w' → Paced 0 s' w' → Q r s' w') :
    (Watch.onMailbox m).Safe Passes pacing Q s w := by
  unfold Watch.onMailbox
  rw [Routine.safe_on]
  refine (Routine.Safe.of_uses elapsing hm (fun _ hop => hop)
    (fun _ op _ hop htrigger => absurd htrigger hop)).mono ?_
  intro r mailbox w' hw'
  exact hQ r _ w' rfl hw' (h.later rfl hw')

/-- A call of the watcher itself other than that of the notifier. -/
theorem safe_own {op : Op} {Q : Except Exc (Value op) → Watch → Timeline → Prop} {s : Watch}
    {w : Timeline} (hop : op ≠ .trigger)
    (hQ : ∀ w₁ r w', Elapses w w₁ → Passes w₁ op r w' → Elapses w w' → Q r s w') :
    (call op : Watching (Value op)).Safe Passes pacing Q s w := by
  intro w₁ hw₁
  refine ⟨fun htrigger => absurd htrigger hop, fun r w' hE => ?_⟩
  exact hQ w₁ r w' hw₁ hE (Elapses.trans hw₁ (hE.elapses hop))

theorem safe_touch {ttl : ℚ} {note : String} {Q : Except Exc Unit → Watch → Timeline → Prop}
    {s : Watch} {w : Timeline} (hQ : ∀ w', Elapses w w' → Q (.ok ()) s w') :
    (call (.touch ttl note) : Watching Unit).Safe Passes pacing Q s w := by
  refine safe_own (by simp) ?_
  intro w₁ r w' _ hE hw'
  rw [hE.2]
  exact hQ w' hw'

/-- Sleeping for the seconds that were still to pass. -/
theorem safe_sleep {seconds : ℚ} {Q : Except Exc Unit → Watch → Timeline → Prop} {s : Watch}
    {w : Timeline} (h : Paced seconds s w) (hQ : ∀ r w', Elapses w w' → Paced 0 s w' → Q r s w') :
    (call (.sleep seconds) : Watching Unit).Safe Passes pacing Q s w := by
  refine safe_own (by simp) ?_
  intro w₁ r w' hw₁ hE hw'
  refine hQ r w' hw' (h.elapses rfl hw'.2 ?_)
  have h₁ := hw₁.1
  have h₂ := hE.1.1
  rcases hE.2 with ⟨hslept, -⟩ | ⟨hnegative, -⟩
  · linarith
  · linarith

/-- The wait a turn leaves to `run_forever`. -/
def waitOf : Except Exc (Option ℚ) → ℚ
  | .ok (some seconds) => seconds
  | _ => 0

theorem looks_ne_trigger {op : Op} (h : op.isLook = true) : op ≠ .trigger := by
  rintro rfl
  exact absurd h nofun

theorem looks_uses {α : Type} {m : Mailbox α} (h : ICloudMailbox.Looks m) :
    m.Uses (fun op => op ≠ .trigger) := h.mono (fun _ => looks_ne_trigger)

/-- What `step` leaves: the failures are counted and the wait it asks for covers the delay. -/
def AfterStep (r : Except Exc (Option ℚ)) (s : Watch) (w : Timeline) : Prop := Paced (waitOf r) s w

theorem backoffDelay_safe {n : ℕ} {Q : Except Exc ℚ → Watch → Timeline → Prop} {s : Watch}
    {w : Timeline} (hle : n ≤ 1024 → Q (.ok (delayAfter n)) s w)
    (hlt : 1024 < n → ∀ e, Q (.error e) s w) : (backoffDelay n).Safe Passes pacing Q s w := by
  rcases Nat.lt_or_ge 1024 n with hn | hn
  · rw [backoffDelay_of_lt hn]
    exact hlt hn _
  · rw [backoffDelay_of_le hn]
    exact hle hn

/-- A failed trigger and its delay: `step` asks for the wait that remains. -/
theorem settleTrigger_safe {now : ℚ} {uids : Finset ℕ} {result : TriggerResult} {s : Watch}
    {w : Timeline} {a : Attempt} {earlier : List Attempt} (hw : w.attempts = a :: earlier)
    (ha : a.answer = .ok result) (htime : a.time ≤ w.time)
    (hfailures : s.loop.failures = failuresOf earlier) :
    (settleTrigger now uids result).Safe Passes pacing AfterStep s w := by
  have hcompleted : a.completed = some result := by
    rw [Attempt.completed, ha]
    rfl
  have hcount : failuresOf w.attempts = if result.ok then 0 else if result.busy then
      failuresOf earlier else failuresOf earlier + 1 := by
    rw [hw, failuresOf, List.map_cons, hcompleted]
    rfl
  have hnever : ∀ seconds, a.failed = false → DueIn seconds w := by
    intro seconds hfailed b earlier' hb hfailed'
    rw [hw] at hb
    cases hb
    rw [hfailed] at hfailed'
    cases hfailed'
  unfold settleTrigger Watch.onLoop
  by_cases hok : result.ok = true
  · have hfailed : a.failed = false := by simp [Attempt.failed, hcompleted, hok]
    rw [if_pos hok] at hcount ⊢
    rw [Routine.safe_bind, Routine.safe_modifySelf, Routine.after_ok]
    split
    · exact ⟨hcount.symm, hnever _ hfailed⟩
    · exact ⟨hcount.symm, hnever _ hfailed⟩
  rw [if_neg hok] at hcount ⊢
  by_cases hbusy : result.busy = true
  · have hfailed : a.failed = false := by simp [Attempt.failed, hcompleted, hbusy]
    rw [if_pos hbusy] at hcount ⊢
    exact ⟨hfailures.trans hcount.symm, hnever _ hfailed⟩
  rw [if_neg hbusy] at hcount ⊢
  rw [← hfailures] at hcount
  rw [Routine.safe_bind, Routine.safe_modifySelf, Routine.after_ok, Routine.safe_bind,
    Routine.safe_getSelf, Routine.after_ok]
  dsimp only
  have hdue : ∀ seconds, (s.loop.failures + 1 ≤ 1024 →
      delayAfter (s.loop.failures + 1) ≤ seconds) → DueIn seconds w := by
    intro seconds hseconds b earlier' hb _ hle
    rw [← hb, hcount] at hle ⊢
    have := hseconds hle
    have hba : b = a := by
      rw [hw] at hb
      cases hb
      rfl
    rw [hba]
    linarith
  rw [Routine.safe_bind]
  refine backoffDelay_safe (fun hn => ?_) (fun hn e => ?_)
  · exact ⟨hcount.symm, hdue _ (fun _ => le_refl _)⟩
  · exact ⟨hcount.symm, hdue _ (fun hle => by omega)⟩

theorem step_safe {s : Watch} {w : Timeline} (h : Paced 0 s w) :
    step.Safe Passes pacing AfterStep s w := by
  simp only [step, Routine.safe_bind]
  refine safe_own (by simp) ?_
  intro w₁ r w₂ _ hE hw₂
  obtain ⟨-, now, rfl, -, -⟩ := hE
  rw [Routine.after_ok, Routine.safe_bind]
  refine safe_onMailbox (looks_uses (ICloudMailbox.listInboxUids_glances none).looks)
    (h.later rfl hw₂) ?_
  intro r s₃ w₃ _ _ h₃
  cases r with
  | error e => exact h₃
  | ok uids =>
      rw [Routine.after_ok, inspect, Routine.safe_bind, Watch.onLoop, Routine.safe_modifySelf,
        Routine.after_ok]
      split
      · exact ⟨h₃.failures, h₃.due⟩
      rw [Routine.safe_bind, Routine.safe_getSelf, Routine.after_ok]
      dsimp only
      split
      · exact ⟨h₃.failures, h₃.due⟩
      split
      · next hearly =>
        -- the loop asks for less than it could: the delay is over already
        refine ⟨h₃.failures, h₃.due.elapses rfl ?_⟩
        have hearly : now < s₃.loop.notBefore := hearly
        show w₃.time + 0 ≤ w₃.time + (s₃.loop.notBefore - now)
        linarith
      · rw [notify, Routine.safe_bind, Routine.safe_getSelf, Routine.after_ok, Routine.safe_bind]
        refine safe_touch ?_
        intro w₄ hw₄
        rw [Routine.after_ok, Routine.safe_bind, safe_call']
        intro w₅ hw₅
        have h₅ := (h₃.later rfl hw₄).later rfl hw₅
        refine ⟨fun _ => h₅.due, fun r w₆ hE => ?_⟩
        obtain ⟨htime, hattempts⟩ := hE
        cases r with
        | error e =>
            refine ⟨?_, fun a earlier ha hfailed => ?_⟩
            · rw [hattempts, failuresOf]
              exact h₅.failures
            · rw [hattempts] at ha
              cases ha
              cases hfailed
        | ok result =>
            rw [Routine.after_ok, Routine.safe_bind]
            refine safe_touch ?_
            intro w₇ hw₇
            rw [Routine.after_ok]
            exact settleTrigger_safe (hw₇.2.trans hattempts) rfl (le_trans htime hw₇.1) h₅.failures

/-- What every part of `run_forever` leaves. -/
abbrev Leaves {α : Type} (_ : Except Exc α) (s : Watch) (w : Timeline) : Prop := Paced 0 s w

theorem openSession_safe {s : Watch} {w : Timeline} (h : Paced 0 s w) :
    (Watch.openSession settings).Safe Passes pacing Leaves s w := by
  rw [Watch.openSession, Routine.safe_bind]
  refine safe_touch ?_
  intro w₁ hw₁
  rw [Routine.after_ok, Routine.safe_bind, Routine.safe_modifySelf, Routine.after_ok,
    Routine.safe_bind]
  refine safe_onMailbox (looks_uses ICloudMailbox.connect_glances.looks) (h.later rfl hw₁) ?_
  intro r s₂ w₂ _ _ h₂
  cases r with
  | error e => exact h₂
  | ok _ => exact h₂.later rfl (Elapses.refl w₂)

theorem wait_safe {s : Watch} {w : Timeline} (h : Paced 0 s w) :
    (Watch.wait settings).Safe Passes pacing Leaves s w := by
  rw [Watch.wait, Routine.safe_bind, Routine.safe_getSelf, Routine.after_ok]
  split
  · rw [Routine.safe_bind]
    refine safe_touch ?_
    intro w₁ hw₁
    rw [Routine.after_ok, Routine.safe_bind]
    refine safe_onMailbox (ICloudMailbox.idleWait_uses (by simp) (by simp) (by simp))
      (h.later rfl hw₁) ?_
    intro r s₂ w₂ _ _ h₂
    cases r with
    | error e => exact h₂
    | ok _ => exact h₂
  · rw [Routine.safe_bind]
    refine safe_touch ?_
    intro w₁ hw₁
    rw [Routine.after_ok]
    refine safe_own (by simp) ?_
    intro w₂ r w₃ _ _ hw₃
    exact (h.later rfl hw₁).later rfl hw₃

theorem serve_safe {s : Watch} {w : Timeline} (h : Paced 0 s w) :
    (Watch.serve settings).Safe Passes pacing Leaves s w := by
  rw [Watch.serve, Routine.safe_bind]
  refine safe_touch ?_
  intro w₁ hw₁
  rw [Routine.after_ok, Routine.safe_bind]
  refine (step_safe (h.later rfl hw₁)).mono ?_
  intro r s₂ w₂ h₂
  rcases r with e | delay
  · exact h₂
  · cases delay with
    | none => exact wait_safe h₂
    | some delay =>
        rw [Routine.after_ok, Routine.safe_bind]
        refine safe_touch ?_
        intro w₃ hw₃
        rw [Routine.after_ok]
        have hpaced : Paced delay s₂ w₃ :=
          h₂.elapses rfl hw₃.2 (by have := hw₃.1; show w₂.time + delay ≤ w₃.time + delay; linarith)
        exact safe_sleep hpaced (fun _ _ _ h₄ => h₄)

theorem serveOrClose_safe {s : Watch} {w : Timeline} (h : Paced 0 s w) :
    (Watch.serveOrClose settings).Safe Passes pacing Leaves s w := by
  rw [Watch.serveOrClose, Routine.safe_bind, Routine.safe_attempt]
  refine (serve_safe h).mono ?_
  intro r s₁ w₁ h₁
  rw [Routine.after_ok]
  cases r with
  | ok _ => exact h₁
  | error e =>
      rw [Routine.safe_bind]
      refine safe_onMailbox (looks_uses ICloudMailbox.close_glances.looks) h₁ ?_
      intro r s₂ w₂ _ _ h₂
      cases r with
      | error e => exact h₂
      | ok _ => exact h₂

theorem guarded_safe {body : Watching Unit} {s : Watch} {w : Timeline}
    (hbody : body.Safe Passes pacing Leaves s w) :
    (Watch.guarded body).Safe Passes pacing Leaves s w := by
  rw [Watch.guarded, Routine.safe_bind, Routine.safe_attempt]
  refine hbody.mono ?_
  intro r s₁ w₁ h₁
  rw [Routine.after_ok]
  cases r with
  | ok _ => exact h₁
  | error e =>
      rw [Routine.safe_bind, Watch.reconnectBackoff, Routine.safe_bind, Routine.safe_getSelf,
        Routine.after_ok, Routine.safe_bind]
      refine safe_touch ?_
      intro w₂ hw₂
      rw [Routine.after_ok, Routine.safe_bind]
      refine safe_own (by simp) ?_
      intro w₃ r w₄ _ _ hw₄
      have h₄ := (h₁.later rfl hw₂).later rfl hw₄
      cases r with
      | error e => exact h₄
      | ok _ => exact h₄.later rfl (Elapses.refl w₄)

theorem pass_safe {maxSessions : Option ℕ} {phase : Watch.Phase} {s : Watch} {w : Timeline}
    (h : Paced 0 s w) :
    (Watch.pass settings maxSessions phase).Safe Passes pacing Leaves s w := by
  cases phase with
  | connecting =>
      rw [Watch.pass, Watch.beginSession, Routine.safe_bind, Routine.safe_getSelf, Routine.after_ok]
      split
      · rw [Routine.safe_bind, Routine.safe_modifySelf, Routine.after_ok]
        exact guarded_safe (openSession_safe (h.later rfl (Elapses.refl w)))
      · exact h
  | serving => exact guarded_safe (serveOrClose_safe h)
  | ended => exact h

theorem runForever_safe {maxSessions : Option ℕ} {passes : ℕ} {phase : Watch.Phase} {s : Watch}
    {w : Timeline} (h : Paced 0 s w) :
    (Watch.runForever settings maxSessions passes phase).Safe Passes pacing Leaves s w := by
  induction passes generalizing phase s w with
  | zero => exact h
  | succ passes ih =>
      rw [Watch.runForever, Routine.safe_bind]
      refine (pass_safe h).mono ?_
      intro r s₁ w₁ h₁
      cases r with
      | error e => exact h₁
      | ok next => exact ih h₁

/-- Whatever happens in a run, calls of the notifier are spaced. -/
theorem spaced_of_steps {maxSessions : Option ℕ} {passes : ℕ} {start : ℚ} {w : Timeline}
    {p : Program Op Reply (Except Exc Unit × Watch)}
    (h : Program.Steps (Passes.under Elapses) (⟨start, []⟩,
      Watch.runForever settings maxSessions passes .connecting (Watch.initial settings)) (w, p)) :
    Spaced w.attempts := by
  have hpaced : Paced 0 (Watch.initial settings) ⟨start, []⟩ :=
    ⟨rfl, fun _ _ ha => absurd ha nofun⟩
  have hsafe : (Watch.runForever settings maxSessions passes .connecting).Safe Passes pacing Leaves
      (Watch.initial settings) ⟨start, []⟩ := runForever_safe hpaced
  have hrely : ∀ {v v' : Timeline}, Elapses v v' → Spaced v.attempts → Spaced v'.attempts :=
    fun hv hs => hv.2 ▸ hs
  have hinit : Spaced (⟨start, []⟩ : Timeline).attempts := trivial
  have hsteps := Program.Safe.steps (I := fun w => Spaced w.attempts) (D := pacing) hrely
    spaced_step hsafe hinit h
  exact hsteps.1

/-! ## Main results -/

/-- **How far the backoff holds.** A failed trigger sets the delay of the `n`-th failure in a row if
    and only if `n` is at most 1024, and under `run_forever` a call of the notifier that follows
    such a failure comes at least that delay after it. -/
theorem backoff_holds (settings : WatcherSettings) :
    (∀ (past : List Past) (l : WatchLoop) (t : Turn) (result : TriggerResult),
      Reachable settings past l → (t.take l).1.called = true →
      t.answer = .ok result → result.ok = false → result.busy = false →
      ∀ n, n = failuresSince (past.map Past.completed) + 1 →
        (((t.take l).1.outcome = .ok (some (min (30 * 2 ^ (n - 1)) 600)) ∧
          (t.take l).2.notBefore = t.now + min (30 * 2 ^ (n - 1)) 600) ↔ n ≤ 1024)) ∧
    (∀ (maxSessions : Option ℕ) (passes : ℕ) (start : ℚ) (w : Timeline)
      (p : Program Op Reply (Except Exc Unit × Watch)),
      Program.Steps (Passes.under Elapses) (⟨start, []⟩,
        Watch.runForever settings maxSessions passes .connecting (Watch.initial settings)) (w, p) →
      ∀ later b a earlier, w.attempts = later ++ b :: a :: earlier → a.failed = true →
        ∀ n, n = failuresOf (a :: earlier) → n ≤ 1024 →
          a.time + min (30 * 2 ^ (n - 1)) 600 ≤ b.time) := by
  refine ⟨fun past l t result h hcalled ha hok hbusy n hn =>
    delay_iff h hcalled ha hok hbusy n hn, ?_⟩
  rintro maxSessions passes start w p hsteps later b a earlier hattempts hfailed n rfl hle
  have hspaced := spaced_of_steps hsteps
  rw [hattempts] at hspaced
  exact hspaced.of_append hfailed hle

/-! ## An outage of a week -/

/-- The forwarder fails every ten minutes. -/
def outageTurn (k : ℕ) : Turn := exampleTurn (600 * k) [7] { ok := false }

/-- The history and the loop after `k` failures. -/
def outage : ℕ → List Past × WatchLoop
  | 0 => ([], (Watch.initial {}).loop)
  | k + 1 =>
      (((outageTurn k).take (outage k).2).1 :: (outage k).1, ((outageTurn k).take (outage k).2).2)

/-- What is known of the loop as long as no exception comes up. -/
structure OutageHolds (k : ℕ) : Prop where
  reachable : Reachable {} (outage k).1 (outage k).2
  failures : (outage k).2.failures = k
  due : (outage k).2.notBefore ≤ 600 * k
  last : (outage k).2.lastTriggerAt = none
  clock : ∀ p ∈ (outage k).1, p.turn.now ≤ 600 * k

/-- The next failure of the outage, and what comes of it. -/
theorem outageTurn_settled {k : ℕ} (h : OutageHolds k) :
    ∃ uids outcome l', (outageTurn k).take (outage k).2 = (⟨outageTurn k, true, outcome⟩, l') ∧
      Settled ((outage k).2.seeing uids) (600 * k) uids { ok := false } outcome l' := by
  have htook := took (outageTurn k) (outage k).2
  generalize hr : (outageTurn k).take (outage k).2 = r at htook
  obtain ⟨p, l'⟩ := r
  generalize hp : (p, l').1 = p' at htook
  generalize hl : (p, l').2 = l'' at htook
  cases hl
  cases hp
  cases htook with
  | unlisted e he => exact absurd he (by contradiction)
  | empty he => exact absurd he (by rintro ⟨⟩)
  | known he hknown hstale =>
      rw [stale, h.last] at hstale
      cases hstale
  | early he hearly => exact absurd h.due (not_le.mpr hearly)
  | unanswered he hdue e ha => exact absurd ha (by contradiction)
  | answered he hdue result ha hs =>
      cases ha
      exact ⟨_, _, _, rfl, hs⟩

theorem OutageHolds.follows {k : ℕ} (h : OutageHolds k) :
    Follows (outage k).1 (outageTurn k) := by
  refine ⟨?_, h.clock⟩
  show (0 : ℚ) ≤ 600 * k
  positivity

theorem outage_holds {k : ℕ} (hk : k ≤ 1024) : OutageHolds k := by
  induction k with
  | zero => exact ⟨.start, rfl, le_of_eq (by simp [outage, Watch.initial]), rfl,
      fun p hp => absurd hp List.not_mem_nil⟩
  | succ k ih =>
      have h := ih (by omega)
      obtain ⟨uids, outcome, l', htake, hs⟩ := outageTurn_settled h
      have hreach := h.reachable.turn (outageTurn k) h.follows
      have hstep : (600 : ℚ) * (k + 1 : ℕ) = 600 * k + 600 := by
        rw [Nat.cast_succ, mul_add, mul_one]
      have hclock : ∀ p ∈ (outage (k + 1)).1, p.turn.now ≤ 600 * (k + 1 : ℕ) := by
        intro p hp
        rcases List.mem_cons.mp hp with rfl | hp
        · rw [htake, hstep]
          show (600 : ℚ) * k ≤ 600 * k + 600
          linarith
        · have := h.clock p hp
          rw [hstep]
          linarith
      have hl : (outage (k + 1)).2 = l' := by
        rw [outage, htake]
      cases hs with
      | drained hok => cases hok
      | remaining hok => cases hok
      | busy _ hbusy => cases hbusy
      | failed _ _ hle =>
          refine ⟨hreach, ?_, ?_, ?_, hclock⟩
          · rw [hl]
            exact congrArg (· + 1) h.failures
          · rw [hl, hstep]
            have := (delayAfter_bounds (((outage k).2.seeing uids).failures + 1)).2
            have hmax : MAX_BACKOFF = 600 := rfl
            dsimp only
            linarith
          · rw [hl]
            exact h.last
      | overflowed _ _ hlt =>
          have hlt : 1024 < (outage k).2.failures + 1 := hlt
          rw [h.failures] at hlt
          omega

/-- What the failure after `k` others does when `k` is too many. -/
theorem OutageHolds.overflow {k : ℕ} (h : OutageHolds k) (hk : 1024 < k + 1) :
    ((outageTurn k).take (outage k).2).1.called = true ∧
    ((outageTurn k).take (outage k).2).1.outcome =
      .error (.other "OverflowError" "int too large to convert to float") ∧
    ((outageTurn k).take (outage k).2).2.notBefore ≤ (outageTurn k).now := by
  obtain ⟨uids, outcome, l', htake, hs⟩ := outageTurn_settled h
  rw [htake]
  cases hs with
  | drained hok => cases hok
  | remaining hok => cases hok
  | busy _ hbusy => cases hbusy
  | failed _ _ hle =>
      have hle : (outage k).2.failures + 1 ≤ 1024 := hle
      rw [h.failures] at hle
      omega
  | overflowed _ _ _ => exact ⟨rfl, rfl, h.due⟩

/-- The 1025th failure in a row raises an exception and sets no resume time. -/
theorem backoff_overflows :
    Reachable {} (outage 1024).1 (outage 1024).2 ∧
    Follows (outage 1024).1 (outageTurn 1024) ∧
    failuresSince ((outage 1024).1.map Past.completed) + 1 = 1025 ∧
    (outageTurn 1024).answer = .ok { ok := false } ∧
    ((outageTurn 1024).take (outage 1024).2).1.called = true ∧
    ((outageTurn 1024).take (outage 1024).2).1.outcome =
      .error (.other "OverflowError" "int too large to convert to float") ∧
    ((outageTurn 1024).take (outage 1024).2).2.notBefore ≤ (outageTurn 1024).now := by
  have h := outage_holds (le_refl 1024)
  have hcount := (tracks_of_reachable h.reachable).failures
  rw [h.failures] at hcount
  exact ⟨h.reachable, h.follows, congrArg (· + 1) hcount.symm, rfl, h.overflow (by omega)⟩

/-! ## A run with two failures -/

/-- A server with one mail, a forwarder that fails, and a process whose time passes while it
    sleeps. -/
def failing (w : Timeline) : (op : Op) → Reply op × Timeline
  | .openClient => (.ok (), w)
  | .login => (.ok (), w)
  | .selectFolder _ _ => (.ok ⟨some 1, none⟩, w)
  | .hasCapability _ => (.ok true, w)
  | .search _ => (.ok [7], w)
  | .clock => (.ok w.time, w)
  | .touch _ _ => (.ok (), w)
  | .trigger =>
      (.ok { ok := false }, { w with attempts := ⟨w.time, .ok { ok := false }⟩ :: w.attempts })
  | .sleep seconds => (.ok (), { w with time := max w.time (w.time + seconds) })
  | _ => (.error (.other "IMAPClientError" "unexpected"), w)

theorem failing_passes (w : Timeline) (op : Op) :
    Passes.under Elapses w op (failing w op).1 (failing w op).2 := by
  refine ⟨w, Elapses.refl w, ?_⟩
  cases op
  case trigger => exact ⟨le_refl _, rfl⟩
  case sleep seconds =>
    exact ⟨⟨le_max_left _ _, rfl⟩, Or.inl ⟨le_max_right _ _, rfl⟩⟩
  case clock => exact ⟨Elapses.refl w, w.time, rfl, le_refl _, le_refl _⟩
  case touch ttl note => exact ⟨Elapses.refl w, rfl⟩
  all_goals exact Elapses.refl w

/-- The first failure of an outage, and the first two calls of a run. -/
theorem backoff_holds_twice :
    (((outageTurn 0).take (outage 0).2).1.outcome = .ok (some (min (30 * 2 ^ (1 - 1)) 600)) ∧
      ((outageTurn 0).take (outage 0).2).2.notBefore =
        (outageTurn 0).now + min (30 * 2 ^ (1 - 1)) 600) ∧
    ∃ w p b a, Program.Steps (Passes.under Elapses) (⟨0, []⟩,
        Watch.runForever {} none 3 .connecting (Watch.initial {})) (w, p) ∧
      w.attempts = [b, a] ∧ a.failed = true ∧ failuresOf [a] = 1 ∧
      a.time + min (30 * 2 ^ (1 - 1)) 600 ≤ b.time := by
  have hcalled : ((outageTurn 0).take (outage 0).2).1.called = true := by decide +kernel
  have hfirst := (backoff_holds {}).1 (outage 0).1 (outage 0).2 (outageTurn 0) { ok := false }
    .start hcalled rfl rfl rfl 1 rfl
  have hsteps := Program.exec_steps failing failing_passes
    (Watch.runForever {} none 3 .connecting (Watch.initial {})) ⟨0, []⟩
  have hattempts : ((Watch.runForever {} none 3 .connecting (Watch.initial {})).exec failing
      ⟨0, []⟩).2.attempts = [] ++ [⟨30, .ok { ok := false }⟩, ⟨0, .ok { ok := false }⟩] := by
    decide +kernel
  have hspaced := (backoff_holds {}).2 none 3 0 _ _ hsteps [] _ _ [] hattempts rfl 1 rfl (by omega)
  exact ⟨hfirst.mpr (by omega), _, _, _, _, hsteps, hattempts, rfl, rfl, hspaced⟩

end WatchLoop

end MailTransporter
