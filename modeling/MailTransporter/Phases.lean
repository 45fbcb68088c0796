import MailTransporter.Forwarder
import MailTransporter.Effect.Discipline

set_option autoImplicit false

/-! # The phases of a run

A run against a handler, taken apart: the part up to the listing, the loop over the listed messages
with the way it ended, and the settlement with the rejections it left. The three are functions of
their own, so what they do can be stated about them and not about the whole program; `run_exec` puts
the run together again. -/

namespace MailTransporter

open Effect
open Effect.Routine (raise attempt getSelf modifySelf settle)

/-- The run with another result. -/
def RunState.withResult (s : RunState) (r : SyncResult) : RunState := { s with result := r }

namespace RunState

@[simp] theorem withResult_result (s : RunState) (r : SyncResult) : (s.withResult r).result = r := rfl

@[simp] theorem withResult_rejected (s : RunState) (r : SyncResult) :
    (s.withResult r).rejected = s.rejected := rfl

@[simp] theorem withResult_mailbox (s : RunState) (r : SyncResult) :
    (s.withResult r).mailbox = s.mailbox := rfl

end RunState

namespace Forwarder

variable {W : Type} (h : W → (op : Op) → Reply op × W) (o : ForwarderOptions)

theorem exec_count (f : SyncResult → SyncResult) (s : RunState) (w : W) :
    (count f).exec h s w = ((.ok (), s.withResult (f s.result)), w) := rfl

theorem exec_self (s : RunState) (w : W) :
    (getSelf : Run RunState).exec h s w = ((.ok s, s), w) := rfl

/-! ## The loop -/

/-- How the loop ends. -/
inductive Ending where
  | finished
  | budget (left : ℕ)
  | aborted (text : String) (left : ℕ)
  | raised (exc : Exc)

namespace Ending

/-- The messages the loop did not get to, as the run reports them. -/
def left : Ending → ℕ
  | .budget left => left
  | .aborted _ left => left
  | _ => 0

/-- The text of the `AbortRun` that ended the loop. -/
def abort : Ending → Option String
  | .aborted text _ => some text
  | _ => none

/-- What leaves the loop. -/
def outcome : Ending → Except Exc Unit
  | .raised exc => .error exc
  | _ => .ok ()

/-- What the loop writes into the result when it ends. -/
def report (ending : Ending) (r : SyncResult) : SyncResult :=
  match ending with
  | .finished => r
  | .budget left => { r with remaining := left }
  | .aborted text left => { r with error := some text, remaining := left }
  | .raised _ => r

end Ending

/-- The loop, message by message: how it ended, and the objects and the state it left. -/
def loop (extraLabels : List String) (started : ℚ) : List ℕ → RunState → W → Ending × RunState × W
  | [], s, w => (.finished, s, w)
  | uid :: rest, s, w =>
      match h w .clock with
      | (.error exc, w₁) => (.raised exc, s, w₁)
      | (.ok now, w₁) =>
          if now - started > o.timeBudgetSeconds then (.budget (rest.length + 1), s, w₁)
          else
            match (process o extraLabels uid).exec h s w₁ with
            | ((.ok (), s'), w') => loop extraLabels started rest s' w'
            | ((.error (.abortRun text), s'), w') => (.aborted text (rest.length + 1), s', w')
            | ((.error exc, s'), w') => (.raised exc, s', w')

/-- The loop of the run is `loop`. -/
theorem processAll_exec {extraLabels : List String} {started : ℚ} {uids : List ℕ} {s : RunState}
    {w : W} {ending : Ending} {s' : RunState} {w' : W}
    (hloop : loop h o extraLabels started uids s w = (ending, s', w')) :
    (processAll o extraLabels started uids).exec h s w =
      ((ending.outcome, s'.withResult (ending.report s'.result)), w') := by
  induction uids generalizing s w with
  | nil =>
      cases hloop
      rfl
  | cons uid rest ih =>
      rw [loop] at hloop
      rw [processAll]
      rcases hclock : h w .clock with ⟨now | now, w₁⟩
      · have hcall : (call .clock : Run ℚ).exec h s w = ((.error now, s), w₁) := by
          rw [call, Routine.exec_call, hclock]
        rw [hclock] at hloop
        cases hloop
        rw [Routine.exec_bind_error _ _ _ hcall]
        rfl
      · have hcall : (call .clock : Run ℚ).exec h s w = ((.ok now, s), w₁) := by
          rw [call, Routine.exec_call, hclock]
        rw [hclock] at hloop
        rw [Routine.exec_bind_ok _ _ _ hcall]
        dsimp only at hloop ⊢
        by_cases hbudget : now - started > o.timeBudgetSeconds
        · rw [if_pos hbudget] at hloop ⊢
          cases hloop
          rfl
        · rw [if_neg hbudget] at hloop ⊢
          rcases hprocess : (process o extraLabels uid).exec h s w₁ with ⟨⟨r, s₁⟩, w₂⟩
          have hattempt : (attempt (process o extraLabels uid)).exec h s w₁ = ((.ok r, s₁), w₂) := by
            rw [Routine.exec_attempt, hprocess]
          rw [Routine.exec_bind_ok _ _ _ hattempt]
          rw [hprocess] at hloop
          rcases r with e | _
          · cases e
            all_goals
              cases hloop
              rfl
          · exact ih hloop

/-! ## The settlement -/

/-- The rejections of a settlement that were not taken aside, from the first failure on, and the
    exception that ended it. -/
structure Leftover where
  rejected : List Rejection
  failure : Option Exc

/-- Rejection by rejection, until one cannot be taken aside. -/
def settlement : List Rejection → RunState → W → Leftover × RunState × W
  | [], s, w => (⟨[], none⟩, s, w)
  | rejection :: rest, s, w =>
      match (quarantine o rejection.uid o.keywords.failed o.failedFolder).exec h s w with
      | ((.ok (), s'), w') => settlement rest s' w'
      | ((.error exc, s'), w') => (⟨rejection :: rest, some exc⟩, s', w')

/-- What a failed settlement leaves in the result, and what it raises. -/
def Leftover.outcome (l : Leftover) : Except Exc Unit :=
  match l.failure with
  | none => .ok ()
  | some (.abortRun _) => .ok ()
  | some exc => .error exc

def Leftover.report (l : Leftover) (r : SyncResult) : SyncResult :=
  match l.failure with
  | some (.abortRun text) => { r with error := r.keepError text }
  | _ => r

theorem quarantineAll_exec {rejected : List Rejection} {s : RunState} {w : W} {leftover : Leftover}
    {s' : RunState} {w' : W} (hsettle : settlement h o rejected s w = (leftover, s', w')) :
    (quarantineAll o rejected).exec h s w =
      ((leftover.outcome, s'.withResult (leftover.report s'.result)), w') := by
  induction rejected generalizing s w with
  | nil =>
      cases hsettle
      rfl
  | cons rejection rest ih =>
      rw [settlement] at hsettle
      rw [quarantineAll]
      rcases hq : (quarantine o rejection.uid o.keywords.failed o.failedFolder).exec h s w with
        ⟨⟨r, s₁⟩, w₁⟩
      have hattempt : (attempt (quarantine o rejection.uid o.keywords.failed o.failedFolder)).exec h
          s w = ((.ok r, s₁), w₁) := by
        rw [Routine.exec_attempt, hq]
      rw [Routine.exec_bind_ok _ _ _ hattempt]
      rw [hq] at hsettle
      rcases r with e | _
      · cases e
        all_goals
          cases hsettle
          rfl
      · exact ih hsettle

/-- The rejections the circuit breaker counts. -/
def suspicious (rejected : List Rejection) : List Rejection :=
  rejected.filter (fun r => !r.perMessage)

/-- The breaker trips over the rejections of the run. -/
def trips (s : RunState) : Bool :=
  breakerTrips o.rejectionThreshold (suspicious s.rejected) s.result.forwarded

/-- The rejections the run leaves alone, because the breaker tripped. -/
def spared (s : RunState) : List Rejection := if trips o s then suspicious s.rejected else []

/-- The rejections the run settles. -/
def due (s : RunState) : List Rejection :=
  if trips o s then s.rejected.filter Rejection.perMessage else s.rejected

/-- A tripped breaker has a rejection to quote, unless the threshold is negative. -/
theorem suspicious_ne_nil {s : RunState} (hT : 0 ≤ o.rejectionThreshold) (ht : trips o s = true) :
    suspicious s.rejected ≠ [] := by
  intro hnil
  simp only [trips, breakerTrips, hnil, Bool.and_eq_true, decide_eq_true_eq, List.length_nil] at ht
  omega

/-- What the tripped breaker has to say. -/
def breakerText (suspicious : List Rejection) : String :=
  match suspicious with
  | [] => ""
  | first :: _ =>
      let n := suspicious.length
      let text := first.error
      s!"{n} message(s) were rejected by Gmail and none were accepted; " ++
        "suspecting an account or configuration problem, they were not quarantined. " ++
        s!"First error: {text}"

/-- The run when its settlement starts: a tripped breaker has left its text in the result. -/
def marked (s : RunState) : RunState :=
  if trips o s then
    s.withResult { s.result with
      error := s.result.keepError (breakerText (suspicious s.rejected)) }
  else s

theorem settleRejections_exec {s : RunState} {w : W}
    (hquote : trips o s = true → suspicious s.rejected ≠ []) {leftover : Leftover}
    {s' : RunState} {w' : W} (hsettle : settlement h o (due o s) (marked o s) w = (leftover, s', w')) :
    (settleRejections o).exec h s w =
      ((leftover.outcome, s'.withResult (leftover.report s'.result)), w') := by
  rw [settleRejections, Routine.exec_bind_ok _ _ _ (exec_self h s w)]
  have hall := quarantineAll_exec h o hsettle
  unfold due marked at hall
  show (if trips o s then (breakerMessage (suspicious s.rejected) >>= _) else _ : Run Unit).exec h s
    w = _
  by_cases ht : trips o s = true
  · have hmessage : (breakerMessage (suspicious s.rejected)).exec h s w =
        ((.ok (breakerText (suspicious s.rejected)), s), w) := by
      cases hs : suspicious s.rejected with
      | nil => exact absurd hs (hquote ht)
      | cons first rest => rfl
    rw [if_pos ht, if_pos ht] at hall
    rw [if_pos ht, Routine.exec_bind_ok _ _ _ hmessage,
      Routine.exec_bind_ok _ _ _ (exec_count h _ s w)]
    exact hall
  · rw [if_neg ht, if_neg ht] at hall
    rw [if_neg ht]
    exact hall

/-! ## The run around them -/

/-- The run up to the listing: the time it started, the labels and the UIDs. -/
def untilListed : Run (ℚ × List String × List ℕ) := do
  let started ← call .clock
  onMailbox ICloudMailbox.connect
  onMailbox ICloudMailbox.requireKeywords
  call .gmailClient
  let extraLabels ← extraLabelIds o.label
  let uids ← onMailbox (ICloudMailbox.listInboxUids (some o.keywords.quarantine))
  pure (started, extraLabels, uids)

/-- The run from the listing on, to the end of the `with` statement. -/
def afterListed (extraLabels : List String) (started : ℚ) (uids : List ℕ) : Run Unit := do
  count (fun r => { r with listed := uids.length })
  processAll o extraLabels started uids
  let s ← getSelf
  if s.rejected = [] then pure () else settleRejections o

/-- The end of the run, from the `with` statement on. -/
def finish (started : ℚ) (outcome : Except Exc Unit) : Run SyncResult := do
  onMailbox ICloudMailbox.close
  match outcome with
  | .ok () => pure ()
  | .error exc =>
      if exc.isMailboxError || exc.isGmailError then
        count (fun r => { r with error := some exc.text })
      else raise exc
  let ended ← call .clock
  count (fun r => { r with durationSeconds := round3 (ended - started) })
  let s ← getSelf
  pure s.result

/-- The part after the listing, when nothing but an `AbortRun` left the loop. -/
theorem afterListed_exec {extraLabels : List String} {started : ℚ} {uids : List ℕ} {s : RunState}
    {w : W} {ending : Ending} {s₁ : RunState} {w₁ : W}
    (hloop : loop h o extraLabels started uids
      (s.withResult { s.result with listed := uids.length }) w = (ending, s₁, w₁)) :
    (afterListed o extraLabels started uids).exec h s w =
      match ending.outcome with
      | .error exc => ((.error exc, s₁.withResult (ending.report s₁.result)), w₁)
      | .ok () =>
          (if s₁.rejected = [] then pure () else settleRejections o : Run Unit).exec h
            (s₁.withResult (ending.report s₁.result)) w₁ := by
  have hall := processAll_exec h o hloop
  rw [afterListed, Routine.exec_bind_ok _ _ _ (exec_count h _ s w)]
  cases hout : ending.outcome with
  | error exc =>
      rw [hout] at hall
      rw [Routine.exec_bind_error _ _ _ hall]
  | ok _ =>
      rw [hout] at hall
      rw [Routine.exec_bind_ok _ _ _ hall, Routine.exec_bind_ok _ _ _ (exec_self h _ w₁)]
      rfl

variable {h o}

/-- Closing the session returns. -/
theorem close_exec (s : RunState) (w : W) : ∃ s' w',
    (onMailbox ICloudMailbox.close).exec h s w = ((.ok (), s'), w') ∧
      s'.result = s.result ∧ s'.rejected = s.rejected := by
  rw [onMailbox, Routine.exec_on]
  refine ⟨_, _, Prod.ext (Prod.ext ?_ rfl) rfl, rfl, rfl⟩
  unfold ICloudMailbox.close
  by_cases hc : s.mailbox.connected = true
  · have hself : (getSelf : Mailbox ICloudMailbox).exec h s.mailbox w =
        ((.ok s.mailbox, s.mailbox), w) := rfl
    rw [Routine.exec_bind_ok _ _ _ hself]
    have hclose : (modifySelf (fun self => { self with connected := false }) : Mailbox Unit).exec h
        s.mailbox w = ((.ok (), { s.mailbox with connected := false }), w) := rfl
    rw [Routine.exec_bind_ok _ _ _ hclose, if_pos hc]
    have hlogout : (attempt (call .logout) : Mailbox (Except Exc Unit)).exec h
        { s.mailbox with connected := false } w =
          ((.ok (h w .logout).1, { s.mailbox with connected := false }), (h w .logout).2) := rfl
    rw [Routine.exec_bind_ok _ _ _ hlogout]
    cases (h w .logout).1 <;> rfl
  · simp only [Bool.not_eq_true] at hc
    have hself : (getSelf : Mailbox ICloudMailbox).exec h s.mailbox w =
        ((.ok s.mailbox, s.mailbox), w) := rfl
    rw [Routine.exec_bind_ok _ _ _ hself, hc]
    rfl

/-- What the `with` statement does before its loop. -/
def listing (o : ForwarderOptions) : Run (List String × List ℕ) := do
  onMailbox ICloudMailbox.requireKeywords
  call .gmailClient
  let extraLabels ← extraLabelIds o.label
  let uids ← onMailbox (ICloudMailbox.listInboxUids (some o.keywords.quarantine))
  pure (extraLabels, uids)

/-- The end of the run, once the session is closed. -/
def conclude (started : ℚ) (outcome : Except Exc Unit) : Run SyncResult := do
  match outcome with
  | .ok () => pure ()
  | .error exc =>
      if exc.isMailboxError || exc.isGmailError then
        count (fun r => { r with error := some exc.text })
      else raise exc
  let ended ← call .clock
  count (fun r => { r with durationSeconds := round3 (ended - started) })
  let s ← getSelf
  pure s.result

/-- The body of the `with` statement is the listing and what follows it. -/
theorem session_exec (started : ℚ) (s : RunState) (w : W) :
    (session o started).exec h s w =
      match (listing o).exec h s w with
      | ((.ok (extraLabels, uids), s'), w') => (afterListed o extraLabels started uids).exec h s' w'
      | ((.error exc, s'), w') => ((.error exc, s'), w') := by
  rw [session, listing, Routine.exec_bind, Routine.exec_bind]
  rcases (onMailbox ICloudMailbox.requireKeywords).exec h s w with ⟨⟨e | _, s₁⟩, w₁⟩
  · rfl
  dsimp only
  rw [Routine.exec_bind, Routine.exec_bind]
  rcases (call .gmailClient : Run Unit).exec h s₁ w₁ with ⟨⟨e | _, s₂⟩, w₂⟩
  · rfl
  dsimp only
  rw [Routine.exec_bind, Routine.exec_bind]
  rcases (extraLabelIds o.label).exec h s₂ w₂ with ⟨⟨e | labels, s₃⟩, w₃⟩
  · rfl
  dsimp only
  rw [Routine.exec_bind, Routine.exec_bind]
  rcases (onMailbox (ICloudMailbox.listInboxUids (some o.keywords.quarantine))).exec h s₃ w₃ with
    ⟨⟨e | uids, s₄⟩, w₄⟩
  · rfl
  · rfl

/-- The listing of a run is the clock, the connection and the listing of its session. -/
theorem untilListed_exec (w : W) :
    (untilListed o).exec h (initial o) w =
      match h w .clock with
      | (.error exc, w₁) => ((.error exc, initial o), w₁)
      | (.ok started, w₁) =>
          match (onMailbox ICloudMailbox.connect).exec h (initial o) w₁ with
          | ((.error exc, s₂), w₂) => ((.error exc, s₂), w₂)
          | ((.ok (), s₂), w₂) =>
              match (listing o).exec h s₂ w₂ with
              | ((.error exc, s₃), w₃) => ((.error exc, s₃), w₃)
              | ((.ok (extraLabels, uids), s₃), w₃) =>
                  ((.ok (started, extraLabels, uids), s₃), w₃) := by
  rw [untilListed, Routine.exec_bind, call, Routine.exec_call]
  rcases h w .clock with ⟨e | started, w₁⟩
  · rfl
  dsimp only
  rw [Routine.exec_bind]
  rcases (onMailbox ICloudMailbox.connect).exec h (initial o) w₁ with ⟨⟨e | _, s₂⟩, w₂⟩
  · rfl
  dsimp only
  rw [listing, Routine.exec_bind, Routine.exec_bind]
  rcases (onMailbox ICloudMailbox.requireKeywords).exec h s₂ w₂ with ⟨⟨e | _, s₃⟩, w₃⟩
  · rfl
  dsimp only
  rw [Routine.exec_bind, Routine.exec_bind]
  rcases (call .gmailClient : Run Unit).exec h s₃ w₃ with ⟨⟨e | _, s₄⟩, w₄⟩
  · rfl
  dsimp only
  rw [Routine.exec_bind, Routine.exec_bind]
  rcases (extraLabelIds o.label).exec h s₄ w₄ with ⟨⟨e | labels, s₅⟩, w₅⟩
  · rfl
  dsimp only
  rw [Routine.exec_bind, Routine.exec_bind]
  rcases (onMailbox (ICloudMailbox.listInboxUids (some o.keywords.quarantine))).exec h s₅ w₅ with
    ⟨⟨e | uids, s₆⟩, w₆⟩
  · rfl
  · rfl

/-- Once the session is open, the run is its body and its end. -/
theorem run_exec_session {w : W} {started : ℚ} {w₁ : W} (hclock : h w .clock = (.ok started, w₁))
    {s₂ : RunState} {w₂ : W}
    (hconnect : (onMailbox ICloudMailbox.connect).exec h (initial o) w₁ = ((.ok (), s₂), w₂))
    {r : Except Exc Unit} {s₃ : RunState} {w₃ : W}
    (hsession : (session o started).exec h s₂ w₂ = ((r, s₃), w₃)) :
    (run o).exec h (initial o) w = (finish started r).exec h s₃ w₃ := by
  have hcall : (call .clock : Run ℚ).exec h (initial o) w = ((.ok started, initial o), w₁) := by
    rw [call, Routine.exec_call, hclock]
  have hbody : (attempt (session o started)).exec h s₂ w₂ = ((.ok r, s₃), w₃) := by
    rw [Routine.exec_attempt, hsession]
  obtain ⟨s₄, w₄, hclose, -, -⟩ := close_exec (h := h) s₃ w₃
  have hwith : (attempt (withMailbox (session o started))).exec h (initial o) w₁ =
      ((.ok r, s₄), w₄) := by
    rw [Routine.exec_attempt, withMailbox, Routine.exec_bind_ok _ _ _ hconnect,
      Routine.exec_bind_ok _ _ _ hbody, Routine.exec_bind_ok _ _ _ hclose, Routine.exec_settle]
  have hfinish : (finish started r).exec h s₃ w₃ = _ := Routine.exec_bind_ok _ _ _ hclose
  rw [run, Routine.exec_bind_ok _ _ _ hcall, Routine.exec_bind_ok _ _ _ hwith]
  refine Eq.trans ?_ hfinish.symm
  cases r <;> rfl

/-- **The phases make up the run.** -/
theorem run_exec {w : W} {started : ℚ} {extraLabels : List String} {uids : List ℕ} {s : RunState}
    {w₀ : W} (hlisted : (untilListed o).exec h (initial o) w =
      ((.ok (started, extraLabels, uids), s), w₀)) {r : Except Exc Unit} {s₁ : RunState} {w₁ : W}
    (hafter : (afterListed o extraLabels started uids).exec h s w₀ = ((r, s₁), w₁)) :
    (run o).exec h (initial o) w = (finish started r).exec h s₁ w₁ := by
  rw [untilListed_exec] at hlisted
  rcases hclock : h w .clock with ⟨e | started', w₂⟩
  · rw [hclock] at hlisted
    cases hlisted
  rw [hclock] at hlisted
  dsimp only at hlisted
  rcases hconnect : (onMailbox ICloudMailbox.connect).exec h (initial o) w₂ with ⟨⟨e | _, s₃⟩, w₃⟩
  · rw [hconnect] at hlisted
    cases hlisted
  rw [hconnect] at hlisted
  dsimp only at hlisted
  rcases hlist : (listing o).exec h s₃ w₃ with ⟨⟨e | ⟨labels, uids'⟩, s₄⟩, w₄⟩
  · rw [hlist] at hlisted
    cases hlisted
  rw [hlist] at hlisted
  cases hlisted
  refine run_exec_session hclock hconnect ?_
  rw [session_exec, hlist]
  exact hafter

/-- The end of a run leaves the rejections alone, and the exception it is told about ends up in the
    result or goes on. -/
theorem conclude_exec (started : ℚ) (outcome : Except Exc Unit) (s : RunState) (w : W) :
    (((conclude started outcome).exec h s w).1.2.rejected = s.rejected ∧
      ((conclude started outcome).exec h s w).1.2.result.forwarded = s.result.forwarded) ∧
      ∀ result, ((conclude started outcome).exec h s w).1.1 = .ok result →
        ∀ e, outcome = .error e → result.error ≠ none := by
  have hrest : ∀ s' : RunState,
      (((do
        let ended ← call .clock
        count (fun r => { r with durationSeconds := round3 (ended - started) })
        let s ← getSelf
        pure s.result : Run SyncResult).exec h s' w).1.2.rejected = s'.rejected ∧
      ((do
        let ended ← call .clock
        count (fun r => { r with durationSeconds := round3 (ended - started) })
        let s ← getSelf
        pure s.result : Run SyncResult).exec h s' w).1.2.result.forwarded = s'.result.forwarded) ∧
      ∀ result, ((do
        let ended ← call .clock
        count (fun r => { r with durationSeconds := round3 (ended - started) })
        let s ← getSelf
        pure s.result : Run SyncResult).exec h s' w).1.1 = .ok result →
        result.error = s'.result.error := by
    intro s'
    rw [Routine.exec_bind, call, Routine.exec_call]
    rcases h w .clock with ⟨e | ended, w₁⟩
    · exact ⟨⟨rfl, rfl⟩, nofun⟩
    · refine ⟨⟨rfl, rfl⟩, fun result hresult => ?_⟩
      cases hresult
      rfl
  cases outcome with
  | ok _ =>
      obtain ⟨hrejected, -⟩ := hrest s
      exact ⟨hrejected, fun _ _ _ he => absurd he nofun⟩
  | error exc =>
      unfold conclude
      by_cases hcaught : (exc.isMailboxError || exc.isGmailError) = true
      · obtain ⟨hrejected, herror⟩ :=
          hrest (s.withResult { s.result with error := some exc.text })
        simp only [hcaught, if_true]
        refine ⟨hrejected, fun result hresult e _ => ?_⟩
        rw [herror result hresult]
        exact nofun
      · simp only [hcaught]
        exact ⟨⟨rfl, rfl⟩, nofun⟩

/-- Up to the listing the result and the rejections are as they were. -/
theorem untilListed_keeps : (untilListed o).Keeps (fun s => (s.result, s.rejected)) := by
  have hmailbox : ∀ {α : Type} (m : Mailbox α),
      (onMailbox m).Keeps (fun s : RunState => (s.result, s.rejected)) :=
    fun m => Routine.keeps_on m (fun _ _ => rfl)
  have hlabels : (extraLabelIds o.label).Keeps (fun s : RunState => (s.result, s.rejected)) := by
    unfold extraLabelIds
    split
    · exact Routine.keeps_pure _
    · split
      · exact Routine.keeps_pure _
      · exact Routine.keeps_bind (Routine.keeps_call _) (fun _ => Routine.keeps_pure _)
  refine Routine.keeps_bind (Routine.keeps_call _) (fun _ => ?_)
  refine Routine.keeps_bind (hmailbox _) (fun _ => ?_)
  refine Routine.keeps_bind (hmailbox _) (fun _ => ?_)
  refine Routine.keeps_bind (Routine.keeps_call _) (fun _ => ?_)
  refine Routine.keeps_bind hlabels (fun _ => ?_)
  refine Routine.keeps_bind (hmailbox _) (fun _ => ?_)
  exact Routine.keeps_pure _

/-- A run that does not get to its listing has rejected nothing, and reports an error if it returns. -/
theorem run_unlisted {w : W} {e : Exc} {s : RunState} {w₀ : W}
    (hlisted : (untilListed o).exec h (initial o) w = ((.error e, s), w₀)) :
    ((run o).exec h (initial o) w).1.2.rejected = [] ∧
      ∀ result, ((run o).exec h (initial o) w).1.1 = .ok result → result.error ≠ none := by
  have hkeeps := (untilListed_keeps (o := o)).exec h (initial o) w
  rw [hlisted] at hkeeps
  have hrejected : s.rejected = [] := (Prod.mk.inj hkeeps).2
  rw [untilListed_exec] at hlisted
  rcases hclock : h w .clock with ⟨exc | started, w₁⟩
  · have hcall : (call .clock : Run ℚ).exec h (initial o) w = ((.error exc, initial o), w₁) := by
      rw [call, Routine.exec_call, hclock]
    rw [run, Routine.exec_bind_error _ _ _ hcall]
    exact ⟨rfl, nofun⟩
  rw [hclock] at hlisted
  dsimp only at hlisted
  rcases hconnect : (onMailbox ICloudMailbox.connect).exec h (initial o) w₁ with ⟨⟨exc | _, s₂⟩, w₂⟩
  · -- no session, so there is none to close
    rw [hconnect] at hlisted
    cases hlisted
    have hcall : (call .clock : Run ℚ).exec h (initial o) w = ((.ok started, initial o), w₁) := by
      rw [call, Routine.exec_call, hclock]
    have hwith : (attempt (withMailbox (session o started))).exec h (initial o) w₁ =
        ((.ok (.error e), s), w₀) := by
      rw [Routine.exec_attempt, withMailbox, Routine.exec_bind_error _ _ _ hconnect]
    rw [run, Routine.exec_bind_ok _ _ _ hcall, Routine.exec_bind_ok _ _ _ hwith]
    obtain ⟨hend, herror⟩ := conclude_exec (h := h) started (.error e) s w₀
    exact ⟨hend.1.trans hrejected, fun result hresult => herror result hresult e rfl⟩
  · rw [hconnect] at hlisted
    dsimp only at hlisted
    rcases hlist : (listing o).exec h s₂ w₂ with ⟨⟨exc | ⟨labels, uids⟩, s₃⟩, w₃⟩
    · rw [hlist] at hlisted
      cases hlisted
      have hsession : (session o started).exec h s₂ w₂ = ((.error e, s), w₀) := by
        rw [session_exec, hlist]
      obtain ⟨s₄, w₄, hclose, -, hsame⟩ := close_exec (h := h) s w₀
      rw [run_exec_session hclock hconnect hsession, finish, Routine.exec_bind_ok _ _ _ hclose]
      obtain ⟨hend, herror⟩ := conclude_exec (h := h) started (.error e) s₄ w₄
      exact ⟨hend.1.trans (hsame.trans hrejected), fun result hresult => herror result hresult e rfl⟩
    · rw [hlist] at hlisted
      cases hlisted

end Forwarder

end MailTransporter
