import MailTransporter.Exceptions
import MailTransporter.Phases

set_option autoImplicit false

/-! # Every listed message is accounted for

A run counts in four methods and keeps the rejections in a list it settles at the end. `handled` is
what has been counted so far together with that list; a message of the loop adds one to it unless it
aborts the run, and a settled rejection moves from the list to a counter. -/

namespace MailTransporter

open Effect
open Effect.Routine (raise attempt getSelf modifySelf settle)
open Exceptions (Recorded recorded answersOf safe_event exec_recorded)

namespace Accounting

/-- The messages a run has counted or keeps in its list of rejections. -/
def handled (s : RunState) : ℕ :=
  s.result.trashed + s.result.skipped + s.result.retryLater + s.result.quarantined +
    s.rejected.length

/-- `n` more messages have been handled; what the loop and the settlement write is as it was. -/
structure Counted (n : ℕ) (s s' : RunState) : Prop where
  handled : handled s' = handled s + n
  listed : s'.result.listed = s.result.listed
  remaining : s'.result.remaining = s.result.remaining
  error : s'.result.error = s.result.error

namespace Counted

theorem refl (s : RunState) : Counted 0 s s := ⟨rfl, rfl, rfl, rfl⟩

theorem mailbox (s : RunState) (mailbox : ICloudMailbox) :
    Counted 0 s { s with mailbox := mailbox } := ⟨rfl, rfl, rfl, rfl⟩

theorem trans {m n : ℕ} {s s' s'' : RunState} (h : Counted m s s') (h' : Counted n s' s'') :
    Counted (m + n) s s'' := by
  refine ⟨?_, h'.listed.trans h.listed, h'.remaining.trans h.remaining, h'.error.trans h.error⟩
  rw [h'.handled, h.handled, Nat.add_assoc]

theorem after {n : ℕ} {s s' s'' : RunState} (h : Counted 0 s s') (h' : Counted n s' s'') :
    Counted n s s'' := by
  have := h.trans h'
  rwa [Nat.zero_add] at this

end Counted

/-- The collaborators of a run raise `MailboxError`s and the three Gmail errors, with a text. -/
structure Civil (A : (op : Op) → Reply op → Prop) : Prop where
  insertRaw : ∀ raw labels e, A (.insertRaw raw labels) (.error e) →
    ∃ cls text status, e = .gmailError cls text status ∧ cls ≠ .base ∧ text ≠ ""
  body : ∀ uid data, A (.fetch [uid] .message) (.ok data) →
    (data.lookup uid).bind FetchItem.body ≠ some none
  clock : ∀ e, ¬A .clock (.error e)
  issueTrash : ∀ raw e, ¬A (.issueTrash raw) (.error e)

variable {A : (op : Op) → Reply op → Prop}

/-- The step handles one message, or raises `AbortRun` with a text and has handled none. -/
def Tallies (A : (op : Op) → Reply op → Prop) (m : Run Unit) : Prop :=
  ∀ s t, m.Safe (Recorded A) .alone (fun r s' _ => (r = .ok () ∧ Counted 1 s s') ∨
    ∃ text, r = .error (.abortRun text) ∧ text ≠ "" ∧ Counted 0 s s') s t

theorem tallies_count {f : SyncResult → SyncResult}
    (hf : ∀ s : RunState, Counted 1 s (s.withResult (f s.result))) : Tallies A (count f) :=
  fun s _ => Or.inl ⟨rfl, hf s⟩

theorem tallies_raise {text : String} (h : text ≠ "") : Tallies A (raise (.abortRun text)) :=
  fun s _ => Or.inr ⟨text, rfl, h, .refl s⟩

/-- What has happened before is added. -/
theorem Tallies.after {m : Run Unit} (hm : Tallies A m) {s s' : RunState} (hs : Counted 0 s s')
    (t : List Exceptions.Event) : m.Safe (Recorded A) .alone (fun r s'' _ =>
      (r = .ok () ∧ Counted 1 s s'') ∨
        ∃ text, r = .error (.abortRun text) ∧ text ≠ "" ∧ Counted 0 s s'') s' t := by
  refine (hm s' t).mono ?_
  rintro r s'' _ (⟨hr, h⟩ | ⟨text, hr, htext, h⟩)
  · exact Or.inl ⟨hr, hs.after h⟩
  · exact Or.inr ⟨text, hr, htext, hs.after h⟩

/-- A `try` around a method that raises nothing but a `MailboxError`. -/
theorem tallies_attempt {α : Type} {m : Mailbox α} (hm : Exceptions.Sound A Exceptions.caught m)
    {f : Except Exc α → Run Unit} (hok : ∀ a, Tallies A (f (.ok a)))
    (herr : ∀ e, e.isMailboxError = true → Tallies A (f (.error e))) :
    Tallies A (attempt (onMailbox m) >>= f) := by
  intro s t
  rw [Routine.safe_bind, Routine.safe_attempt, safe_onMailbox]
  refine (hm s.mailbox t).mono ?_
  rintro r mailbox t' ⟨-, hr⟩
  rw [Routine.after_ok]
  cases r with
  | ok a => exact (hok a).after (.mailbox s mailbox) t'
  | error e => exact (herr e (hr e rfl)).after (.mailbox s mailbox) t'

/-- The handler of a `MailboxError` that ends the run. -/
theorem tallies_handler {e : Exc} (he : e.isMailboxError = true) {text : String} (h : text ≠ "") :
    Tallies A (if e.isMailboxError then raise (.abortRun text) else raise e) := by
  rw [if_pos he]
  exact tallies_raise h

/-! ## One message -/

open Forwarder

theorem moveAside_tallies (uid : ℕ) (folder : String) : Tallies A (moveAside uid folder) := by
  refine tallies_attempt (Exceptions.Method.moveToFolder_sound uid folder) (fun _ => ?_) ?_
  · exact tallies_count (fun s => ⟨by simp [handled]; omega, rfl, rfl, rfl⟩)
  · intro e he
    exact tallies_handler he (by simp)

theorem quarantine_tallies (o : ForwarderOptions) (uid : ℕ) (keyword folder : String) :
    Tallies A (quarantine o uid keyword folder) := by
  unfold quarantine
  split
  · refine tallies_attempt (Exceptions.Method.addKeyword_sound uid keyword) (fun _ => ?_) ?_
    · exact tallies_count (fun s => ⟨by simp [handled]; omega, rfl, rfl, rfl⟩)
    · intro e he
      show Tallies A (if _ then _ else _)
      rw [if_pos he]
      exact moveAside_tallies uid folder
  · exact moveAside_tallies uid folder

variable (hA : Civil A)

include hA

theorem trash_tallies (message : FetchedMessage) : Tallies A (trash message) := by
  intro s t
  rw [trash, Routine.safe_bind]
  refine safe_event (fun r hr => ?_)
  cases r with
  | error e => exact absurd hr (hA.issueTrash _ e)
  | ok _ =>
      refine tallies_attempt (Exceptions.Method.moveToTrash_sound message.uid) (fun _ => ?_) ?_ s _
      · exact tallies_count (fun s => ⟨by simp [handled]; omega, rfl, rfl, rfl⟩)
      · intro e he
        exact tallies_handler he (by simp)

theorem recordInsert_tallies (o : ForwarderOptions) (message : FetchedMessage) :
    Tallies A (recordInsert o message) := by
  intro s t
  rw [recordInsert, Routine.safe_bind, safe_count, Routine.after_ok]
  -- `forwarded` is none of the counters that add up
  have hforwarded : Counted 0 s
      (s.withResult { s.result with forwarded := s.result.forwarded + 1 }) := ⟨rfl, rfl, rfl, rfl⟩
  refine Tallies.after ?_ hforwarded t
  refine tallies_attempt (Exceptions.Method.addKeyword_sound _ _) (fun _ => ?_) ?_
  · exact trash_tallies hA message
  · intro e he
    show Tallies A (if _ then _ else _)
    rw [if_pos he]
    exact quarantine_tallies o _ _ _

theorem insert_tallies (o : ForwarderOptions) (extraLabels : List String)
    (message : FetchedMessage) : Tallies A (Forwarder.insert o extraLabels message) := by
  intro s t
  rw [Forwarder.insert, Routine.safe_bind, Routine.safe_attempt]
  refine safe_event (fun r hr => ?_)
  rw [Routine.after_ok]
  cases r with
  | ok id => exact recordInsert_tallies hA o message s _
  | error e =>
      obtain ⟨cls, text, status, rfl, hcls, htext⟩ := hA.insertRaw _ _ _ hr
      cases cls with
      | base => exact absurd rfl hcls
      | auth => exact tallies_raise htext s _
      | retryable =>
          have hlater : Tallies A (count (fun r => { r with retryLater := r.retryLater + 1 })) :=
            tallies_count (fun s => ⟨by simp [handled]; omega, rfl, rfl, rfl⟩)
          exact hlater s _
      | permanent =>
          refine Or.inl ⟨rfl, ?_, rfl, rfl, rfl⟩
          simp [handled]
          omega

/-- Fetching raises nothing but a `MailboxError`. -/
theorem fetchMessage_raises (uid : ℕ) (s : ICloudMailbox) (t : List Exceptions.Event) :
    (ICloudMailbox.fetchMessage uid).Safe (Recorded A) .alone
      (fun r _ _ => ∀ e, r = .error e → e.isMailboxError = true) s t := by
  have hmailbox : ∀ text e, (.error (.mailboxError text) : Except Exc FetchedMessage) = .error e →
      e.isMailboxError = true := by
    intro text e he
    cases he
    rfl
  rw [ICloudMailbox.fetchMessage, Routine.safe_bind, Routine.safe_attempt, Routine.safe_bind]
  refine ICloudMailbox.client_safe ?_ (fun text => hmailbox _)
  rw [Routine.after_ok]
  refine safe_event (fun r hr => ?_)
  cases r with
  | error e => exact hmailbox _
  | ok data =>
      have hbody := hA.body uid data hr
      rw [Routine.after_ok]
      dsimp only
      rcases hb : (data.lookup uid).bind FetchItem.body with _ | _ | raw
      · intro e he
        cases he
        rfl
      · exact absurd hb hbody
      · simp

/-- **One message of the loop.** -/
theorem process_tallies (o : ForwarderOptions) (extraLabels : List String) (uid : ℕ) :
    Tallies A (process o extraLabels uid) := by
  intro s t
  rw [process, Routine.safe_bind, Routine.safe_attempt, safe_onMailbox]
  refine (fetchMessage_raises hA uid s.mailbox t).mono ?_
  intro r mailbox t' hr
  have hskip : Tallies A (count (fun r => { r with skipped := r.skipped + 1 })) :=
    tallies_count (fun s => ⟨by simp [handled]; omega, rfl, rfl, rfl⟩)
  rw [Routine.after_ok]
  cases r with
  | error e =>
      have he := hr e rfl
      cases e with
      | messageGone text => exact hskip.after (.mailbox s mailbox) t'
      | mailboxError text =>
          exact (tallies_raise (by simp)).after (.mailbox s mailbox) t'
      | _ => exact absurd he (by simp [Exc.isMailboxError])
  | ok message =>
      dsimp only
      split
      · exact hskip.after (.mailbox s mailbox) t'
      · split
        · exact (trash_tallies hA message).after (.mailbox s mailbox) t'
        · exact (insert_tallies hA o extraLabels message).after (.mailbox s mailbox) t'

/-! ## Against a handler -/

omit hA

variable {W : Type} {h : W → (op : Op) → Reply op × W} {o : ForwarderOptions}

/-- What is safe over the record holds of a run against a handler. -/
theorem exec_of_recorded {σ α : Type} {m : Py σ α} {s : σ} {Q : Except Exc α → σ → Prop}
    (hm : m.Safe (Recorded (answersOf h)) .alone (fun r s' _ => Q r s') s []) {w : W}
    {r : Except Exc α} {s' : σ} {w' : W} (he : m.exec h s w = ((r, s'), w')) : Q r s' := by
  have hrecorded := exec_recorded (w := w) hm
  have hsame : m.exec h s w = ((m.exec (recorded h) s (w, [])).1,
      (m.exec (recorded h) s (w, [])).2.1) :=
    Program.exec_map Prod.fst (fun _ _ => rfl) (m s) (w, [])
  rw [he] at hsame
  rw [← (Prod.mk.inj hsame).1] at hrecorded
  exact hrecorded

theorem Tallies.exec {m : Run Unit} (hm : Tallies (answersOf h) m) {s : RunState} {w : W}
    {r : Except Exc Unit} {s' : RunState} {w' : W} (he : m.exec h s w = ((r, s'), w')) :
    (r = .ok () ∧ Counted 1 s s') ∨
      ∃ text, r = .error (.abortRun text) ∧ text ≠ "" ∧ Counted 0 s s' :=
  exec_of_recorded (hm s []) he

/-- **The loop.** Every message is handled or left, and only an `AbortRun` or the budget ends it
    early. -/
theorem loop_counted (hh : Civil (answersOf h)) {extraLabels : List String} {started : ℚ}
    {uids : List ℕ} {s : RunState} {w : W} {ending : Forwarder.Ending} {s' : RunState} {w' : W}
    (hloop : loop h o extraLabels started uids s w = (ending, s', w')) :
    (∃ n, n + ending.left = uids.length ∧ Counted n s s') ∧ ending.outcome = .ok () ∧
      ∀ text, ending.abort = some text → text ≠ "" := by
  induction uids generalizing s w with
  | nil =>
      cases hloop
      exact ⟨⟨0, rfl, .refl _⟩, rfl, by intros; contradiction⟩
  | cons uid rest ih =>
      rw [loop] at hloop
      rcases hclock : h w .clock with ⟨e | now, w₁⟩
      · exact absurd ⟨w, by rw [hclock]⟩ (hh.clock e)
      rw [hclock] at hloop
      dsimp only at hloop
      by_cases hbudget : now - started > o.timeBudgetSeconds
      · rw [if_pos hbudget] at hloop
        cases hloop
        exact ⟨⟨0, by simp [Forwarder.Ending.left], .refl _⟩, rfl, by intros; contradiction⟩
      · rw [if_neg hbudget] at hloop
        rcases hprocess : (process o extraLabels uid).exec h s w₁ with ⟨⟨r, s₁⟩, w₂⟩
        rw [hprocess] at hloop
        rcases (process_tallies hh o extraLabels uid).exec hprocess with
          ⟨rfl, hcounted⟩ | ⟨text, rfl, htext, hcounted⟩
        · -- handled: the rest of the loop goes on from here
          obtain ⟨⟨n, hn, hrest⟩, hout, habort⟩ := ih hloop
          refine ⟨⟨1 + n, ?_, hcounted.trans hrest⟩, hout, habort⟩
          simp only [List.length_cons]
          omega
        · -- aborted: this message and the rest are left
          cases hloop
          refine ⟨⟨0, by simp [Forwarder.Ending.left], hcounted⟩, rfl, fun text' h' => ?_⟩
          cases h'
          exact htext

/-- `move_to_folder` returns when it is called here for the rejected message. -/
def Moves (h : W → (op : Op) → Reply op × W) (o : ForwarderOptions) (r : Rejection)
    (mailbox : ICloudMailbox) (w : W) : Prop :=
  ((ICloudMailbox.moveToFolder r.uid o.failedFolder).exec h mailbox w).1.1 = .ok ()

/-- `_quarantine`, called here, takes the message aside: `add_keyword` returns, or
    `move_to_folder` does, which follows a tag that was refused. -/
def Aside (h : W → (op : Op) → Reply op × W) (o : ForwarderOptions) (r : Rejection)
    (mailbox : ICloudMailbox) (w : W) : Prop :=
  let tagged := (ICloudMailbox.addKeyword r.uid o.keywords.failed).exec h mailbox w
  if o.quarantineMode = .keyword then tagged.1.1 = .ok () ∨ Moves h o r tagged.1.2 tagged.2
  else Moves h o r mailbox w

/-- The messages are taken aside by the settlement that starts here, one after the other. -/
def TakenAside (h : W → (op : Op) → Reply op × W) (o : ForwarderOptions) :
    List Rejection → RunState → W → Prop
  | [], _, _ => True
  | r :: rest, s, w =>
      let x := (quarantine o r.uid o.keywords.failed o.failedFolder).exec h s w
      Aside h o r s.mailbox w ∧ TakenAside h o rest x.1.2 x.2

theorem moves_of_exec {r : Rejection} {s : RunState} {w : W} {s' : RunState} {w' : W}
    (he : (moveAside r.uid o.failedFolder).exec h s w = ((.ok (), s'), w')) :
    Moves h o r s.mailbox w := by
  obtain ⟨a, s₁, w₁, hattempt, hrest⟩ := Routine.exec_bind_inv _ _ _ he
  rw [Routine.exec_attempt, onMailbox, Routine.exec_on] at hattempt
  cases a with
  | ok _ =>
      injection hattempt with hattempt _
      injection hattempt with hattempt _
      injection hattempt
  | error e =>
      dsimp only at hrest
      split at hrest <;> cases hrest

theorem aside_of_exec {r : Rejection} {s : RunState} {w : W} {s' : RunState} {w' : W}
    (he : (quarantine o r.uid o.keywords.failed o.failedFolder).exec h s w = ((.ok (), s'), w')) :
    Aside h o r s.mailbox w := by
  unfold quarantine at he
  unfold Aside
  by_cases hmode : o.quarantineMode = .keyword
  · rw [if_pos hmode] at he
    rw [if_pos hmode]
    obtain ⟨a, s₁, w₁, hattempt, hrest⟩ := Routine.exec_bind_inv _ _ _ he
    rw [Routine.exec_attempt, onMailbox, Routine.exec_on] at hattempt
    injection hattempt with hattempt hw₁
    injection hattempt with hattempt hs₁
    injection hattempt with hattempt
    cases a with
    | ok _ => exact Or.inl hattempt
    | error e =>
        dsimp only at hrest
        split at hrest
        · -- the tag was refused, and the message is moved in the state that left
          have hmoved := moves_of_exec hrest
          rw [← hs₁, ← hw₁] at hmoved
          exact Or.inr hmoved
        · cases hrest
  · rw [if_neg hmode] at he
    rw [if_neg hmode]
    exact moves_of_exec he

/-- The settlement of a list: a part of it has been taken aside, and the rest is left if an
    `AbortRun` ended it. -/
structure Settled (h : W → (op : Op) → Reply op × W) (o : ForwarderOptions)
    (rejected : List Rejection) (leftover : Leftover) (s s' : RunState) (w : W) : Prop where
  aside : ∃ aside, rejected = aside ++ leftover.rejected ∧ TakenAside h o aside s w ∧
    Counted aside.length s s'
  same : s'.rejected = s.rejected
  failure : leftover.failure = none ∧ leftover.rejected = [] ∨
    ∃ text, leftover.failure = some (.abortRun text) ∧ text ≠ ""

theorem settlement_settled {rejected : List Rejection} {s : RunState} {w : W}
    {leftover : Leftover} {s' : RunState} {w' : W}
    (hsettle : settlement h o rejected s w = (leftover, s', w')) :
    Settled h o rejected leftover s s' w := by
  induction rejected generalizing s w with
  | nil =>
      cases hsettle
      exact ⟨⟨[], rfl, trivial, .refl _⟩, rfl, Or.inl ⟨rfl, rfl⟩⟩
  | cons rejection rest ih =>
      rw [settlement] at hsettle
      rcases hq : (quarantine o rejection.uid o.keywords.failed o.failedFolder).exec h s w with
        ⟨⟨r, s₁⟩, w₁⟩
      rw [hq] at hsettle
      have hsame : s.Same s₁ := by
        have haborts := Exceptions.Run.quarantine_aborts (A := answersOf h) o rejection.uid
          o.keywords.failed o.failedFolder s []
        exact exec_of_recorded (haborts.mono (fun _ _ _ h => h.1)) hq
      rcases (quarantine_tallies o rejection.uid o.keywords.failed o.failedFolder).exec hq with
        ⟨rfl, hcounted⟩ | ⟨text, rfl, htext, hcounted⟩
      · obtain ⟨⟨aside, hrest, htaken, hn⟩, hrejected, hfailure⟩ := ih hsettle
        refine ⟨⟨rejection :: aside, by rw [hrest]; rfl, ⟨aside_of_exec hq, ?_⟩, ?_⟩,
          hrejected.trans hsame.rejected, hfailure⟩
        · rw [hq]
          exact htaken
        · rw [List.length_cons, Nat.add_comm]
          exact hcounted.trans hn
      · cases hsettle
        exact ⟨⟨[], rfl, trivial, hcounted⟩, hsame.rejected, Or.inr ⟨text, rfl, htext⟩⟩

/-! ## The course of a run -/

/-- How the loop of a run ended, the run and the world at that point, and what the settlement
    left. -/
structure Course (W : Type) where
  ending : Forwarder.Ending
  looped : RunState
  world : W
  leftover : Leftover

/-- The run goes on from the listing. -/
def course (h : W → (op : Op) → Reply op × W) (o : ForwarderOptions) (extraLabels : List String)
    (started : ℚ) (uids : List ℕ) (s : RunState) (w : W) : Course W :=
  match loop h o extraLabels started uids (s.withResult { s.result with listed := uids.length })
      w with
  | (ending, s₁, w₁) =>
      let s₂ := s₁.withResult (ending.report s₁.result)
      ⟨ending, s₂, w₁, (settlement h o (due o s₂) (marked o s₂) w₁).1⟩

namespace Course

/-- The rejections that were not taken aside: those the breaker spared, and those a failed
    settlement left. -/
def unsettled (c : Course W) (o : ForwarderOptions) : List Rejection :=
  spared o c.looped ++ c.leftover.rejected

/-- The breaker's text, if it tripped. -/
def breaker (c : Course W) (o : ForwarderOptions) : Option String :=
  if trips o c.looped then some (breakerText (suspicious c.looped.rejected)) else none

/-- The text of the failure that ended the settlement. -/
def failure (c : Course W) : Option String := c.leftover.failure.map Exc.text

end Course

theorem keepError_of_ne {r : SyncResult} (h : ∀ text, r.error = some text → text ≠ "")
    (text : String) : r.keepError text = (r.error <|> some text) := by
  unfold SyncResult.keepError
  cases he : r.error with
  | none => rfl
  | some first => simp [h first he]

theorem breakerText_ne {rejected : List Rejection} (h : rejected ≠ []) :
    breakerText rejected ≠ "" := by
  cases rejected with
  | nil => exact absurd rfl h
  | cons first rest => simp [breakerText]

/-- The end of a run that nothing but an `AbortRun` left: its result, with the duration. -/
theorem finish_exec (hh : Civil (answersOf h)) (started : ℚ) (s : RunState) (w : W) :
    ∃ duration s' w', (finish started (.ok ())).exec h s w =
      ((.ok { s.result with durationSeconds := duration }, s'), w') := by
  obtain ⟨s₁, w₁, hclose, hresult, -⟩ := close_exec (h := h) s w
  rcases hclock : h w₁ .clock with ⟨e | ended, w₂⟩
  · exact absurd ⟨w₁, by rw [hclock]⟩ (hh.clock e)
  have hcall : (call .clock : Run ℚ).exec h s₁ w₁ = ((.ok ended, s₁), w₂) := by
    rw [call, Routine.exec_call, hclock]
  have hcount := exec_count h (fun r => { r with durationSeconds := round3 (ended - started) }) s₁ w₂
  rw [← hresult]
  refine ⟨round3 (ended - started),
    s₁.withResult { s₁.result with durationSeconds := round3 (ended - started) }, w₂, ?_⟩
  rw [finish, Routine.exec_bind_ok _ _ _ hclose]
  dsimp only
  rw [Routine.exec_bind_ok _ _ _ hcall, Routine.exec_bind_ok _ _ _ hcount,
    Routine.exec_bind_ok _ _ _ (exec_self h _ w₂)]
  rfl

/-! ## The result of a run -/

section result

variable {extraLabels : List String} {started : ℚ} {uids : List ℕ} {s : RunState} {w : W}
  {ending : Forwarder.Ending} {s₁ s₂ s₃ : RunState} {w₁ w₃ : W} {leftover : Leftover}

/-- After the loop the settlement goes through the rejections that are due, if there are any. -/
theorem afterListed_settled (hT : 0 ≤ o.rejectionThreshold)
    (hloop : loop h o extraLabels started uids
      (s.withResult { s.result with listed := uids.length }) w = (ending, s₁, w₁))
    (hout : ending.outcome = .ok ()) (hs₂ : s₁.withResult (ending.report s₁.result) = s₂)
    (hsettle : settlement h o (due o s₂) (marked o s₂) w₁ = (leftover, s₃, w₃)) :
    (afterListed o extraLabels started uids).exec h s w =
      ((.ok (), s₃.withResult (leftover.report s₃.result)), w₃) := by
  have hafter := afterListed_exec h o hloop
  have hrejected : s₁.rejected = s₂.rejected := by rw [← hs₂]; rfl
  rw [hout, hs₂, hrejected] at hafter
  rw [hafter]
  dsimp only
  by_cases hnil : s₂.rejected = []
  · -- nothing was rejected, so the breaker did not trip and nothing is due
    have htrips : trips o s₂ = false := by
      refine Bool.eq_false_iff.mpr (fun ht => suspicious_ne_nil o hT ht ?_)
      rw [hnil]
      rfl
    rw [due, marked, htrips, hnil] at hsettle
    cases hsettle
    rw [if_pos hnil]
    rfl
  · have houtcome : leftover.outcome = .ok () := by
      rcases (settlement_settled hsettle).failure with ⟨hnone, -⟩ | ⟨text, hsome, -⟩
      · rw [Leftover.outcome, hnone]
      · rw [Leftover.outcome, hsome]
    rw [if_neg hnil, settleRejections_exec h o (suspicious_ne_nil o hT) hsettle, houtcome]

/-- The abort of the loop is in the result. -/
theorem report_error (hs : s₁.result.error = none) (hout : ending.outcome = .ok ())
    (hs₂ : s₁.withResult (ending.report s₁.result) = s₂) : s₂.result.error = ending.abort := by
  rw [← hs₂]
  cases ending with
  | raised exc => cases hout
  | _ => first | exact hs | rfl

/-- A tripped breaker adds its text, unless there is one. -/
theorem marked_error (habort : ∀ text, s₂.result.error = some text → text ≠ "") :
    (marked o s₂).result.error = (s₂.result.error <|>
      if trips o s₂ then some (breakerText (suspicious s₂.rejected)) else none) := by
  unfold marked
  split
  · rw [RunState.withResult_result]
    exact keepError_of_ne habort _
  · cases s₂.result.error <;> rfl

theorem marked_text (hT : 0 ≤ o.rejectionThreshold)
    (habort : ∀ text, s₂.result.error = some text → text ≠ "") (text : String)
    (ht : (marked o s₂).result.error = some text) : text ≠ "" := by
  rw [marked_error habort] at ht
  cases he : s₂.result.error with
  | some first =>
      rw [he] at ht
      cases ht
      exact habort text he
  | none =>
      rw [he] at ht
      by_cases htrips : trips o s₂ = true
      · rw [if_pos htrips] at ht
        cases ht
        exact breakerText_ne (suspicious_ne_nil o hT htrips)
      · rw [if_neg htrips] at ht
        cases ht

/-- So does a failed settlement. -/
theorem report_leftover_error {r : SyncResult} (hr : ∀ text, r.error = some text → text ≠ "")
    (hfailure : leftover.failure = none ∧ leftover.rejected = [] ∨
      ∃ text, leftover.failure = some (.abortRun text) ∧ text ≠ "") :
    (leftover.report r).error = (r.error <|> leftover.failure.map Exc.text) := by
  rcases hfailure with ⟨hnone, -⟩ | ⟨text, hsome, -⟩
  · rw [Leftover.report, hnone]
    cases r.error <;> rfl
  · rw [Leftover.report, hsome]
    exact keepError_of_ne hr text

end result

/-- What a run that got past its listing reports. -/
structure Accounted (h : W → (op : Op) → Reply op × W) (o : ForwarderOptions) (uids : List ℕ)
    (c : Course W) (result : SyncResult) : Prop where
  listed : result.listed = uids.length
  balance : result.listed = result.trashed + result.skipped + result.retryLater +
    result.quarantined + result.remaining + (c.unsettled o).length
  settled : result.error = none → c.unsettled o = []
  aside : ∃ aside, c.looped.rejected.Perm (aside ++ c.unsettled o) ∧
    TakenAside h o aside (marked o c.looped) c.world
  error : result.error = (c.ending.abort <|> c.breaker o <|> c.failure)

/-- The rejections of a run are those it spares and those that are due. -/
theorem rejected_perm (o : ForwarderOptions) (s : RunState) :
    s.rejected.Perm (spared o s ++ due o s) := by
  unfold spared due suspicious
  split
  · refine (List.filter_append_perm Rejection.perMessage s.rejected).symm.trans ?_
    exact List.perm_append_comm
  · exact List.Perm.refl _

/-- What the loop writes when it ends is how many messages are left. -/
theorem report_remaining {ending : Forwarder.Ending} {s₁ s₂ : RunState} (hs : s₁.result.remaining = 0)
    (hs₂ : s₁.withResult (ending.report s₁.result) = s₂) :
    handled s₂ = handled s₁ ∧ s₂.result.listed = s₁.result.listed ∧
      s₂.result.remaining = ending.left := by
  rw [← hs₂]
  cases ending <;> simp [handled, Forwarder.Ending.report, Forwarder.Ending.left, hs]

theorem marked_handled (o : ForwarderOptions) (s : RunState) :
    handled (marked o s) = handled s ∧ (marked o s).result.listed = s.result.listed ∧
      (marked o s).result.remaining = s.result.remaining ∧ (marked o s).rejected = s.rejected := by
  unfold marked
  split <;> simp [handled]

/-- What the phases of a run add up to. -/
theorem accounted_of_phases (hh : Civil (answersOf h)) (hT : 0 ≤ o.rejectionThreshold)
    {extraLabels : List String} {started : ℚ} {uids : List ℕ} {s : RunState} {w : W}
    {ending : Forwarder.Ending} {s₁ s₂ s₃ : RunState} {w₁ w₃ : W} {leftover : Leftover}
    (hresult : s.result = {}) (hrejected : s.rejected = [])
    (hloop : loop h o extraLabels started uids
      (s.withResult { s.result with listed := uids.length }) w = (ending, s₁, w₁))
    (hs₂ : s₁.withResult (ending.report s₁.result) = s₂)
    (hsettle : settlement h o (due o s₂) (marked o s₂) w₁ = (leftover, s₃, w₃)) (duration : ℚ) :
    Accounted h o uids ⟨ending, s₂, w₁, leftover⟩
      { leftover.report s₃.result with durationSeconds := duration } := by
  obtain ⟨⟨n, hn, hcounted⟩, hout, habort⟩ := loop_counted hh hloop
  obtain ⟨⟨aside, hdue, htaken, haside⟩, hsame, hfailure⟩ := settlement_settled hsettle
  -- the error, cause by cause
  have herror₁ : s₁.result.error = none := by
    rw [hcounted.error, RunState.withResult_result, hresult]
  have herror₂ := report_error herror₁ hout hs₂
  have htext₂ : ∀ text, s₂.result.error = some text → text ≠ "" :=
    fun text ht => habort text (herror₂ ▸ ht)
  have htext₃ : ∀ text, s₃.result.error = some text → text ≠ "" :=
    fun text ht => marked_text hT htext₂ text (haside.error ▸ ht)
  have herror : (leftover.report s₃.result).error = (ending.abort <|>
      (if trips o s₂ then some (breakerText (suspicious s₂.rejected)) else none) <|>
      leftover.failure.map Exc.text) := by
    rw [report_leftover_error htext₃ hfailure, haside.error, marked_error htext₂, herror₂]
    cases ending.abort <;> rfl
  -- the counters
  have hremaining₁ : s₁.result.remaining = 0 := by
    rw [hcounted.remaining, RunState.withResult_result, hresult]
  obtain ⟨hhandled₂, hlisted₂, hremaining₂⟩ := report_remaining hremaining₁ hs₂
  obtain ⟨hhandled₃, hlisted₃, hremaining₃, hrejected₃⟩ := marked_handled o s₂
  have hstart : handled (s.withResult { s.result with listed := uids.length }) = 0 := by
    simp [handled, hresult, hrejected]
  have hlisted : s₃.result.listed = uids.length := by
    rw [haside.listed, hlisted₃, hlisted₂, hcounted.listed]
    rfl
  have hperm := rejected_perm o s₂
  have hlength := hperm.length_eq
  rw [hdue, List.length_append, List.length_append] at hlength
  have hreport : ∀ r, (leftover.report r).listed = r.listed ∧
      (leftover.report r).trashed = r.trashed ∧ (leftover.report r).skipped = r.skipped ∧
      (leftover.report r).retryLater = r.retryLater ∧
      (leftover.report r).quarantined = r.quarantined ∧
      (leftover.report r).remaining = r.remaining := by
    intro r
    unfold Leftover.report
    split <;> simp
  obtain ⟨h₁, h₂, h₃, h₄, h₅, h₆⟩ := hreport s₃.result
  have hunsettled : (Course.mk ending s₂ w₁ leftover).unsettled o =
      spared o s₂ ++ leftover.rejected := rfl
  refine ⟨h₁.trans hlisted, ?_, ?_, ⟨aside, ?_, htaken⟩, herror⟩
  · have htotal := haside.handled
    have hloop := hcounted.handled
    have hremaining := haside.remaining
    have hrejected := congrArg List.length (hsame.trans hrejected₃)
    simp only [handled] at htotal hloop hhandled₂ hhandled₃ hstart
    rw [hunsettled, List.length_append]
    simp only [h₁, h₂, h₃, h₄, h₅, h₆]
    omega
  · intro hnone
    rw [hunsettled]
    have hno := herror.symm.trans hnone
    by_cases htrips : trips o s₂ = true
    · simp [htrips] at hno
    · rcases hfailure with ⟨-, hleft⟩ | ⟨text, hsome, -⟩
      · rw [spared, if_neg htrips, hleft]
        rfl
      · simp [hsome] at hno
  · rw [hunsettled]
    refine hperm.trans ?_
    rw [hdue]
    exact List.perm_append_comm_assoc _ _ _

/-- **Every listed message is accounted for.** Whatever happens to the messages of a run and wherever
    its loop ends, the messages listed are those trashed, skipped, postponed, quarantined and left,
    and the rejections that were neither tagged nor moved; there are none of these if the run reports
    no error. And the error is the first of: the abort of the loop, the tripped breaker, the failed
    settlement. -/
theorem accounts {W : Type} (h : W → (op : Op) → Reply op × W) (hh : Civil (answersOf h))
    (o : ForwarderOptions) (hT : 0 ≤ o.rejectionThreshold) {w : W} {started : ℚ}
    {extraLabels : List String} {uids : List ℕ} {s : RunState} {w₀ : W}
    (hlisted : (untilListed o).exec h (initial o) w =
      ((.ok (started, extraLabels, uids), s), w₀)) :
    ∃ result s' w', (run o).exec h (initial o) w = ((.ok result, s'), w') ∧
      Accounted h o uids (course h o extraLabels started uids s w₀) result := by
  have hkeeps := (untilListed_keeps (o := o)).exec h (initial o) w
  rw [hlisted] at hkeeps
  obtain ⟨hresult, hrejected⟩ := Prod.mk.inj hkeeps
  rcases hloop : loop h o extraLabels started uids
    (s.withResult { s.result with listed := uids.length }) w₀ with ⟨ending, s₁, w₁⟩
  obtain ⟨-, hout, -⟩ := loop_counted hh hloop
  generalize hs₂ : s₁.withResult (ending.report s₁.result) = s₂
  rcases hsettle : settlement h o (due o s₂) (marked o s₂) w₁ with ⟨leftover, s₃, w₃⟩
  have hcourse : course h o extraLabels started uids s w₀ = ⟨ending, s₂, w₁, leftover⟩ := by
    rw [course, hloop]
    dsimp only
    rw [hs₂, hsettle]
  obtain ⟨duration, s', w', hfinish⟩ := finish_exec hh started
    (s₃.withResult (leftover.report s₃.result)) w₃
  have hrun := (run_exec hlisted (afterListed_settled hT hloop hout hs₂ hsettle)).trans hfinish
  refine ⟨_, s', w', hrun, ?_⟩
  rw [hcourse]
  exact accounted_of_phases hh hT hresult hrejected hloop hs₂ hsettle duration

/-- The collaborators of a run over an account for which every message is too large are civil. -/
theorem tooLarge_civil : Civil (answersOf (Exceptions.tooLarge.handle 0)) where
  insertRaw := by
    rintro raw labels e ⟨w, hw⟩
    cases hw
    exact ⟨.permanent, _, _, rfl, nofun, by decide⟩
  body := by
    rintro uid data ⟨w, hw⟩
    cases hw
    cases hf : w.find uid with
    | none => simp [World.fetchInbox, hf]
    | some m => simp [World.fetchInbox, hf, Message.item]
  clock := by
    rintro e ⟨w, hw⟩
    cases hw
  issueTrash := by
    rintro raw e ⟨w, hw⟩
    cases hw

/-- A session that has listed one mail. -/
def listedOne : RunState := ⟨{ Exceptions.connectedSession with uidvalidity := 1 }, {}, []⟩

theorem listedOne_exec : (untilListed .default).exec (Exceptions.tooLarge.handle 0)
    (initial .default) oneMail = ((.ok (0, ["iCloud"], [1]), listedOne), oneMail) := rfl

theorem accounts_tooLarge : ∃ result s' w',
    (run .default).exec (Exceptions.tooLarge.handle 0) (initial .default) oneMail =
      ((.ok result, s'), w') ∧
    Accounted (Exceptions.tooLarge.handle 0) .default [1]
      (course (Exceptions.tooLarge.handle 0) .default ["iCloud"] 0 [1] listedOne oneMail) result :=
  accounts _ tooLarge_civil .default (by decide) listedOne_exec

end Accounting

end MailTransporter
