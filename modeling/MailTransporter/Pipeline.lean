import MailTransporter.GoodPath
import MailTransporter.Answers
import MailTransporter.Atoms
import MailTransporter.Daemon
import Mathlib.Algebra.BigOperators.Group.List.Basic

set_option autoImplicit false

/-! # From the mailbox to Gmail

The watcher, the endpoint it calls and the forwarder behind it, on one account on which nothing
fails: a pass of `run_forever` lists the INBOX, a call of the notifier is a whole run of the
forwarder, whose `SyncResult` goes through the answer of the endpoint and is decoded again.

A run may be cut short by any budget and any clock. What one pass does is said once
(`serve_good`): it calls the forwarder unless the queue is empty, and what is left of the queue is
what the next pass finds. -/

namespace MailTransporter

open Effect
open Forwarder (GoodPath Handled deliveryOf runOn)

/-- What the watcher works in: the account and the time. `handled` is kept by nobody: it says how
    many messages each run has taken out of the queue. -/
structure Deployment where
  world : World
  now : ℚ
  handled : List ℕ := []

namespace Deployment

variable (P : Provider) (o : ForwarderOptions) (int : String → Option ℤ)

/-- The notifier's call: a run of the forwarder, its answer and what is read of it. -/
def Synced (d : Deployment) (r : Reply .trigger) (d' : Deployment) : Prop :=
  ∃ budget clock registered text members,
    let (outcome, world) := runOn P o budget clock d.world
    let response := Endpoint.response registered outcome
    members.Perm response.body ∧
    r = Notifier.trigger int (.ok (Endpoint.wire response text members)) ∧
    d'.world = world ∧
    d'.handled =
      d.handled ++ [(d.world.eligible o.keywords).length - (world.eligible o.keywords).length]

/-- What a call of the watcher does to the account. -/
def Answers (d : Deployment) : (op : Op) → Reply op → Deployment → Prop
  | .clock, r, d' => r = .ok d.now ∧ d'.world = d.world ∧ d'.handled = d.handled
  | .sleep seconds, r, d' =>
      r = .ok () ∧ d.now + seconds ≤ d'.now ∧ d'.world = d.world ∧ d'.handled = d.handled
  | .trigger, r, d' => Synced P o int d r d'
  | op, r, d' => (∃ now, r = P.reply now d.world op ∧ d'.world = P.after now d.world op) ∧
      d'.handled = d.handled

/-- The surroundings of the watcher. Time may pass in every call. -/
def Deployed : Env Op Reply Deployment := fun d op r d' => d.now ≤ d'.now ∧ Answers P o int d op r d'

variable {P o int} {folder : String} {w₀ : World} {d d' : Deployment}

/-! ## The forwarder -/

/-- The first messages of the queue of `w₀` have been forwarded, as many as the runs have handled. -/
structure Served (P : Provider) (o : ForwarderOptions) (folder : String) (w₀ : World)
    (d : Deployment) : Prop where
  handled : d.handled.sum ≤ (w₀.eligible o.keywords).length
  world : d.world = ((w₀.eligible o.keywords).take d.handled.sum).foldl
    (World.forward (deliveryOf P o folder)) w₀

theorem Served.goodPath (h : Served P o folder w₀ d) (hw : GoodPath P folder w₀) :
    GoodPath P folder d.world := by
  rw [h.world]
  exact hw.foldl rfl ((hw.distinct.live_sorted _).nodup.sublist (List.take_sublist _ _))

/-- What is left of the queue. -/
theorem Served.eligible (h : Served P o folder w₀ d) (hw : GoodPath P folder w₀) :
    d.world.eligible o.keywords = (w₀.eligible o.keywords).drop d.handled.sum := by
  rw [h.world]
  exact (hw.handled (k := o.keywords) (d := deliveryOf P o folder) rfl d.handled.sum).eligible

/-- **A call of the forwarder.** The notifier is told how much of the queue is left. -/
theorem Synced.good (hw : GoodPath P folder w₀) (hx : P.exportsTrash = true)
    (h : Served P o folder w₀ d) {r : Reply .trigger}
    (hE : Synced P o int d r d') :
    r = .ok { ok := true, remaining := (d'.world.eligible o.keywords).length } ∧
      Served P o folder w₀ d' ∧ d'.handled.length = d.handled.length + 1 := by
  obtain ⟨budget, clock, registered, text, members, hE⟩ := hE
  have hgood := h.goodPath hw
  have hleft := h.eligible hw
  obtain ⟨result, n, hrun, herror, hn, hremaining, -⟩ :=
    Forwarder.runOn_takes (o := o) hgood hx budget clock
  have hqueue := (hgood.handled (k := o.keywords) (d := deliveryOf P o folder) rfl n).eligible
  rw [hrun] at hE
  obtain ⟨hperm, rfl, hworld, hhandled⟩ := hE
  rw [← hworld] at hqueue hhandled
  -- the run has taken the next messages of the queue
  have hlength : (d'.world.eligible o.keywords).length =
      (d.world.eligible o.keywords).length - n := by
    rw [hqueue, List.length_drop]
  have hsum : d'.handled.sum = d.handled.sum + n := by
    rw [hhandled, hlength, List.sum_append]
    simp only [List.sum_cons, List.sum_nil]
    omega
  have hbefore : (d.world.eligible o.keywords).length =
      (w₀.eligible o.keywords).length - d.handled.sum := by
    rw [hleft, List.length_drop]
  have hserved : Served P o folder w₀ d' := by
    have hle := h.handled
    refine ⟨by omega, ?_⟩
    rw [hsum, List.take_add, List.foldl_append, ← h.world, hworld, hleft]
  refine ⟨?_, hserved, by simp [hhandled]⟩
  have hok : result.ok = true := by simp [SyncResult.ok, herror]
  rw [Endpoint.trigger_response int registered (.ok result) hperm, Endpoint.decoded, if_pos hok,
    hremaining, hlength]

/-! ## The session of the watcher -/

/-- Time goes on, and nothing happens to the account. -/
structure Later (d d' : Deployment) : Prop where
  now : d.now ≤ d'.now
  world : d'.world = d.world
  handled : d'.handled = d.handled

theorem deployed_serving {op : Op} {r : Reply op} (hop : op.isImap = true)
    (hE : Deployed P o int d op r d') : P.serving (fun _ => True) d.world op r d'.world := by
  obtain ⟨-, hE⟩ := hE
  cases op
  all_goals first
    | (obtain ⟨⟨now, hr, hw⟩, -⟩ := hE; exact ⟨now, trivial, hr, hw⟩)
    | simp [Op.isImap] at hop

/-- Time goes on, and no message is handled. -/
def passing (P : Provider) (o : ForwarderOptions) (int : String → Option ℤ) :
    Growth (Deployed P o int) .alone (fun op => op.isImap = true) where
  grow := fun d d' => d.now ≤ d'.now ∧ d'.handled = d.handled
  refl := fun _ => ⟨le_refl _, rfl⟩
  trans := fun h h' => ⟨h.1.trans h'.1, h'.2.trans h.2⟩
  rely := by
    rintro d d' rfl
    exact ⟨le_refl _, rfl⟩
  step := by
    rintro d op r d' hop - ⟨hnow, hE⟩
    refine ⟨hnow, ?_⟩
    cases op
    all_goals first
      | exact hE.2
      | simp [Op.isImap] at hop

/-- A method of the session that leaves the account as it is. -/
theorem onMailbox_safe {α : Type} {m : Mailbox α} (hm : m.Uses (fun op => op.isImap = true)) {a : α}
    {s : Watch} {mailbox : ICloudMailbox}
    (h : m.Returns (P.serving (fun _ => True)) s.mailbox d.world a mailbox d.world) :
    (Watch.onMailbox m).Safe (Deployed P o int) .alone (fun r s' d' =>
      r = .ok a ∧ s' = { s with mailbox := mailbox } ∧ Later d d') s d := by
  have hpull : m.Safe (Deployed P o int) .alone
      (fun r s' d' => r = .ok a ∧ s' = mailbox ∧ d'.world = d.world) s.mailbox d :=
    Routine.Safe.pull Deployment.world deployed_serving hm h
  have hgrow : m.Safe (Deployed P o int) .alone
      (fun _ _ d' => (passing P o int).grow d d') s.mailbox d :=
    Routine.Safe.of_uses (passing P o int) hm (fun _ hop => hop) (fun _ _ _ _ => trivial)
  rw [Watch.onMailbox, Routine.safe_on]
  refine (hpull.and hgrow).mono ?_
  rintro r mailbox' d' ⟨⟨hr, hmailbox, hworld⟩, hnow, hhandled⟩
  exact ⟨hr, by rw [hmailbox], hnow, hworld, hhandled⟩

/-! ## Passes -/

theorem safe_touch {σ : Type} {ttl : ℚ} {note : String} {Q : Except Exc Unit → σ → Deployment → Prop}
    {s : σ} (h : ∀ d', Later d d' → Q (.ok ()) s d') :
    (call (.touch ttl note) : Py σ Unit).Safe (Deployed P o int) .alone Q s d := by
  refine Routine.safe_call_alone.mpr ?_
  rintro r d' ⟨hnow, ⟨now, rfl, hworld⟩, hhandled⟩
  exact h d' ⟨hnow, hworld, hhandled⟩

theorem safe_sleep {σ : Type} {seconds : ℚ} {Q : Except Exc Unit → σ → Deployment → Prop} {s : σ}
    (h : ∀ d', Later d d' → Q (.ok ()) s d') :
    (call (.sleep seconds) : Py σ Unit).Safe (Deployed P o int) .alone Q s d := by
  refine Routine.safe_call_alone.mpr ?_
  rintro r d' ⟨hnow, rfl, -, hworld, hhandled⟩
  exact h d' ⟨hnow, hworld, hhandled⟩

/-- The watcher between two passes of the inner loop, `passes` of which have been made. -/
structure Underway (P : Provider) (o : ForwarderOptions) (folder : String) (w₀ : World)
    (passes : ℕ) (s : Watch) (d : Deployment) : Prop where
  connected : s.mailbox.connected = true
  keywords : s.mailbox.skipKeywords = o.keywords.quarantine
  polls : s.mailbox.supportsIdle = false
  due : s.loop.notBefore ≤ d.now
  waiting : d.world.eligible o.keywords ≠ [] → s.loop.lastTriggerAt = none
  served : Served P o folder w₀ d
  called : d.world.eligible o.keywords ≠ [] → d.handled.length = passes

theorem Later.served (hl : Later d d') (h : Served P o folder w₀ d) : Served P o folder w₀ d' :=
  ⟨by rw [hl.handled]; exact h.handled, by rw [hl.world, hl.handled]; exact h.world⟩

theorem Underway.later {passes : ℕ} {s : Watch} (h : Underway P o folder w₀ passes s d)
    (hl : Later d d') : Underway P o folder w₀ passes s d' where
  connected := h.connected
  keywords := h.keywords
  polls := h.polls
  due := h.due.trans hl.now
  waiting := by
    rw [hl.world]
    exact h.waiting
  served := hl.served h.served
  called := by
    rw [hl.world, hl.handled]
    exact h.called

section passes

variable {passes : ℕ} {s : Watch} {settings : WatcherSettings} (hw : GoodPath P folder w₀)
  (hx : P.exportsTrash = true)

include hw hx

/-- The notifier is called, and told how much is left. -/
theorem notify_good (h : Underway P o folder w₀ passes s d)
    (hqueue : d.world.eligible o.keywords ≠ []) {now : ℚ} (hnow : now ≤ d.now) (uids : Finset ℕ) :
    (WatchLoop.notify now uids).Safe (Deployed P o int) .alone (fun r s' d' =>
      (∃ delay, r = .ok delay) ∧ Underway P o folder w₀ (passes + 1) s' d') s d := by
  rw [WatchLoop.notify, Routine.safe_bind, Routine.safe_getSelf, Routine.after_ok, Routine.safe_bind]
  refine safe_touch (fun d₁ h₁ => ?_)
  rw [Routine.after_ok, Routine.safe_bind]
  refine Routine.safe_call_alone.mpr ?_
  rintro r d₂ ⟨hnow₂, hsynced⟩
  obtain ⟨rfl, hserved, hlength⟩ := Synced.good hw hx (h₁.served h.served) hsynced
  rw [Routine.after_ok, Routine.safe_bind]
  refine safe_touch (fun d₃ h₃ => ?_)
  have hdue : now ≤ d₃.now := hnow.trans (h₁.now.trans (hnow₂.trans h₃.now))
  have hcalled : d₃.handled.length = passes + 1 := by
    rw [h₃.handled, hlength, h₁.handled, h.called hqueue]
  -- the loop forgets its last trigger exactly when something is left
  rw [Routine.after_ok, WatchLoop.settleTrigger, if_pos rfl, ← h₃.world, Routine.safe_bind,
    Watch.onLoop, Routine.safe_modifySelf, Routine.after_ok]
  split
  · rw [Routine.safe_bind, Watch.onLoop, Routine.safe_modifySelf, Routine.after_ok]
    exact ⟨⟨_, rfl⟩, h.connected, h.keywords, h.polls, hdue, fun _ => rfl, h₃.served hserved,
      fun _ => hcalled⟩
  · next hleft =>
    have hempty : d₃.world.eligible o.keywords = [] := by
      rw [← List.length_eq_zero_iff]
      exact Nat.le_zero.mp (Int.ofNat_le.mp (not_lt.mp hleft))
    exact ⟨⟨_, rfl⟩, h.connected, h.keywords, h.polls, hdue, fun hne => absurd hempty hne,
      h₃.served hserved, fun hne => absurd hempty hne⟩

/-- One inspection of the INBOX. -/
theorem step_good (h : Underway P o folder w₀ passes s d) :
    WatchLoop.step.Safe (Deployed P o int) .alone (fun r s' d' =>
      (∃ delay, r = .ok delay) ∧ Underway P o folder w₀ (passes + 1) s' d') s d := by
  rw [WatchLoop.step, Routine.safe_bind]
  refine Routine.safe_call_alone.mpr ?_
  rintro r d₁ ⟨hnow, rfl, hworld, hhandled⟩
  have h₁ := h.later ⟨hnow, hworld, hhandled⟩
  rw [Routine.after_ok, Routine.safe_bind]
  have hlisted : (ICloudMailbox.listInboxUids none).Returns (P.serving (fun _ => True)) s.mailbox
      d₁.world (d₁.world.eligible o.keywords) s.mailbox d₁.world :=
    ICloudMailbox.listInboxUids_returns (h₁.served.goodPath hw).distinct h₁.connected h₁.keywords
  refine (onMailbox_safe (ICloudMailbox.listInboxUids_uses (fun _ => rfl) (fun _ => rfl) _)
    hlisted).mono ?_
  rintro r s₁ d₂ ⟨rfl, rfl, hlater⟩
  have h₂ := h₁.later hlater
  rw [Routine.after_ok, WatchLoop.inspect, Routine.safe_bind, Watch.onLoop, Routine.safe_modifySelf,
    Routine.after_ok]
  change Routine.Safe _ _ (if (d₁.world.eligible o.keywords).toFinset = ∅ then _ else _) _ _ _
  by_cases hempty : d₁.world.eligible o.keywords = []
  · rw [if_pos (by rw [hempty]; rfl)]
    rw [← hlater.world] at hempty
    exact ⟨⟨_, rfl⟩, h₂.connected, h₂.keywords, h₂.polls, h₂.due, h₂.waiting, h₂.served,
      fun hne => absurd hempty hne⟩
  · have hnew := h₁.waiting hempty
    rw [if_neg (by simpa using hempty), Routine.safe_bind, Routine.safe_getSelf, Routine.after_ok]
    dsimp only
    rw [if_neg (by simp [WatchLoop.stale, hnew]), if_neg (not_lt.mpr h.due)]
    rw [← hlater.world] at hempty
    refine notify_good hw hx ?_ hempty (hnow.trans hlater.now) _
    exact ⟨h₂.connected, h₂.keywords, h₂.polls, h₂.due, h₂.waiting, h₂.served, h₂.called⟩

/-- **A pass of the inner loop.** -/
theorem serve_good (h : Underway P o folder w₀ passes s d) :
    (Watch.serve settings).Safe (Deployed P o int) .alone (fun r s' d' =>
      r = .ok () ∧ Underway P o folder w₀ (passes + 1) s' d') s d := by
  rw [Watch.serve, Routine.safe_bind]
  refine safe_touch (fun d₁ h₁ => ?_)
  rw [Routine.after_ok, Routine.safe_bind]
  refine (step_good hw hx (h.later h₁)).mono ?_
  rintro r s₂ d₂ ⟨⟨delay, rfl⟩, h₂⟩
  rw [Routine.after_ok]
  cases delay with
  | some delay =>
      dsimp only
      rw [Routine.safe_bind]
      refine safe_touch (fun d₃ h₃ => ?_)
      rw [Routine.after_ok]
      exact safe_sleep (fun d₄ h₄ => ⟨rfl, (h₂.later h₃).later h₄⟩)
  | none =>
      dsimp only
      rw [Watch.wait, Routine.safe_bind, Routine.safe_getSelf, Routine.after_ok, h₂.polls,
        if_neg (by simp), Routine.safe_bind]
      refine safe_touch (fun d₃ h₃ => ?_)
      rw [Routine.after_ok]
      exact safe_sleep (fun d₄ h₄ => ⟨rfl, (h₂.later h₃).later h₄⟩)

/-- Passes that follow each other. -/
theorem serving_good (m : ℕ) (h : Underway P o folder w₀ passes s d) :
    (Watch.runForever settings none m .serving).Safe (Deployed P o int) .alone (fun r s' d' =>
      r = .ok () ∧ Underway P o folder w₀ (passes + m) s' d') s d := by
  induction m generalizing passes s d with
  | zero => exact ⟨rfl, h⟩
  | succ m ih =>
      rw [Watch.runForever, Routine.safe_bind, Watch.pass, Watch.guarded, Routine.safe_bind,
        Routine.safe_attempt, Watch.serveOrClose, Routine.safe_bind, Routine.safe_attempt]
      refine (serve_good hw hx h).mono ?_
      rintro r s₁ d₁ ⟨rfl, h₁⟩
      have hrest := ih h₁
      rw [Nat.add_assoc, Nat.add_comm 1 m] at hrest
      exact hrest

end passes

/-! ## Main results -/

/-- The first pass connects. -/
theorem running_good (int : String → Option ℤ) {settings : WatcherSettings} (hw : GoodPath P folder w₀)
    (hx : P.exportsTrash = true)
    (hkeywords : settings.quarantineKeywords = o.keywords.quarantine) {now : ℚ} (hnow : 0 ≤ now)
    (m : ℕ) :
    (Watch.runForever settings none (m + 1) .connecting).Safe (Deployed P o int) .alone
      (fun r s' d' => r = .ok () ∧ Underway P o folder w₀ m s' d') (Watch.initial settings)
      ⟨w₀, now, []⟩ := by
  rw [Watch.runForever, Routine.safe_bind, Watch.pass, Watch.beginSession, Routine.safe_bind,
    Routine.safe_getSelf, Routine.after_ok, if_pos (by rfl), Routine.safe_bind,
    Routine.safe_modifySelf, Routine.after_ok, Watch.guarded, Routine.safe_bind,
    Routine.safe_attempt, Watch.openSession, Routine.safe_bind]
  refine safe_touch (fun d₁ h₁ => ?_)
  rw [Routine.after_ok, Routine.safe_bind, Routine.safe_modifySelf, Routine.after_ok,
    Routine.safe_bind]
  have himap : ICloudMailbox.connect.Uses (fun op => op.isImap = true) :=
    ICloudMailbox.connect_glances.mono (fun _ hop => Op.isImap_of_isLook (Op.isLook_of_isGlance hop))
  refine (onMailbox_safe himap (Forwarder.connect_returns _)).mono ?_
  rintro r s₂ d₂ ⟨rfl, rfl, h₂⟩
  rw [Routine.after_ok, Routine.safe_modifySelf, Routine.after_ok]
  have hserved : Served P o folder w₀ ⟨w₀, now, []⟩ := ⟨Nat.zero_le _, rfl⟩
  have hcalled : d₂.handled.length = 0 := by rw [h₂.handled, h₁.handled, List.length_nil]
  dsimp only
  rw [Routine.safe_pure, Routine.after_ok]
  refine (serving_good hw hx m (?_ : Underway P o folder w₀ 0 _ d₂)).mono ?_
  · exact ⟨rfl, hkeywords, rfl, hnow.trans (h₁.now.trans h₂.now), fun _ => rfl,
      h₂.served (h₁.served hserved), fun _ => hcalled⟩
  · rintro r s' d' ⟨hr, hunder⟩
    rw [Nat.zero_add] at hunder
    exact ⟨hr, hunder⟩

/-- The first messages of the queue have been forwarded, each of them once and as many as the runs
    have handled. A pass that finds a message calls the forwarder, so where no run comes back
    without a message, as many passes as there are messages leave none. -/
structure Drained (P : Provider) (o : ForwarderOptions) (folder : String) (w₀ : World)
    (passes : ℕ) (d : Deployment) : Prop where
  within : d.handled.sum ≤ (w₀.eligible o.keywords).length
  handled : Handled o.keywords (deliveryOf P o folder) w₀ d.world d.handled.sum
  called : d.world.eligible o.keywords ≠ [] → d.handled.length = passes
  emptied : (∀ n ∈ d.handled, 1 ≤ n) → (w₀.eligible o.keywords).length ≤ passes →
    d.handled.sum = (w₀.eligible o.keywords).length ∧ d.world.eligible o.keywords = []

theorem Underway.drained {passes : ℕ} {s : Watch} (h : Underway P o folder w₀ passes s d)
    (hw : GoodPath P folder w₀) : Drained P o folder w₀ passes d := by
  have hhandled := hw.handled (k := o.keywords) (d := deliveryOf P o folder) rfl d.handled.sum
  rw [← h.served.world] at hhandled
  refine ⟨h.served.handled, hhandled, h.called, fun hone hm => ?_⟩
  have hempty : d.world.eligible o.keywords = [] := by
    by_contra hne
    -- every pass has handled a message, and still there is one
    have hcalled := h.called hne
    have hsum := List.length_le_sum_of_one_le d.handled hone
    rw [hhandled.eligible, List.drop_eq_nil_iff] at hne
    omega
  refine ⟨?_, hempty⟩
  have hle := h.served.handled
  rw [hhandled.eligible, List.drop_eq_nil_iff] at hempty
  omega

/-! ## Without the Trash -/

/-- Nothing leaves the queue: all that may have happened is that its first message has been copied to
    Gmail, once, and marked. -/
structure Stalled (P : Provider) (o : ForwarderOptions) (folder : String) (w₀ : World)
    (d : Deployment) : Prop where
  world : d.world = w₀ ∨ ∃ uid, (w₀.eligible o.keywords).head? = some uid ∧
    d.world = w₀.deliver (deliveryOf P o folder) uid
  queue : d.world.eligible o.keywords = w₀.eligible o.keywords
  handled : ∀ n ∈ d.handled, n = 0

theorem Stalled.goodPath (h : Stalled P o folder w₀ d) (hw : GoodPath P folder w₀) :
    GoodPath P folder d.world := by
  rcases h.world with hsame | ⟨uid, -, hworld⟩
  · rwa [hsame]
  · rw [hworld]
    exact hw.deliver (o := o) (d := deliveryOf P o folder) rfl uid

/-- A run comes as far as the one before it. -/
theorem Synced.stalled (hw : GoodPath P folder w₀) (hx : P.exportsTrash = false)
    (h : Stalled P o folder w₀ d) {r : Reply .trigger} (hE : Synced P o int d r d') :
    Stalled P o folder w₀ d' := by
  obtain ⟨budget, clock, registered, text, members, hE⟩ := hE
  obtain ⟨result, w', hrun, -, hqueue, -, hw'⟩ :=
    Forwarder.runOn_stays (o := o) (h.goodPath hw) hx budget clock
  rw [hrun] at hE
  obtain ⟨-, -, rfl, hhandled⟩ := hE
  refine ⟨?_, hqueue.trans h.queue, fun n hn => ?_⟩
  · rcases hw' with hsame | ⟨uid, hhead, hworld⟩
    · rw [hsame]
      exact h.world
    · rw [h.queue] at hhead
      refine Or.inr ⟨uid, hhead, ?_⟩
      rcases h.world with hsame | ⟨v, hv, hdelivered⟩
      · rw [hworld, hsame]
      · -- the message has been marked before
        obtain rfl := Option.some.inj (hv.symm.trans hhead)
        rw [hworld, hdelivered, World.deliver_deliver]
  · rw [hhandled, List.mem_append, List.mem_singleton] at hn
    rcases hn with hn | hn
    · exact h.handled n hn
    · rw [hn, hqueue, Nat.sub_self]

/-- What the watcher calls: the notifier, and what leaves the account as it is. -/
def Harmless (op : Op) : Prop := op = .trigger ∨ ∀ w, effect op w = w

theorem harmless_of_isGlance {op : Op} (h : op.isGlance = true) : Harmless op := by
  refine Or.inr (fun w => ?_)
  cases op
  all_goals first
    | rfl
    | simp [Op.isGlance, Op.isLook, Op.isQuiet] at h

theorem settleTrigger_uses {S : Op → Prop} (now : ℚ) (uids : Finset ℕ) (result : TriggerResult) :
    (WatchLoop.settleTrigger now uids result).Uses S := by
  unfold WatchLoop.settleTrigger Watch.onLoop
  split
  · refine Routine.uses_bind (Routine.uses_modifySelf _) (fun _ => ?_)
    split
    · exact Routine.uses_bind (Routine.uses_modifySelf _) (fun _ => Routine.uses_pure _)
    · exact Routine.uses_pure _
  split
  · exact Routine.uses_bind (Routine.uses_modifySelf _) (fun _ => Routine.uses_pure _)
  · refine Routine.uses_bind (Routine.uses_modifySelf _) (fun _ => ?_)
    refine Routine.uses_bind Routine.uses_getSelf (fun self => ?_)
    refine Routine.uses_bind ?_ (fun delay => ?_)
    · unfold WatchLoop.backoffDelay
      split
      · exact Routine.uses_raise _
      · exact Routine.uses_pure _
    · exact Routine.uses_bind (Routine.uses_modifySelf _) (fun _ => Routine.uses_pure _)

theorem touch_harmless {σ : Type} (ttl : ℚ) (note : String) :
    (call (.touch ttl note) : Py σ Unit).Uses Harmless := Routine.uses_call (Or.inr (fun _ => rfl))

theorem sleep_harmless {σ : Type} (seconds : ℚ) :
    (call (.sleep seconds) : Py σ Unit).Uses Harmless :=
  Routine.uses_call (Or.inr (fun _ => rfl))

theorem step_harmless : WatchLoop.step.Uses Harmless := by
  refine Routine.uses_bind (Routine.uses_call (Or.inr (fun _ => rfl))) (fun now => ?_)
  refine Routine.uses_bind (Routine.uses_on ((ICloudMailbox.listInboxUids_glances none).mono
    (fun _ => harmless_of_isGlance))) (fun uids => ?_)
  refine Routine.uses_bind (Routine.uses_modifySelf _) (fun _ => ?_)
  split
  · exact Routine.uses_pure _
  refine Routine.uses_bind Routine.uses_getSelf (fun self => ?_)
  dsimp only
  split
  · exact Routine.uses_pure _
  split
  · exact Routine.uses_pure _
  refine Routine.uses_bind Routine.uses_getSelf (fun self => ?_)
  refine Routine.uses_bind (touch_harmless _ _) (fun _ => ?_)
  refine Routine.uses_bind (Routine.uses_call (Or.inl rfl)) (fun result => ?_)
  exact Routine.uses_bind (touch_harmless _ _) (fun _ => settleTrigger_uses _ _ _)

theorem serve_harmless (settings : WatcherSettings) : (Watch.serve settings).Uses Harmless := by
  refine Routine.uses_bind (touch_harmless _ _) (fun _ =>
    Routine.uses_bind step_harmless (fun o => ?_))
  cases o with
  | some delay => exact Routine.uses_bind (touch_harmless _ _) (fun _ => sleep_harmless _)
  | none =>
      refine Routine.uses_bind Routine.uses_getSelf (fun self => ?_)
      split
      · refine Routine.uses_bind (touch_harmless _ _) (fun _ => ?_)
        refine Routine.uses_bind (Routine.uses_on (ICloudMailbox.idleWait_uses ?_ ?_ ?_))
          (fun _ => Routine.uses_pure _)
        all_goals exact Or.inr (fun _ => rfl)
      · exact Routine.uses_bind (touch_harmless _ _) (fun _ => sleep_harmless _)

theorem guarded_harmless {body : Watching Unit} (h : body.Uses Harmless) :
    (Watch.guarded body).Uses Harmless := by
  refine Routine.uses_bind (Routine.uses_attempt h) (fun o => ?_)
  rcases o with e | _
  · refine Routine.uses_bind ?_ (fun _ => Routine.uses_pure _)
    refine Routine.uses_bind Routine.uses_getSelf (fun self => ?_)
    refine Routine.uses_bind (touch_harmless _ _) (fun _ => ?_)
    exact Routine.uses_bind (sleep_harmless _) (fun _ => Routine.uses_modifySelf _)
  · exact Routine.uses_pure _

theorem pass_harmless (settings : WatcherSettings) (maxSessions : Option ℕ) (phase : Watch.Phase) :
    (Watch.pass settings maxSessions phase).Uses Harmless := by
  have hglance : ∀ {m : Mailbox Unit}, ICloudMailbox.Glances m → (Watch.onMailbox m).Uses Harmless :=
    fun h => Routine.uses_on (h.mono (fun _ => harmless_of_isGlance))
  cases phase with
  | connecting =>
      refine Routine.uses_bind Routine.uses_getSelf (fun self => ?_)
      split
      · refine Routine.uses_bind (Routine.uses_modifySelf _) (fun _ => guarded_harmless ?_)
        refine Routine.uses_bind (touch_harmless _ _) (fun _ => ?_)
        refine Routine.uses_bind (Routine.uses_modifySelf _) (fun _ => ?_)
        exact Routine.uses_bind (hglance ICloudMailbox.connect_glances)
          (fun _ => Routine.uses_modifySelf _)
      · exact Routine.uses_pure _
  | serving =>
      refine guarded_harmless (Routine.uses_bind (Routine.uses_attempt (serve_harmless settings))
        (fun o => ?_))
      rcases o with e | _
      · exact Routine.uses_bind (hglance ICloudMailbox.close_glances) (fun _ => Routine.uses_raise _)
      · exact Routine.uses_pure _
  | ended => exact Routine.uses_pure _

theorem runForever_harmless (settings : WatcherSettings) (maxSessions : Option ℕ) (passes : ℕ)
    (phase : Watch.Phase) : (Watch.runForever settings maxSessions passes phase).Uses Harmless := by
  induction passes generalizing phase with
  | zero => exact Routine.uses_pure _
  | succ passes ih =>
      exact Routine.uses_bind (pass_harmless settings maxSessions phase) (fun next => ih next)

/-- The calls of the watcher keep the account where it is. -/
def stalling (int : String → Option ℤ) (o : ForwarderOptions) (hw : GoodPath P folder w₀)
    (hx : P.exportsTrash = false) : Growth (Deployed P o int) .alone Harmless where
  grow := fun d d' => Stalled P o folder w₀ d → Stalled P o folder w₀ d'
  refl := fun _ h => h
  trans := fun h h' hd => h' (h hd)
  rely := by
    rintro d d' rfl
    exact id
  step := by
    rintro d op r d' hop - ⟨-, hE⟩ h
    have hstill : d'.world = d.world → d'.handled = d.handled → Stalled P o folder w₀ d' :=
      fun hworld hhandled => ⟨hworld ▸ h.world, hworld ▸ h.queue, hhandled ▸ h.handled⟩
    -- the notifier's call is a run of the forwarder, and no other call writes to the account
    cases op
    case trigger => exact hE.stalled hw hx h
    case clock => exact hstill hE.2.1 hE.2.2
    case sleep => exact hstill hE.2.2.1 hE.2.2.2
    all_goals
      obtain ⟨⟨now, -, hworld⟩, hhandled⟩ := hE
      refine hstill (hworld.trans ?_) hhandled
      unfold Provider.after
      split
      · exact hop.resolve_left (by simp) d.world
      · rfl

/-! ## Two programs, one environment -/

/-- The two programs read the same quarantine keywords where they are given the same. -/
theorem same_quarantine {e e' : Environ} {k k' : Keywords}
    (hsame : ∀ name ∈ ["FAILED_KEYWORD", "UNVERIFIED_KEYWORD"], e.get name = e'.get name)
    (hk : keywordsFromEnv e = .ok k) (hk' : keywordsFromEnv e' = .ok k') :
    k.quarantine = k'.quarantine := by
  have hread : ∀ {e : Environ} {k : Keywords}, keywordsFromEnv e = .ok k →
      k.failed = strip (e.getD "FAILED_KEYWORD" DEFAULT_FAILED_KEYWORD) ∧
      k.unverified = strip (e.getD "UNVERIFIED_KEYWORD" DEFAULT_UNVERIFIED_KEYWORD) := by
    intro e k hk
    rcases Atoms.keywordsFromEnv_spec e with ⟨k₁, hok, hvalues, -⟩ | ⟨text, herror, -⟩
    · cases hk.symm.trans hok
      exact ⟨congrArg Atoms.Supplied.failed hvalues, congrArg Atoms.Supplied.unverified hvalues⟩
    · rw [hk] at herror
      cases herror
  obtain ⟨hfailed, hunverified⟩ := hread hk
  obtain ⟨hfailed', hunverified'⟩ := hread hk'
  have hget := hsame "FAILED_KEYWORD" (by simp)
  have hget' := hsame "UNVERIFIED_KEYWORD" (by simp)
  simp only [Keywords.quarantine, hfailed, hfailed', hunverified, hunverified', Environ.getD, hget,
    hget']

/-! ## Main result -/

/-- **From the mailbox to Gmail.** Take any settings of the forwarder and of the watcher that are
    accepted and agree on the two quarantine keywords, and any budgets and clocks of the runs. If the
    Trash can be looked up, the first messages of the queue have been forwarded after any number of
    passes, each of them once and as many as the runs have handled; where no run comes back without a
    message, as many passes as there are messages leave none. If not, the queue never changes. -/
theorem drains {e e' : Environ} {before before' after after' : Secrets.Registered}
    {forwarder : ForwarderSettings} {watcher : WatcherConfig}
    (hforwarder : (ForwarderSettings.fromEnv e).outcome before = (.ok forwarder, after))
    (hwatcher : (WatcherSettings.fromEnv e').outcome before' = (.ok watcher, after'))
    (hsame : ∀ name ∈ ["FAILED_KEYWORD", "UNVERIFIED_KEYWORD"], e.get name = e'.get name)
    (hw : GoodPath P folder w₀) {now : ℚ} (hnow : 0 ≤ now) (m : ℕ) {r : Except Exc Unit} {s : Watch}
    (hrun : Program.Steps (Deployed P forwarder.options int) (⟨w₀, now, []⟩,
      Watch.runForever watcher.toWatcherSettings none (m + 1) .connecting
        (Watch.initial watcher.toWatcherSettings)) (d, .pure (r, s))) :
    (P.exportsTrash = true → r = .ok () ∧ Drained P forwarder.options folder w₀ m d) ∧
    (P.exportsTrash = false → Stalled P forwarder.options folder w₀ d) := by
  have hends : ∀ {Q : Except Exc Unit → Watch → Deployment → Prop},
      (Watch.runForever watcher.toWatcherSettings none (m + 1) .connecting).Safe
        (Deployed P forwarder.options int) .alone Q (Watch.initial watcher.toWatcherSettings)
        ⟨w₀, now, []⟩ → Q r s d := fun hsafe =>
    (Program.Safe.steps (I := fun _ => True) (fun _ h => h) (fun _ _ h => h) hsafe trivial
      (Program.Steps.under Discipline.alone.rely (fun _ => rfl) hrun)).2
  constructor
  · intro hx
    obtain ⟨keywords, hkeywords', hskipped⟩ := WatcherSettings.fromEnv_keywords hwatcher
    have hkeywords : keywordsFromEnv e = .ok forwarder.keywords :=
      (ForwarderSettings.fromEnv_eq_ok_iff.mp hforwarder).1
    have hagree : watcher.quarantineKeywords = forwarder.options.keywords.quarantine := by
      rw [hskipped]
      exact (same_quarantine hsame hkeywords hkeywords').symm
    obtain ⟨hr, h⟩ := hends (running_good int hw hx hagree hnow m)
    exact ⟨hr, h.drained hw⟩
  · intro hx
    have hharmless := Routine.Safe.of_uses (stalling int forwarder.options hw hx)
      (s := Watch.initial watcher.toWatcherSettings) (w := ⟨w₀, now, []⟩)
      (runForever_harmless watcher.toWatcherSettings none (m + 1) .connecting) (fun _ hop => hop)
      (fun _ _ _ _ => trivial)
    exact hends hharmless ⟨Or.inl rfl, rfl, by simp⟩

/-- The deployment with a clock that stands still in a run of the forwarder. -/
def answer (P : Provider) (o : ForwarderOptions) (int : String → Option ℤ) (d : Deployment) :
    (op : Op) → Reply op × Deployment
  | .clock => (.ok d.now, d)
  | .sleep seconds => (.ok (), { d with now := d.now + max seconds 0 })
  | .trigger =>
      let (outcome, world) := runOn P o o.timeBudgetSeconds (fun _ => 0) d.world
      let response := Endpoint.response [] outcome
      let n := (d.world.eligible o.keywords).length - (world.eligible o.keywords).length
      (Notifier.trigger int (.ok (Endpoint.wire response "" response.body)),
        { d with world := world, handled := d.handled ++ [n] })
  | op => (P.reply 0 d.world op, { d with world := P.after 0 d.world op })

theorem answer_deployed (d : Deployment) (op : Op) :
    Deployed P o int d op (answer P o int d op).1 (answer P o int d op).2 := by
  cases op
  case sleep seconds =>
    refine ⟨?_, rfl, ?_, rfl, rfl⟩
    · exact le_add_of_nonneg_right (le_max_right _ _)
    · exact add_le_add_right (le_max_left _ _) _
  case trigger => exact ⟨le_refl _, o.timeBudgetSeconds, _, [], "", _, .refl _, rfl, rfl, rfl⟩
  case clock => exact ⟨le_refl _, rfl, rfl, rfl⟩
  all_goals exact ⟨le_refl _, ⟨0, rfl, rfl⟩, rfl⟩

/-- The environment of both programs. -/
def sharedEnviron : Environ where
  get := fun
    | "ICLOUD_USER" => some "me@icloud.com"
    | "ICLOUD_PASSWORD" => some "pass"
    | "GMAIL_OAUTH_JSON" => some "{...}"
    | "FORWARDER_URL" => some "https://forwarder/"
    | _ => none
  accessSecretVersion := fun _ => ""
  int := fun _ => none
  lower := lower
  loads := fun _ => .ok (.obj [("client_id", .str "id"), ("client_secret", .str "key"),
    ("refresh_token", .str "token")])

def forwarderOf : ForwarderSettings where
  icloud := { user := "me@icloud.com", password := "pass", host := "imap.mail.me.com",
              port := 993, timeout := 60 }
  gmail := { clientId := .str "id", clientSecret := .str "key", refreshToken := .str "token",
             label := some "iCloud" }
  failedFolder := "Forward-Failed"
  unverifiedFolder := "Forward-Unverified"
  keywords := Keywords.default
  quarantineMode := .keyword
  timeBudgetSeconds := 480
  rejectionThreshold := 3

def watcherOf : WatcherConfig where
  icloud := forwarderOf.icloud
  forwarderUrl := "https://forwarder"
  healthPort := 8080
  healthStartupGrace := 300

theorem forwarderOf_read :
    (ForwarderSettings.fromEnv sharedEnviron).outcome [] = (.ok forwarderOf, []) := by
  refine ForwarderSettings.fromEnv_eq_ok_iff.mpr ⟨?_, ?_, ⟨[], ?_, ?_⟩, ?_, ?_, ?_, ?_⟩
  all_goals rfl

theorem watcherOf_read :
    (WatcherSettings.fromEnv sharedEnviron).outcome [] = (.ok watcherOf, []) := rfl

/-- The two programs over the three mails of `mixedInbox`. -/
theorem drains_mixed : ∃ d : Deployment, d.handled = [1] ∧ d.world.eligible .default = [] ∧
    d.world.gmail = [⟨⟨1, [105]⟩, ["INBOX", "iCloud"]⟩] := by
  let passes := Watch.runForever watcherOf.toWatcherSettings none 2 .connecting
    (Watch.initial watcherOf.toWatcherSettings)
  have hrun := Program.exec_steps
    (answer { exportsTrash := true } forwarderOf.options (fun _ => none)) answer_deployed passes ⟨mixedInbox, 0, []⟩
  have hone : (passes.exec (answer { exportsTrash := true } forwarderOf.options (fun _ => none))
      ⟨mixedInbox, 0, []⟩).2.handled = [1] := by decide +kernel
  obtain ⟨hgone, -⟩ := drains forwarderOf_read watcherOf_read (fun _ _ => rfl)
    (Forwarder.mixedInbox_good true) (le_refl 0) 1 hrun
  obtain ⟨-, hdrained⟩ := hgone rfl
  have hhandled := hdrained.handled
  have hemptied := hdrained.emptied
  rw [hone] at hhandled hemptied
  obtain ⟨-, hempty⟩ := hemptied (by decide) (by decide)
  refine ⟨_, hone, hempty, ?_⟩
  rw [hhandled.gmail]
  decide +kernel

end Deployment

end MailTransporter
