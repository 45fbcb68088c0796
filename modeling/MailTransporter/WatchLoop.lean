import MailTransporter.Watcher
import MailTransporter.MailboxRules
import Mathlib.Tactic.Linarith

set_option autoImplicit false

/-! # What the watch loop knows

A `Turn` is everything one call of `WatchLoop.step` meets: the session, the time, the server's
answer to every IMAP command and the notifier's answer. `Reachable` are the loops any history of
turns leads to while the clock never goes back, with that history, newest turn first.

`Took` says once what a turn can do; `Tracks` is the invariant that ties the attributes of the loop
to the history, and the main results are read off it. -/

namespace MailTransporter

open Effect
open Effect.Routine (raise)

namespace WatchLoop

/-! ## Turns -/

structure Turn where
  mailbox : ICloudMailbox
  now : ℚ
  imap : (op : Op) → Reply op
  answer : Except Exc TriggerResult

namespace Turn

def reply (t : Turn) : (op : Op) → Reply op
  | .clock => .ok t.now
  | .trigger => t.answer
  | .touch _ _ => .ok ()
  | op => t.imap op

/-- The handler keeps whether the notifier has been called. -/
def handler (t : Turn) (called : Bool) (op : Op) : Reply op × Bool :=
  (t.reply op, called || decide (op = .trigger))

/-- What `list_inbox_uids` returns or raises. -/
def listing (t : Turn) : Except Exc (List ℕ) :=
  ((ICloudMailbox.listInboxUids none).exec t.handler t.mailbox false).1.1

end Turn

/-- A turn that has been taken, whether it called the notifier, and what `step` returned or
    raised. -/
structure Past where
  turn : Turn
  called : Bool
  outcome : Except Exc (Option ℚ)

/-- The loop takes a turn. -/
def Turn.take (t : Turn) (l : WatchLoop) : Past × WatchLoop :=
  let r := step.exec t.handler { loop := l, mailbox := t.mailbox } false
  (⟨t, r.2, r.1.1⟩, r.1.2.loop)

namespace Past

/-- The result of a completed trigger. -/
def completed (p : Past) : Option TriggerResult :=
  if p.called then p.turn.answer.toOption else none

def succeeded (p : Past) : Bool := p.completed.any TriggerResult.ok

end Past

/-- The failures since the last success, among triggers that may have completed, newest first. -/
def failuresSince : List (Option TriggerResult) → ℕ
  | [] => 0
  | none :: rest => failuresSince rest
  | some result :: rest =>
      if result.ok then 0
      else if result.busy then failuresSince rest
      else failuresSince rest + 1

/-- The clock starts at a non-negative value and never goes back. -/
def Follows (past : List Past) (t : Turn) : Prop :=
  0 ≤ t.now ∧ ∀ p ∈ past, p.turn.now ≤ t.now

inductive Reachable (settings : WatcherSettings) : List Past → WatchLoop → Prop
  | start : Reachable settings [] (Watch.initial settings).loop
  | turn {past : List Past} {l : WatchLoop} (h : Reachable settings past l) (t : Turn)
      (ht : Follows past t) : Reachable settings ((t.take l).1 :: past) (t.take l).2

/-- `p` is the most recent turn with `P`, and `since` are the turns taken after it. -/
def Recent (P : Past → Prop) (past since : List Past) (p : Past) : Prop :=
  P p ∧ (∀ q ∈ since, ¬P q) ∧ ∃ earlier, past = since ++ p :: earlier

theorem Recent.head {P : Past → Prop} {p : Past} (h : P p) (past : List Past) :
    Recent P (p :: past) [] p :=
  ⟨h, fun _ hq => absurd hq List.not_mem_nil, past, rfl⟩

theorem Recent.cons {P : Past → Prop} {past since : List Past} {p q : Past}
    (h : Recent P past since p) (hq : ¬P q) : Recent P (q :: past) (q :: since) p := by
  obtain ⟨hp, hsince, earlier, he⟩ := h
  refine ⟨hp, fun q' hq' => ?_, earlier, by rw [he, List.cons_append]⟩
  rcases List.mem_cons.mp hq' with rfl | hq'
  · exact hq
  · exact hsince q' hq'

theorem Recent.mem {P : Past → Prop} {past since : List Past} {p : Past}
    (h : Recent P past since p) : p ∈ past := by
  obtain ⟨-, -, earlier, rfl⟩ := h
  exact List.mem_append_right _ List.mem_cons_self

/-! ## What a turn can do -/

/-- `self._notified &= uids` -/
def seeing (l : WatchLoop) (uids : Finset ℕ) : WatchLoop := { l with notified := l.notified ∩ uids }

/-- The delay after the `n`-th failure in a row. -/
def delayAfter (n : ℕ) : ℚ := min (BASE_BACKOFF * 2 ^ (n - 1)) MAX_BACKOFF

/-- What the loop makes of the notifier's result. -/
inductive Settled (l : WatchLoop) (now : ℚ) (uids : Finset ℕ) (result : TriggerResult) :
    Except Exc (Option ℚ) → WatchLoop → Prop
  | drained (hok : result.ok = true) (hremaining : result.remaining ≤ 0) :
      Settled l now uids result (.ok none)
        { l with failures := 0, notified := uids, lastTriggerAt := some now, notBefore := now }
  | remaining (hok : result.ok = true) (hremaining : 0 < result.remaining) :
      Settled l now uids result (.ok (some SHORT_DELAY))
        { l with failures := 0, notified := uids, lastTriggerAt := none, notBefore := now }
  | busy (hok : result.ok = false) (hbusy : result.busy = true) :
      Settled l now uids result (.ok (some BUSY_DELAY)) { l with notBefore := now + BUSY_DELAY }
  | failed (hok : result.ok = false) (hbusy : result.busy = false) (hn : l.failures + 1 ≤ 1024) :
      Settled l now uids result (.ok (some (delayAfter (l.failures + 1))))
        { l with failures := l.failures + 1, notBefore := now + delayAfter (l.failures + 1) }
  | overflowed (hok : result.ok = false) (hbusy : result.busy = false)
      (hn : 1024 < l.failures + 1) :
      Settled l now uids result
        (.error (.other "OverflowError" "int too large to convert to float"))
        { l with failures := l.failures + 1 }

/-- What a turn does to the loop. -/
inductive Took (t : Turn) (l : WatchLoop) : Past → WatchLoop → Prop
  | unlisted (e : Exc) (h : t.listing = .error e) : Took t l ⟨t, false, .error e⟩ l
  | empty (h : t.listing = .ok []) : Took t l ⟨t, false, .ok none⟩ (l.seeing ∅)
  | known {uids : List ℕ} (h : t.listing = .ok uids) (hknown : uids.toFinset ⊆ l.notified)
      (hstale : l.stale t.now = false) : Took t l ⟨t, false, .ok none⟩ (l.seeing uids.toFinset)
  | early {uids : List ℕ} (h : t.listing = .ok uids) (hearly : t.now < l.notBefore) :
      Took t l ⟨t, false, .ok (some (l.notBefore - t.now))⟩ (l.seeing uids.toFinset)
  | unanswered {uids : List ℕ} (h : t.listing = .ok uids) (hdue : l.notBefore ≤ t.now) (e : Exc)
      (ha : t.answer = .error e) : Took t l ⟨t, true, .error e⟩ (l.seeing uids.toFinset)
  | answered {uids : List ℕ} (h : t.listing = .ok uids) (hdue : l.notBefore ≤ t.now)
      (result : TriggerResult) (ha : t.answer = .ok result) {outcome : Except Exc (Option ℚ)}
      {l' : WatchLoop}
      (hs : Settled (l.seeing uids.toFinset) t.now uids.toFinset result outcome l') :
      Took t l ⟨t, true, outcome⟩ l'

theorem onLoop_exec {h : Bool → (op : Op) → Reply op × Bool} (f : WatchLoop → WatchLoop)
    (s : Watch) (called : Bool) :
    (Watch.onLoop f).exec h s called = ((.ok (), { s with loop := f s.loop }), called) := rfl

theorem pow_le_iff (n : ℕ) : (2 ^ 1024 : ℕ) ≤ 2 ^ (n - 1) ↔ 1024 < n := by
  rw [Nat.pow_le_pow_iff_right (by omega)]
  omega

theorem backoffDelay_of_le {n : ℕ} (h : n ≤ 1024) : backoffDelay n = pure (delayAfter n) := by
  unfold backoffDelay
  refine if_neg (fun hpow => ?_)
  have := (pow_le_iff n).mp hpow
  omega

theorem backoffDelay_of_lt {n : ℕ} (h : 1024 < n) : backoffDelay n =
    raise (.other "OverflowError" "int too large to convert to float") := by
  unfold backoffDelay
  exact if_pos ((pow_le_iff n).mpr h)

theorem settled_exec {h : Bool → (op : Op) → Reply op × Bool} (now : ℚ) (uids : Finset ℕ)
    (result : TriggerResult) (s : Watch) (called : Bool) :
    ∃ outcome s', (settleTrigger now uids result).exec h s called = ((outcome, s'), called) ∧
      Settled s.loop now uids result outcome s'.loop := by
  unfold settleTrigger
  by_cases hok : result.ok = true
  · by_cases hr : 0 < result.remaining
    · rw [if_pos hok, if_pos hr]
      exact ⟨_, _, rfl, .remaining hok hr⟩
    · rw [if_pos hok, if_neg hr]
      exact ⟨_, _, rfl, .drained hok (by omega)⟩
  · rw [if_neg hok]
    have hok := Bool.eq_false_iff.mpr hok
    by_cases hbusy : result.busy = true
    · rw [if_pos hbusy]
      exact ⟨_, _, rfl, .busy hok hbusy⟩
    · rw [if_neg hbusy]
      have hbusy := Bool.eq_false_iff.mpr hbusy
      rw [Routine.exec_bind_ok _ _ _ (onLoop_exec ..)]
      rw [Routine.exec_bind_ok _ _ _ (Routine.exec_getSelf ..)]
      by_cases hn : s.loop.failures + 1 ≤ 1024
      · rw [backoffDelay_of_le hn]
        exact ⟨_, _, rfl, .failed hok hbusy hn⟩
      · have hn : 1024 < s.loop.failures + 1 := by omega
        rw [backoffDelay_of_lt hn]
        exact ⟨_, _, rfl, .overflowed hok hbusy hn⟩

theorem notify_exec (t : Turn) (uids : Finset ℕ) (s : Watch) :
    (notify t.now uids).exec t.handler s false =
      match t.answer with
      | .ok result => (settleTrigger t.now uids result).exec t.handler s true
      | .error e => ((.error e, s), true) := by
  unfold notify
  rw [Routine.exec_bind_ok _ _ _ (Routine.exec_getSelf ..), Routine.exec_bind_ok _ _ _ rfl]
  have htrigger : (call .trigger : Watching TriggerResult).exec t.handler s false =
      ((t.answer, s), true) := rfl
  cases ha : t.answer with
  | error e =>
      rw [ha] at htrigger
      exact Routine.exec_bind_error _ _ _ htrigger
  | ok result =>
      rw [ha] at htrigger
      have htouch : (call (.touch HEARTBEAT_MARGIN "forwarder answered") : Watching Unit).exec
          t.handler s true = ((.ok (), s), true) := rfl
      exact (Routine.exec_bind_ok _ _ _ htrigger).trans (Routine.exec_bind_ok _ _ _ htouch)

/-- Listing the INBOX calls no notifier and does not touch the loop. -/
theorem listing_exec (t : Turn) (s : Watch) (hs : s.mailbox = t.mailbox) :
    ∃ mailbox, (Watch.onMailbox (ICloudMailbox.listInboxUids none)).exec t.handler s false =
      ((t.listing, { s with mailbox := mailbox }), false) := by
  have hquiet : ∀ called op, op.isLook = true → (t.handler called op).2 = called := by
    intro called op hop
    have hne : op ≠ .trigger := by
      rintro rfl
      exact absurd hop nofun
    rw [Turn.handler, decide_eq_false hne, Bool.or_false]
  have hcalled := Routine.exec_uses hquiet (ICloudMailbox.listInboxUids_glances none).looks
    t.mailbox false
  refine ⟨((ICloudMailbox.listInboxUids none).exec t.handler t.mailbox false).1.2, ?_⟩
  unfold Watch.onMailbox
  rw [Routine.exec_on, hs, hcalled]
  rfl

/-- **What a turn can do.** -/
theorem took (t : Turn) (l : WatchLoop) : Took t l (t.take l).1 (t.take l).2 := by
  obtain ⟨mailbox, hlisting⟩ := listing_exec t { loop := l, mailbox := t.mailbox } rfl
  have hclock : (call .clock : Watching ℚ).exec t.handler { loop := l, mailbox := t.mailbox } false =
      ((.ok t.now, { loop := l, mailbox := t.mailbox }), false) := rfl
  unfold Turn.take step
  rw [Routine.exec_bind_ok _ _ _ hclock]
  cases hl : t.listing with
  | error e =>
      rw [hl] at hlisting
      rw [Routine.exec_bind_error _ _ _ hlisting]
      exact .unlisted e hl
  | ok uids =>
      rw [hl] at hlisting
      rw [Routine.exec_bind_ok _ _ _ hlisting]
      unfold inspect
      rw [Routine.exec_bind_ok _ _ _ (onLoop_exec ..)]
      by_cases hempty : uids.toFinset = ∅
      · rw [if_pos hempty, hempty]
        rw [List.toFinset_eq_empty_iff] at hempty
        exact .empty (hempty ▸ hl)
      rw [if_neg hempty, Routine.exec_bind_ok _ _ _ (Routine.exec_getSelf ..)]
      dsimp only
      split
      · next hquiet =>
        refine .known hl ?_ hquiet.2
        have hsub := Finset.sdiff_eq_empty_iff_subset.mp hquiet.1
        exact fun uid huid => (Finset.mem_inter.mp (hsub huid)).1
      · split
        · next hearly => exact .early hl hearly
        · next hdue =>
          have hdue := not_lt.mp hdue
          rw [notify_exec]
          cases ha : t.answer with
          | error e => exact .unanswered hl hdue e ha
          | ok result =>
              obtain ⟨outcome, s', hexec, hsettled⟩ := settled_exec (h := t.handler) t.now
                uids.toFinset result ⟨l.seeing uids.toFinset, mailbox, 5, 0⟩ true
              dsimp only
              unfold seeing at hexec
              rw [hexec]
              exact .answered hl hdue result ha hsettled

/-! ## The attributes of the loop and the history -/

/-- The loop remembers the turn `p` as its last success, and `since` are the turns after it. -/
structure Remembers (l : WatchLoop) (since : List Past) (p : Past) : Prop where
  last : ∃ result, p.completed = some result ∧ result.ok = true ∧
    l.lastTriggerAt = if 0 < result.remaining then none else some p.turn.now
  listed : ∃ uids, p.turn.listing = .ok uids ∧ l.notified ⊆ uids.toFinset
  since : ∀ q ∈ since, ∀ uids, q.turn.listing = .ok uids → l.notified ⊆ uids.toFinset

/-- The turn `p` told the loop to wait until `notBefore`. -/
structure Postpones (p : Past) (notBefore : ℚ) : Prop where
  unsuccessful : p.succeeded = false
  resume : ∃ delay, p.outcome = .ok (some delay) ∧ notBefore = p.turn.now + delay ∧
    0 < delay ∧ delay ≤ MAX_BACKOFF

/-- The attributes of the loop, read as facts about its history. -/
structure Tracks (settings : WatcherSettings) (past : List Past) (l : WatchLoop) : Prop where
  interval : l.retriggerInterval = settings.retriggerInterval
  failures : l.failures = failuresSince (past.map Past.completed)
  notBefore : l.notBefore = 0 ∨ (∃ p ∈ past, l.notBefore ≤ p.turn.now) ∨
    ∃ since p, Recent (fun q => q.completed.isSome = true) past since p ∧ Postpones p l.notBefore
  notified : (l.notified = ∅ ∧ l.lastTriggerAt = none) ∨
    ∃ since p, Recent (fun q => q.succeeded = true) past since p ∧ Remembers l since p

theorem seeing_subset (l : WatchLoop) (uids : Finset ℕ) :
    (l.seeing uids).notified ⊆ uids ∧ (l.seeing uids).notified ⊆ l.notified :=
  ⟨Finset.inter_subset_right, Finset.inter_subset_left⟩

variable {settings : WatcherSettings} {past : List Past} {l l' : WatchLoop} {p : Past} {t : Turn}

/-- A turn that completed no trigger forgets what is no longer listed and changes nothing else. -/
theorem Tracks.forget (h : Tracks settings past l) (hp : p.completed = none)
    (hl : l' = l ∨ ∃ uids, p.turn.listing = .ok uids ∧ l' = l.seeing uids.toFinset)
    (hlisting : ∀ uids, p.turn.listing = .ok uids → l' = l.seeing uids.toFinset) :
    Tracks settings (p :: past) l' := by
  have hsucceeded : p.succeeded = false := by rw [Past.succeeded, hp]; rfl
  have hkept : l'.retriggerInterval = l.retriggerInterval ∧ l'.failures = l.failures ∧
      l'.notBefore = l.notBefore ∧ l'.lastTriggerAt = l.lastTriggerAt ∧
      l'.notified ⊆ l.notified := by
    rcases hl with rfl | ⟨uids, -, rfl⟩
    · exact ⟨rfl, rfl, rfl, rfl, Finset.Subset.refl _⟩
    · exact ⟨rfl, rfl, rfl, rfl, (seeing_subset l _).2⟩
  obtain ⟨hinterval, hfailures, hbefore, hlast, hnotified⟩ := hkept
  refine ⟨hinterval.trans h.interval, ?_, ?_, ?_⟩
  · rw [hfailures, h.failures, List.map_cons, hp]
    rfl
  · rw [hbefore]
    rcases h.notBefore with h0 | ⟨q, hq, hle⟩ | ⟨since, q, hrecent, hpost⟩
    · exact Or.inl h0
    · exact Or.inr (Or.inl ⟨q, List.mem_cons_of_mem _ hq, hle⟩)
    · have hnot : ¬p.completed.isSome = true := by rw [hp]; exact Bool.false_ne_true
      exact Or.inr (Or.inr ⟨p :: since, q, hrecent.cons hnot, hpost⟩)
  · rcases h.notified with ⟨hempty, hnone⟩ | ⟨since, q, hrecent, hremember⟩
    · rw [hempty, Finset.subset_empty] at hnotified
      exact Or.inl ⟨hnotified, hlast.trans hnone⟩
    · have hnot : ¬p.succeeded = true := by rw [hsucceeded]; exact Bool.false_ne_true
      obtain ⟨result, hresult, hok, hat⟩ := hremember.last
      obtain ⟨uids, huids, hsub⟩ := hremember.listed
      refine Or.inr ⟨p :: since, q, hrecent.cons hnot, ⟨result, hresult, hok, hlast.trans hat⟩,
        ⟨uids, huids, hnotified.trans hsub⟩, ?_⟩
      intro q' hq' uids' huids'
      rcases List.mem_cons.mp hq' with rfl | hq'
      · rw [hlisting uids' huids']
        exact (seeing_subset l _).1
      · exact hnotified.trans (hremember.since q' hq' uids' huids')

/-- The initial loop knows nothing. -/
theorem tracks_initial : Tracks settings [] (Watch.initial settings).loop :=
  ⟨rfl, rfl, Or.inl rfl, Or.inl ⟨rfl, rfl⟩⟩

/-- A completed trigger that was no success leaves what the loop knows of its last success. -/
theorem Tracks.unsuccessful (h : Tracks settings past l) {uids : List ℕ} {result : TriggerResult}
    {outcome : Except Exc (Option ℚ)} (hlisting : t.listing = .ok uids)
    (ha : t.answer = .ok result) (hok : result.ok = false)
    (hl : l'.lastTriggerAt = l.lastTriggerAt ∧ l'.notified = l.notified ∩ uids.toFinset) :
    (l'.notified = ∅ ∧ l'.lastTriggerAt = none) ∨ ∃ since p,
      Recent (fun q => q.succeeded = true) (⟨t, true, outcome⟩ :: past) since p ∧
        Remembers l' since p := by
  obtain ⟨hlast, hnotified⟩ := hl
  rcases h.notified with ⟨hempty, hnone⟩ | ⟨since, q, hrecent, hremember⟩
  · rw [hempty] at hnotified
    have hnone' := Finset.subset_empty.mp (hnotified ▸ Finset.inter_subset_left)
    exact Or.inl ⟨hnone', hlast.trans hnone⟩
  · have hnot : ¬Past.succeeded ⟨t, true, outcome⟩ = true := by
      simp [Past.succeeded, Past.completed, ha, hok, Except.toOption]
    obtain ⟨result, hresult, hok, hat⟩ := hremember.last
    obtain ⟨listed, hlisted, hsub⟩ := hremember.listed
    have hle : l'.notified ⊆ l.notified := by
      rw [hnotified]
      exact Finset.inter_subset_left
    refine Or.inr ⟨_, q, hrecent.cons hnot, ⟨result, hresult, hok, hlast.trans hat⟩,
      ⟨listed, hlisted, hle.trans hsub⟩, ?_⟩
    intro q' hq' uids' huids'
    rcases List.mem_cons.mp hq' with rfl | hq'
    · rw [hlisting] at huids'
      cases huids'
      rw [hnotified]
      exact Finset.inter_subset_right
    · exact hle.trans (hremember.since q' hq' uids' huids')

theorem delayAfter_bounds (n : ℕ) : 0 < delayAfter n ∧ delayAfter n ≤ MAX_BACKOFF := by
  refine ⟨lt_min ?_ (by decide +kernel), min_le_right _ _⟩
  have hpow : (0 : ℚ) < 2 ^ (n - 1) := by positivity
  have hbase : (0 : ℚ) < BASE_BACKOFF := by decide +kernel
  exact mul_pos hbase hpow

section answered

variable {outcome : Except Exc (Option ℚ)} {result : TriggerResult}

theorem completed_answered (ha : t.answer = .ok result) :
    Past.completed ⟨t, true, outcome⟩ = some result := by
  simp [Past.completed, ha, Except.toOption]

theorem succeeded_answered (ha : t.answer = .ok result) :
    Past.succeeded ⟨t, true, outcome⟩ = result.ok := by
  rw [Past.succeeded, completed_answered ha]
  rfl

/-- Counting the failures, at a completed trigger. -/
theorem failuresSince_answered (ha : t.answer = .ok result) :
    failuresSince ((⟨t, true, outcome⟩ :: past).map Past.completed) =
      if result.ok then 0 else if result.busy then failuresSince (past.map Past.completed)
      else failuresSince (past.map Past.completed) + 1 := by
  rw [List.map_cons, completed_answered ha]
  rfl

/-- A success, remembered. -/
theorem Remembers.now {uids : List ℕ} (hlisting : t.listing = .ok uids) (ha : t.answer = .ok result)
    (hok : result.ok = true)
    (hlast : l.lastTriggerAt = if 0 < result.remaining then none else some t.now)
    (hnotified : l.notified = uids.toFinset) : Remembers l [] ⟨t, true, outcome⟩ :=
  ⟨⟨result, completed_answered ha, hok, hlast⟩,
    ⟨uids, hlisting, hnotified ▸ Finset.Subset.refl _⟩, fun _ hq => absurd hq List.not_mem_nil⟩

/-- A completed trigger is the most recent one. -/
theorem recent_answered (ha : t.answer = .ok result) (past : List Past) :
    Recent (fun q => q.completed.isSome = true) (⟨t, true, outcome⟩ :: past) []
      ⟨t, true, outcome⟩ := by
  refine Recent.head ?_ past
  rw [completed_answered ha]
  rfl

theorem recent_succeeded (ha : t.answer = .ok result) (hok : result.ok = true)
    (past : List Past) : Recent (fun q => q.succeeded = true) (⟨t, true, outcome⟩ :: past) []
      ⟨t, true, outcome⟩ := by
  refine Recent.head ?_ past
  rw [succeeded_answered ha, hok]

end answered

/-- **A turn keeps the account.** -/
theorem Tracks.turn (h : Tracks settings past l) (t : Turn) :
    Tracks settings ((t.take l).1 :: past) (t.take l).2 := by
  have htook := took t l
  generalize hp : (t.take l).1 = p at htook
  generalize hl' : (t.take l).2 = l' at htook
  cases htook with
  | unlisted e he =>
      refine h.forget rfl (Or.inl rfl) ?_
      intro uids huids
      rw [he] at huids
      cases huids
  | empty he =>
      refine h.forget rfl (Or.inr ⟨[], he, rfl⟩) ?_
      intro uids huids
      rw [he] at huids
      cases huids
      rfl
  | known he hknown hstale =>
      refine h.forget rfl (Or.inr ⟨_, he, rfl⟩) ?_
      intro uids huids
      rw [he] at huids
      cases huids
      rfl
  | early he hearly =>
      refine h.forget rfl (Or.inr ⟨_, he, rfl⟩) ?_
      intro uids huids
      rw [he] at huids
      cases huids
      rfl
  | unanswered he hdue e ha =>
      refine h.forget ?_ (Or.inr ⟨_, he, rfl⟩) ?_
      · simp [Past.completed, ha, Except.toOption]
      · intro uids huids
        rw [he] at huids
        cases huids
        rfl
  | answered he hdue result ha hs =>
      cases hs with
      | drained hok hremaining =>
          refine ⟨h.interval, ?_, Or.inr (Or.inl ⟨_, List.mem_cons_self, le_refl _⟩),
            Or.inr ⟨[], _, recent_succeeded ha hok past, ?_⟩⟩
          · rw [failuresSince_answered ha, hok]
            rfl
          · refine Remembers.now he ha hok ?_ rfl
            rw [if_neg (by omega)]
      | remaining hok hremaining =>
          refine ⟨h.interval, ?_, Or.inr (Or.inl ⟨_, List.mem_cons_self, le_refl _⟩),
            Or.inr ⟨[], _, recent_succeeded ha hok past, ?_⟩⟩
          · rw [failuresSince_answered ha, hok]
            rfl
          · refine Remembers.now he ha hok ?_ rfl
            rw [if_pos hremaining]
      | busy hok hbusy =>
          have hbounds : 0 < BUSY_DELAY ∧ BUSY_DELAY ≤ MAX_BACKOFF := by decide +kernel
          refine ⟨h.interval, ?_, Or.inr (Or.inr ⟨[], _, recent_answered ha past,
            (succeeded_answered ha).trans hok, BUSY_DELAY, rfl, rfl, hbounds⟩),
            h.unsuccessful he ha hok ⟨rfl, rfl⟩⟩
          rw [failuresSince_answered ha, hok, hbusy]
          exact h.failures
      | failed hok hbusy hn =>
          refine ⟨h.interval, ?_, Or.inr (Or.inr ⟨[], _, recent_answered ha past,
            (succeeded_answered ha).trans hok, _, rfl, rfl, delayAfter_bounds _⟩),
            h.unsuccessful he ha hok ⟨rfl, rfl⟩⟩
          rw [failuresSince_answered ha, hok, hbusy]
          exact congrArg (· + 1) h.failures
      | overflowed hok hbusy hn =>
          -- the exception comes before the resume time is written: the old one has passed
          refine ⟨h.interval, ?_, Or.inr (Or.inl ⟨_, List.mem_cons_self, hdue⟩),
            h.unsuccessful he ha hok ⟨rfl, rfl⟩⟩
          rw [failuresSince_answered ha, hok, hbusy]
          exact congrArg (· + 1) h.failures

theorem tracks_of_reachable (h : Reachable settings past l) : Tracks settings past l := by
  induction h with
  | start => exact tracks_initial
  | turn _ t _ ih => exact ih.turn t

/-! ## Main results -/

/-- **The watcher never strands mail.** A turn that lists mail and does not call the notifier waits
    out the delay of the most recent completed trigger, or has nothing to report that the most
    recent successful trigger has not seen. -/
theorem no_stranding (h : Reachable settings past l) (ht : Follows past t) {uids : List ℕ}
    (hlisting : t.listing = .ok uids) (hne : uids ≠ []) (hcalled : (t.take l).1.called = false) :
    (∃ since p delay, Recent (fun q => q.completed.isSome = true) past since p ∧
      p.succeeded = false ∧ p.outcome = .ok (some delay) ∧ t.now < p.turn.now + delay ∧
      (t.take l).1.outcome = .ok (some (p.turn.now + delay - t.now)) ∧
      0 < p.turn.now + delay - t.now ∧ p.turn.now + delay - t.now ≤ MAX_BACKOFF) ∨
    ((t.take l).1.outcome = .ok none ∧ ∃ since p result,
      Recent (fun q => q.succeeded = true) past since p ∧ p.completed = some result ∧
      result.remaining ≤ 0 ∧ t.now - p.turn.now < settings.retriggerInterval ∧
      ∀ uid ∈ uids, (∃ listed, p.turn.listing = .ok listed ∧ uid ∈ listed) ∧
        ∀ q ∈ since, ∀ listed, q.turn.listing = .ok listed → uid ∈ listed) := by
  have htracks := tracks_of_reachable h
  have htook := took t l
  generalize hp : (t.take l).1 = p at htook hcalled
  generalize hl' : (t.take l).2 = l' at htook
  cases htook with
  | unlisted e he =>
      rw [he] at hlisting
      cases hlisting
  | empty he =>
      rw [he] at hlisting
      cases hlisting
      exact absurd rfl hne
  | known he hknown hstale =>
      rw [he] at hlisting
      cases hlisting
      refine Or.inr ⟨rfl, ?_⟩
      rcases htracks.notified with ⟨hempty, hnone⟩ | ⟨since, q, hrecent, hremember⟩
      · rw [stale, hnone] at hstale
        cases hstale
      obtain ⟨result, hresult, hok, hat⟩ := hremember.last
      obtain ⟨listed, hlisted, hsub⟩ := hremember.listed
      rw [stale, hat] at hstale
      -- a trigger that left messages has reset the time of the last one, which is stale at once
      by_cases hremaining : 0 < result.remaining
      · rw [if_pos hremaining] at hstale
        cases hstale
      · rw [if_neg hremaining] at hstale
        have hrecently := lt_of_not_ge (of_decide_eq_false hstale)
        rw [htracks.interval] at hrecently
        refine ⟨since, q, result, hrecent, hresult, by omega, hrecently, fun uid huid => ?_⟩
        have hmem := hknown (List.mem_toFinset.mpr huid)
        refine ⟨⟨listed, hlisted, List.mem_toFinset.mp (hsub hmem)⟩, ?_⟩
        intro q' hq' uids' huids'
        exact List.mem_toFinset.mp (hremember.since q' hq' uids' huids' hmem)
  | early he hearly =>
      refine Or.inl ?_
      -- `not_before` is ahead of the clock only if an unsuccessful trigger has put it there
      rcases htracks.notBefore with h0 | ⟨q, hq, hle⟩ | ⟨since, q, hrecent, hpost⟩
      · have := ht.1
        linarith
      · have := ht.2 q hq
        linarith
      · obtain ⟨delay, hdelay, hresume, hpos, hmax⟩ := hpost.resume
        have hlater := ht.2 q hrecent.mem
        rw [hresume] at hearly ⊢
        exact ⟨since, q, delay, hrecent, hpost.unsuccessful, hdelay, hearly, rfl, by linarith,
          by linarith⟩
  | unanswered he hdue e ha => exact absurd hcalled nofun
  | answered he hdue result ha hs => exact absurd hcalled nofun

/-- A turn of a connected session at which the server lists `uids` and the notifier gives
    `answer`. -/
def exampleTurn (now : ℚ) (uids : List ℕ) (answer : TriggerResult) : Turn where
  mailbox := { readonly := true, skipKeywords := [], connected := true }
  now := now
  imap := fun op =>
    match op with
    | .search _ => .ok uids
    | _ => .error (.other "IMAPClientError" "unexpected")
  answer := .ok answer

/-- The mail of time 0 has been reported and is still there at time 100. -/
theorem no_stranding_reported :
    let settings : WatcherSettings := {}
    let first := exampleTurn 0 [7] { ok := true }
    let l := (Watch.initial settings).loop
    let t := exampleTurn 100 [7] { ok := true }
    Reachable settings [(first.take l).1] (first.take l).2 ∧
      (t.take (first.take l).2).1.called = false ∧
      ((∃ since p delay, Recent (fun q => q.completed.isSome = true) [(first.take l).1] since p ∧
        p.succeeded = false ∧ p.outcome = .ok (some delay) ∧ t.now < p.turn.now + delay ∧
        (t.take (first.take l).2).1.outcome = .ok (some (p.turn.now + delay - t.now)) ∧
        0 < p.turn.now + delay - t.now ∧ p.turn.now + delay - t.now ≤ MAX_BACKOFF) ∨
      ((t.take (first.take l).2).1.outcome = .ok none ∧ ∃ since p result,
        Recent (fun q => q.succeeded = true) [(first.take l).1] since p ∧
        p.completed = some result ∧ result.remaining ≤ 0 ∧
        t.now - p.turn.now < settings.retriggerInterval ∧
        ∀ uid ∈ [7], (∃ listed, p.turn.listing = .ok listed ∧ uid ∈ listed) ∧
          ∀ q ∈ since, ∀ listed, q.turn.listing = .ok listed → uid ∈ listed)) := by
  intro settings first l t
  have hfirst : Follows [] first := ⟨le_refl _, fun p hp => absurd hp List.not_mem_nil⟩
  have hreach : Reachable settings [(first.take l).1] (first.take l).2 := .turn .start first hfirst
  have ht : Follows [(first.take l).1] t := by
    refine ⟨by decide +kernel, fun p hp => ?_⟩
    rw [List.mem_singleton.mp hp]
    decide +kernel
  have hcalled : (t.take (first.take l).2).1.called = false := by decide +kernel
  have hlisting : t.listing = .ok [7] := rfl
  exact ⟨hreach, hcalled, no_stranding hreach ht hlisting (by decide) hcalled⟩

end WatchLoop

end MailTransporter
