import MailTransporter.Board

set_option autoImplicit false

/-! # Maintenance commands between the runs

The operator's commands and the runs of the forwarder alternate in any order. Over the board a run
takes the first messages of the queue away, and a command does what it does to the board; `Course`
keeps the messages that have been handled. Where the package does not export the name of the Trash, a
run marks the first message of the queue and stops there (`Ran.stays`).

On the good path the account follows a course, with one copy in Gmail for every message that is
handled (`course_followed`), and what is set aside stays until it is put back (`held_back`). What has
been put back leaves the INBOX if the Trash can be looked up; otherwise nothing ever does
(`nothing_stranded`). -/

namespace MailTransporter

open Effect

/-- A command of the operator, or a run with its own budget and clock. -/
inductive Action where
  | command (now : ℚ) (c : Subcommand)
  | run (budget : ℚ) (clock : ℕ → ℚ)

/-- What comes of an action. -/
inductive Returned where
  | performed (p : Cli.Performed)
  | ran (r : Except Exc SyncResult)

namespace Subcommand

/-- The command puts a message back from this one of the two keywords, if it carries it. -/
def Releases (uid : ℕ) (unverified : Bool) : Subcommand → Prop
  | .retry args => args.unverified = unverified ∧ (unverified = true → args.yes = true) ∧
      match args.target with
      | .all => True
      | .uids uids => uid ∈ uids
  | _ => False

end Subcommand

namespace Board

/-! ## Courses -/

/-- The messages have gone. -/
def without (d : Board) (uids : List ℕ) : Board where
  present := d.present.filter (fun v => v ∉ uids)
  live := d.live.filter (fun v => v ∉ uids)
  inserted := d.inserted.filter (fun v => v ∉ uids)
  failed := d.failed.filter (fun v => v ∉ uids)
  unverified := d.unverified.filter (fun v => v ∉ uids)
  live_present := Finset.filter_subset_filter _ d.live_present
  inserted_live := Finset.filter_subset_filter _ d.inserted_live
  failed_live := Finset.filter_subset_filter _ d.failed_live
  unverified_live := Finset.filter_subset_filter _ d.unverified_live

/-- The first `n` messages of the queue. -/
def next (d : Board) (n : ℕ) : List ℕ := (d.queue.sort (· ≤ ·)).take n

/-- Mark a message as inserted. -/
def marked (d : Board) (uid : ℕ) : Board :=
  { d with
    inserted := d.live.filter (fun v => v ∈ d.inserted ∨ v = uid)
    inserted_live := Finset.filter_subset _ _ }

/-- The message, unless it has been marked. -/
def fresh (d : Board) (uid : ℕ) : List ℕ := if uid ∈ d.inserted then [] else [uid]

/-- A run over the board: the messages it handles, and the board after it. It takes a prefix of the
    queue, all of it if its clock stays within the budget, and says how much is left. Where the Trash
    cannot be looked up, it ends with an error at the first message it begins, which it has marked,
    and all of the queue is left. -/
inductive Ran (exports : Bool) (d : Board) (budget : ℚ) (clock : ℕ → ℚ) (r : SyncResult) :
    List ℕ → Board → Prop
  | takes (n : ℕ) (hx : exports = true ∨ n = 0) (herror : r.error = none)
      (hleft : r.remaining = (d.without (d.next n)).queue.card)
      (hall : (∀ i j, clock j - clock i ≤ budget) → r.remaining = 0) :
      Ran exports d budget clock r (d.next n) (d.without (d.next n))
  | stays {uid : ℕ} (hx : exports = false) (hhead : (d.queue.sort (· ≤ ·)).head? = some uid)
      (hbegun : clock 1 - clock 0 ≤ budget) (herror : ∃ text, r.error = some text)
      (hleft : r.remaining = d.queue.card) :
      Ran exports d budget clock r (d.fresh uid) (d.marked uid)

/-- The actions over the board, with the messages that the runs have handled. -/
inductive Course (exports : Bool) (k : Keywords) (heads : ℕ → ICloudMailbox.Headers) :
    Board → List Action → List Returned → List ℕ → Board → Prop
  | done (d : Board) : Course exports k heads d [] [] [] d
  | command {d d' : Board} {actions : List Action} {responses : List Returned} {handled : List ℕ}
      (now : ℚ) {c : Subcommand} {p : Cli.Performed} (hp : Cli.Answers k heads d c p)
      (h : Course exports k heads (d.after c) actions responses handled d') :
      Course exports k heads d (.command now c :: actions) (.performed p :: responses) handled d'
  | run {d d₁ d' : Board} {actions : List Action} {responses : List Returned}
      {uids handled : List ℕ} {budget : ℚ} {clock : ℕ → ℚ} {r : SyncResult}
      (hr : Ran exports d budget clock r uids d₁)
      (h : Course exports k heads d₁ actions responses handled d') :
      Course exports k heads d (.run budget clock :: actions) (.ran (.ok r) :: responses)
        (uids ++ handled) d'

/-! ### What a command leaves alone -/

theorem after_frame (d : Board) (c : Subcommand) :
    (d.after c).present = d.present ∧ (d.after c).live = d.live ∧
      (d.after c).inserted = d.inserted := by
  have hput : ∀ unverified uids, (d.putBack unverified uids).present = d.present ∧
      (d.putBack unverified uids).live = d.live ∧
      (d.putBack unverified uids).inserted = d.inserted := by
    intro unverified uids
    cases unverified
    all_goals exact ⟨rfl, rfl, rfl⟩
  have hmark : ∀ (uids : List ℕ) (d : Board), (d.mark uids).present = d.present ∧
      (d.mark uids).live = d.live ∧ (d.mark uids).inserted = d.inserted := by
    intro uids
    induction uids with
    | nil => exact fun d => ⟨rfl, rfl, rfl⟩
    | cons uid rest ih =>
        intro d
        rw [mark]
        split
        · exact ih d
        · split
          · exact ih (d.setAside uid)
          · exact ⟨rfl, rfl, rfl⟩
  cases c with
  | listQuarantined => exact ⟨rfl, rfl, rfl⟩
  | retry args =>
      rw [after]
      split
      · exact ⟨rfl, rfl, rfl⟩
      · exact hput _ _
  | markFailed uids => exact hmark uids d

variable {exports : Bool} {k : Keywords} {heads heads' : ℕ → ICloudMailbox.Headers} {d d₁ d' : Board}
  {actions : List Action} {responses : List Returned} {uids handled : List ℕ} {budget : ℚ}
  {clock : ℕ → ℚ} {r : SyncResult} {uid n : ℕ}

/-- The lines of a command show no headers but those of messages that are there. -/
theorem lines_congr (h : ∀ uid ∈ d.present, heads uid = heads' uid) (c : Subcommand) :
    d.lines k heads c = d.lines k heads' c := by
  cases c with
  | listQuarantined json =>
      have hlisting : d.listing k heads = d.listing k heads' := by
        refine List.map_congr_left (fun uid hu => ?_)
        have haside := (Finset.mem_sort _).mp hu
        have hlive := Finset.union_subset d.failed_live d.unverified_live haside
        rw [h uid (d.live_present hlive)]
      rw [lines, lines, hlisting]
  | retry args => rfl
  | markFailed uids => rfl

theorem mem_next (h : uid ∈ d.next n) : uid ∈ d.queue :=
  (Finset.mem_sort _).mp (List.mem_of_mem_take h)

theorem next_nodup (d : Board) (n : ℕ) : (d.next n).Nodup :=
  (Finset.sort_nodup _ _).sublist (List.take_sublist n _)

@[simp] theorem without_next_zero (d : Board) : d.without (d.next 0) = d := by
  ext1
  all_goals simp [without, next]

theorem mem_without_present (h : uid ∈ (d.without uids).present) : uid ∉ uids :=
  (Finset.mem_filter.mp h).2

theorem mem_fresh {v : ℕ} (h : v ∈ d.fresh uid) : v = uid ∧ uid ∉ d.inserted := by
  unfold fresh at h
  split at h
  · exact absurd h List.not_mem_nil
  · next hnot => exact ⟨List.mem_singleton.mp h, hnot⟩

theorem fresh_nodup (d : Board) (uid : ℕ) : (d.fresh uid).Nodup := by
  unfold fresh
  split
  · exact List.nodup_nil
  · exact List.nodup_singleton uid

/-! ### What a run does -/

theorem mem_queue_of_head (h : (d.queue.sort (· ≤ ·)).head? = some uid) : uid ∈ d.queue :=
  (Finset.mem_sort _).mp (List.mem_of_head? h)

theorem Ran.present (h : Ran exports d budget clock r uids d₁) : d₁.present ⊆ d.present := by
  cases h with
  | takes => exact Finset.filter_subset _ _
  | stays => exact Finset.Subset.refl _

/-- A run handles messages of the queue, each of them once. -/
theorem Ran.queued (h : Ran exports d budget clock r uids d₁) :
    uids.Nodup ∧ ∀ uid ∈ uids, uid ∈ d.queue := by
  cases h with
  | takes n => exact ⟨next_nodup d n, fun v hv => mem_next hv⟩
  | stays _ hhead =>
      refine ⟨fresh_nodup d _, fun v hv => ?_⟩
      rw [(mem_fresh hv).1]
      exact mem_queue_of_head hhead

/-- Where the Trash can be looked up, what a run handles has gone. -/
theorem Ran.taken (h : Ran true d budget clock r uids d₁) : d₁ = d.without uids := by
  cases h with
  | takes => rfl
  | stays hx => cases hx

/-- Otherwise everything is where it was, and what the run has handled is marked. -/
theorem Ran.kept (h : Ran false d budget clock r uids d₁) :
    d₁.present = d.present ∧ d₁.live = d.live ∧
      d₁.inserted = d.live.filter (fun v => v ∈ d.inserted ∨ v ∈ uids) ∧
      ∀ uid ∈ uids, uid ∉ d.inserted := by
  cases h with
  | takes n hx =>
      obtain rfl := hx.resolve_left Bool.false_ne_true
      rw [without_next_zero]
      refine ⟨rfl, rfl, ?_, fun v hv => absurd hv List.not_mem_nil⟩
      ext v
      simp only [next, List.take_zero, List.not_mem_nil, or_false, Finset.mem_filter]
      exact ⟨fun hv => ⟨d.inserted_live hv, hv⟩, And.right⟩
  | @stays uid _ hhead =>
      refine ⟨rfl, rfl, ?_, fun v hv => (mem_fresh hv).1 ▸ (mem_fresh hv).2⟩
      refine Finset.filter_congr (fun v _ => ?_)
      unfold fresh
      split
      · next hin =>
        simp only [List.not_mem_nil, or_false, or_iff_left_iff_imp]
        rintro rfl
        exact hin
      · rw [List.mem_singleton]

/-- What happens to the headers of messages that are not there does not matter. -/
theorem Course.congr (h : ∀ uid ∈ d.present, heads uid = heads' uid)
    (hc : Course exports k heads d actions responses handled d') :
    Course exports k heads' d actions responses handled d' := by
  induction hc with
  | done d => exact .done d
  | @command d d' actions responses handled now c p hp hc ih =>
      refine .command now ⟨hp.1, ?_⟩ (ih ?_)
      · rw [← lines_congr h c]
        exact hp.2
      · rw [(after_frame d c).1]
        exact h
  | run hr hc ih => exact .run hr (ih (fun uid hu => h uid (hr.present hu)))

/-- Every message is taken at most once, and what has not been taken is still there. -/
theorem Course.taken_once (h : Course true k heads d actions responses handled d') :
    handled.Nodup ∧ (∀ uid ∈ handled, uid ∈ d.live) ∧
      d'.live = d.live.filter (fun v => v ∉ handled) := by
  induction h with
  | done d => simp
  | @command d d' actions responses handled now c p hp h ih =>
      rwa [(after_frame d c).2.1] at ih
  | @run d d₁ d' actions responses uids handled budget clock r hr h ih =>
      obtain ⟨hnodup, hhandled, hlive⟩ := ih
      obtain ⟨huids, hqueue⟩ := hr.queued
      obtain rfl := hr.taken
      -- what is taken later is still live after this run, so it is not among what it takes
      have hrest : ∀ v ∈ handled, v ∈ d.live ∧ v ∉ uids :=
        fun v hv => Finset.mem_filter.mp (hhandled v hv)
      refine ⟨huids.append hnodup (fun v hv hv' => (hrest v hv').2 hv), ?_, ?_⟩
      · intro v hv
        rcases List.mem_append.mp hv with hv | hv
        · exact (Finset.mem_sdiff.mp (hqueue v hv)).1
        · exact (hrest v hv).1
      · rw [hlive]
        simp [without, Finset.filter_filter]

/-- Where the Trash cannot be looked up, every message is still there, and none is marked twice. -/
theorem Course.marked_once (h : Course false k heads d actions responses handled d') :
    handled.Nodup ∧ (∀ uid ∈ handled, uid ∈ d.live ∧ uid ∉ d.inserted) ∧
      d'.present = d.present ∧ d'.live = d.live ∧
      ∀ uid, uid ∈ d'.inserted ↔ uid ∈ d.inserted ∨ uid ∈ handled := by
  induction h with
  | done d => simp
  | @command d d' actions responses handled now c p hp h ih =>
      obtain ⟨hpresent, hlive, hinserted⟩ := after_frame d c
      rwa [hpresent, hlive, hinserted] at ih
  | @run d d₁ d' actions responses uids handled budget clock r hr h ih =>
      obtain ⟨hnodup, hhandled, hpresent, hlive, hinserted⟩ := ih
      obtain ⟨huids, hqueue⟩ := hr.queued
      obtain ⟨hpresent₁, hlive₁, hinserted₁, hfresh⟩ := hr.kept
      have hlive' : ∀ v ∈ uids, v ∈ d.live := fun v hv => (Finset.mem_sdiff.mp (hqueue v hv)).1
      rw [hpresent₁] at hpresent
      rw [hlive₁] at hlive hhandled
      simp only [hinserted₁, Finset.mem_filter] at hhandled hinserted
      refine ⟨huids.append hnodup (fun v hv hv' => ?_), ?_, hpresent, hlive, fun v => ?_⟩
      · exact (hhandled v hv').2 ⟨hlive' v hv, Or.inr hv⟩
      · intro v hv
        rcases List.mem_append.mp hv with hv | hv
        · exact ⟨hlive' v hv, hfresh v hv⟩
        · obtain ⟨hv, hnot⟩ := hhandled v hv
          exact ⟨hv, fun hin => hnot ⟨hv, Or.inl hin⟩⟩
      · rw [hinserted, List.mem_append]
        have hin : v ∈ d.inserted → v ∈ d.live := fun hv => d.inserted_live hv
        have hu := hlive' v
        tauto

theorem Course.nodup (h : Course exports k heads d actions responses handled d') :
    handled.Nodup := by
  cases exports with
  | true => exact h.taken_once.1
  | false => exact h.marked_once.1

/-! ### What is set aside -/

theorem mark_carrying (d : Board) (uids : List ℕ) (unverified : Bool) :
    d.carrying unverified ⊆ (d.mark uids).carrying unverified := by
  induction uids generalizing d with
  | nil => exact Finset.Subset.refl _
  | cons v rest ih =>
      rw [mark]
      split
      · exact ih d
      · split
        · refine Finset.Subset.trans ?_ (ih (d.setAside v))
          cases unverified with
          | true => exact Finset.Subset.refl _
          | false => exact fun u hu => Finset.mem_filter.mpr ⟨d.failed_live hu, Or.inl hu⟩
        · exact Finset.Subset.refl _

/-- A command that does not put the message back leaves it under its keyword. -/
theorem after_carrying {c : Subcommand} {unverified : Bool} (hin : uid ∈ d.carrying unverified)
    (hkept : ¬c.Releases uid unverified) : uid ∈ (d.after c).carrying unverified := by
  cases c with
  | listQuarantined => exact hin
  | markFailed uids => exact mark_carrying d uids unverified hin
  | retry args =>
      rw [after]
      split
      · exact hin
      · next hyes =>
        by_cases hsame : args.unverified = unverified
        · subst hsame
          rw [carrying_putBack, Finset.mem_filter]
          refine ⟨hin, fun htarget => hkept ⟨rfl, ?_, ?_⟩⟩
          · intro hunverified
            simpa [hunverified] using hyes
          · unfold target at htarget
            cases hargs : args.target with
            | all => trivial
            | uids uids =>
                rw [hargs] at htarget
                exact htarget
        · -- the other keyword is cleared
          unfold carrying putBack at *
          cases hother : args.unverified with
          | true =>
              rw [hother, Bool.true_eq, Bool.not_eq_true] at hsame
              subst hsame
              exact hin
          | false =>
              rw [hother, Bool.false_eq, Bool.not_eq_false] at hsame
              subst hsame
              exact hin

theorem without_carrying {uids : List ℕ} {unverified : Bool} (hin : uid ∈ d.carrying unverified)
    (hnot : uid ∉ uids) : uid ∈ (d.without uids).carrying unverified := by
  cases unverified with
  | true => exact Finset.mem_filter.mpr ⟨hin, hnot⟩
  | false => exact Finset.mem_filter.mpr ⟨hin, hnot⟩

/-- A run does not handle what is set aside, and leaves it there. -/
theorem Ran.held {unverified : Bool} (h : Ran exports d budget clock r uids d₁)
    (hin : uid ∈ d.carrying unverified) : uid ∉ uids ∧ uid ∈ d₁.carrying unverified := by
  have hnot : uid ∉ d.queue := by
    intro hqueue
    have haside := (Finset.mem_sdiff.mp hqueue).2
    rw [Finset.mem_union, not_or] at haside
    cases unverified with
    | true => exact haside.2 hin
    | false => exact haside.1 hin
  have huids : uid ∉ uids := fun hu => hnot (h.queued.2 uid hu)
  refine ⟨huids, ?_⟩
  cases h with
  | takes => exact without_carrying hin huids
  | stays => exact hin

/-- A message set aside is not handled before it is put back. -/
theorem Course.held (h : Course exports k heads d actions responses handled d') {unverified : Bool}
    (hin : uid ∈ d.carrying unverified)
    (hkept : ∀ now c, Action.command now c ∈ actions → ¬c.Releases uid unverified) :
    uid ∉ handled ∧ uid ∈ d'.carrying unverified := by
  induction h with
  | done d => exact ⟨List.not_mem_nil, hin⟩
  | @command d d' actions responses handled now c p hp h ih =>
      refine ih (after_carrying hin (hkept now c List.mem_cons_self)) ?_
      exact fun now' c' hc' => hkept now' c' (List.mem_cons_of_mem _ hc')
  | run hr h ih =>
      obtain ⟨hnot, hin⟩ := hr.held hin
      obtain ⟨hrest, hstill⟩ := ih hin
        (fun now' c' hc' => hkept now' c' (List.mem_cons_of_mem _ hc'))
      refine ⟨?_, hstill⟩
      rw [List.mem_append, not_or]
      exact ⟨hnot, hrest⟩

/-! ### Everything is put back -/

/-- Both keywords are cleared of all messages, and a run that is not cut short follows. -/
def closing (first second : ℚ) (yes : Bool) (budget : ℚ) (clock : ℕ → ℚ) : List Action :=
  [.command first (.retry ⟨.all, true, true⟩), .command second (.retry ⟨.all, false, yes⟩),
    .run budget clock]

theorem carrying_after_all (d : Board) (unverified yes : Bool)
    (hyes : unverified = true → yes = true) :
    (d.after (.retry ⟨.all, unverified, yes⟩)).carrying unverified = ∅ := by
  have hdo : ¬(unverified && !yes) = true := by
    cases unverified with
    | true => simp [hyes rfl]
    | false => simp
  rw [after, if_neg hdo, carrying_putBack, Finset.filter_eq_empty_iff]
  intro v hv hnot
  exact hnot ((Finset.mem_sort _).mpr hv)

/-- Clearing the failed keyword leaves the other one. -/
theorem carrying_after_second (d : Board) (yes : Bool) :
    d.carrying true = (d.after (.retry ⟨.all, false, yes⟩)).carrying true := rfl

/-- What is not set aside is in the queue. -/
theorem queue_of_none (hfailed : d.failed = ∅) (hunverified : d.unverified = ∅) :
    d.queue = d.live := by
  rw [queue, hfailed, hunverified, Finset.union_empty, Finset.sdiff_empty]

/-- Whatever the actions before, nothing is left then. -/
theorem Course.closed {first second : ℚ} {yes : Bool} (hclock : ∀ i j, clock j - clock i ≤ budget)
    (h : Course true k heads d (actions ++ closing first second yes budget clock) responses handled
      d') : d'.live = ∅ := by
  induction actions generalizing d responses handled with
  | nil =>
      obtain - | ⟨-, -, - | ⟨-, -, - | - | ⟨hr, hdone⟩⟩⟩ := h
      cases hdone
      -- the first command has cleared one keyword, the second one the other
      have hunverified := carrying_after_all d true true (fun _ => rfl)
      have hfailed := carrying_after_all (d.after (.retry ⟨.all, true, true⟩)) false yes (by simp)
      rw [carrying_after_second _ yes] at hunverified
      generalize (d.after (.retry ⟨.all, true, true⟩)).after (.retry ⟨.all, false, yes⟩) = d₂ at *
      cases hr with
      | stays hx => cases hx
      | takes n _ _ hleft hall =>
          have hqueue := Finset.card_eq_zero.mp (hleft.symm.trans (hall hclock))
          rwa [queue_of_none] at hqueue
          · exact Finset.subset_empty.mp ((Finset.filter_subset _ _).trans hfailed.subset)
          · exact Finset.subset_empty.mp ((Finset.filter_subset _ _).trans hunverified.subset)
  | cons act rest ih =>
      cases h with
      | command now hp h => exact ih h
      | run hr h => exact ih h

end Board

/-! ## What an account goes through -/

namespace World

variable {k : Keywords} {d : Delivery} {w w₁ w₂ w' : World} {uids handled handled' : List ℕ}
  {uid : ℕ}

/-- Any flag but the two keywords. -/
theorem bareMessage_has (k : Keywords) (m : Message) {flag : String}
    (hfailed : lower flag ≠ lower k.failed) (hunverified : lower flag ≠ lower k.unverified) :
    (bareMessage k m).has flag = m.has flag :=
  (removeFlag_other hfailed _).trans (removeFlag_other hunverified _)

theorem bare_find (k : Keywords) (w : World) (uid : ℕ) :
    (w.bare k).find uid = (w.find uid).map (bareMessage k) := by
  show List.find? _ (w.messages.map (bareMessage k)) = _
  rw [List.find?_map]
  rfl

/-- The copy Gmail gets does not depend on the two keywords. -/
theorem copyOf_bare (hd : d.inserted = k.inserted) (w : World) (uid : ℕ) :
    w.copyOf d uid = ((w.find uid).map (bareMessage k)).bind (fun m =>
      if m.has d.inserted then none else some ⟨m.raw, m.labels d.extraLabels⟩) := by
  have hkeyword : ∀ name, '\\' ∈ (lower name).toList →
      lower name ≠ lower k.failed ∧ lower name ≠ lower k.unverified := fun name hname =>
    ⟨(k.failedOk.lower_ne hname).symm, (k.unverifiedOk.lower_ne hname).symm⟩
  obtain ⟨hseen, hseen'⟩ := hkeyword "\\Seen" (by decide)
  obtain ⟨hflagged, hflagged'⟩ := hkeyword "\\Flagged" (by decide)
  rw [copyOf, Option.bind_map]
  congr 1
  funext m
  rw [Function.comp_apply, hd,
    bareMessage_has k m k.inserted_ne_failed k.inserted_ne_unverified, Message.labels,
    Message.labels, bareMessage_has k m hseen hseen', bareMessage_has k m hflagged hflagged']
  rfl

/-- A message that is marked, without the two keywords. -/
theorem bareMessage_marked (k : Keywords) (m : Message) :
    bareMessage k (m.withFlags (addFlag k.inserted m.flags)) =
      (bareMessage k m).withFlags (addFlag k.inserted (bareMessage k m).flags) := by
  have hsame : ∀ flag flags, lower k.inserted ≠ lower flag →
      removeFlag flag (addFlag k.inserted flags) = addFlag k.inserted (removeFlag flag flags) := by
    intro flag flags hne
    unfold addFlag
    rw [removeFlag_other hne]
    split
    · rfl
    · simp [removeFlag, hne]
  have hflags := congrArg (removeFlag k.failed) (hsame k.unverified m.flags k.inserted_ne_unverified)
  rw [hsame k.failed _ k.inserted_ne_failed] at hflags
  exact congrArg m.withFlags hflags

/-- Since `w` the runs have handled these messages, each with a copy in Gmail unless it had been
    marked. Where the Trash can be looked up they are there, otherwise they are marked and where they
    were; of the others only the two keywords may have changed. -/
structure Steered (exports : Bool) (k : Keywords) (d : Delivery) (w w' : World)
    (handled : List ℕ) : Prop where
  gmail : w'.gmail = w.gmail ++ handled.filterMap (w.copyOf d)
  gone : exports = true → ∀ uid ∈ handled, w'.find uid = none ∧ ∃ m, w.find uid = some m ∧
    ∃ m' ∈ w'.messages, m'.folder = folderName d.trash ∧ m'.raw = m.raw ∧ m'.has d.inserted = true
  stays : exports = false → ∀ uid ∈ handled, ∃ m, w.find uid = some m ∧ m.has d.inserted = false ∧
    (w'.find uid).map (bareMessage k) =
      some (bareMessage k (m.withFlags (addFlag d.inserted m.flags)))
  rest : ∀ uid, uid ∉ handled →
    (w'.find uid).map (bareMessage k) = (w.find uid).map (bareMessage k)
  elsewhere : ∀ m ∈ w.messages, m.folder ≠ "INBOX" →
    ∃ m' ∈ w'.messages, bareMessage k m' = bareMessage k m

theorem Wrote.mem (h : Wrote k w w') {m : Message} (hm : m ∈ w.messages) :
    ∃ m' ∈ w'.messages, bareMessage k m' = bareMessage k m := by
  have hmem : bareMessage k m ∈ (w'.bare k).messages := by
    rw [h.bare]
    exact List.mem_map_of_mem hm
  exact List.mem_map.mp hmem

theorem Wrote.steered (h : Wrote k w w') (exports : Bool) : Steered exports k d w w' [] where
  gmail := by
    have hgmail : (w'.bare k).gmail = (w.bare k).gmail := congrArg World.gmail h.bare
    rw [List.filterMap_nil, List.append_nil]
    exact hgmail
  gone := by simp
  stays := by simp
  rest := by
    intro uid _
    rw [← bare_find, ← bare_find, h.bare]
  elsewhere := fun m hm _ => h.mem hm

theorem Forwarded.steered (h : Forwarded d w w' uids)
    (hthere : ∀ uid ∈ uids, ∃ m, w.find uid = some m) : Steered true k d w w' uids where
  gmail := h.gmail
  gone := by
    intro _ uid hu
    obtain ⟨m, hm⟩ := hthere uid hu
    obtain ⟨m', hm', hfolder, hraw, hinserted, -⟩ := h.trashed uid hu m hm
    refine ⟨?_, m, hm, m', hm', hfolder, hraw, hinserted⟩
    rw [h.find, if_pos hu]
  stays := by simp
  rest := by
    intro uid hu
    rw [h.find, if_neg hu]
  elsewhere := by
    intro m hm hfolder
    refine ⟨m, h.kept m hm (fun uid _ => ?_), rfl⟩
    rw [Bool.eq_false_iff]
    exact fun hat => hfolder (Message.isAt_iff.mp hat).1

/-- A message that is delivered and stays. -/
theorem deliver_steered {m : Message} (hf : w.find uid = some m) :
    Steered false k d w (w.deliver d uid) (if m.has d.inserted then [] else [uid]) := by
  by_cases hin : m.has d.inserted = true
  · rw [if_pos hin, deliver, hf]
    dsimp only
    rw [if_pos hin]
    exact ⟨by simp, by simp, by simp, fun _ _ => rfl, fun m hm _ => ⟨m, hm, rfl⟩⟩
  · rw [if_neg hin]
    have hsingle : ∀ v ∈ [uid], v = uid := fun v hv => List.mem_singleton.mp hv
    refine ⟨?_, by simp, fun _ v hv => ?_, fun v hv => ?_, fun m hm hfolder => ?_⟩
    · have hcopies : [uid].filterMap (w.copyOf d) = (w.copyOf d uid).toList := by
        cases hc : w.copyOf d uid with
        | none => simp [hc]
        | some copy => simp [hc]
      rw [gmail_deliver, hcopies]
    · obtain rfl := hsingle v hv
      refine ⟨m, hf, Bool.eq_false_iff.mpr hin, ?_⟩
      rw [find_deliver_self hf]
      rfl
    · rw [find_deliver w uid v (fun he => hv (he ▸ List.mem_singleton_self uid))]
    · refine ⟨m, mem_deliver hm ?_, rfl⟩
      rw [Bool.eq_false_iff]
      exact fun hat => hfolder (Message.isAt_iff.mp hat).1

variable {exports : Bool}

/-- A message is handled once. -/
theorem Steered.later (hd : d.inserted = k.inserted) (h : Steered exports k d w w₁ handled)
    (h' : Steered exports k d w₁ w₂ handled') : ∀ uid ∈ handled', uid ∉ handled := by
  intro uid hu' hu
  cases exports with
  | true =>
      obtain ⟨-, m, hm, -⟩ := h'.gone rfl uid hu'
      rw [(h.gone rfl uid hu).1] at hm
      cases hm
  | false =>
      -- it has been marked, so it is not marked again
      obtain ⟨m₁, hm₁, hnot, -⟩ := h'.stays rfl uid hu'
      obtain ⟨m, -, -, hmarked⟩ := h.stays rfl uid hu
      rw [hm₁, Option.map_some, Option.some.injEq] at hmarked
      have hhas := bareMessage_has k m₁ k.inserted_ne_failed k.inserted_ne_unverified
      rw [hmarked, hd, bareMessage_has k _ k.inserted_ne_failed k.inserted_ne_unverified,
        ← hd, hnot] at hhas
      simp [Message.has, Message.withFlags] at hhas

theorem Steered.trans (hd : d.inserted = k.inserted) (htrash : folderName d.trash ≠ "INBOX")
    (h : Steered exports k d w w₁ handled) (h' : Steered exports k d w₁ w₂ handled') :
    Steered exports k d w w₂ (handled ++ handled') := by
  -- what is handled later was there, and as it had been but for the two keywords
  have hlater := h.later hd h'
  refine ⟨?_, ?_, ?_, ?_, ?_⟩
  · have hcopies : handled'.filterMap (w₁.copyOf d) = handled'.filterMap (w.copyOf d) := by
      refine List.filterMap_congr (fun uid hu => ?_)
      rw [copyOf_bare hd, copyOf_bare hd, h.rest uid (hlater uid hu)]
    rw [h'.gmail, h.gmail, hcopies, List.filterMap_append, List.append_assoc]
  · intro hx uid hu
    rcases List.mem_append.mp hu with hu | hu
    · obtain ⟨hgone, m, hm, m₁, hm₁, hfolder, hraw, hinserted⟩ := h.gone hx uid hu
      refine ⟨?_, m, hm, ?_⟩
      · have hrest := h'.rest uid (fun hu' => hlater uid hu' hu)
        rw [hgone] at hrest
        exact Option.map_eq_none_iff.mp hrest
      · obtain ⟨m₂, hm₂, hsame⟩ := h'.elsewhere m₁ hm₁ (by rw [hfolder]; exact htrash)
        refine ⟨m₂, hm₂, (congrArg Message.folder hsame).trans hfolder,
          (congrArg Message.raw hsame).trans hraw, ?_⟩
        rw [hd] at hinserted ⊢
        rw [← bareMessage_has k m₂ k.inserted_ne_failed k.inserted_ne_unverified, hsame,
          bareMessage_has k m₁ k.inserted_ne_failed k.inserted_ne_unverified]
        exact hinserted
    · obtain ⟨hgone, m₁, hm₁, m₂, hm₂, hfolder, hraw, hinserted⟩ := h'.gone hx uid hu
      have hrest := h.rest uid (hlater uid hu)
      rw [hm₁, Option.map_some] at hrest
      obtain ⟨m, hm, hsame⟩ := Option.map_eq_some_iff.mp hrest.symm
      exact ⟨hgone, m, hm, m₂, hm₂, hfolder, hraw.trans (congrArg Message.raw hsame).symm,
        hinserted⟩
  · intro hx uid hu
    -- a message of the first part is not written again but for the two keywords
    rcases List.mem_append.mp hu with hu | hu
    · obtain ⟨m, hm, hnot, hmarked⟩ := h.stays hx uid hu
      exact ⟨m, hm, hnot, (h'.rest uid (fun hu' => hlater uid hu' hu)).trans hmarked⟩
    · obtain ⟨m₁, hm₁, hnot, hmarked⟩ := h'.stays hx uid hu
      have hrest := h.rest uid (hlater uid hu)
      rw [hm₁, Option.map_some] at hrest
      obtain ⟨m, hm, hsame⟩ := Option.map_eq_some_iff.mp hrest.symm
      refine ⟨m, hm, ?_, ?_⟩
      · rw [hd] at hnot ⊢
        rw [← bareMessage_has k m k.inserted_ne_failed k.inserted_ne_unverified, hsame,
          bareMessage_has k m₁ k.inserted_ne_failed k.inserted_ne_unverified]
        exact hnot
      · rw [hmarked, hd, bareMessage_marked, bareMessage_marked, hsame]
  · intro uid hu
    rw [List.mem_append, not_or] at hu
    exact (h'.rest uid hu.2).trans (h.rest uid hu.1)
  · intro m hm hfolder
    obtain ⟨m₁, hm₁, hsame⟩ := h.elsewhere m hm hfolder
    have hfolder₁ : (bareMessage k m₁).folder = (bareMessage k m).folder :=
      congrArg Message.folder hsame
    obtain ⟨m₂, hm₂, hsame₂⟩ := h'.elsewhere m₁ hm₁ (fun he => hfolder (hfolder₁.symm.trans he))
    exact ⟨m₂, hm₂, hsame₂.trans hsame⟩

theorem mem_present_find : uid ∈ w.present ↔ ∃ m, w.find uid = some m := by
  rw [mem_present]
  constructor
  · rintro ⟨m, hm, hat⟩
    cases hf : w.find uid with
    | none => exact absurd (find_none hf hm) (by rw [hat]; simp)
    | some m' => exact ⟨m', rfl⟩
  · rintro ⟨m, hf⟩
    exact ⟨m, find_some hf⟩

/-- What is left has the headers it had. -/
theorem Steered.heads (h : Steered exports k d w w' handled)
    (parse : Option (List UInt8) → ICloudMailbox.Headers) (hu : uid ∈ w'.present) :
    w'.heads parse uid = w.heads parse uid := by
  have hraw : (w'.find uid).map (fun m => m.raw.bytes) =
      (w.find uid).map (fun m => m.raw.bytes) := by
    by_cases hin : uid ∈ handled
    · cases exports with
      | true =>
          obtain ⟨m, hm⟩ := mem_present_find.mp hu
          rw [(h.gone rfl uid hin).1] at hm
          cases hm
      | false =>
          obtain ⟨m, hm, -, hmarked⟩ := h.stays rfl uid hin
          have hraw := congrArg (Option.map (fun m => m.raw.bytes)) hmarked
          rw [Option.map_map] at hraw
          rw [hm]
          exact hraw
    · have hraw := congrArg (Option.map (fun m => m.raw.bytes)) (h.rest uid hin)
      rw [Option.map_map, Option.map_map] at hraw
      exact hraw
  exact congrArg parse hraw

/-! ### The board after a run -/

/-- The queue of the runs is the queue of the board. -/
theorem eligible_board (hw : w.InboxDistinct) (k : Keywords) :
    w.eligible k = (w.board k).queue.sort (· ≤ ·) := by
  have hsorted := hw.live_sorted (fun m => !matchesAny m.flags k.quarantine)
  have hqueue : (w.eligible k).toFinset = (w.board k).queue := by
    ext v
    rw [List.mem_toFinset, eligible, mem_live_find hw, Board.queue, Finset.mem_sdiff]
    constructor
    · rintro ⟨m, hf, hlive, hnot⟩
      obtain ⟨hm, hat⟩ := find_some hf
      have halive : v ∈ w.alive := mem_alive.mpr ⟨m, hm, hat, hlive⟩
      refine ⟨halive, ?_⟩
      rw [← Cli.matchesAny_quarantine hw halive, flagsAt, hf]
      simpa using hnot
    · rintro ⟨halive, hnot⟩
      rw [← Cli.matchesAny_quarantine hw halive] at hnot
      obtain ⟨m, hm, hat, hlive⟩ := mem_alive.mp halive
      rw [flagsAt, hw.find_eq hm hat] at hnot
      exact ⟨m, hw.find_eq hm hat, hlive, by simpa using hnot⟩
  rw [← hqueue]
  exact ((List.toFinset_sort (· ≤ ·) hsorted.nodup).mpr hsorted.sortedLE.pairwise).symm

/-- What has been forwarded is no longer on the board. -/
theorem Forwarded.board (hw : w.InboxDistinct) (h : Forwarded d w w' uids) (k : Keywords) :
    w'.board k = (w.board k).without uids := by
  have hlive : ∀ p, (w'.live p).toFinset = (w.live p).toFinset.filter (fun v => v ∉ uids) := by
    intro p
    ext v
    rw [Finset.mem_filter, List.mem_toFinset, List.mem_toFinset, mem_live_find h.distinct,
      mem_live_find hw, h.find]
    by_cases hv : v ∈ uids
    · simp [hv]
    · simp [hv]
  ext1
  · ext v
    show v ∈ w'.present ↔ v ∈ w.present.filter (fun v => v ∉ uids)
    rw [Finset.mem_filter, mem_present_find, mem_present_find, h.find]
    by_cases hv : v ∈ uids
    · simp [hv]
    · simp [hv]
  all_goals exact hlive _

/-- A live message that has not been marked. -/
theorem fresh_board (hw : w.InboxDistinct) (hlive : uid ∈ w.alive) {m : Message}
    (hf : w.find uid = some m) :
    (w.board k).fresh uid = if m.has k.inserted then [] else [uid] := by
  have hin : uid ∈ w.carrying k.inserted ↔ m.has k.inserted = true := by
    rw [mem_carrying]
    constructor
    · rintro ⟨m', hm', hat, -, hhas⟩
      rwa [← Option.some.inj ((hw.find_eq hm' hat).symm.trans hf)]
    · intro hhas
      obtain ⟨m', hm', hat, hlive⟩ := mem_alive.mp hlive
      have hsame : m' = m := Option.some.inj ((hw.find_eq hm' hat).symm.trans hf)
      exact ⟨m', hm', hat, hlive, hsame ▸ hhas⟩
  exact if_congr hin rfl rfl

/-- A message that is delivered and stays is marked on the board. -/
theorem deliver_board (hw : w.InboxDistinct) (hd : d.inserted = k.inserted) {m : Message}
    (hf : w.find uid = some m) : (w.deliver d uid).board k = (w.board k).marked uid := by
  have hdeleted := k.insertedOk.ne_deleted.symm
  have hother := addFlag_other hdeleted
  rw [deliver, hf]
  dsimp only
  split
  · next hin =>
    -- it has been marked before
    ext1
    any_goals rfl
    ext v
    show v ∈ w.carrying k.inserted ↔
      v ∈ w.alive.filter (fun v => v ∈ w.carrying k.inserted ∨ v = uid)
    rw [Finset.mem_filter]
    refine ⟨fun hv => ⟨carrying_alive _ _ hv, Or.inl hv⟩, ?_⟩
    rintro ⟨halive, hv | rfl⟩
    · exact hv
    · obtain ⟨m', hm', hat, hlive⟩ := mem_alive.mp halive
      have hsame : m' = m := Option.some.inj ((hw.find_eq hm' hat).symm.trans hf)
      rw [← hsame] at hin
      exact mem_carrying.mpr ⟨m', hm', hat, hlive, hd ▸ hin⟩
  · rw [hd]
    ext1
    · exact present_store uid _ w
    · exact alive_store hother uid w
    · exact carrying_add hdeleted uid w
    · exact carrying_store hother (addFlag_other k.inserted_ne_failed.symm) uid w
    · exact carrying_store hother (addFlag_other k.inserted_ne_unverified.symm) uid w

end World

/-! ## Turns -/

namespace Forwarder

variable {P : Provider} {o : ForwarderOptions} {folder : String} {w w' : World}

/-- A command leaves the good path as it is. -/
theorem GoodPath.wrote {k : Keywords} (h : GoodPath P folder w) (hwrote : World.Wrote k w w') :
    GoodPath P folder w' := by
  have hfolders : w'.folders = w.folders := by
    have hbare : (w'.bare k).folders = (w.bare k).folders := congrArg World.folders hwrote.bare
    exact hbare
  refine ⟨hwrote.distinct, h.move, h.gmail, ?_, h.elsewhere, ?_⟩
  · have htrash := h.trash
    unfold Provider.trashOf at htrash ⊢
    rwa [hfolders]
  · intro m' hm' hfolder flag hflag name hname hsame
    have hmem : World.bareMessage k m' ∈ (w.bare k).messages := by
      rw [← hwrote.bare]
      exact List.mem_map_of_mem hm'
    obtain ⟨m, hm, hbare⟩ := List.mem_map.mp hmem
    have hin : m.folder = "INBOX" := (congrArg Message.folder hbare).trans hfolder
    -- a system flag is neither of the two keywords
    have hslashes : ∀ name ∈ ["\\Seen", "\\Flagged"], '\\' ∈ (lower name).toList := by decide
    have hslash := hslashes name hname
    have hkept : flag ∈ (World.bareMessage k m').flags := by
      refine List.mem_filter.mpr ⟨List.mem_filter.mpr ⟨hflag, ?_⟩, ?_⟩
      · rw [hsame]
        exact decide_eq_true (k.unverifiedOk.lower_ne hslash).symm
      · rw [hsame]
        exact decide_eq_true (k.failedOk.lower_ne hslash).symm
    rw [← hbare] at hkept
    exact h.canonical m hm hin flag (List.mem_of_mem_filter (List.mem_of_mem_filter hkept)) name
      hname hsame

variable (P) (o) (parse : Option (List UInt8) → ICloudMailbox.Headers)

/-- One action. -/
def act (w : World) : Action → Returned × World
  | .command now c =>
      let x := Cli.perform P o.keywords now parse w c
      (.performed x.1, x.2)
  | .run budget clock =>
      let x := runOn P o budget clock w
      (.ran x.1, x.2)

/-- Actions that follow each other. -/
def day (w : World) : List Action → List Returned × World
  | [] => ([], w)
  | t :: rest =>
      let (response, w₁) := act P o parse w t
      let (responses, w₂) := day w₁ rest
      (response :: responses, w₂)

variable {P} {o}

theorem act_command (w : World) (now : ℚ) (c : Subcommand) :
    act P o parse w (.command now c) =
      (.performed (Cli.perform P o.keywords now parse w c).1,
        (Cli.perform P o.keywords now parse w c).2) := rfl

theorem day_cons (w : World) (t : Action) (rest : List Action) :
    day P o parse w (t :: rest) =
      ((act P o parse w t).1 :: (day P o parse (act P o parse w t).2 rest).1,
        (day P o parse (act P o parse w t).2 rest).2) := rfl

/-- One run over the board. -/
theorem run_steered (h : GoodPath P folder w) (budget : ℚ) (clock : ℕ → ℚ) : ∃ result uids w',
    runOn P o budget clock w = (.ok result, w') ∧
      Board.Ran P.exportsTrash (w.board o.keywords) budget clock result uids (w'.board o.keywords) ∧
      World.Steered P.exportsTrash o.keywords (deliveryOf P o folder) w w' uids ∧
      GoodPath P folder w' := by
  have hqueue := World.eligible_board h.distinct o.keywords
  have hcard : ∀ {w : World}, w.InboxDistinct →
      (w.eligible o.keywords).length = (w.board o.keywords).queue.card := by
    intro w hw
    rw [World.eligible_board hw, Finset.length_sort]
  rcases Bool.eq_false_or_eq_true P.exportsTrash with hx | hx
  · obtain ⟨result, n, hrun, herror, -, hleft, hall⟩ := runOn_takes (o := o) h hx budget clock
    have hsorted := h.distinct.live_sorted (fun m => !matchesAny m.flags o.keywords.quarantine)
    have hnodup : ((w.eligible o.keywords).take n).Nodup :=
      hsorted.nodup.sublist (List.take_sublist n _)
    have hforwarded := World.forwarded_foldl (d := deliveryOf P o folder) h.elsewhere h.distinct
      hnodup
    have hgood := h.foldl (d := deliveryOf P o folder) rfl hnodup
    -- what the run lists is the queue of the board
    have hnext : (w.eligible o.keywords).take n = (w.board o.keywords).next n := by
      rw [hqueue, Board.next]
    have hboard := hforwarded.board h.distinct o.keywords
    rw [hx]
    refine ⟨result, _, _, hrun, ?_, hforwarded.steered (fun uid hu => ?_), hgood⟩
    · rw [hboard, hnext]
      refine .takes n (Or.inl rfl) herror ?_ hall
      rw [← hnext, ← hboard, ← hcard hgood.distinct, hleft, ← List.length_drop]
      exact congrArg List.length (hforwarded.eligible h.distinct).symm
    · obtain ⟨m, hm, -⟩ := h.due uid (List.mem_of_mem_take hu)
      exact ⟨m, hm⟩
  · by_cases hgo : Proceeds P o budget clock w
    · -- no message is begun
      obtain ⟨result, hrun, herror, hleft⟩ := runOn_good (o := o) h hgo
      have hproceeds := hgo.resolve_left (by simp [hx])
      have hnone : begins o budget clock w = 0 :=
        begun_eq_zero.mpr (hproceeds.imp_left List.length_eq_zero_iff.mpr)
      rw [hnone] at hrun hleft
      have hstill : Board.Ran P.exportsTrash (w.board o.keywords) budget clock result
          ((w.board o.keywords).next 0)
          ((w.board o.keywords).without ((w.board o.keywords).next 0)) := by
        refine .takes 0 (Or.inr rfl) herror ?_ (fun hclock => ?_)
        · rw [Board.without_next_zero, hleft, Nat.sub_zero]
          exact hcard h.distinct
        · rcases hproceeds with hempty | hbeyond
          · rw [hleft, hempty]
            rfl
          · exact absurd hbeyond (Rat.not_lt.mpr (hclock 0 1))
      rw [Board.without_next_zero] at hstill
      exact ⟨result, _, w, hrun, hstill, (World.Wrote.refl h.distinct).steered _, h⟩
    · -- the first message of the queue is delivered and stays
      obtain ⟨uid, huid, result, hrun, hhead, herror, hleft, -⟩ := runOn_aborts (o := o) h hgo
      obtain ⟨m, hf, -⟩ := h.due uid huid
      refine ⟨result, (w.board o.keywords).fresh uid, _, hrun, ?_, ?_,
        h.deliver (d := deliveryOf P o folder) rfl uid⟩
      · rw [World.deliver_board h.distinct rfl hf]
        refine .stays hx ?_ ?_ herror ?_
        · rw [← hqueue]
          exact hhead
        · unfold Proceeds at hgo
          rw [not_or, not_or, Rat.not_lt] at hgo
          exact hgo.2.2
        · rw [hleft, hcard h.distinct]
      · have hin : uid ∈ (w.board o.keywords).queue :=
          Board.mem_queue_of_head ((congrArg List.head? hqueue).symm.trans hhead)
        rw [World.fresh_board h.distinct (Finset.mem_sdiff.mp hin).1 hf, hx]
        exact World.deliver_steered (d := deliveryOf P o folder) hf

/-- **The account follows a course.** -/
theorem day_steered (actions : List Action) (h : GoodPath P folder w) : ∃ handled,
    Board.Course P.exportsTrash o.keywords (w.heads parse) (w.board o.keywords) actions
      (day P o parse w actions).1 handled ((day P o parse w actions).2.board o.keywords) ∧
    World.Steered P.exportsTrash o.keywords (deliveryOf P o folder) w (day P o parse w actions).2
      handled := by
  have hinserted : (deliveryOf P o folder).inserted = o.keywords.inserted := rfl
  induction actions generalizing w with
  | nil => exact ⟨[], .done _, (World.Wrote.refl h.distinct).steered _⟩
  | cons t rest ih =>
      rw [day_cons]
      cases t with
      | command now c =>
          rw [act_command]
          -- all that is used of the command is what it does to the board
          have hperform := Cli.perform_refines (P := P) (k := o.keywords) now parse h.distinct c
          generalize Cli.perform P o.keywords now parse w c = x at hperform ⊢
          obtain ⟨hp, hboard, hwrote⟩ := hperform
          obtain ⟨handled, hcourse, hsteered⟩ := ih (h.wrote hwrote)
          rw [hboard, hwrote.heads] at hcourse
          have hsteered' := (hwrote.steered _).trans hinserted h.elsewhere hsteered
          exact ⟨handled, .command now hp hcourse, hsteered'⟩
      | run budget clock =>
          obtain ⟨result, uids, w₁, hrun, hran, hsteered₁, hgood₁⟩ :=
            run_steered (o := o) h budget clock
          rw [act, hrun]
          obtain ⟨handled, hcourse, hsteered⟩ := ih hgood₁
          have hcourse := hcourse.congr (fun uid hu => hsteered₁.heads parse hu)
          have hsteered' := hsteered₁.trans hinserted h.elsewhere hsteered
          exact ⟨_, .run hran hcourse, hsteered'⟩

/-! ## Main results -/

/-- **Commands between the runs.** In whatever order commands and runs alternate, the account
    follows a course over its board: every command prints and returns what it does over the board it
    finds, every run takes the first messages of its queue, or marks the first of them where the
    Trash cannot be looked up. No message is handled twice, each has its copy in Gmail unless it had
    been marked as inserted, and is in the Trash or still there; of the others nothing but the two
    keywords has changed. -/
theorem course_followed {P : Provider} {folder : String} {w : World} (h : GoodPath P folder w)
    (o : ForwarderOptions) (actions : List Action) : ∃ handled,
    Board.Course P.exportsTrash o.keywords (w.heads parse) (w.board o.keywords) actions
      (day P o parse w actions).1 handled ((day P o parse w actions).2.board o.keywords) ∧
    handled.Nodup ∧
    World.Steered P.exportsTrash o.keywords (deliveryOf P o folder) w (day P o parse w actions).2
      handled := by
  obtain ⟨handled, hcourse, hsteered⟩ := day_steered (o := o) parse actions h
  exact ⟨handled, hcourse, hcourse.nodup, hsteered⟩

/-- A mail is set aside, a run passes, and it is put back for the next one. -/
theorem course_followed_mixed : ∃ handled : List ℕ, handled.Nodup ∧
    (day {} .default (fun _ => ⟨"", "", ""⟩) mixedInbox
      [.command 0 (.markFailed [2]), .run 480 (fun _ => 0),
        .command 0 (.retry ⟨.uids [2], false, false⟩), .run 480 (fun _ => 0)]).2.gmail =
      handled.filterMap (mixedInbox.copyOf (deliveryOf {} .default "Deleted Messages")) := by
  obtain ⟨handled, -, hnodup, hsteered⟩ := course_followed (fun _ => ⟨"", "", ""⟩)
    (mixedInbox_good false) .default [.command 0 (.markFailed [2]), .run 480 (fun _ => 0),
      .command 0 (.retry ⟨.uids [2], false, false⟩), .run 480 (fun _ => 0)]
  exact ⟨handled, hnodup, hsteered.gmail⟩

/-- **Set aside until put back.** A message under one of the two keywords is not forwarded by any
    run before a command has put it back from there, whatever else the commands do. -/
theorem held_back {P : Provider} {folder : String} {w : World} (h : GoodPath P folder w)
    (o : ForwarderOptions) (actions : List Action) {uid : ℕ} {unverified : Bool}
    (hin : uid ∈ (w.board o.keywords).carrying unverified)
    (hkept : ∀ now c, Action.command now c ∈ actions → ¬c.Releases uid unverified) : ∃ handled,
    uid ∉ handled ∧
    World.Steered P.exportsTrash o.keywords (deliveryOf P o folder) w (day P o parse w actions).2
      handled ∧
    uid ∈ ((day P o parse w actions).2.board o.keywords).carrying unverified := by
  obtain ⟨handled, hcourse, hsteered⟩ := day_steered (o := o) parse actions h
  obtain ⟨hnot, hstill⟩ := hcourse.held hin hkept
  exact ⟨handled, hnot, hsteered, hstill⟩

theorem held_back_mixed : ∃ handled : List ℕ, 5 ∉ handled ∧
    (day {} .default (fun _ => ⟨"", "", ""⟩) mixedInbox
      [.run 480 (fun _ => 0), .command 0 (.retry ⟨.uids [2], false, false⟩),
        .command 0 (.retry ⟨.all, true, true⟩), .run 480 (fun _ => 0)]).2.gmail =
      handled.filterMap (mixedInbox.copyOf (deliveryOf {} .default "Deleted Messages")) := by
  have hkept : ∀ now c, Action.command now c ∈ ([.run 480 (fun _ => 0),
      .command 0 (.retry ⟨.uids [2], false, false⟩), .command 0 (.retry ⟨.all, true, true⟩),
      .run 480 (fun _ => 0)] : List Action) → ¬c.Releases 5 false := by
    intro now c hc
    simp only [List.mem_cons, reduceCtorEq, Action.command.injEq, List.not_mem_nil, false_or,
      or_false] at hc
    rcases hc with ⟨-, rfl⟩ | ⟨-, rfl⟩
    · simp [Subcommand.Releases]
    · simp [Subcommand.Releases]
  obtain ⟨handled, hnot, hsteered, -⟩ := held_back (fun _ => ⟨"", "", ""⟩) (mixedInbox_good false)
    .default [.run 480 (fun _ => 0), .command 0 (.retry ⟨.uids [2], false, false⟩),
      .command 0 (.retry ⟨.all, true, true⟩), .run 480 (fun _ => 0)]
    (show 5 ∈ (mixedInbox.board ForwarderOptions.default.keywords).carrying false by decide +kernel)
    hkept
  exact ⟨handled, hnot, hsteered.gmail⟩

/-- **What is stranded.** Whatever commands and runs have gone before, let both keywords be cleared
    of all messages and a run follow that is not cut short. If the Trash can be looked up, every
    message that was there at the outset, and was not `\Deleted`, has been forwarded, each of them
    once. If not, all of them are still there, and those that have been forwarded are marked. -/
theorem nothing_stranded {P : Provider} {folder : String} {w : World} (h : GoodPath P folder w)
    (o : ForwarderOptions) (actions : List Action) (first second : ℚ) (yes : Bool) (budget : ℚ)
    (clock : ℕ → ℚ) (hclock : ∀ i j, clock j - clock i ≤ budget) :
    let w' := (day P o parse w (actions ++ Board.closing first second yes budget clock)).2
    ∃ handled, handled.Nodup ∧
      World.Steered P.exportsTrash o.keywords (deliveryOf P o folder) w w' handled ∧
      (P.exportsTrash = true → (∀ uid, uid ∈ handled ↔ uid ∈ w.alive) ∧ w'.alive = ∅) ∧
      (P.exportsTrash = false → w'.present = w.present ∧ w'.alive = w.alive ∧
        ∀ uid, uid ∈ w'.carrying o.keywords.inserted ↔
          uid ∈ w.carrying o.keywords.inserted ∨ uid ∈ handled) := by
  obtain ⟨handled, hcourse, hsteered⟩ := day_steered (o := o) parse
    (actions ++ Board.closing first second yes budget clock) h
  refine ⟨handled, hcourse.nodup, hsteered, fun hx => ?_, fun hx => ?_⟩
  · rw [hx] at hcourse
    obtain ⟨-, hhandled, hlive⟩ := hcourse.taken_once
    have hnone := hcourse.closed hclock
    refine ⟨fun uid => ⟨hhandled uid, fun halive => ?_⟩, hnone⟩
    -- a live message that has not been taken would be live still
    by_contra hnot
    have hleft : uid ∈ (w.board o.keywords).live.filter (fun v => v ∉ handled) :=
      Finset.mem_filter.mpr ⟨halive, hnot⟩
    rw [← hlive, hnone] at hleft
    exact Finset.notMem_empty uid hleft
  · rw [hx] at hcourse
    obtain ⟨-, -, hpresent, hlive, hinserted⟩ := hcourse.marked_once
    exact ⟨hpresent, hlive, hinserted⟩

/-- The mails of `mixedInbox`, with a package that exports the name and with one that does not. -/
theorem nothing_stranded_mixed :
    (∃ handled : List ℕ, handled.Nodup ∧ (∀ uid, uid ∈ handled ↔ uid = 5 ∨ uid = 2) ∧
      (day { exportsTrash := true } .default (fun _ => ⟨"", "", ""⟩) mixedInbox
        ([.run 480 (fun _ => 0), .command 0 (.markFailed [5])] ++
          Board.closing 0 0 false 480 (fun _ => 0))).2.alive = ∅) ∧
    (day {} .default (fun _ => ⟨"", "", ""⟩) mixedInbox
      ([.run 480 (fun _ => 0), .command 0 (.markFailed [5])] ++
        Board.closing 0 0 false 480 (fun _ => 0))).2.alive = {5, 2} := by
  have halive : mixedInbox.alive = {5, 2} := by decide +kernel
  constructor
  · obtain ⟨handled, hnodup, -, hgone, -⟩ := nothing_stranded (fun _ => ⟨"", "", ""⟩)
      (mixedInbox_good true) .default [.run 480 (fun _ => 0), .command 0 (.markFailed [5])] 0 0
      false 480 (fun _ => 0) (fun _ _ => by decide +kernel)
    obtain ⟨hhandled, hnone⟩ := hgone rfl
    refine ⟨handled, hnodup, fun uid => ?_, hnone⟩
    rw [hhandled, halive, Finset.mem_insert, Finset.mem_singleton]
  · obtain ⟨handled, -, -, -, hstays⟩ := nothing_stranded (fun _ => ⟨"", "", ""⟩)
      (mixedInbox_good false) .default [.run 480 (fun _ => 0), .command 0 (.markFailed [5])] 0 0
      false 480 (fun _ => 0) (fun _ _ => by decide +kernel)
    rw [(hstays rfl).2.1, halive]

end Forwarder

end MailTransporter
