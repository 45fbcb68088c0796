import MailTransporter.NoResend

set_option autoImplicit false

/-! # What a duplicate costs

Gmail has a mail twice only if a run ended badly between an accepted insert and the first confirmed
marker, or if a command cleared a quarantine keyword of the mail. `Log.lapses` counts the first, and
each copy after the first one is paid for by one of these (`copies_bounded`). The bound is reached:
the connection is lost after the insert, and the next run inserts again. -/

namespace MailTransporter

open Effect

namespace Log

instance decidableUnrecorded (raw : RawMail) : (l : Log) → Decidable (Unrecorded raw l)
  | [] => isFalse id
  | .ended _ :: _ => isFalse id
  | .answered r v :: l =>
      have := decidableUnrecorded raw l
      inferInstanceAs (Decidable ((r = raw ∧ v = .accepted) ∨ Unrecorded raw l))
  | .marked r :: l =>
      have := decidableUnrecorded raw l
      inferInstanceAs (Decidable (r ≠ raw ∧ Unrecorded raw l))
  | .fetched _ :: l => decidableUnrecorded raw l
  | .cleared _ :: l => decidableUnrecorded raw l
  | .entered _ _ :: l => decidableUnrecorded raw l

/-- The runs that ended badly after Gmail had accepted the mail, before a marker of it was
    confirmed. -/
def lapses (raw : RawMail) : Log → ℕ
  | [] => 0
  | .ended e :: l => lapses raw l + if e ≠ .clean ∧ Unrecorded raw l then 1 else 0
  | _ :: l => lapses raw l

variable {raw : RawMail} {l : Log}

theorem lapses_cons {n : Note} (hn : n.isEnd = false) : lapses raw (n :: l) = lapses raw l := by
  cases n with
  | ended e => cases hn
  | _ => rfl

theorem not_stirred (h : ∀ again, Note.entered raw again ∉ l) : ¬Stirred raw l := by
  induction l with
  | nil => exact id
  | cons n rest ih =>
      have hrest := ih (fun again hn => h again (List.mem_cons_of_mem _ hn))
      cases n with
      | fetched r => exact fun hstirred => hrest hstirred.2
      | answered r v => exact hrest
      | marked r => exact hrest
      | cleared r => exact hrest
      | ended e => exact id
      | entered r again =>
          rintro (rfl | hstirred)
          · exact h again List.mem_cons_self
          · exact hrest hstirred

/-- Each accepted insert but one is paid for by a lapse or a cleared keyword, and so is the last one
    where the mail does not count as sent. -/
theorem accepted_paid (hkept : Kept l) (h : ∀ again, Note.entered raw again ∉ l) :
    l.count (.answered raw .accepted) ≤ lapses raw l + l.count (.cleared raw) + 1 ∧
      (¬Sent raw l →
        l.count (.answered raw .accepted) ≤ lapses raw l + l.count (.cleared raw)) := by
  induction l with
  | nil => simp
  | cons n rest ih =>
      have hentered : ∀ again, Note.entered raw again ∉ rest :=
        fun again hn => h again (List.mem_cons_of_mem _ hn)
      have hrest : Kept rest := Kept.suffix (show Kept ([n] ++ rest) from hkept)
      obtain ⟨hpaid, hunsent⟩ := ih hrest hentered
      cases n with
      | answered r v =>
          by_cases haccepted : r = raw ∧ v = .accepted
          · -- it was not sent before, so this one is the one that is not paid for yet
            obtain ⟨rfl, rfl⟩ := haccepted
            have hnotSent : ¬Sent r rest := (hkept.2 (hentered true)).2
            have hfree := hunsent hnotSent
            have hsent : Sent r (.answered r .accepted :: rest) :=
              Or.inl ⟨rfl, rfl, not_stirred hentered⟩
            rw [List.count_cons_self, List.count_cons_of_ne (by simp), lapses_cons rfl]
            exact ⟨by omega, fun hnot => absurd hsent hnot⟩
          · have hne : Note.answered r v ≠ .answered raw .accepted := by simpa using haccepted
            rw [List.count_cons_of_ne hne, List.count_cons_of_ne (by simp), lapses_cons rfl]
            exact ⟨hpaid, fun hnot => hunsent (fun hsent => hnot (Or.inr hsent))⟩
      | fetched r =>
          rw [List.count_cons_of_ne (by simp), List.count_cons_of_ne (by simp), lapses_cons rfl]
          exact ⟨hpaid, hunsent⟩
      | marked r =>
          rw [List.count_cons_of_ne (by simp), List.count_cons_of_ne (by simp), lapses_cons rfl]
          exact ⟨hpaid, hunsent⟩
      | cleared r =>
          rw [List.count_cons_of_ne (by simp), lapses_cons rfl]
          by_cases hr : r = raw
          · subst hr
            rw [List.count_cons_self]
            exact ⟨by omega, fun _ => by omega⟩
          · rw [List.count_cons_of_ne (by simpa using hr)]
            exact ⟨hpaid, fun hnot => hunsent (fun hsent => hnot ⟨hr, hsent⟩)⟩
      | entered r again =>
          have hr : r ≠ raw := by
            rintro rfl
            exact h again List.mem_cons_self
          rw [List.count_cons_of_ne (by simp), List.count_cons_of_ne (by simp), lapses_cons rfl]
          exact ⟨hpaid, fun hnot => hunsent (fun hsent => hnot ⟨hr, hsent⟩)⟩
      | ended e =>
          rw [List.count_cons_of_ne (by simp), List.count_cons_of_ne (by simp), lapses]
          by_cases hlapse : e ≠ .clean ∧ Unrecorded raw rest
          · rw [if_pos hlapse]
            exact ⟨by omega, fun _ => by omega⟩
          · rw [if_neg hlapse]
            exact ⟨by omega, fun hnot => hunsent (fun hsent => hnot ⟨hsent, hlapse⟩)⟩

end Log

namespace Diary

variable {k : Keywords} {w₀ : World}

/-! ## A connection that is lost -/

/-- The connection to the mail server is lost once Gmail has the mail. -/
def lost (d : Diary) (op : Op) : Bool := op.isImap && decide (d.world.gmail ≠ [])

/-- The answers then, noted in the diary. -/
def cut (k : Keywords) (d : Diary) (op : Op) : Reply op × Diary :=
  if lost d op then
    let r : Reply op := .error (.other "IMAPClientAbortError" "socket error: EOF")
    (r, { d with
      confirmed := marksOf k op r d.world ++
        d.confirmed.filter (fun c => !decide (c ∈ clearedBy k op d.world d.world))
      log := notesOf k op r d.world d.world ++ d.log })
  else note {} k d op

theorem cut_keeps (k : Keywords) (d : Diary) (op : Op) :
    Keeps k d op (cut k d op).1 (cut k d op).2 := by
  unfold cut
  split
  · next hlost =>
    rw [lost, Bool.and_eq_true] at hlost
    refine ⟨⟨?_, Or.inl rfl⟩, ?_, rfl, rfl⟩
    · cases op
      all_goals first | rfl | simp [Op.isImap] at hlost
    · cases op
      all_goals first | exact fun _ => rfl | trivial
  · exact note_keeps {} k d op

/-- The diary after a run against these answers. -/
def after (answers : Diary → (op : Op) → Reply op × Diary) (d : Diary) : Diary :=
  (runSession .default).leave (some ((runSession .default).program.exec answers d).1)
    ((runSession .default).program.exec answers d).2

theorem after_reachable {answers : Diary → (op : Op) → Reply op × Diary} {d : Diary}
    (hkeeps : ∀ d op, Keeps Keywords.default d op (answers d op).1 (answers d op).2)
    (hd : Reachable Keywords.default w₀ d) : Reachable Keywords.default w₀ (after answers d) :=
  hd.tail (Or.inr ⟨runSession .default, .run .default rfl rfl rfl,
    Session.Runs.exec answers hkeeps d⟩)

/-- A run that loses the connection after the insert, and one that does not. -/
def twice : Diary := after (note {} .default) (after (cut .default) (opened oneMail))

theorem twice_reachable : Reachable Keywords.default oneMail twice :=
  after_reachable (note_keeps {} .default) (after_reachable (cut_keeps .default) .refl)

/-! ## The theorem -/

/-- **Duplicates are paid for.** In every sequential history of runs and commands, each of them
    killed anywhere, with other clients at work in between: unless another client puts a mail into
    the INBOX, Gmail gets at most one copy of it more than there are runs that ended badly between
    an accepted insert and a confirmed marker, and quarantine keywords that commands have cleared
    of it. -/
theorem copies_bounded (hw : WellFormed w₀) (hdistinct : Distinct w₀) {d : Diary}
    (hd : Reachable k w₀ d) (raw : RawMail) (hentered : ∀ again, Note.entered raw again ∉ d.log) :
    copies d.world raw ≤
      copies w₀ raw + Log.lapses raw d.log + d.log.count (.cleared raw) + 1 := by
  obtain ⟨⟨hs, hcount⟩, -⟩ := between_of_reachable hw hdistinct hd
  obtain ⟨hpaid, -⟩ := Log.accepted_paid hs.kept hentered
  have hcopies := hcount raw
  omega

/-- The bound is reached. -/
theorem copies_bounded_twice : copies twice.world ⟨0, [72, 105]⟩ = 2 ∧
    copies oneMail ⟨0, [72, 105]⟩ + Log.lapses ⟨0, [72, 105]⟩ twice.log +
      twice.log.count (.cleared ⟨0, [72, 105]⟩) + 1 = 2 := by
  have hbound := copies_bounded oneMail_wellFormed oneMail_distinct twice_reachable ⟨0, [72, 105]⟩
    (by decide +kernel)
  have hcopies : copies twice.world ⟨0, [72, 105]⟩ = 2 := by decide +kernel
  refine ⟨hcopies, le_antisymm ?_ (hcopies ▸ hbound)⟩
  decide +kernel

end Diary

end MailTransporter
