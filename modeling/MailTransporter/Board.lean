import MailTransporter.GoodPath
import MailTransporter.CliRules
import Mathlib.Data.Finset.Sort

set_option autoImplicit false

/-! # The maintenance commands as operations on sets

What an operator has before him is a `Board`: which messages are in the INBOX, which of them Gmail
has, and which are set aside under either keyword. The commands are set operations on it. Over a
conforming provider `World.board` is what an account shows of itself, and every script of commands
does to the account what it does to the board, with the same lines printed and the same exit codes
(`script_refines`); nothing but the two keywords is written. -/

namespace MailTransporter

open Effect
open Effect.Routine (attempt getSelf modifySelf settle)

/-! ## The board -/

/-- The messages of an INBOX by UID: `live` are those that are not `\Deleted`. -/
@[ext]
structure Board where
  present : Finset ℕ
  live : Finset ℕ
  inserted : Finset ℕ
  failed : Finset ℕ
  unverified : Finset ℕ
  live_present : live ⊆ present
  inserted_live : inserted ⊆ live
  failed_live : failed ⊆ live
  unverified_live : unverified ⊆ live

/-- The maintenance commands with their arguments. -/
inductive Subcommand where
  | listQuarantined (json : Bool)
  | retry (args : RetryArgs)
  | markFailed (uids : List ℕ)

namespace Board

/-- The messages the next run is going to forward. -/
def queue (d : Board) : Finset ℕ := d.live \ (d.failed ∪ d.unverified)

/-- Set a message aside as failed. -/
def setAside (d : Board) (uid : ℕ) : Board :=
  { d with
    failed := d.live.filter (fun v => v ∈ d.failed ∨ v = uid)
    failed_live := Finset.filter_subset _ _ }

/-- Put messages back from one of the two keywords. -/
def putBack (d : Board) (unverified : Bool) (uids : List ℕ) : Board :=
  if unverified then
    { d with
      unverified := d.unverified.filter (fun v => v ∉ uids)
      unverified_live := (Finset.filter_subset _ _).trans d.unverified_live }
  else
    { d with
      failed := d.failed.filter (fun v => v ∉ uids)
      failed_live := (Finset.filter_subset _ _).trans d.failed_live }

/-- The messages under one of the two keywords. -/
def carrying (d : Board) (unverified : Bool) : Finset ℕ :=
  if unverified then d.unverified else d.failed

/-- The messages `retry` goes through. -/
def target (d : Board) (args : RetryArgs) : List ℕ :=
  match args.target with
  | .all => (d.carrying args.unverified).sort (· ≤ ·)
  | .uids uids => uids

/-- `mark-failed` refuses what Gmail has, and stops at a message that is not there. -/
def mark (d : Board) : List ℕ → Board
  | [] => d
  | uid :: rest =>
      if uid ∈ d.inserted then d.mark rest
      else if uid ∈ d.present then (d.setAside uid).mark rest
      else d

/-- The board after a command. -/
def after (d : Board) : Subcommand → Board
  | .listQuarantined _ => d
  | .retry args =>
      if args.unverified && !args.yes then d else d.putBack args.unverified (d.target args)
  | .markFailed uids => d.mark uids

/-- The exit code of a command. -/
def code (d : Board) : Subcommand → ℕ
  | .listQuarantined _ => 0
  | .retry args => if args.unverified && !args.yes then 2 else 0
  | .markFailed uids => if ∃ uid ∈ uids, uid ∈ d.inserted ∨ uid ∉ d.present then 1 else 0

@[simp] theorem putBack_nil (d : Board) (unverified : Bool) : d.putBack unverified [] = d := by
  cases unverified
  all_goals
    ext1
    all_goals simp [putBack]

theorem putBack_cons (d : Board) (unverified : Bool) (uid : ℕ) (rest : List ℕ) :
    d.putBack unverified (uid :: rest) = (d.putBack unverified [uid]).putBack unverified rest := by
  cases unverified
  all_goals
    ext1
    all_goals simp [putBack, Finset.filter_filter]

/-- A message that does not carry the keyword is left alone. -/
theorem putBack_of_not_mem {d : Board} {unverified : Bool} {uid : ℕ}
    (h : uid ∉ d.carrying unverified) : d.putBack unverified [uid] = d := by
  unfold carrying at h
  cases unverified
  all_goals
    ext1
    all_goals try rfl
    simp only [putBack, List.mem_singleton]
    refine Finset.filter_true_of_mem ?_
    rintro v hv rfl
    exact h hv

theorem carrying_putBack (d : Board) (unverified : Bool) (uids : List ℕ) :
    (d.putBack unverified uids).carrying unverified =
      (d.carrying unverified).filter (fun v => v ∉ uids) := by
  cases unverified
  · rfl
  · rfl

/-- The line of `main` about a message that is not there. -/
def absentLine (k : Keywords) (uid : ℕ) : Line :=
  let failed := k.failed
  .error s!"IMAP server did not confirm keyword {failed} on uid={uid}"

/-- The lines of `mark-failed`. -/
def markLines (k : Keywords) (d : Board) : List ℕ → List Line
  | [] => []
  | uid :: rest =>
      if uid ∈ d.inserted then .alreadyInserted uid k.inserted :: d.markLines k rest
      else if uid ∈ d.present then .marked uid k.failed :: d.markLines k rest
      else [absentLine k uid]

/-- The line of `retry` about a message. -/
def retryLine (keyword : String) (carrying : Finset ℕ) (uid : ℕ) : Line :=
  if uid ∈ carrying then .cleared uid keyword else .doesNotCarry uid keyword

/-- The entries of `list-quarantined`, in the order of the UIDs: the failed keyword goes first, and
    what is under the other one is in Gmail. `heads` are the headers of the messages. -/
def listing (k : Keywords) (heads : ℕ → ICloudMailbox.Headers) (d : Board) : List Entry :=
  ((d.failed ∪ d.unverified).sort (· ≤ ·)).map (fun uid =>
    if uid ∈ d.failed then ⟨uid, k.failed, decide (uid ∈ d.inserted), some (heads uid)⟩
    else ⟨uid, k.unverified, true, some (heads uid)⟩)

/-- The lines of a command. -/
def lines (k : Keywords) (heads : ℕ → ICloudMailbox.Headers) (d : Board) : Subcommand → List Line
  | .listQuarantined json =>
      let entries := d.listing k heads
      (if json then [Cli.dumps entries] else Cli.report entries).map .listing
  | .retry args =>
      let keyword := Cli.retryKeyword k args
      if args.unverified && !args.yes then [.confirmFirst]
      else if d.target args = [] then [.noneCarries keyword]
      else (d.target args).map (retryLine keyword (d.carrying args.unverified))
  | .markFailed uids => d.markLines k uids

@[simp] theorem markLines_setAside (k : Keywords) (d : Board) (uid : ℕ) (uids : List ℕ) :
    (d.setAside uid).markLines k uids = d.markLines k uids := by
  induction uids with
  | nil => rfl
  | cons v rest ih =>
      simp only [markLines, ih]
      rfl

end Board

/-! ## What an account shows -/

namespace World

/-- The messages that carry a flag. -/
def carrying (w : World) (flag : String) : Finset ℕ := (w.live (fun m => m.has flag)).toFinset

/-- The messages that are not `\Deleted`. -/
def alive (w : World) : Finset ℕ := (w.live (fun _ => true)).toFinset

/-- The UIDs of the INBOX. -/
def present (w : World) : Finset ℕ :=
  ((w.messages.filter (fun m => decide (m.folder = "INBOX"))).map Message.uid).toFinset

variable {w : World} {k : Keywords} {v uid : ℕ} {flag : String}

theorem mem_carrying : v ∈ w.carrying flag ↔
    ∃ m ∈ w.messages, m.isAt v = true ∧ m.has deletedFlag = false ∧ m.has flag = true := by
  rw [carrying, List.mem_toFinset, mem_live]

theorem mem_alive : v ∈ w.alive ↔
    ∃ m ∈ w.messages, m.isAt v = true ∧ m.has deletedFlag = false := by
  rw [alive, List.mem_toFinset, mem_live]
  simp only [and_true]

theorem mem_present : v ∈ w.present ↔ ∃ m ∈ w.messages, m.isAt v = true := by
  simp only [present, List.mem_toFinset, List.mem_map, List.mem_filter, decide_eq_true_eq,
    Message.isAt_iff]
  constructor
  · rintro ⟨m, ⟨hm, hfolder⟩, huid⟩
    exact ⟨m, hm, hfolder, huid⟩
  · rintro ⟨m, hm, hfolder, huid⟩
    exact ⟨m, ⟨hm, hfolder⟩, huid⟩

theorem carrying_alive (w : World) (flag : String) : w.carrying flag ⊆ w.alive := by
  intro v hv
  obtain ⟨m, hm, hat, hlive, -⟩ := mem_carrying.mp hv
  exact mem_alive.mpr ⟨m, hm, hat, hlive⟩

theorem alive_present (w : World) : w.alive ⊆ w.present := by
  intro v hv
  obtain ⟨m, hm, hat, -⟩ := mem_alive.mp hv
  exact mem_present.mpr ⟨m, hm, hat⟩

/-- What an operator sees of the account. -/
def board (k : Keywords) (w : World) : Board where
  present := w.present
  live := w.alive
  inserted := w.carrying k.inserted
  failed := w.carrying k.failed
  unverified := w.carrying k.unverified
  live_present := alive_present w
  inserted_live := carrying_alive w k.inserted
  failed_live := carrying_alive w k.failed
  unverified_live := carrying_alive w k.unverified

/-! ### After a `STORE` -/

theorem present_store (uid : ℕ) (f : List String → List String) (w : World) :
    (w.store uid f).present = w.present := by
  ext v
  rw [mem_present, mem_present]
  show (∃ m ∈ w.messages.map (stored uid f), _) ↔ _
  simp only [List.mem_map, exists_exists_and_eq_and, stored_isAt]

/-- A flag that the `STORE` does not write. -/
theorem stored_has {f : List String → List String}
    (h : ∀ flags, hasFlag (f flags) flag = hasFlag flags flag) (uid : ℕ) (m : Message) :
    (stored uid f m).has flag = m.has flag := by
  unfold stored
  split
  · exact h m.flags
  · rfl

section store

variable {f : List String → List String}
  (hdeleted : ∀ flags, hasFlag (f flags) deletedFlag = hasFlag flags deletedFlag)

include hdeleted

theorem alive_store (uid : ℕ) (w : World) : (w.store uid f).alive = w.alive := by
  ext v
  rw [alive, List.mem_toFinset, mem_live_store, mem_alive]
  simp only [stored_has hdeleted, and_true]

theorem carrying_store (h : ∀ flags, hasFlag (f flags) flag = hasFlag flags flag) (uid : ℕ)
    (w : World) : (w.store uid f).carrying flag = w.carrying flag := by
  ext v
  rw [carrying, List.mem_toFinset, mem_live_store, mem_carrying]
  simp only [stored_has hdeleted, stored_has h]

end store

theorem addFlag_other {flag other : String} (h : lower other ≠ lower flag) (flags : List String) :
    hasFlag (addFlag flag flags) other = hasFlag flags other := by
  rw [hasFlag_addFlag, decide_eq_false h, Bool.or_false]

theorem removeFlag_other {flag other : String} (h : lower other ≠ lower flag)
    (flags : List String) : hasFlag (removeFlag flag flags) other = hasFlag flags other := by
  rw [hasFlag_removeFlag, decide_eq_true h, Bool.and_true]

/-- A keyword that is set is carried by its message from then on, unless that is `\Deleted`. -/
theorem carrying_add (hdeleted : lower deletedFlag ≠ lower flag) (uid : ℕ) (w : World) :
    (w.store uid (addFlag flag)).carrying flag =
      w.alive.filter (fun v => v ∈ w.carrying flag ∨ v = uid) := by
  ext v
  rw [carrying, List.mem_toFinset, mem_live_store, Finset.mem_filter, mem_alive, mem_carrying]
  simp only [stored_has (addFlag_other hdeleted)]
  constructor
  · rintro ⟨m, hm, hat, hlive, hhas⟩
    refine ⟨⟨m, hm, hat, hlive⟩, ?_⟩
    by_cases hu : m.isAt uid = true
    · exact Or.inr ((Message.isAt_iff.mp hat).2.symm.trans (Message.isAt_iff.mp hu).2)
    · rw [stored_of_not_isAt _ (Bool.eq_false_iff.mpr hu)] at hhas
      exact Or.inl ⟨m, hm, hat, hlive, hhas⟩
  · rintro ⟨⟨m, hm, hat, hlive⟩, ⟨m', hm', hat', hlive', hhas⟩ | rfl⟩
    · refine ⟨m', hm', hat', hlive', ?_⟩
      unfold stored
      split
      · have hhas : hasFlag m'.flags flag = true := hhas
        simp [Message.has, hhas]
      · exact hhas
    · refine ⟨m, hm, hat, hlive, ?_⟩
      rw [stored_of_isAt _ hat]
      simp [Message.has]

/-- A keyword that is cleared is carried by every other message. -/
theorem carrying_remove (hdeleted : lower deletedFlag ≠ lower flag) (uid : ℕ) (w : World) :
    (w.store uid (removeFlag flag)).carrying flag =
      (w.carrying flag).filter (fun v => v ∉ [uid]) := by
  ext v
  rw [carrying, List.mem_toFinset, mem_live_store, Finset.mem_filter, mem_carrying]
  simp only [stored_has (removeFlag_other hdeleted), List.mem_singleton]
  constructor
  · rintro ⟨m, hm, hat, hlive, hhas⟩
    have hu : m.isAt uid = false := by
      rw [Bool.eq_false_iff]
      intro hu
      rw [stored_of_isAt _ hu] at hhas
      simp [Message.has] at hhas
    rw [stored_of_not_isAt _ hu] at hhas
    refine ⟨⟨m, hm, hat, hlive, hhas⟩, ?_⟩
    rintro rfl
    rw [hat] at hu
    cases hu
  · rintro ⟨⟨m, hm, hat, hlive, hhas⟩, hne⟩
    refine ⟨m, hm, hat, hlive, ?_⟩
    rw [stored_of_not_isAt]
    · exact hhas
    · rw [Bool.eq_false_iff]
      intro hu
      exact hne ((Message.isAt_iff.mp hat).2.symm.trans (Message.isAt_iff.mp hu).2)

/-- Marking a message sets it aside. -/
theorem board_mark (k : Keywords) (uid : ℕ) (w : World) :
    (w.store uid (addFlag k.failed)).board k = (w.board k).setAside uid := by
  have hdeleted := k.failedOk.ne_deleted.symm
  have hother := addFlag_other hdeleted
  ext1
  · exact present_store uid _ w
  · exact alive_store hother uid w
  · exact carrying_store hother (addFlag_other k.inserted_ne_failed) uid w
  · exact carrying_add hdeleted uid w
  · exact carrying_store hother (addFlag_other k.failed_ne_unverified.symm) uid w

/-- Clearing a keyword of a message puts it back. -/
theorem board_clear (k : Keywords) (unverified : Bool) (uid : ℕ) (w : World) :
    (w.store uid (removeFlag (if unverified then k.unverified else k.failed))).board k =
      (w.board k).putBack unverified [uid] := by
  cases unverified with
  | true =>
      have hdeleted := k.unverifiedOk.ne_deleted.symm
      have hother := removeFlag_other hdeleted
      ext1
      · exact present_store uid _ w
      · exact alive_store hother uid w
      · exact carrying_store hother (removeFlag_other k.inserted_ne_unverified) uid w
      · exact carrying_store hother (removeFlag_other k.failed_ne_unverified) uid w
      · exact carrying_remove hdeleted uid w
  | false =>
      have hdeleted := k.failedOk.ne_deleted.symm
      have hother := removeFlag_other hdeleted
      ext1
      · exact present_store uid _ w
      · exact alive_store hother uid w
      · exact carrying_store hother (removeFlag_other k.inserted_ne_failed) uid w
      · exact carrying_remove hdeleted uid w
      · exact carrying_store hother (removeFlag_other k.failed_ne_unverified.symm) uid w

/-! ### What is not written -/

/-- A message without the two keywords. -/
def bareMessage (k : Keywords) (m : Message) : Message :=
  m.withFlags (removeFlag k.failed (removeFlag k.unverified m.flags))

/-- The account without the two keywords. -/
def bare (k : Keywords) (w : World) : World :=
  { w with messages := w.messages.map (bareMessage k) }

/-- Nothing but the two keywords has been written. -/
structure Wrote (k : Keywords) (w w' : World) : Prop where
  distinct : w'.InboxDistinct
  bare : w'.bare k = w.bare k

theorem Wrote.refl (hw : w.InboxDistinct) : Wrote k w w := ⟨hw, rfl⟩

theorem Wrote.trans {w₁ w₂ w₃ : World} (h : Wrote k w₁ w₂) (h' : Wrote k w₂ w₃) : Wrote k w₁ w₃ :=
  ⟨h'.distinct, h'.bare.trans h.bare⟩

/-- The headers of the messages stay. -/
theorem Wrote.heads {w' : World} (h : Wrote k w w')
    (parse : Option (List UInt8) → ICloudMailbox.Headers) :
    w'.heads parse = w.heads parse := by
  have hraw : ∀ (w : World) (uid : ℕ), (w.find uid).map (fun m => m.raw.bytes) =
      ((w.bare k).find uid).map (fun m => m.raw.bytes) := by
    intro w uid
    show _ = ((w.messages.map (bareMessage k)).find? (fun m => m.isAt uid)).map _
    rw [List.find?_map, Option.map_map]
    rfl
  funext uid
  rw [World.heads, World.heads, hraw, hraw w, h.bare]

theorem wrote_store {f : List String → List String}
    (hf : ∀ flags, removeFlag k.failed (removeFlag k.unverified (f flags)) =
      removeFlag k.failed (removeFlag k.unverified flags)) (hw : w.InboxDistinct) (uid : ℕ) :
    Wrote k w (w.store uid f) := by
  refine ⟨hw.store uid f, ?_⟩
  have hmap : (w.messages.map (stored uid f)).map (bareMessage k) =
      w.messages.map (bareMessage k) := by
    rw [List.map_map]
    refine List.map_congr_left (fun m _ => ?_)
    by_cases hat : m.isAt uid = true
    · rw [Function.comp_apply, stored_of_isAt _ hat, bareMessage, bareMessage]
      simp only [Message.withFlags, hf]
    · rw [Function.comp_apply, stored_of_not_isAt _ (Bool.eq_false_iff.mpr hat)]
  show ({ w with messages := (w.messages.map (stored uid f)).map (bareMessage k) } : World) = _
  rw [hmap]
  rfl

theorem removeFlag_addFlag (flag : String) (flags : List String) :
    removeFlag flag (addFlag flag flags) = removeFlag flag flags := by
  unfold addFlag
  split
  · rfl
  · simp [removeFlag]

theorem removeFlag_removeFlag (flag : String) (flags : List String) :
    removeFlag flag (removeFlag flag flags) = removeFlag flag flags := by
  simp [removeFlag]

theorem removeFlag_comm (flag other : String) (flags : List String) :
    removeFlag flag (removeFlag other flags) = removeFlag other (removeFlag flag flags) := by
  simp only [removeFlag, List.filter_filter, Bool.and_comm]

theorem wrote_mark (hw : w.InboxDistinct) (uid : ℕ) :
    Wrote k w (w.store uid (addFlag k.failed)) := by
  refine wrote_store (fun flags => ?_) hw uid
  rw [removeFlag_comm, removeFlag_addFlag, removeFlag_comm]

theorem wrote_clear (hw : w.InboxDistinct) (unverified : Bool) (uid : ℕ) :
    Wrote k w (w.store uid (removeFlag (if unverified then k.unverified else k.failed))) := by
  refine wrote_store (fun flags => ?_) hw uid
  cases unverified with
  | true => exact congrArg (removeFlag k.failed) (removeFlag_removeFlag k.unverified flags)
  | false =>
      show removeFlag k.failed (removeFlag k.unverified (removeFlag k.failed flags)) = _
      rw [removeFlag_comm, removeFlag_removeFlag, removeFlag_comm]

end World

/-! ## The commands over a conforming provider -/

namespace Cli

variable {P : Provider} {T : ℚ → Prop} {k : Keywords} {w : World} {s : CliState} {uid : ℕ}

theorem onMailbox_returns {α : Type} {method : Mailbox α} {a : α} {mailbox : ICloudMailbox}
    {w' : World} (h : method.Returns (P.serving T) s.mailbox w a mailbox w') :
    (onMailbox method).Returns (P.serving T) s w a { s with mailbox := mailbox } w' := h.on

theorem print_returns (line : Line) : (print line).Returns (P.serving T) s w ()
    { s with output := s.output ++ [line] } w := ⟨rfl, rfl, rfl⟩

/-- The account with the keyword cleared of those messages that carried it. -/
def clearAll (keyword : String) (carrying : List ℕ) (w : World) (uids : List ℕ) : World :=
  uids.foldl (fun w uid =>
    if uid ∈ carrying then w.store uid (removeFlag keyword) else w) w

/-- The loop of `retry`. -/
theorem retryAll_returns {keyword : String} (hk : IsKeyword keyword) {carrying : List ℕ}
    (uids : List ℕ) (hw : w.InboxDistinct) (hc : s.mailbox.connected = true)
    (hcarrying : ∀ uid ∈ carrying, uid ∈ w.present) :
    (retryAll keyword carrying uids).Returns (P.serving T) s w ()
      { s with output := s.output ++ uids.map (Board.retryLine keyword carrying.toFinset) }
      (clearAll keyword carrying w uids) := by
  induction uids generalizing s w with
  | nil =>
      rw [List.map_nil, List.append_nil]
      exact Routine.returns_pure ()
  | cons uid rest ih =>
      rw [retryAll, clearAll, List.foldl_cons, List.map_cons, ← List.singleton_append,
        ← List.append_assoc]
      by_cases hin : uid ∈ carrying
      · rw [if_pos hin, if_pos hin]
        obtain ⟨m, hm, hat⟩ := World.mem_present.mp (hcarrying uid hin)
        have hline : Board.retryLine keyword carrying.toFinset uid = .cleared uid keyword :=
          if_pos (List.mem_toFinset.mpr hin)
        rw [hline]
        refine (onMailbox_returns (ICloudMailbox.removeKeyword_returns hw hc hm hat hk)).bind
          ((print_returns _).bind ?_)
        refine ih (hw.store uid _) hc (fun v hv => ?_)
        rw [World.present_store]
        exact hcarrying v hv
      · rw [if_neg hin, if_neg hin]
        have hline : Board.retryLine keyword carrying.toFinset uid = .doesNotCarry uid keyword :=
          if_neg (fun h => hin (List.mem_toFinset.mp h))
        rw [hline]
        exact (print_returns _).bind (ih hw hc hcarrying)

/-- What becomes of the board. -/
theorem clearAll_board (args : RetryArgs) {carrying : List ℕ} (uids : List ℕ) (hw : w.InboxDistinct)
    (hcarrying : ∀ uid, uid ∉ carrying → uid ∉ (w.board k).carrying args.unverified) :
    (clearAll (retryKeyword k args) carrying w uids).board k =
        (w.board k).putBack args.unverified uids ∧
      World.Wrote k w (clearAll (retryKeyword k args) carrying w uids) := by
  induction uids generalizing w with
  | nil => exact ⟨(Board.putBack_nil _ _).symm, .refl hw⟩
  | cons uid rest ih =>
      rw [clearAll, List.foldl_cons, Board.putBack_cons]
      by_cases hin : uid ∈ carrying
      · rw [if_pos hin]
        have hboard := World.board_clear k args.unverified uid w
        have hwrote := World.wrote_clear (k := k) hw args.unverified uid
        obtain ⟨hrest, hwrote'⟩ := ih hwrote.distinct (fun v hv h => by
          rw [hboard, Board.carrying_putBack] at h
          exact hcarrying v hv (Finset.mem_of_mem_filter v h))
        rw [hboard] at hrest
        exact ⟨hrest, hwrote.trans hwrote'⟩
      · rw [if_neg hin, Board.putBack_of_not_mem (hcarrying uid hin)]
        exact ih hw hcarrying

/-! ### `mark-failed` -/

theorem find_none (h : uid ∉ w.present) : w.find uid = none := by
  rw [World.find, List.find?_eq_none]
  exact fun m hm hat => h (World.mem_present.mpr ⟨m, hm, hat⟩)

/-- A message that is not there is not marked, and the command is told. -/
theorem addKeyword_absent {mailbox : ICloudMailbox} (hc : mailbox.connected = true)
    (h : uid ∉ w.present) {keyword : String} (hk : IsKeyword keyword) :
    (ICloudMailbox.addKeyword uid keyword).Safe (P.serving T) .alone
      (fun r mailbox' w' => r = .error (.mailboxError
          s!"IMAP server did not confirm keyword {keyword} on uid={uid}") ∧
        mailbox' = mailbox ∧ w' = w) mailbox w := by
  have hfind := find_none h
  have hsame : w.store uid (addFlag keyword) = w := by
    have hmap : w.messages.map (World.stored uid (addFlag keyword)) = w.messages := by
      refine (List.map_congr_left (fun m hm => World.stored_of_not_isAt _ ?_)).trans (List.map_id _)
      rw [Bool.eq_false_iff]
      exact fun hat => h (World.mem_present.mpr ⟨m, hm, hat⟩)
    show ({ w with messages := w.messages.map (World.stored uid (addFlag keyword)) } : World) = w
    rw [hmap]
  have hstore : (ICloudMailbox.storeKeyword uid keyword).Returns (P.serving T) mailbox w []
      mailbox w := by
    have hcall : (call (.addFlags uid keyword) : Mailbox Stored).Returns (P.serving T) mailbox w
        ((w.store uid (addFlag keyword)).storedFlags uid) mailbox
        (w.store uid (addFlag keyword)) := Provider.returns_call (fun _ => rfl)
    rw [hsame, World.storedFlags, hfind] at hcall
    have hfetch : (call (.fetch [uid] .flags) : Mailbox Fetched).Returns (P.serving T) mailbox w
        (w.fetchInbox [uid] .flags) mailbox w := Provider.returns_call (fun _ => rfl)
    have hnone : ICloudMailbox.reportedFlags (w.fetchInbox [uid] .flags) uid = [] := by
      rw [ICloudMailbox.reportedFlags, lookup_fetchInbox, hfind]
      simp
    have hrefetch : (ICloudMailbox.refetchFlags uid).Returns (P.serving T) mailbox w []
        mailbox w := by
      rw [← hnone]
      exact (ICloudMailbox.client_returns hc).bind (hfetch.bind (Routine.returns_pure _))
    exact (ICloudMailbox.client_returns hc).bind
      ((ICloudMailbox.encodeAscii_returns hk).bind (hcall.bind hrefetch))
  exact hstore.attempt.andThen ⟨rfl, rfl, rfl⟩

/-- What `mark-failed` comes to: whether a message was refused, or the exception at one that is not
    there. -/
def MarkOutcome (d : Board) (uids : List ℕ) : Except Exc Bool → Prop
  | .ok refused => (∀ uid ∈ uids, uid ∈ d.inserted ∨ uid ∈ d.present) ∧
      (refused = true ↔ ∃ uid ∈ uids, uid ∈ d.inserted)
  | .error exc => exc.isMailboxError = true ∧ ∃ uid ∈ uids, uid ∉ d.inserted ∧ uid ∉ d.present

/-- The loop of `mark-failed`. -/
theorem markAll_marks {flags : List (ℕ × List String)} (uids : List ℕ) (hw : w.InboxDistinct)
    (hc : s.mailbox.connected = true)
    (hflags : ∀ uid, hasFlag (flagsOf flags uid) k.inserted = true ↔ uid ∈ (w.board k).inserted) :
    (markAll k flags uids).Safe (P.serving T) .alone (fun r s' w' =>
      MarkOutcome (w.board k) uids r ∧ w'.board k = (w.board k).mark uids ∧ World.Wrote k w w' ∧
        s'.mailbox = s.mailbox ∧
        s'.output ++ errorLine r = s.output ++ (w.board k).markLines k uids) s w := by
  induction uids generalizing s w with
  | nil => exact ⟨⟨by simp, by simp⟩, rfl, .refl hw, rfl, rfl⟩
  | cons uid rest ih =>
      rw [markAll, Board.mark, Board.markLines]
      by_cases hin : uid ∈ (w.board k).inserted
      · -- Gmail has it: the rest is gone through, and the command remembers that it has refused
        rw [if_pos ((hflags uid).mpr hin), if_pos hin, if_pos hin]
        refine (print_returns _).andThen ?_
        rw [Routine.safe_bind]
        refine Routine.Safe.mono (ih (s := { s with output := s.output ++ [_] }) hw hc hflags) ?_
        rintro r s' w' ⟨houtcome, hboard, hwrote, hmailbox', hlines⟩
        rw [List.append_assoc] at hlines
        rcases r with exc | refused
        · obtain ⟨hmailbox, v, hv, hnot⟩ := houtcome
          exact ⟨⟨hmailbox, v, List.mem_cons_of_mem _ hv, hnot⟩, hboard, hwrote, hmailbox', hlines⟩
        · obtain ⟨hall, -⟩ := houtcome
          refine ⟨⟨?_, ?_⟩, hboard, hwrote, hmailbox', hlines⟩
          · exact List.forall_mem_cons.mpr ⟨Or.inl hin, hall⟩
          · exact iff_of_true rfl ⟨uid, List.mem_cons_self, hin⟩
      · rw [if_neg (fun h => hin ((hflags uid).mp h)), if_neg hin, if_neg hin]
        by_cases hpresent : uid ∈ (w.board k).present
        · -- the flags were listed before the loop, and marking leaves the inserted keyword alone
          rw [if_pos hpresent, if_pos hpresent]
          obtain ⟨m, hm, hat⟩ := World.mem_present.mp hpresent
          have hwrote := World.wrote_mark (k := k) hw uid
          have hboard := World.board_mark k uid w
          refine (onMailbox_returns (ICloudMailbox.addKeyword_returns hc (hw.find_eq hm hat)
            k.failedOk)).andThen ((print_returns _).andThen ?_)
          have hflags' : ∀ v, hasFlag (flagsOf flags v) k.inserted = true ↔
              v ∈ ((w.store uid (addFlag k.failed)).board k).inserted := by
            rw [hboard]
            exact hflags
          refine Routine.Safe.mono
            (ih (s := { s with output := s.output ++ [_] }) hwrote.distinct hc hflags') ?_
          rintro r s' w' ⟨houtcome, hboard', hwrote', hmailbox', hlines⟩
          rw [hboard] at houtcome hboard' hlines
          rw [Board.markLines_setAside, List.append_assoc] at hlines
          refine ⟨?_, hboard', hwrote.trans hwrote', hmailbox', hlines⟩
          rcases r with exc | refused
          · obtain ⟨hmailbox, v, hv, hnot⟩ := houtcome
            exact ⟨hmailbox, v, List.mem_cons_of_mem _ hv, hnot⟩
          · obtain ⟨hall, hrefused⟩ := houtcome
            refine ⟨List.forall_mem_cons.mpr ⟨Or.inr hpresent, hall⟩, hrefused.trans ?_⟩
            simp only [List.mem_cons, exists_eq_or_imp]
            exact (or_iff_right hin).symm
        · -- a server tells nothing about a UID that is not there, and that ends the command
          rw [if_neg hpresent, if_neg hpresent, Routine.safe_bind, onMailbox, Routine.safe_on]
          refine (addKeyword_absent hc hpresent k.failedOk).mono ?_
          rintro r mailbox w' ⟨rfl, rfl, rfl⟩
          exact ⟨⟨rfl, uid, List.mem_cons_self, hin, hpresent⟩, rfl, .refl hw, rfl, rfl⟩

/-! ### The commands -/

/-- The session once it is open. -/
def opened (mailbox : ICloudMailbox) : ICloudMailbox :=
  { mailbox with
    connected := true
    uidvalidity := 1
    supportsIdle := false
    supportsKeywords := true }

theorem withMailbox_serving {α : Type} {body : Command α}
    {Q : Except Exc α → List Line → World → Prop}
    (h : body.Safe (P.serving T) .alone (fun r s' w' => s'.mailbox.connected = true ∧
      Q r s'.output w') { s with mailbox := opened s.mailbox } w) :
    (withMailbox body).Safe (P.serving T) .alone (fun r s' w' => Q r s'.output w') s w := by
  rw [withMailbox]
  refine (onMailbox_returns (Forwarder.connect_returns _)).andThen ?_
  rw [Routine.safe_bind, Routine.safe_attempt]
  refine h.mono ?_
  rintro r s' w' ⟨hc, hQ⟩
  rw [Routine.after_ok]
  refine (onMailbox_returns (Forwarder.close_returns hc)).andThen ?_
  rw [Routine.safe_settle]
  exact hQ

/-- What is printed for a command, and its exit code. -/
structure Performed where
  code : Except Exc ℕ
  printed : List String

variable (P) (now : ℚ) (parse : Option (List UInt8) → ICloudMailbox.Headers) (k)

/-- The command that `main` calls. -/
def command : Subcommand → Command ℕ
  | .listQuarantined json => cmdList parse k json
  | .retry args => cmdRetry k args
  | .markFailed uids => cmdMarkFailed k uids

/-- Whether it opens its session read-only. -/
def readsOnly : Subcommand → Bool
  | .listQuarantined _ => true
  | .retry _ => false
  | .markFailed _ => false

/-- A command of `main`, over the provider. -/
def perform (w : World) (c : Subcommand) : Performed × World :=
  let x := (command k parse c).exec (P.handle now) (initial k (readsOnly c)) w
  (⟨exitCode x.1.1, (x.1.2.output ++ errorLine x.1.1).map Line.text⟩, x.2)

/-- Commands that follow each other. -/
def script (w : World) : List Subcommand → List Performed × World
  | [] => ([], w)
  | c :: rest =>
      let (performed, w₁) := perform P k now parse w c
      let (later, w₂) := script w₁ rest
      (performed :: later, w₂)

/-- What is printed for a command over the board, and its exit code. -/
def Answers (heads : ℕ → ICloudMailbox.Headers) (d : Board) (c : Subcommand) (p : Performed) :
    Prop :=
  p.code = .ok (d.code c) ∧ p.printed = (d.lines k heads c).map Line.text

/-- The commands of a script, each over the board the earlier ones have left. -/
def Answered (heads : ℕ → ICloudMailbox.Headers) (d : Board) :
    List Subcommand → List Performed → Prop
  | [], performed => performed = []
  | c :: rest, performed => ∃ p later, performed = p :: later ∧ Answers k heads d c p ∧
      Answered heads (d.after c) rest later

variable {P now parse k}

theorem keyword_isKeyword (k : Keywords) (args : RetryArgs) : IsKeyword (retryKeyword k args) := by
  unfold retryKeyword
  split
  · exact k.unverifiedOk
  · exact k.failedOk

theorem carrying_board (args : RetryArgs) :
    (w.live (fun m => m.has (retryKeyword k args))).toFinset =
      (w.board k).carrying args.unverified := by
  unfold retryKeyword Board.carrying
  split
  · rfl
  · rfl

theorem searchKeyword_returns {mailbox : ICloudMailbox} (hw : w.InboxDistinct)
    (hc : mailbox.connected = true) (keyword : String) :
    (ICloudMailbox.searchKeyword keyword).Returns (P.serving T) mailbox w
      (w.live (fun m => m.has keyword)) mailbox w := by
  have hlive : w.live (fun m => m.has keyword) =
      w.live (fun m => matchesAny m.flags [keyword]) := by
    simp [matchesAny, Message.has]
  rw [hlive, ← ICloudMailbox.filter_inboxFlags hw (fun flags => matchesAny flags [keyword])]
  exact (ICloudMailbox.inboxFlags_returns hw hc).bind (Routine.returns_pure _)

/-- The UIDs `retry` goes through. -/
theorem target_board (hw : w.InboxDistinct) (args : RetryArgs) :
    retryUids args.target (w.live (fun m => m.has (retryKeyword k args))) =
      (w.board k).target args := by
  unfold retryUids Board.target
  cases args.target with
  | uids uids => rfl
  | all =>
      have hsorted := hw.live_sorted (fun m => m.has (retryKeyword k args))
      show ICloudMailbox.sortUids (w.live _).dedup =
        ((w.board k).carrying args.unverified).sort (· ≤ ·)
      rw [hsorted.nodup.dedup, ← carrying_board,
        (List.toFinset_sort (· ≤ ·) hsorted.nodup).mpr hsorted.sortedLE.pairwise]
      exact hsorted.sortedLE.pairwise.insertionSort_eq

theorem cmdRetry_board (heads : ℕ → ICloudMailbox.Headers) (hw : w.InboxDistinct)
    (args : RetryArgs) :
    (cmdRetry k args).Safe (P.serving T) .alone (fun r s' w' =>
      (r = .ok ((w.board k).code (.retry args)) ∧
        s'.output = (w.board k).lines k heads (.retry args)) ∧
      w'.board k = (w.board k).after (.retry args) ∧ World.Wrote k w w') (initial k false) w := by
  rw [cmdRetry, Board.code, Board.lines, Board.after]
  split
  · exact (print_returns _).andThen ⟨⟨rfl, rfl⟩, rfl, .refl hw⟩
  refine withMailbox_serving (Q := fun r output w' => (r = .ok 0 ∧ output = _) ∧ w'.board k = _ ∧
    World.Wrote k w w') ?_
  refine (onMailbox_returns (searchKeyword_returns hw rfl _)).andThen ?_
  rw [target_board hw args]
  by_cases hnone : (w.board k).target args = []
  · rw [if_pos hnone, if_pos hnone, hnone, Board.putBack_nil]
    exact (print_returns _).andThen ⟨rfl, ⟨rfl, rfl⟩, rfl, .refl hw⟩
  · rw [if_neg hnone, if_neg hnone, ← carrying_board]
    have hcarrying : ∀ uid, uid ∉ w.live (fun m => m.has (retryKeyword k args)) →
        uid ∉ (w.board k).carrying args.unverified := by
      intro uid hu hin
      rw [← carrying_board, List.mem_toFinset] at hin
      exact hu hin
    obtain ⟨hboard, hwrote⟩ := clearAll_board args ((w.board k).target args) hw hcarrying
    refine (retryAll_returns (keyword_isKeyword k args) _ hw rfl ?_).andThen ?_
    · intro uid hu
      obtain ⟨m, hm, hat, -⟩ := World.mem_live.mp hu
      exact World.mem_present.mpr ⟨m, hm, hat⟩
    · exact ⟨rfl, ⟨rfl, rfl⟩, hboard, hwrote⟩

theorem lookup_map {α : Type} (f : ℕ → α) (uids : List ℕ) (uid : ℕ) :
    (uids.map (fun v => (v, f v))).lookup uid = if uid ∈ uids then some (f uid) else none := by
  induction uids with
  | nil => rfl
  | cons v rest ih =>
      rw [List.map_cons, List.lookup_cons]
      by_cases hv : uid = v
      · simp [hv]
      · rw [beq_eq_false_iff_ne.mpr hv]
        simp [hv, ih]

/-- What the listed flags of a live message say. -/
theorem hasFlag_flagsAt (hw : w.InboxDistinct) (hlive : uid ∈ w.alive) (flag : String) :
    hasFlag (w.flagsAt uid) flag = true ↔ uid ∈ w.carrying flag := by
  obtain ⟨m, hm, hat, halive⟩ := World.mem_alive.mp hlive
  rw [World.mem_carrying, World.flagsAt, hw.find_eq hm hat]
  constructor
  · exact fun h => ⟨m, hm, hat, halive, h⟩
  · rintro ⟨m', hm', hat', -, h⟩
    rw [hw.unique hm hat hm' hat']
    exact h

theorem flags_inserted (hw : w.InboxDistinct) (uid : ℕ) :
    hasFlag (flagsOf ((w.live (fun _ => true)).map (fun uid => (uid, w.flagsAt uid))) uid)
      k.inserted = true ↔ uid ∈ (w.board k).inserted := by
  rw [flagsOf, lookup_map]
  split
  · next hlive => exact hasFlag_flagsAt hw (List.mem_toFinset.mpr hlive) k.inserted
  · next hlive =>
    refine iff_of_false (by simp) (fun hin => hlive ?_)
    exact List.mem_toFinset.mp ((w.board k).inserted_live hin)

theorem cmdMarkFailed_board (heads : ℕ → ICloudMailbox.Headers) (hw : w.InboxDistinct)
    (uids : List ℕ) :
    (cmdMarkFailed k uids).Safe (P.serving T) .alone (fun r s' w' =>
      (exitCode r = .ok ((w.board k).code (.markFailed uids)) ∧
        s'.output ++ errorLine r = (w.board k).lines k heads (.markFailed uids)) ∧
      w'.board k = (w.board k).after (.markFailed uids) ∧ World.Wrote k w w')
      (initial k false) w := by
  rw [cmdMarkFailed, Board.code, Board.lines, Board.after]
  refine withMailbox_serving (Q := fun r output w' => (exitCode r = _ ∧
    output ++ errorLine r = _) ∧ w'.board k = _ ∧ World.Wrote k w w') ?_
  have hrequire : ICloudMailbox.requireKeywords.Returns (P.serving T)
      (opened (initial k false).mailbox) w () (opened (initial k false).mailbox) w := by
    refine Routine.returns_getSelf.bind ?_
    rw [if_pos (by rfl)]
    exact Routine.returns_pure ()
  refine (onMailbox_returns hrequire).andThen ((onMailbox_returns
    (ICloudMailbox.inboxFlags_returns hw rfl)).andThen ?_)
  rw [Routine.safe_bind]
  refine (markAll_marks uids hw rfl (flags_inserted hw)).mono ?_
  rintro r s' w' ⟨houtcome, hboard, hwrote, hsession, hlines⟩
  have hconnected : s'.mailbox.connected = true := by rw [hsession]; rfl
  rcases r with exc | refused
  · obtain ⟨hmailbox, uid, hu, hnot, habsent⟩ := houtcome
    refine ⟨hconnected, ⟨?_, hlines⟩, hboard, hwrote⟩
    rw [if_pos ⟨uid, hu, Or.inr habsent⟩, exitCode, if_pos hmailbox]
  · obtain ⟨hall, hrefused⟩ := houtcome
    refine ⟨hconnected, ⟨?_, hlines⟩, hboard, hwrote⟩
    cases refused with
    | true =>
        obtain ⟨uid, hu, hin⟩ := hrefused.mp rfl
        exact congrArg Except.ok (if_pos ⟨uid, hu, Or.inl hin⟩).symm
    | false =>
        have hnone : ¬∃ uid ∈ uids, uid ∈ (w.board k).inserted := fun h => by
          have := hrefused.mpr h
          cases this
        refine congrArg Except.ok (if_neg ?_).symm
        rintro ⟨uid, hu, hin | habsent⟩
        · exact hnone ⟨uid, hu, hin⟩
        · exact (hall uid hu).elim (fun hin => hnone ⟨uid, hu, hin⟩) habsent

/-! ### `list-quarantined` -/

/-- The entry of a message with these flags. -/
def entryOf (k : Keywords) (heads : ℕ → ICloudMailbox.Headers) (uid : ℕ) (flags : List String) :
    Entry :=
  if hasFlag flags k.failed then ⟨uid, k.failed, hasFlag flags k.inserted, some (heads uid)⟩
  else ⟨uid, k.unverified, true, some (heads uid)⟩

/-- An entry with the headers of its message. -/
def headed (heads : ℕ → ICloudMailbox.Headers) (e : Entry) : Entry :=
  { e with headers := some (heads e.uid) }

theorem headed_entryFor (k : Keywords) (heads : ℕ → ICloudMailbox.Headers) (uid : ℕ)
    (flags : List String) :
    (entryFor k uid flags).map (headed heads) =
      if matchesAny flags k.quarantine then some (entryOf k heads uid flags) else none := by
  have hne : k.failed ≠ k.unverified := fun h => k.failed_ne_unverified (congrArg lower h)
  unfold entryFor entryOf
  rw [Keywords.quarantine, List.find?_cons, List.find?_cons, List.find?_nil]
  cases hfailed : hasFlag flags k.failed with
  | true => simp [matchesAny, hfailed, headed, hne]
  | false =>
      cases hunverified : hasFlag flags k.unverified with
      | true => simp [matchesAny, hfailed, hunverified, headed]
      | false => simp [matchesAny, hfailed, hunverified]

theorem headed_filterMap (k : Keywords) (heads : ℕ → ICloudMailbox.Headers) (f : ℕ → List String)
    (uids : List ℕ) :
    ((uids.map (fun uid => (uid, f uid))).filterMap
      (fun item => entryFor k item.1 item.2)).map (headed heads) =
      (uids.filter (fun uid => matchesAny (f uid) k.quarantine)).map
        (fun uid => entryOf k heads uid (f uid)) := by
  rw [List.map_filterMap, List.filterMap_map]
  induction uids with
  | nil => rfl
  | cons uid rest ih =>
      have hentry := headed_entryFor k heads uid (f uid)
      cases hmatches : matchesAny (f uid) k.quarantine with
      | true =>
          rw [hmatches, if_pos rfl] at hentry
          rw [List.filterMap_cons_some (by exact hentry), ih,
            List.filter_cons_of_pos (by exact hmatches), List.map_cons]
      | false =>
          rw [hmatches, if_neg (by simp)] at hentry
          rw [List.filterMap_cons_none (by exact hentry), ih,
            List.filter_cons_of_neg (by simp [hmatches])]

/-- What `_collect` updates its entries with. -/
theorem headed_update (heads : ℕ → ICloudMailbox.Headers) (entries : List Entry) :
    entries.map (fun e => { e with headers :=
      ((entries.map Entry.uid).map (fun uid => (uid, heads uid))).lookup e.uid }) =
      entries.map (headed heads) := by
  refine List.map_congr_left (fun e he => ?_)
  rw [lookup_map, if_pos (List.mem_map_of_mem he)]
  rfl

/-- What the listed flags of a live message say of the two keywords. -/
theorem matchesAny_quarantine (hw : w.InboxDistinct) (hlive : uid ∈ w.alive) :
    matchesAny (w.flagsAt uid) k.quarantine = true ↔
      uid ∈ (w.board k).failed ∪ (w.board k).unverified := by
  have hfailed := hasFlag_flagsAt hw hlive k.failed
  have hunverified := hasFlag_flagsAt hw hlive k.unverified
  rw [Finset.mem_union, Keywords.quarantine]
  show _ ↔ uid ∈ w.carrying k.failed ∨ uid ∈ w.carrying k.unverified
  rw [← hfailed, ← hunverified]
  simp [matchesAny]

/-- The listing of the account is the listing of its board. -/
theorem listing_board (heads : ℕ → ICloudMailbox.Headers) (hw : w.InboxDistinct) :
    ((w.live (fun _ => true)).filter (fun uid => matchesAny (w.flagsAt uid) k.quarantine)).map
      (fun uid => entryOf k heads uid (w.flagsAt uid)) = (w.board k).listing k heads := by
  have haside : (w.board k).failed ∪ (w.board k).unverified ⊆ w.alive :=
    Finset.union_subset (w.board k).failed_live (w.board k).unverified_live
  have hfilter : (w.live (fun _ => true)).filter
      (fun uid => matchesAny (w.flagsAt uid) k.quarantine) =
        ((w.board k).failed ∪ (w.board k).unverified).sort (· ≤ ·) := by
    have hsorted := (hw.live_sorted (fun _ => true)).pairwise.filter
      (fun uid => matchesAny (w.flagsAt uid) k.quarantine)
    rw [← (List.toFinset_sort (· ≤ ·) hsorted.sortedLT.nodup).mpr
      hsorted.sortedLT.sortedLE.pairwise]
    congr 1
    ext uid
    rw [List.mem_toFinset, List.mem_filter]
    constructor
    · rintro ⟨hlive, hmatches⟩
      exact (matchesAny_quarantine hw (List.mem_toFinset.mpr hlive)).mp hmatches
    · intro hu
      exact ⟨List.mem_toFinset.mp (haside hu), (matchesAny_quarantine hw (haside hu)).mpr hu⟩
  rw [hfilter, Board.listing]
  refine List.map_congr_left (fun uid hu => ?_)
  have hlive := haside ((Finset.mem_sort _).mp hu)
  have hinserted := hasFlag_flagsAt hw hlive k.inserted
  unfold entryOf
  by_cases hfailed : uid ∈ (w.board k).failed
  · rw [if_pos ((hasFlag_flagsAt hw hlive k.failed).mpr hfailed), if_pos hfailed]
    congr 1
    rw [Bool.eq_iff_iff, hinserted, decide_eq_true_eq]
    rfl
  · rw [if_neg (fun h => hfailed ((hasFlag_flagsAt hw hlive k.failed).mp h)), if_neg hfailed]

variable (now) (parse)

/-- The entries of the board, in the order of the UIDs. -/
theorem collect_board (hw : w.InboxDistinct) {mailbox : ICloudMailbox}
    (hc : mailbox.connected = true) :
    (collect parse k).Returns (P.serving T) mailbox w ((w.board k).listing k (w.heads parse))
      mailbox w := by
  generalize hentries : ((w.live (fun _ => true)).map (fun uid => (uid, w.flagsAt uid))).filterMap
    (fun item => entryFor k item.1 item.2) = entries
  have hcollect : (collect parse k).Returns (P.serving T) mailbox w
      ((entries.map (fun e => { e with headers := ((entries.map Entry.uid).map
        (fun uid => (uid, w.heads parse uid))).lookup e.uid })).insertionSort
          (fun a b => a.uid ≤ b.uid)) mailbox w := by
    refine (ICloudMailbox.inboxFlags_returns hw hc).bind ?_
    rw [hentries]
    exact (fetchHeaders_returns parse _ hc).bind (Routine.returns_pure _)
  have hlisting : entries.map (headed (w.heads parse)) = (w.board k).listing k (w.heads parse) := by
    rw [← hentries, headed_filterMap, listing_board _ hw]
  rw [headed_update, hlisting] at hcollect
  -- the listing is ascending, so the entries are not sorted again
  have hsorted : ((w.board k).listing k (w.heads parse)).Pairwise (fun a b => a.uid ≤ b.uid) := by
    refine List.pairwise_map.mpr ((Finset.pairwise_sort _ (· ≤ ·)).imp ?_)
    intro u v huv
    split
    all_goals
      split
      all_goals exact huv
  rw [hsorted.insertionSort_eq] at hcollect
  exact hcollect

theorem printAll_returns (lines : List Line) : (printAll lines).Returns (P.serving T) s w ()
    { s with output := s.output ++ lines } w := by
  induction lines generalizing s with
  | nil =>
      rw [List.append_nil]
      exact Routine.returns_pure ()
  | cons line rest ih =>
      rw [printAll, ← List.singleton_append, ← List.append_assoc]
      exact (print_returns line).bind ih

theorem cmdList_board (hw : w.InboxDistinct) (json : Bool) :
    (cmdList parse k json).Safe (P.serving T) .alone (fun r s' w' => (r = .ok 0 ∧
      s'.output = (w.board k).lines k (w.heads parse) (.listQuarantined json)) ∧ w' = w)
      (initial k true) w := by
  have hopened : (opened (initial k true).mailbox).connected = true := rfl
  have hcollect := collect_board (P := P) (T := T) (k := k) parse hw hopened
  rw [cmdList, Routine.safe_bind]
  refine Routine.Safe.mono (withMailbox_serving
    (Q := fun r output w' => r = .ok ((w.board k).listing k (w.heads parse)) ∧ output = [] ∧
      w' = w)
    ((onMailbox_returns hcollect).mono ?_)) ?_
  · rintro r s' w' ⟨rfl, rfl, rfl⟩
    exact ⟨rfl, rfl, rfl, rfl⟩
  · rintro r s' w' ⟨rfl, houtput, rfl⟩
    rw [Routine.after_ok]
    refine (printAll_returns _).andThen ?_
    refine ⟨⟨rfl, ?_⟩, rfl⟩
    rw [houtput]
    rfl

/-! ### Scripts -/

/-- A command, run to its end. -/
theorem exec_of_safe (now : ℚ) {α : Type} {m : Command α}
    {Q : Except Exc α → CliState → World → Prop}
    (h : m.Safe (P.serving fun _ => True) .alone Q s w) :
    Q (m.exec (P.handle now) s w).1.1 (m.exec (P.handle now) s w).1.2
      (m.exec (P.handle now) s w).2 :=
  Routine.Safe.exec id (Provider.handle_serving trivial) (fun _ => rfl) h

/-- **A command on the account is the command on its board.** -/
theorem perform_refines (hw : w.InboxDistinct) (c : Subcommand) :
    Answers k (w.heads parse) (w.board k) c (perform P k now parse w c).1 ∧
      (perform P k now parse w c).2.board k = (w.board k).after c ∧
      World.Wrote k w (perform P k now parse w c).2 := by
  cases c with
  | listQuarantined json =>
      have hlist := exec_of_safe now (cmdList_board (P := P) (k := k) parse hw json)
      rw [perform, command, readsOnly]
      generalize (cmdList parse k json).exec (P.handle now) (initial k true) w = x at hlist ⊢
      obtain ⟨⟨hok, hlines⟩, hsame⟩ := hlist
      dsimp only
      rw [hok, hlines, hsame]
      exact ⟨⟨rfl, congrArg _ (List.append_nil _)⟩, rfl, .refl hw⟩
  | retry args =>
      have hretry := exec_of_safe now (cmdRetry_board (P := P) (k := k) (w.heads parse) hw args)
      rw [perform, command, readsOnly]
      generalize (cmdRetry k args).exec (P.handle now) (initial k false) w = x at hretry ⊢
      obtain ⟨⟨hok, hlines⟩, hboard, hwrote⟩ := hretry
      dsimp only
      rw [hok, hlines]
      exact ⟨⟨rfl, congrArg _ (List.append_nil _)⟩, hboard, hwrote⟩
  | markFailed uids =>
      have hmark :=
        exec_of_safe now (cmdMarkFailed_board (P := P) (k := k) (w.heads parse) hw uids)
      rw [perform, command, readsOnly]
      generalize (cmdMarkFailed k uids).exec (P.handle now) (initial k false) w = x at hmark ⊢
      obtain ⟨⟨hok, hlines⟩, hboard, hwrote⟩ := hmark
      exact ⟨⟨hok, congrArg _ hlines⟩, hboard, hwrote⟩

/-- **The maintenance commands are the operations of the board.** Whatever the server makes of
    keyword searches, every script of commands prints and returns what it does over the board,
    leaves the account with that board, and writes nothing but the two keywords. -/
theorem script_refines (P : Provider) (k : Keywords) (now : ℚ)
    (parse : Option (List UInt8) → ICloudMailbox.Headers) (commands : List Subcommand) (w : World)
    (hw : w.InboxDistinct) :
    Answered k (w.heads parse) (w.board k) commands (script P k now parse w commands).1 ∧
      (script P k now parse w commands).2.board k = commands.foldl Board.after (w.board k) ∧
      World.Wrote k w (script P k now parse w commands).2 := by
  induction commands generalizing w with
  | nil => exact ⟨rfl, rfl, .refl hw⟩
  | cons c rest ih =>
      obtain ⟨hanswers, hboard, hwrote⟩ := perform_refines (P := P) (k := k) now parse hw c
      obtain ⟨hanswered, hboard', hwrote'⟩ := ih _ hwrote.distinct
      rw [hboard, hwrote.heads] at hanswered
      rw [hboard] at hboard'
      exact ⟨⟨_, _, rfl, hanswers, hanswered⟩, hboard', hwrote.trans hwrote'⟩

/-- Two mails set aside, of which one has been all along, and both put back. -/
theorem script_refines_mixed : ∃ first second,
    (script {} .default 0 (fun _ => ⟨"", "", ""⟩) mixedInbox
      [.markFailed [2, 3], .retry ⟨.uids [5, 2], false, false⟩]).1 = [first, second] ∧
    first.code = .ok 0 ∧ second.printed.length = 2 ∧
    ((script {} .default 0 (fun _ => ⟨"", "", ""⟩) mixedInbox
      [.markFailed [2, 3], .retry ⟨.uids [5, 2], false, false⟩]).2.board .default).queue =
        {2, 5} := by
  obtain ⟨⟨first, later, hfirst, ⟨hcode, -⟩, second, rest, rfl, ⟨-, hprinted⟩, rfl⟩, hboard, -⟩ :=
    script_refines {} .default 0 (fun _ => ⟨"", "", ""⟩)
      [.markFailed [2, 3], .retry ⟨.uids [5, 2], false, false⟩] mixedInbox
      (by unfold World.InboxDistinct; decide)
  refine ⟨first, second, hfirst, hcode.trans (by decide +kernel), ?_, ?_⟩
  · rw [hprinted]
    decide +kernel
  · rw [hboard]
    decide +kernel

end Cli

end MailTransporter
