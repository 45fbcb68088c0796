import MailTransporter.Inbox
import MailTransporter.ForwarderRules

set_option autoImplicit false

/-! # The good path

Nothing fails, no mail arrives, the server has `MOVE`; the time budget may stop a run after any
message. `World.forward` is what a run makes of one message. A run is shown to be a fold of it over a
prefix of the queue, so runs that follow each other are one fold, and it does not matter where the
budget cut. -/

namespace MailTransporter

open Effect
open Effect.Routine (raise attempt getSelf modifySelf settle)

/-! ## What is to be done with a message -/

/-- The labels a message gets in Gmail. -/
def Message.labels (m : Message) (extraLabels : List String) : List String :=
  ["INBOX"] ++ (if m.has "\\Seen" then [] else ["UNREAD"]) ++
    (if m.has "\\Flagged" then ["STARRED"] else []) ++ extraLabels

/-- A system flag is reported as it is written in RFC 3501. -/
def Message.Canonical (m : Message) : Prop :=
  ∀ flag ∈ m.flags, ∀ name ∈ ["\\Seen", "\\Flagged"], lower flag = lower name → flag = name

/-- The instructions for a good path: the marker, the labels besides the standard ones and the
    folder that is the Trash. -/
structure Delivery where
  inserted : String
  extraLabels : List String
  trash : String

namespace World

variable (d : Delivery)

/-- The copy Gmail gets of the message at `uid`. -/
def copyOf (w : World) (uid : ℕ) : Option GmailCopy :=
  (w.find uid).bind (fun m =>
    if m.has d.inserted then none else some ⟨m.raw, m.labels d.extraLabels⟩)

/-- The marker is on the message, and Gmail has it. -/
def deliver (uid : ℕ) (w : World) : World :=
  match w.find uid with
  | none => w
  | some m =>
      if m.has d.inserted then w
      else (w.accept m.raw (m.labels d.extraLabels)).store uid (addFlag d.inserted)

/-- The folder is there. -/
def withFolder (folder : String) (w : World) : World :=
  if folder ∈ w.folders then w else { w with folders := w.folders ++ [folder] }

/-- **What becomes of a message of the queue.** -/
def forward (w : World) (uid : ℕ) : World :=
  ((w.deliver d uid).withFolder d.trash).moveTo uid d.trash

variable {d} {w : World} {uid v : ℕ}

@[simp] theorem withFolder_messages (folder : String) (w : World) :
    (w.withFolder folder).messages = w.messages := by
  unfold withFolder
  split <;> rfl

@[simp] theorem withFolder_gmail (folder : String) (w : World) :
    (w.withFolder folder).gmail = w.gmail := by
  unfold withFolder
  split <;> rfl

@[simp] theorem withFolder_find (folder : String) (w : World) (v : ℕ) :
    (w.withFolder folder).find v = w.find v := by
  unfold find
  rw [withFolder_messages]

/-! ### The message alone -/

theorem find_deliver (w : World) (uid v : ℕ) (hv : v ≠ uid) :
    (w.deliver d uid).find v = w.find v := by
  unfold deliver
  split
  · rfl
  · split
    · rfl
    · rw [find_store]
      show (w.find v).map _ = _
      cases hf : w.find v with
      | none => rfl
      | some m =>
          have hat := (World.find_some hf).2
          have hne : m.isAt uid = false := by
            rw [Bool.eq_false_iff]
            intro hat'
            exact hv ((Message.isAt_iff.mp hat).2.symm.trans (Message.isAt_iff.mp hat').2)
          rw [Option.map_some, stored_of_not_isAt _ hne]

/-- The message at `uid`, marked. -/
theorem find_deliver_self {m : Message} (hf : w.find uid = some m) :
    (w.deliver d uid).find uid = some (m.withFlags (addFlag d.inserted m.flags)) := by
  have hat := (World.find_some hf).2
  rw [deliver, hf]
  dsimp only
  split
  · next hin =>
    have hhas : hasFlag m.flags d.inserted = true := hin
    have hsame : m.withFlags (addFlag d.inserted m.flags) = m := by
      rw [addFlag, if_pos hhas]
      rfl
    rw [hsame, hf]
  · rw [find_store]
    show (w.find uid).map _ = _
    rw [hf, Option.map_some, stored_of_isAt _ hat]

theorem gmail_deliver (w : World) (uid : ℕ) :
    (w.deliver d uid).gmail = w.gmail ++ (w.copyOf d uid).toList := by
  unfold deliver copyOf
  cases w.find uid with
  | none => simp
  | some m =>
      by_cases hin : m.has d.inserted = true
      · simp [hin]
      · simp [hin, store, accept]

/-- What is marked is not marked again. -/
theorem deliver_deliver (w : World) (uid : ℕ) :
    (w.deliver d uid).deliver d uid = w.deliver d uid := by
  cases hf : w.find uid with
  | none =>
      have hsame : w.deliver d uid = w := by rw [deliver, hf]
      rw [hsame, hsame]
  | some m =>
      have hmarked : (m.withFlags (addFlag d.inserted m.flags)).has d.inserted = true := by
        simp [Message.has, Message.withFlags]
      rw [deliver, find_deliver_self hf]
      dsimp only
      rw [if_pos hmarked]

theorem mem_deliver {m : Message} (hm : m ∈ w.messages) (hat : m.isAt uid = false) :
    m ∈ (w.deliver d uid).messages := by
  unfold deliver
  split
  · exact hm
  · split
    · exact hm
    · exact List.mem_map.mpr ⟨m, hm, stored_of_not_isAt _ hat⟩

theorem InboxDistinct.deliver (hw : w.InboxDistinct) (uid : ℕ) :
    (w.deliver d uid).InboxDistinct := by
  unfold World.deliver
  split
  · exact hw
  · split
    · exact hw
    · exact InboxDistinct.store hw uid _

/-! ### Moving it away -/

section moveTo

variable {folder : String}

theorem find_moveTo (h : folderName folder ≠ "INBOX") (w : World) (uid v : ℕ) :
    (w.moveTo uid folder).find v = if v = uid then none else w.find v := by
  unfold moveTo
  cases hf : w.find uid with
  | none =>
      by_cases hv : v = uid
      · rw [if_pos hv, hv, hf]
      · rw [if_neg hv]
  | some m =>
      show List.find? _ (_ ++ _) = _
      rw [List.find?_append, List.find?_singleton, Message.not_isAt_placed h, List.find?_filter]
      by_cases hv : v = uid
      · subst hv
        simp
      · have hpred : (fun m : Message => !m.isAt uid && m.isAt v) = fun m => m.isAt v := by
          funext m
          by_cases hat : m.isAt v = true
          · have hne : m.isAt uid = false := by
              rw [Bool.eq_false_iff]
              intro hat'
              exact hv ((Message.isAt_iff.mp hat).2.symm.trans (Message.isAt_iff.mp hat').2)
            rw [hne, hat]
            rfl
          · simp [hat]
        simp only [if_neg hv, Bool.decide_and, Bool.decide_eq_true, hpred, find]
        simp

theorem mem_moveTo_self {m : Message} (hf : w.find uid = some m) :
    m.placed folder w.uidNext ∈ (w.moveTo uid folder).messages := by
  rw [moveTo, hf]
  exact List.mem_append_right _ (List.mem_singleton_self _)

theorem mem_moveTo {m : Message} (hm : m ∈ w.messages) (hat : m.isAt uid = false) :
    m ∈ (w.moveTo uid folder).messages := by
  unfold moveTo
  split
  · exact hm
  · exact List.mem_append_left _ (List.mem_filter.mpr ⟨hm, by rw [hat]; rfl⟩)

theorem InboxDistinct.moveTo (hw : w.InboxDistinct) (h : folderName folder ≠ "INBOX") (uid : ℕ) :
    (w.moveTo uid folder).InboxDistinct := by
  unfold World.moveTo
  split
  · exact hw
  · next m _ =>
    have hplaced : decide ((m.placed folder w.uidNext).folder = "INBOX") = false := by simp [h]
    unfold InboxDistinct
    rw [List.filter_append, List.filter_singleton, hplaced]
    simp only [Bool.cond_false, List.append_nil]
    exact hw.sublist ((List.filter_sublist.filter _).map _)

end moveTo

@[simp] theorem moveTo_gmail (uid : ℕ) (folder : String) (w : World) :
    (w.moveTo uid folder).gmail = w.gmail := by
  unfold moveTo
  split <;> rfl

theorem InboxDistinct.withFolder (hw : w.InboxDistinct) (folder : String) :
    (w.withFolder folder).InboxDistinct := by
  unfold InboxDistinct
  rw [withFolder_messages]
  exact hw

/-! ### A message forwarded -/

/-- The message as it is in the Trash. -/
def IsTrashed (d : Delivery) (m : Message) (m' : Message) : Prop :=
  m'.folder = folderName d.trash ∧ m'.raw = m.raw ∧ m'.has d.inserted = true ∧
    m'.flags = addFlag d.inserted m.flags

section forward

variable (ht : folderName d.trash ≠ "INBOX")

include ht

theorem find_forward (w : World) (uid v : ℕ) :
    (w.forward d uid).find v = if v = uid then none else w.find v := by
  rw [forward, find_moveTo ht, withFolder_find]
  by_cases hv : v = uid
  · rw [if_pos hv, if_pos hv]
  · rw [if_neg hv, if_neg hv, find_deliver w uid v hv]

omit ht in
theorem gmail_forward (w : World) (uid : ℕ) :
    (w.forward d uid).gmail = w.gmail ++ (w.copyOf d uid).toList := by
  rw [forward, moveTo_gmail, withFolder_gmail, gmail_deliver]

omit ht in
theorem mem_forward {m : Message} (hm : m ∈ w.messages) (hat : m.isAt uid = false) :
    m ∈ (w.forward d uid).messages := by
  refine mem_moveTo ?_ hat
  rw [withFolder_messages]
  exact mem_deliver hm hat

omit ht in
theorem trashed_forward {m : Message} (hf : w.find uid = some m) :
    ∃ m' ∈ (w.forward d uid).messages, IsTrashed d m m' := by
  have hmarked := find_deliver_self (d := d) hf
  rw [← withFolder_find d.trash] at hmarked
  refine ⟨_, mem_moveTo_self hmarked, rfl, rfl, ?_, rfl⟩
  show hasFlag (addFlag d.inserted m.flags) d.inserted = true
  simp

theorem InboxDistinct.forward (hw : w.InboxDistinct) (uid : ℕ) :
    (w.forward d uid).InboxDistinct :=
  ((hw.deliver uid).withFolder d.trash).moveTo ht uid

end forward

/-! ### Messages forwarded one after the other -/

/-- What has become of the messages `uids`, and of the others. -/
structure Forwarded (d : Delivery) (w w' : World) (uids : List ℕ) : Prop where
  distinct : w'.InboxDistinct
  gmail : w'.gmail = w.gmail ++ uids.filterMap (w.copyOf d)
  find : ∀ v, w'.find v = if v ∈ uids then none else w.find v
  trashed : ∀ uid ∈ uids, ∀ m, w.find uid = some m → ∃ m' ∈ w'.messages, IsTrashed d m m'
  kept : ∀ m ∈ w.messages, (∀ uid ∈ uids, m.isAt uid = false) → m ∈ w'.messages

/-- **Forwarding a list.** -/
theorem forwarded_foldl (ht : folderName d.trash ≠ "INBOX") (hw : w.InboxDistinct)
    {uids : List ℕ} (hnodup : uids.Nodup) :
    Forwarded d w (uids.foldl (forward d) w) uids := by
  induction uids generalizing w with
  | nil =>
      refine ⟨hw, ?_, ?_, ?_, ?_⟩
      · simp
      · simp
      · simp
      · exact fun m hm _ => hm
  | cons uid rest ih =>
      obtain ⟨hnot, hrest⟩ := List.nodup_cons.mp hnodup
      have h := ih (hw.forward ht uid) hrest
      rw [List.foldl_cons]
      -- the others are where they were when the first message is gone
      have hother : ∀ v ∈ rest, (w.forward d uid).find v = w.find v := by
        intro v hv
        have hne : v ≠ uid := fun he => hnot (he ▸ hv)
        rw [find_forward ht, if_neg hne]
      refine ⟨h.distinct, ?_, ?_, ?_, ?_⟩
      · have hcopies : rest.filterMap ((w.forward d uid).copyOf d) =
            rest.filterMap (w.copyOf d) := by
          refine List.filterMap_congr ?_
          intro v hv
          rw [copyOf, copyOf, hother v hv]
        rw [h.gmail, gmail_forward, hcopies, List.append_assoc]
        congr 1
        cases hc : w.copyOf d uid with
        | none => simp [hc]
        | some copy => simp [hc]
      · intro v
        rw [h.find, find_forward ht]
        by_cases hv : v = uid
        · simp [hv]
        · simp [hv]
      · intro v hv m hf
        rcases List.mem_cons.mp hv with rfl | hv
        · obtain ⟨m', hm', htrashed⟩ := trashed_forward (d := d) hf
          refine ⟨m', h.kept m' hm' ?_, htrashed⟩
          intro u _
          simp [Message.isAt, htrashed.1, ht]
        · exact h.trashed v hv m (hother v hv ▸ hf)
      · intro m hm hat
        refine h.kept m (mem_forward hm (hat uid List.mem_cons_self)) ?_
        exact fun u hu => hat u (List.mem_cons_of_mem _ hu)

/-! ## The messages that are due -/

/-- The messages neither `\Deleted` nor quarantined. -/
def eligible (k : Keywords) (w : World) : List ℕ := w.live (fun m => !matchesAny m.flags k.quarantine)

theorem mem_live_find (hw : w.InboxDistinct) {p : Message → Bool} {v : ℕ} :
    v ∈ w.live p ↔ ∃ m, w.find v = some m ∧ m.has deletedFlag = false ∧ p m = true := by
  rw [mem_live]
  constructor
  · rintro ⟨m, hm, hat, hp⟩
    exact ⟨m, hw.find_eq hm hat, hp⟩
  · rintro ⟨m, hf, hp⟩
    obtain ⟨hm, hat⟩ := World.find_some hf
    exact ⟨m, hm, hat, hp⟩

theorem mem_drop_of_nodup {l : List ℕ} (hl : l.Nodup) (n v : ℕ) :
    v ∈ l.drop n ↔ v ∈ l ∧ v ∉ l.take n := by
  have hmem : v ∈ l ↔ v ∈ l.take n ∨ v ∈ l.drop n := by
    rw [← List.mem_append, List.take_append_drop]
  have hdisjoint : v ∈ l.take n → v ∉ l.drop n :=
    fun ht hd => List.disjoint_take_drop hl (Nat.le_refl n) ht hd
  tauto

/-- After a prefix of the queue has been forwarded, the rest of it is the queue. -/
theorem Forwarded.eligible {d : Delivery} {k : Keywords} {w w' : World} {n : ℕ}
    (hw : w.InboxDistinct) (h : Forwarded d w w' ((w.eligible k).take n)) :
    w'.eligible k = (w.eligible k).drop n := by
  have hsorted : (World.eligible k w).SortedLT := hw.live_sorted _
  refine (h.distinct.live_sorted _).eq_of_mem_iff hsorted.pairwise.drop.sortedLT ?_
  intro v
  rw [mem_drop_of_nodup hsorted.nodup, mem_live_find h.distinct, h.find]
  by_cases hv : v ∈ (World.eligible k w).take n
  · simp [hv]
  · simp only [hv, if_false, not_false_eq_true, and_true]
    exact (mem_live_find hw).symm

end World

/-! ## The methods of the session -/

/-- The folder `trash_folder` finds. -/
def Provider.trashOf (P : Provider) (w : World) : Option String :=
  match P.trash with
  | some name =>
      if name = "" then trashFolderCandidates.find? (fun f => decide (f ∈ w.folders)) else some name
  | none => trashFolderCandidates.find? (fun f => decide (f ∈ w.folders))

namespace ICloudMailbox

variable {P : Provider} {T : ℚ → Prop} {self : ICloudMailbox} {w : World} {m : Message} {uid : ℕ}

theorem fetchMessage_returns (hc : self.connected = true) (hf : w.find uid = some m) :
    (fetchMessage uid).Returns (P.serving T) self w ⟨uid, m.raw, m.flags⟩ self w := by
  have hfetch : (call (.fetch [uid] .message) : Mailbox Fetched).Returns (P.serving T) self w
      (w.fetchInbox [uid] .message) self w := Provider.returns_call (fun _ => rfl)
  have hlookup : (w.fetchInbox [uid] .message).lookup uid = some (m.item .message) := by
    rw [lookup_fetchInbox, if_pos List.mem_cons_self, hf]
    rfl
  have hflags : reportedFlags (w.fetchInbox [uid] .message) uid = m.flags := by
    rw [reportedFlags, hlookup]
    rfl
  refine ((client_returns hc).bind hfetch).attempt.bind ?_
  dsimp only
  rw [hlookup, hflags]
  exact Routine.returns_pure _

theorem encodeAscii_returns {keyword : String} (hk : IsKeyword keyword) :
    (encodeAscii keyword).Returns (P.serving T) self w () self w := by
  rw [encodeAscii, if_pos hk.ascii]
  exact Routine.returns_pure ()

theorem addKeyword_returns (hc : self.connected = true) (hf : w.find uid = some m)
    {keyword : String} (hk : IsKeyword keyword) :
    (addKeyword uid keyword).Returns (P.serving T) self w () self
      (w.store uid (addFlag keyword)) := by
  have hat := (World.find_some hf).2
  have hfind : (w.store uid (addFlag keyword)).find uid =
      some (m.withFlags (addFlag keyword m.flags)) := by
    rw [World.find_store, hf, Option.map_some, World.stored_of_isAt _ hat]
  have hmarked : hasFlag (addFlag keyword m.flags) keyword = true := by simp
  have hstore : (storeKeyword uid keyword).Returns (P.serving T) self w (addFlag keyword m.flags)
      self (w.store uid (addFlag keyword)) := by
    have hcall : (call (.addFlags uid keyword) : Mailbox Stored).Returns (P.serving T) self w
        ((w.store uid (addFlag keyword)).storedFlags uid) self
        (w.store uid (addFlag keyword)) := Provider.returns_call (fun _ => rfl)
    have hreply : (((w.store uid (addFlag keyword)).storedFlags uid).lookup uid).getD [] =
        addFlag keyword m.flags := by
      rw [lookup_storedFlags hfind]
      rfl
    refine (client_returns hc).bind ((encodeAscii_returns hk).bind (hcall.bind ?_))
    rw [hreply, if_pos hmarked]
    exact Routine.returns_pure _
  refine hstore.attempt.bind ?_
  dsimp only
  rw [if_pos hmarked]
  exact Routine.returns_pure ()

theorem firstExisting_returns (hc : self.connected = true) (candidates : List String) :
    (firstExisting candidates).Returns (P.serving T) self w
      (candidates.find? (fun f => decide (f ∈ w.folders))) self w := by
  induction candidates with
  | nil => exact Routine.returns_pure _
  | cons candidate rest ih =>
      have hexists : (call (.folderExists candidate) : Mailbox Bool).Returns (P.serving T) self w
          (decide (candidate ∈ w.folders)) self w := Provider.returns_call (fun _ => rfl)
      refine (client_returns hc).bind (hexists.bind ?_)
      by_cases hin : candidate ∈ w.folders
      · simp only [hin, decide_true, List.find?_cons, if_true]
        exact Routine.returns_pure _
      · simp only [hin, decide_false, List.find?_cons, Bool.false_eq_true, if_false]
        exact ih

/-- The session knows the Trash, or will find it. -/
def KnowsTrash (P : Provider) (folder : String) (self : ICloudMailbox) (w : World) : Prop :=
  self.trashFolder = some folder ∨ (self.trashFolder = none ∧ P.trashOf w = some folder)

theorem trashConstant_returns (hx : P.exportsTrash = true) :
    (call .trashConstant : Mailbox Unit).Returns (P.serving T) self w () self w := by
  refine Provider.returns_call (fun now => ?_)
  simp [Provider.reply, hx]

theorem trashFolderName_returns (hx : P.exportsTrash = true) (hc : self.connected = true)
    {folder : String} (ht : KnowsTrash P folder self w) :
    trashFolderName.Returns (P.serving T) self w folder { self with trashFolder := some folder }
      w := by
  refine Routine.returns_getSelf.bind ?_
  rcases ht with ht | ⟨hnone, hfound⟩
  · have hself : { self with trashFolder := some folder } = self := by rw [← ht]
    rw [hself, ht]
    exact Routine.returns_pure _
  · have hfind : findTrashFolder.Returns (P.serving T) self w (some folder) self w := by
      have hcall : (call .findTrash : Mailbox (Option String)).Returns (P.serving T) self w
          P.trash self w := Provider.returns_call (fun _ => rfl)
      refine (client_returns hc).bind ((trashConstant_returns hx).bind (hcall.bind ?_))
      unfold Provider.trashOf at hfound
      cases htrash : P.trash with
      | none =>
          rw [htrash] at hfound
          rw [← hfound]
          exact firstExisting_returns hc _
      | some name =>
          rw [htrash] at hfound
          dsimp only at hfound ⊢
          split
          · next hempty =>
            rw [if_pos hempty] at hfound
            rw [← hfound]
            exact firstExisting_returns hc _
          · next hname =>
            rw [if_neg hname] at hfound
            rw [hfound]
            exact Routine.returns_pure _
    rw [hnone]
    exact hfind.attempt.bind
      ((Routine.returns_modifySelf _).bind (Routine.returns_pure _))

/-- Without the name `imapclient.TRASH` no folder is found, and the server is not asked for one. -/
theorem trashFolderName_raises (hx : P.exportsTrash = false) (hc : self.connected = true)
    (hnone : self.trashFolder = none) :
    trashFolderName.Safe (P.serving T) .alone (fun r self' w' =>
      (∃ text, r = .error (.mailboxError text)) ∧ self' = self ∧ w' = w) self w := by
  rw [trashFolderName, Routine.safe_bind, Routine.safe_getSelf, Routine.after_ok, hnone]
  dsimp only
  rw [Routine.safe_bind, Routine.safe_attempt, findTrashFolder]
  refine (client_returns hc).andThen ?_
  rw [Routine.safe_bind]
  refine Routine.safe_call_alone.mpr ?_
  rintro r w' ⟨now, -, rfl, rfl⟩
  simp only [Provider.reply, Provider.after, hx]
  exact ⟨⟨_, rfl⟩, rfl, rfl⟩

theorem moveToFolder_returns (hmove : P.move = true) (hc : self.connected = true) (uid : ℕ)
    (folder : String) :
    (moveToFolder uid folder).Returns (P.serving T) self w () self
      ((w.withFolder folder).moveTo uid folder) := by
  have hfolder : (createOnDemand folder).Returns (P.serving T) self w () self
      (w.withFolder folder) := by
    have hexists : (call (.folderExists folder) : Mailbox Bool).Returns (P.serving T) self w
        (decide (folder ∈ w.folders)) self w := Provider.returns_call (fun _ => rfl)
    refine hexists.bind ?_
    unfold World.withFolder
    by_cases hin : folder ∈ w.folders
    · simp only [hin, decide_true, if_true]
      exact Routine.returns_pure _
    · simp only [hin, decide_false, Bool.false_eq_true, if_false]
      exact Provider.returns_call (fun _ => rfl)
  have hcapable : ∀ w, (call (.hasCapability "MOVE") : Mailbox Bool).Returns (P.serving T) self w
      true self w := by
    refine fun w => Provider.returns_call (fun now => ?_)
    simp [Provider.reply, hmove]
  have hcall : ∀ w, (call (.move uid folder) : Mailbox Unit).Returns (P.serving T) self w
      () self (w.moveTo uid folder) := fun w => Provider.returns_call (fun _ => rfl)
  refine (client_returns hc).bind (Routine.Returns.bind (Routine.Returns.attempt
    (hfolder.bind ((hcapable _).bind (hcall _)))) (Routine.returns_pure _))

end ICloudMailbox

/-! ## One message -/

theorem hasFlag_of_canonical {m : Message} (h : m.Canonical) {name : String}
    (hname : name ∈ ["\\Seen", "\\Flagged"]) : decide (name ∈ m.flags) = m.has name := by
  rw [Message.has, Bool.eq_iff_iff, decide_eq_true_eq, hasFlag_iff]
  constructor
  · intro hin
    exact ⟨name, hin, rfl⟩
  · rintro ⟨flag, hflag, hlower⟩
    rw [← h flag hflag name hname hlower]
    exact hflag

theorem gmailLabelsFor_eq {m : Message} (h : m.Canonical) (uid : ℕ) (extraLabels : List String) :
    gmailLabelsFor ⟨uid, m.raw, m.flags⟩ extraLabels = m.labels extraLabels := by
  unfold gmailLabelsFor Message.labels FetchedMessage.seen FetchedMessage.flagged
  rw [hasFlag_of_canonical h (by decide), hasFlag_of_canonical h (by decide)]

namespace Forwarder

/-- The run is on its way, with nothing gone wrong. -/
structure Good (P : Provider) (folder : String) (s : RunState) (w : World) : Prop where
  connected : s.mailbox.connected = true
  knows : ICloudMailbox.KnowsTrash P folder s.mailbox w
  rejected : s.rejected = []
  error : s.result.error = none

variable {P : Provider} {T : ℚ → Prop} {o : ForwarderOptions} {s : RunState} {w : World}
  {m : Message} {uid : ℕ}

theorem onMailbox_returns {α : Type} {method : Mailbox α} {a : α} {self' : ICloudMailbox}
    {w' : World} (h : method.Returns (P.serving T) s.mailbox w a self' w') :
    (onMailbox method).Returns (P.serving T) s w a { s with mailbox := self' } w' := h.on

theorem count_returns {W : Type} {E : Env Op Reply W} {w : W} (f : SyncResult → SyncResult) :
    (count f).Returns E s w () { s with result := f s.result } w := ⟨rfl, rfl, rfl⟩

theorem trash_returns (hx : P.exportsTrash = true) (hmove : P.move = true)
    (message : FetchedMessage) {folder : String} (hgood : Good P folder s w) :
    (trash message).Returns (P.serving T) s w ()
      { s with
        mailbox := { s.mailbox with trashFolder := some folder }
        result := { s.result with trashed := s.result.trashed + 1 } }
      ((w.withFolder folder).moveTo message.uid folder) := by
  have hissue : (call (.issueTrash message.raw) : Run Unit).Returns (P.serving T) s w () s w :=
    Provider.returns_call (fun _ => rfl)
  have hc : ({ s.mailbox with trashFolder := some folder } : ICloudMailbox).connected = true :=
    hgood.connected
  have htrash : (ICloudMailbox.moveToTrash message.uid).Returns (P.serving T) s.mailbox w ()
      { s.mailbox with trashFolder := some folder }
      ((w.withFolder folder).moveTo message.uid folder) :=
    (ICloudMailbox.trashFolderName_returns hx hgood.connected hgood.knows).bind
      (ICloudMailbox.moveToFolder_returns hmove hc _ _)
  exact hissue.bind ((onMailbox_returns htrash).attempt.bind (count_returns _))

theorem trash_good (hx : P.exportsTrash = true) (hmove : P.move = true) (message : FetchedMessage)
    {folder : String} (hgood : Good P folder s w) : ∃ s', (trash message).Returns (P.serving T) s w ()
      s' ((w.withFolder folder).moveTo message.uid folder) ∧
      Good P folder s' ((w.withFolder folder).moveTo message.uid folder) ∧
      s'.result.remaining = s.result.remaining :=
  ⟨_, trash_returns hx hmove message hgood,
    ⟨hgood.connected, Or.inl rfl, hgood.rejected, hgood.error⟩, rfl⟩

/-- The Trash is not found, and nothing has been done on the way to it. -/
theorem trash_aborts (hx : P.exportsTrash = false) (message : FetchedMessage)
    (hc : s.mailbox.connected = true) (hnone : s.mailbox.trashFolder = none) :
    (trash message).Safe (P.serving T) .alone (fun r s' w' =>
      (∃ text, r = .error (.abortRun text)) ∧ s' = s ∧ w' = w) s w := by
  have hissue : (call (.issueTrash message.raw) : Run Unit).Returns (P.serving T) s w () s w :=
    Provider.returns_call (fun _ => rfl)
  have hmove : (ICloudMailbox.moveToTrash message.uid).Safe (P.serving T) .alone
      (fun r self' w' => (∃ text, r = .error (.mailboxError text)) ∧ self' = s.mailbox ∧ w' = w)
      s.mailbox w := by
    rw [ICloudMailbox.moveToTrash, Routine.safe_bind]
    refine (ICloudMailbox.trashFolderName_raises hx hc hnone).mono ?_
    rintro r self' w' ⟨⟨text, rfl⟩, hsame⟩
    exact ⟨⟨text, rfl⟩, hsame⟩
  refine hissue.andThen ?_
  rw [Routine.safe_bind, Routine.safe_attempt, onMailbox, Routine.safe_on]
  refine hmove.mono ?_
  rintro r self' w' ⟨⟨text, rfl⟩, rfl, rfl⟩
  exact ⟨⟨_, rfl⟩, rfl, rfl⟩

/-- Other folders are not touched by what is done in the INBOX. -/
theorem Good.inbox {folder : String} {w' : World} (h : Good P folder s w)
    (hfolders : w'.folders = w.folders) : Good P folder s w' where
  connected := h.connected
  knows := by
    refine h.knows.imp_right (And.imp_right ?_)
    unfold Provider.trashOf
    rw [hfolders]
    exact id
  rejected := h.rejected
  error := h.error

/-- **A message of the queue, up to the Trash**: Gmail has it, it is marked, and what is left is to
    move it. -/
theorem process_delivers (hgmail : ∀ raw, ∃ id, P.gmail raw = .ok id) (d : Delivery)
    (hd : d.inserted = o.keywords.inserted) (hc : s.mailbox.connected = true)
    (hf : w.find uid = some m) (hcanonical : m.Canonical)
    (hquarantine : matchesAny m.flags o.keywords.quarantine = false)
    {Q : Except Exc Unit → RunState → World → Prop}
    (htrash : ∀ s' : RunState, s'.mailbox = s.mailbox → s'.rejected = s.rejected →
      s'.result.error = s.result.error → s'.result.remaining = s.result.remaining →
      (trash ⟨uid, m.raw, m.flags⟩).Safe (P.serving T) .alone Q s' (w.deliver d uid)) :
    (process o d.extraLabels uid).Safe (P.serving T) .alone Q s w := by
  have hfetch := (onMailbox_returns (s := s) (T := T) (P := P)
    (ICloudMailbox.fetchMessage_returns hc hf)).attempt
  have hnot : o.keywords.quarantine.any
      (FetchedMessage.hasKeyword ⟨uid, m.raw, m.flags⟩) = false := hquarantine
  refine hfetch.andThen ?_
  by_cases hin : m.has o.keywords.inserted = true
  · -- the marker is there: the message only has to go
    have hdeliver : w.deliver d uid = w := by
      rw [World.deliver, hf]
      simp only [hd, hin, if_true]
    have hhas : (FetchedMessage.hasKeyword ⟨uid, m.raw, m.flags⟩ o.keywords.inserted) = true := hin
    have htrash := htrash s rfl rfl rfl rfl
    rw [hdeliver] at htrash
    dsimp only
    rw [hnot, hhas]
    exact htrash
  · rw [Bool.not_eq_true] at hin
    have hdeliver : w.deliver d uid =
        (w.accept m.raw (m.labels d.extraLabels)).store uid (addFlag o.keywords.inserted) := by
      rw [World.deliver, hf]
      simp only [hd, hin, Bool.false_eq_true, if_false]
    have hhas : (FetchedMessage.hasKeyword ⟨uid, m.raw, m.flags⟩ o.keywords.inserted) = false := hin
    obtain ⟨id, hid⟩ := hgmail m.raw
    have hinsert : (call (.insertRaw m.raw (gmailLabelsFor ⟨uid, m.raw, m.flags⟩ d.extraLabels)) :
        Run String).Returns (P.serving T) s w id s (w.accept m.raw (m.labels d.extraLabels)) := by
      rw [gmailLabelsFor_eq hcanonical]
      exact Provider.returns_call (fun _ => hid)
    have hf₁ : (w.accept m.raw (m.labels d.extraLabels)).find uid = some m := hf
    -- Gmail has the message: it is counted and marked
    have hmark : (onMailbox (ICloudMailbox.addKeyword uid o.keywords.inserted)).Returns
        (P.serving T)
        { s with result := { s.result with forwarded := s.result.forwarded + 1 } }
        (w.accept m.raw (m.labels d.extraLabels)) ()
        { s with result := { s.result with forwarded := s.result.forwarded + 1 } }
        ((w.accept m.raw (m.labels d.extraLabels)).store uid (addFlag o.keywords.inserted)) :=
      onMailbox_returns (ICloudMailbox.addKeyword_returns hc hf₁ o.keywords.insertedOk)
    have htrash := htrash
      { s with result := { s.result with forwarded := s.result.forwarded + 1 } } rfl rfl rfl rfl
    rw [hdeliver] at htrash
    dsimp only
    rw [hnot, hhas]
    exact hinsert.attempt.andThen ((count_returns _).andThen (hmark.attempt.andThen htrash))

theorem folders_deliver (d : Delivery) (w : World) (uid : ℕ) :
    (w.deliver d uid).folders = w.folders := by
  unfold World.deliver
  split
  · rfl
  · split <;> rfl

/-- A message of the queue is forwarded. -/
theorem process_good (hx : P.exportsTrash = true) (hmove : P.move = true)
    (hgmail : ∀ raw, ∃ id, P.gmail raw = .ok id) (extraLabels : List String) {folder : String}
    (hgood : Good P folder s w) (hf : w.find uid = some m) (hcanonical : m.Canonical)
    (hquarantine : matchesAny m.flags o.keywords.quarantine = false) :
    (process o extraLabels uid).Safe (P.serving T) .alone (fun r s' w' => r = .ok () ∧
      w' = w.forward ⟨o.keywords.inserted, extraLabels, folder⟩ uid ∧ Good P folder s' w' ∧
      s'.result.remaining = s.result.remaining) s w := by
  refine process_delivers hgmail ⟨o.keywords.inserted, extraLabels, folder⟩ rfl hgood.connected hf
    hcanonical hquarantine (fun s₁ hmailbox hrejected herror hremaining => ?_)
  have hgood₁ : Good P folder s₁ (w.deliver ⟨o.keywords.inserted, extraLabels, folder⟩ uid) :=
    Good.inbox (w := w) ⟨hmailbox ▸ hgood.connected, hmailbox ▸ hgood.knows,
      hrejected.trans hgood.rejected, herror.trans hgood.error⟩ (folders_deliver _ w uid)
  obtain ⟨s', htrash, hgood', hremaining'⟩ := trash_good (T := T) hx hmove
    ⟨uid, m.raw, m.flags⟩ hgood₁
  refine htrash.mono ?_
  rintro r s₂ w₂ ⟨rfl, rfl, rfl⟩
  exact ⟨rfl, rfl, hgood', hremaining'.trans hremaining⟩

/-- A message of the queue is delivered and stays. -/
theorem process_aborts (hx : P.exportsTrash = false)
    (hgmail : ∀ raw, ∃ id, P.gmail raw = .ok id) (d : Delivery)
    (hd : d.inserted = o.keywords.inserted) (hc : s.mailbox.connected = true)
    (hnone : s.mailbox.trashFolder = none) (hf : w.find uid = some m) (hcanonical : m.Canonical)
    (hquarantine : matchesAny m.flags o.keywords.quarantine = false) :
    (process o d.extraLabels uid).Safe (P.serving T) .alone (fun r s' w' =>
      (∃ text, r = .error (.abortRun text)) ∧ s'.mailbox = s.mailbox ∧ s'.rejected = s.rejected ∧
      w' = w.deliver d uid) s w := by
  refine process_delivers hgmail d hd hc hf hcanonical hquarantine
    (fun s₁ hmailbox hrejected _ _ => ?_)
  refine (trash_aborts hx _ (hmailbox ▸ hc) (hmailbox ▸ hnone)).mono ?_
  rintro r s' w' ⟨hr, rfl, rfl⟩
  exact ⟨hr, hmailbox, hrejected, rfl⟩

/-! ## The readings of the clock -/

/-- The provider, with a clock of which one reading is taken after the other. -/
def onClock (P : Provider) (clock : ℕ → ℚ) (x : World × ℕ) (op : Op) :
    Reply op × (World × ℕ) :=
  (P.reply (clock x.2) x.1 op,
    (P.after (clock x.2) x.1 op, if op = .clock then x.2 + 1 else x.2))

/-- The same, as an environment. -/
def Ticking (P : Provider) (clock : ℕ → ℚ) : Env Op Reply (World × ℕ) := fun x op r x' =>
  (r, x') = onClock P clock x op

/-- How many of `n` messages are begun when the reading `i` is the next. -/
def begun (clock : ℕ → ℚ) (budget started : ℚ) : ℕ → ℕ → ℕ
  | _, 0 => 0
  | i, n + 1 =>
      if clock i - started > budget then 0 else begun clock budget started (i + 1) n + 1

variable {clock : ℕ → ℚ} {i : ℕ}

theorem begun_le (budget started : ℚ) (n : ℕ) : begun clock budget started i n ≤ n := by
  induction n generalizing i with
  | zero => exact Nat.le_refl 0
  | succ n ih =>
      rw [begun]
      split
      · exact Nat.zero_le _
      · exact Nat.succ_le_succ ih

theorem begun_all {budget started : ℚ} (h : ∀ i, clock i - started ≤ budget) (n : ℕ) :
    begun clock budget started i n = n := by
  induction n generalizing i with
  | zero => rfl
  | succ n ih => rw [begun, if_neg (Rat.not_lt.mpr (h i)), ih]

/-- Nothing is begun exactly if there is nothing, or the first reading is beyond the budget. -/
theorem begun_eq_zero {budget started : ℚ} {n : ℕ} :
    begun clock budget started i n = 0 ↔ n = 0 ∨ budget < clock i - started := by
  cases n with
  | zero => simp [begun]
  | succ n =>
      rw [begun]
      split
      · next h => simp [h]
      · next h => simp [h]

theorem safe_reading {Q : Except Exc ℚ → RunState → World × ℕ → Prop}
    (h : Q (.ok (clock i)) s (w, i + 1)) :
    (call .clock : Run ℚ).Safe (Ticking P clock) .alone Q s (w, i) := by
  refine Routine.safe_call_alone.mpr ?_
  rintro r x hE
  obtain ⟨rfl, rfl⟩ := Prod.mk.inj hE
  exact h

/-- The readings taken so far, which no other call changes. -/
def readings (P : Provider) (clock : ℕ → ℚ) :
    Growth (Ticking P clock) .alone (fun op => op ≠ .clock) where
  grow := fun x x' => x'.2 = x.2
  refl := fun _ => rfl
  trans := fun h h' => h'.trans h
  rely := by
    rintro x x' rfl
    rfl
  step := by
    rintro x op r x' hop - hE
    obtain ⟨-, rfl⟩ := Prod.mk.inj hE
    exact if_neg hop

/-- What takes no reading does on this clock what it does at any time. -/
theorem safe_ticking {σ α : Type} {m : Py σ α} (hm : m.Uses (fun op => op ≠ .clock))
    {Q : Except Exc α → σ → World → Prop} {s : σ}
    (h : m.Safe (P.serving fun _ => True) .alone Q s w) :
    m.Safe (Ticking P clock) .alone (fun r s' x' => Q r s' x'.1 ∧ x'.2 = i) s (w, i) := by
  have hserving : ∀ {x : World × ℕ} {op : Op} {r : Reply op} {x' : World × ℕ}, op ≠ .clock →
      Ticking P clock x op r x' → P.serving (fun _ => True) x.1 op r x'.1 := by
    rintro x op r x' - hE
    obtain ⟨rfl, rfl⟩ := Prod.mk.inj hE
    exact ⟨_, trivial, rfl, rfl⟩
  have hpull : m.Safe (Ticking P clock) .alone (fun r s' x' => Q r s' x'.1) s (w, i) :=
    Routine.Safe.pull Prod.fst hserving hm h
  have hcount : m.Safe (Ticking P clock) .alone
      (fun _ _ x' => (readings P clock).grow (w, i) x') s (w, i) :=
    Routine.Safe.of_uses (readings P clock) hm (fun _ hop => hop) (fun _ _ _ _ => trivial)
  exact hpull.and hcount

theorem returns_ticking {σ α : Type} {m : Py σ α} (hm : m.Uses (fun op => op ≠ .clock)) {a : α}
    {s s' : σ} {w' : World} (h : m.Returns (P.serving fun _ => True) s w a s' w') :
    m.Returns (Ticking P clock) s (w, i) a s' (w', i) := by
  refine (safe_ticking hm h).mono ?_
  rintro r s₁ ⟨w₁, j⟩ ⟨⟨rfl, rfl, rfl⟩, rfl⟩
  exact ⟨rfl, rfl, rfl⟩

theorem ne_clock_of_isLook {op : Op} (h : op.isLook = true) : op ≠ .clock := by
  rintro rfl
  exact absurd h Bool.false_ne_true

theorem ne_clock_of_isOn {op : Op} (h : op.isOn uid = true) : op ≠ .clock := by
  rintro rfl
  exact absurd h Bool.false_ne_true

theorem process_reads_no_clock (extraLabels : List String) :
    (process o extraLabels uid).Uses (fun op => op ≠ .clock) :=
  process_uses (fun _ _ => ne_clock_of_isOn) (by simp) (by simp) extraLabels uid

/-! ## The loop -/

/-- **The loop stops after a prefix of the queue**: the messages that are begun before a reading is
    beyond the budget. -/
theorem processAll_good (hmove : P.move = true) (hgmail : ∀ raw, ∃ id, P.gmail raw = .ok id)
    {extraLabels : List String} {folder : String} (ht : folderName folder ≠ "INBOX")
    (started : ℚ) {uids : List ℕ} (hnodup : uids.Nodup)
    (hdue : ∀ uid ∈ uids, ∃ m, w.find uid = some m ∧ m.Canonical ∧
      matchesAny m.flags o.keywords.quarantine = false)
    (hgood : Good P folder s w) (hremaining : s.result.remaining = 0)
    (hx : P.exportsTrash = true ∨ begun clock o.timeBudgetSeconds started i uids.length = 0) :
    (processAll o extraLabels started uids).Safe (Ticking P clock) .alone (fun r s' x' =>
      r = .ok () ∧ Good P folder s' x'.1 ∧
      x'.1 = (uids.take (begun clock o.timeBudgetSeconds started i uids.length)).foldl
        (World.forward ⟨o.keywords.inserted, extraLabels, folder⟩) w ∧
      s'.result.remaining =
        uids.length - begun clock o.timeBudgetSeconds started i uids.length) s (w, i) := by
  induction uids generalizing s w i with
  | nil => exact ⟨rfl, hgood, rfl, hremaining⟩
  | cons uid rest ih =>
      obtain ⟨hnot, hrest⟩ := List.nodup_cons.mp hnodup
      rw [List.length_cons, begun] at hx ⊢
      rw [processAll, Routine.safe_bind]
      refine safe_reading ?_
      rw [Routine.after_ok]
      by_cases hbeyond : clock i - started > o.timeBudgetSeconds
      · -- the budget is used up, and the message waits for the next run
        rw [if_pos hbeyond, if_pos hbeyond]
        exact ⟨rfl, ⟨hgood.connected, hgood.knows, hgood.rejected, hgood.error⟩, rfl, rfl⟩
      · rw [if_neg hbeyond] at hx
        rw [if_neg hbeyond, if_neg hbeyond]
        have hx : P.exportsTrash = true := hx.resolve_right (Nat.succ_ne_zero _)
        obtain ⟨m, hf, hcanonical, hquarantine⟩ := hdue uid List.mem_cons_self
        rw [Routine.safe_bind, Routine.safe_attempt]
        refine (safe_ticking (process_reads_no_clock extraLabels)
          (process_good hx hmove hgmail extraLabels hgood hf hcanonical hquarantine)).mono ?_
        rintro r s' ⟨w', j⟩ ⟨⟨rfl, hw', hgood', hremaining'⟩, hj⟩
        dsimp only at hw' hgood' hj
        subst hw' hj
        have hdue' : ∀ v ∈ rest, ∃ m, (w.forward ⟨o.keywords.inserted, extraLabels, folder⟩
            uid).find v = some m ∧ m.Canonical ∧
              matchesAny m.flags o.keywords.quarantine = false := by
          intro v hv
          have hne : v ≠ uid := fun he => hnot (he ▸ hv)
          rw [World.find_forward (d := ⟨o.keywords.inserted, extraLabels, folder⟩) ht, if_neg hne]
          exact hdue v (List.mem_cons_of_mem _ hv)
        rw [Routine.after_ok]
        refine (ih hrest hdue' hgood' (hremaining'.trans hremaining) (Or.inl hx)).mono ?_
        rintro r s'' ⟨w'', j⟩ ⟨rfl, hgood'', hw'', hleft⟩
        refine ⟨rfl, hgood'', hw'', ?_⟩
        rw [hleft]
        omega

/-- **The loop stops at the first message it begins**, which is delivered and stays. -/
theorem processAll_aborts (hx : P.exportsTrash = false)
    (hgmail : ∀ raw, ∃ id, P.gmail raw = .ok id) (d : Delivery)
    (hd : d.inserted = o.keywords.inserted) (started : ℚ) {rest : List ℕ} (hf : w.find uid = some m)
    (hcanonical : m.Canonical) (hquarantine : matchesAny m.flags o.keywords.quarantine = false)
    (hc : s.mailbox.connected = true) (hnone : s.mailbox.trashFolder = none)
    (hwithin : ¬ clock i - started > o.timeBudgetSeconds) :
    (processAll o d.extraLabels started (uid :: rest)).Safe (Ticking P clock) .alone
      (fun r s' x' => r = .ok () ∧ s'.mailbox.connected = true ∧ s'.rejected = s.rejected ∧
        x'.1 = w.deliver d uid ∧ s'.result.remaining = rest.length + 1 ∧
        ∃ text, s'.result.error = some text) s (w, i) := by
  rw [processAll, Routine.safe_bind]
  refine safe_reading ?_
  rw [Routine.after_ok, if_neg hwithin, Routine.safe_bind, Routine.safe_attempt]
  refine (safe_ticking (process_reads_no_clock d.extraLabels)
    (process_aborts hx hgmail d hd hc hnone hf hcanonical hquarantine)).mono ?_
  rintro r s' ⟨w', j⟩ ⟨⟨⟨text, rfl⟩, hmailbox, hrejected, rfl⟩, -⟩
  exact ⟨rfl, hmailbox ▸ hc, hrejected, rfl, rfl, text, rfl⟩

/-! ## The run -/

/-- The labels of a run besides the standard ones. -/
def extraLabelsOf (P : Provider) (o : ForwarderOptions) : List String :=
  match o.label with
  | none => []
  | some name => if name = "" then [] else [P.label name]

theorem extraLabelIds_returns :
    (extraLabelIds o.label).Returns (P.serving T) s w (extraLabelsOf P o) s w := by
  unfold extraLabelIds extraLabelsOf
  cases o.label with
  | none => exact Routine.returns_pure _
  | some name =>
      dsimp only
      split
      · exact Routine.returns_pure _
      · have hlabel : (call (.ensureLabel name) : Run String).Returns (P.serving T) s w
            (P.label name) s w := Provider.returns_call (fun _ => rfl)
        exact hlabel.bind (Routine.returns_pure _)

theorem connect_returns (self : ICloudMailbox) :
    ICloudMailbox.connect.Returns (P.serving T) self w ()
      { self with
        connected := true
        uidvalidity := 1
        supportsIdle := false
        supportsKeywords := true } w := by
  have hopenClient : (call .openClient : Mailbox Unit).Returns (P.serving T) self w () self w :=
    Provider.returns_call (fun _ => rfl)
  have hlogin : (call .login : Mailbox Unit).Returns (P.serving T) self w () self w :=
    Provider.returns_call (fun _ => rfl)
  have hselect : (call (.selectFolder "INBOX" self.readonly) : Mailbox SelectInfo).Returns
      (P.serving T) self w ⟨some 1, some ["\\Seen", "\\Deleted", "\\*"]⟩ self w :=
    Provider.returns_call (fun _ => rfl)
  have hsession : ICloudMailbox.openSession.Returns (P.serving T) self w
      ⟨some 1, some ["\\Seen", "\\Deleted", "\\*"]⟩ self w :=
    Routine.returns_getSelf.bind (hopenClient.bind (hlogin.bind hselect))
  have hidle : ∀ self : ICloudMailbox, (call (.hasCapability "IDLE") : Mailbox Bool).Returns
      (P.serving T) self w false self w :=
    fun self => Provider.returns_call (fun _ => rfl)
  exact hsession.attempt.bind ((Routine.returns_modifySelf _).bind
    ((hidle _).bind (Routine.returns_modifySelf _)))

theorem close_returns {self : ICloudMailbox} (hc : self.connected = true) :
    ICloudMailbox.close.Returns (P.serving T) self w () { self with connected := false } w := by
  have hlogout : ∀ self : ICloudMailbox, (call .logout : Mailbox Unit).Returns (P.serving T) self w
      () self w := fun self => Provider.returns_call (fun _ => rfl)
  refine Routine.returns_getSelf.bind ((Routine.returns_modifySelf _).bind ?_)
  rw [if_pos hc]
  exact (hlogout _).attempt.bind (Routine.returns_pure _)

/-- Nothing stands in the way of a run from `w`, and its Trash is `folder`. -/
structure GoodPath (P : Provider) (folder : String) (w : World) : Prop where
  distinct : w.InboxDistinct
  move : P.move = true
  gmail : ∀ raw, ∃ id, P.gmail raw = .ok id
  trash : P.trashOf w = some folder
  elsewhere : folderName folder ≠ "INBOX"
  canonical : ∀ m ∈ w.messages, m.folder = "INBOX" → m.Canonical

/-- What the runs with these options do with a message. -/
def deliveryOf (P : Provider) (o : ForwarderOptions) (folder : String) : Delivery :=
  ⟨o.keywords.inserted, extraLabelsOf P o, folder⟩

section run

variable {folder : String} (h : GoodPath P folder w)

include h

theorem GoodPath.due {k : Keywords} : ∀ uid ∈ w.eligible k, ∃ m, w.find uid = some m ∧
    m.Canonical ∧ matchesAny m.flags k.quarantine = false := by
  intro uid huid
  obtain ⟨m, hm, hat, -, hnot⟩ := World.mem_live.mp huid
  refine ⟨m, h.distinct.find_eq hm hat, h.canonical m hm (Message.isAt_iff.mp hat).1, ?_⟩
  rw [← Bool.not_eq_true']
  exact hnot

/-- **A run, around its loop.** -/
theorem run_loops (clock : ℕ → ℚ) {Q : SyncResult → World → Prop}
    (hloop : ∀ s : RunState, Good P folder s w → s.mailbox.trashFolder = none →
      s.result.remaining = 0 →
      (processAll o (extraLabelsOf P o) (clock 0) (w.eligible o.keywords)).Safe (Ticking P clock)
        .alone (fun r s' x' => r = .ok () ∧ s'.mailbox.connected = true ∧ s'.rejected = [] ∧
          Q s'.result x'.1) s (w, 1)) :
    (run o).Safe (Ticking P clock) .alone (fun r _ x' => ∃ result duration,
      r = .ok { result with durationSeconds := duration } ∧ Q result x'.1) (initial o) (w, 0) := by
  have hlook : ∀ {σ α : Type} {m : Py σ α}, m.Uses (fun op => op.isLook = true) →
      m.Uses (fun op => op ≠ .clock) := fun hm => hm.mono (fun _ => ne_clock_of_isLook)
  rw [run, Routine.safe_bind]
  refine safe_reading ?_
  rw [Routine.after_ok, Routine.safe_bind, Routine.safe_attempt, withMailbox]
  refine (returns_ticking (Routine.uses_on (hlook ICloudMailbox.connect_glances.looks))
    (onMailbox_returns (connect_returns _))).andThen ?_
  rw [Routine.safe_bind, Routine.safe_attempt, session]
  -- the session is open, and the loop is reached with the queue
  have hrequire : ∀ s : RunState, s.mailbox.supportsKeywords = true →
      (onMailbox ICloudMailbox.requireKeywords).Returns (P.serving fun _ => True) s w () s w := by
    intro s hkeywords
    refine onMailbox_returns (Routine.returns_getSelf.bind ?_)
    rw [if_pos hkeywords]
    exact Routine.returns_pure ()
  have hclient : ∀ s : RunState,
      (call .gmailClient : Run Unit).Returns (P.serving fun _ => True) s w () s w :=
    fun s => Provider.returns_call (fun _ => rfl)
  have hqueue : ∀ s : RunState, s.mailbox.connected = true →
      (onMailbox (ICloudMailbox.listInboxUids (some o.keywords.quarantine))).Returns
        (P.serving fun _ => True) s w (w.eligible o.keywords) s w :=
    fun s hc => onMailbox_returns (ICloudMailbox.listInboxUids_returns h.distinct hc rfl)
  refine (returns_ticking (Routine.uses_on (hlook ICloudMailbox.requireKeywords_glances.looks))
    (hrequire _ rfl)).andThen ?_
  refine (returns_ticking (Routine.uses_call (by simp)) (hclient _)).andThen ?_
  refine (returns_ticking (extraLabelIds_uses (by simp) o.label) extraLabelIds_returns).andThen ?_
  refine (returns_ticking (Routine.uses_on (hlook (ICloudMailbox.listInboxUids_glances _).looks))
    (hqueue _ rfl)).andThen ((count_returns _).andThen ?_)
  rw [Routine.safe_bind]
  refine Routine.Safe.mono (hloop _ ⟨rfl, Or.inr ⟨rfl, h.trash⟩, rfl, rfl⟩ rfl rfl) ?_
  rintro r s₁ ⟨w₁, i⟩ ⟨rfl, hconnected, hrejected, hQ⟩
  rw [Routine.after_ok, Routine.safe_bind, Routine.safe_getSelf, Routine.after_ok,
    if_pos hrejected, Routine.safe_pure, Routine.after_ok]
  refine (returns_ticking (Routine.uses_on (hlook ICloudMailbox.close_glances.looks))
    (onMailbox_returns (close_returns hconnected))).andThen ?_
  rw [Routine.safe_settle, Routine.after_ok, Routine.safe_bind]
  refine safe_reading ?_
  rw [Routine.after_ok]
  exact ⟨_, _, rfl, hQ⟩

/-- **A run forwards the messages it begins**, where the Trash can be looked up or none is begun. -/
theorem run_good (clock : ℕ → ℚ) (hx : P.exportsTrash = true ∨
      begun clock o.timeBudgetSeconds (clock 0) 1 (w.eligible o.keywords).length = 0) :
    (run o).Safe (Ticking P clock) .alone (fun r _ x' => ∃ result, r = .ok result ∧
      result.error = none ∧
      x'.1 = ((w.eligible o.keywords).take (begun clock o.timeBudgetSeconds (clock 0) 1
        (w.eligible o.keywords).length)).foldl (World.forward (deliveryOf P o folder)) w ∧
      result.remaining = (w.eligible o.keywords).length - begun clock o.timeBudgetSeconds (clock 0) 1
        (w.eligible o.keywords).length) (initial o) (w, 0) := by
  refine Routine.Safe.mono (run_loops h clock (Q := fun result w' => result.error = none ∧
    w' = ((w.eligible o.keywords).take (begun clock o.timeBudgetSeconds (clock 0) 1
      (w.eligible o.keywords).length)).foldl (World.forward (deliveryOf P o folder)) w ∧
    result.remaining = (w.eligible o.keywords).length - begun clock o.timeBudgetSeconds (clock 0) 1
      (w.eligible o.keywords).length) (fun s hgood _ hremaining => ?_)) ?_
  · refine (processAll_good h.move h.gmail h.elsewhere (clock 0) (h.distinct.live_sorted _).nodup
      h.due hgood hremaining hx).mono ?_
    rintro r s' ⟨w', i⟩ ⟨rfl, hgood', hw', hleft⟩
    exact ⟨rfl, hgood'.connected, hgood'.rejected, hgood'.error, hw', hleft⟩
  · rintro r _ x' ⟨result, duration, rfl, herror, hw', hleft⟩
    exact ⟨_, rfl, herror, hw', hleft⟩

/-- **Without the name `imapclient.TRASH` a run ends with an error at the first message it begins**,
    which is in Gmail, marked, and still in the INBOX. -/
theorem run_aborts (clock : ℕ → ℚ) (hx : P.exportsTrash = false) {rest : List ℕ}
    (hqueue : w.eligible o.keywords = uid :: rest)
    (hwithin : ¬ clock 1 - clock 0 > o.timeBudgetSeconds) :
    (run o).Safe (Ticking P clock) .alone (fun r _ x' => ∃ result, r = .ok result ∧
      (∃ text, result.error = some text) ∧ x'.1 = w.deliver (deliveryOf P o folder) uid ∧
      result.remaining = (w.eligible o.keywords).length) (initial o) (w, 0) := by
  refine Routine.Safe.mono (run_loops h clock (Q := fun result w' =>
    (∃ text, result.error = some text) ∧ w' = w.deliver (deliveryOf P o folder) uid ∧
    result.remaining = (w.eligible o.keywords).length) (fun s hgood hnone _ => ?_)) ?_
  · obtain ⟨m, hf, hcanonical, hquarantine⟩ := h.due uid (by rw [hqueue]; exact List.mem_cons_self)
    rw [hqueue]
    refine (processAll_aborts hx h.gmail (deliveryOf P o folder) rfl (clock 0) hf hcanonical
      hquarantine hgood.connected hnone hwithin).mono ?_
    rintro r s' x' ⟨rfl, hconnected, hrejected, hw', hleft, herror⟩
    exact ⟨rfl, hconnected, hrejected.trans hgood.rejected, herror, hw', hleft⟩
  · rintro r _ x' ⟨result, duration, rfl, herror, hw', hleft⟩
    exact ⟨_, rfl, herror, hw', hleft⟩

end run

/-! ## After a run -/

theorem folders_forward (d : Delivery) (w : World) (uid : ℕ) :
    (w.forward d uid).folders = (w.withFolder d.trash).folders := by
  have hdeliver := folders_deliver d w uid
  have hmove : ∀ w : World, (w.moveTo uid d.trash).folders = w.folders := by
    intro w
    unfold World.moveTo
    split <;> rfl
  rw [World.forward, hmove]
  unfold World.withFolder
  rw [hdeliver]
  split
  · exact hdeliver
  · rw [← hdeliver]

/-- The Trash is still the Trash. -/
theorem trashOf_forward {folder : String} (h : P.trashOf w = some folder) {d : Delivery}
    (hd : d.trash = folder) (uid : ℕ) : P.trashOf (w.forward d uid) = some folder := by
  have hcandidate : trashFolderCandidates.find? (fun f => decide (f ∈ w.folders)) = some folder →
      trashFolderCandidates.find? (fun f => decide (f ∈ (w.forward d uid).folders)) =
        some folder := by
    intro hfind
    have hfound := List.find?_some hfind
    have hin : folder ∈ w.folders := of_decide_eq_true hfound
    rw [folders_forward, hd, World.withFolder, if_pos hin]
    exact hfind
  unfold Provider.trashOf at h ⊢
  cases htrash : P.trash with
  | none =>
      rw [htrash] at h
      exact hcandidate h
  | some name =>
      rw [htrash] at h
      dsimp only at h ⊢
      split
      · next hempty => exact hcandidate (by rwa [if_pos hempty] at h)
      · next hname => rwa [if_neg hname] at h

theorem trashOf_foldl {folder : String} (h : P.trashOf w = some folder) {d : Delivery}
    (hd : d.trash = folder) (uids : List ℕ) :
    P.trashOf (uids.foldl (World.forward d) w) = some folder := by
  induction uids generalizing w with
  | nil => exact h
  | cons uid rest ih => exact ih (trashOf_forward h hd uid)

theorem GoodPath.foldl {folder : String} (h : GoodPath P folder w) {d : Delivery}
    (hd : d.trash = folder) {uids : List ℕ} (hnodup : uids.Nodup) :
    GoodPath P folder (uids.foldl (World.forward d) w) := by
  have hf := World.forwarded_foldl (d := d) (hd ▸ h.elsewhere) h.distinct hnodup
  refine ⟨hf.distinct, h.move, h.gmail, trashOf_foldl h.trash hd uids, h.elsewhere, ?_⟩
  intro m hm hfolder
  -- a message of the INBOX was there before
  have hat : m.isAt m.uid = true := Message.isAt_iff.mpr ⟨hfolder, rfl⟩
  have hfind := hf.find m.uid
  rw [hf.distinct.find_eq hm hat] at hfind
  split at hfind
  · exact absurd hfind nofun
  · exact h.canonical m (World.find_some hfind.symm).1 hfolder

/-! ## After a run that was in the way of itself -/

/-- The flags of a message after it has been delivered. -/
theorem find_deliver_has {d : Delivery} {v : ℕ} {m' : Message}
    (h : (w.deliver d uid).find v = some m') : ∃ m, w.find v = some m ∧
      (m'.flags = m.flags ∨ m'.flags = addFlag d.inserted m.flags) := by
  by_cases hv : v = uid
  · subst hv
    cases hf : w.find v with
    | none =>
        rw [World.deliver, hf] at h
        dsimp only at h
        rw [hf] at h
        exact absurd h nofun
    | some m =>
        rw [World.find_deliver_self hf] at h
        cases h
        exact ⟨m, rfl, Or.inr rfl⟩
  · rw [World.find_deliver w uid v hv] at h
    exact ⟨m', h, Or.inl rfl⟩

/-- A message that is delivered and stays is still in the queue. -/
theorem eligible_deliver (hw : w.InboxDistinct) {d : Delivery} {k : Keywords}
    (hd : d.inserted = k.inserted) (uid : ℕ) : (w.deliver d uid).eligible k = w.eligible k := by
  have hlive : ∀ m m' : Message, m'.flags = m.flags ∨ m'.flags = addFlag d.inserted m.flags →
      (m'.has deletedFlag = m.has deletedFlag ∧
        matchesAny m'.flags k.quarantine = matchesAny m.flags k.quarantine) := by
    rintro m m' hflags
    unfold Message.has
    rcases hflags with hsame | hadded
    · rw [hsame]
      exact ⟨rfl, rfl⟩
    · rw [hadded, matchesAny_quarantine, matchesAny_quarantine, hd]
      simp [k.insertedOk.ne_deleted.symm, k.inserted_ne_failed.symm, k.inserted_ne_unverified.symm]
  refine ((hw.deliver uid).live_sorted _).eq_of_mem_iff (hw.live_sorted _) (fun v => ?_)
  rw [World.mem_live_find (hw.deliver uid), World.eligible, World.mem_live_find hw]
  constructor
  · rintro ⟨m', hf', hdeleted, hnot⟩
    obtain ⟨m, hf, hflags⟩ := find_deliver_has hf'
    obtain ⟨h₁, h₂⟩ := hlive m m' hflags
    exact ⟨m, hf, h₁ ▸ hdeleted, by rw [← h₂]; exact hnot⟩
  · rintro ⟨m, hf, hdeleted, hnot⟩
    by_cases hv : v = uid
    · subst hv
      obtain ⟨h₁, h₂⟩ := hlive m (m.withFlags (addFlag d.inserted m.flags)) (Or.inr rfl)
      exact ⟨_, World.find_deliver_self hf, h₁.trans hdeleted, by rw [h₂]; exact hnot⟩
    · exact ⟨m, by rw [World.find_deliver w uid v hv]; exact hf, hdeleted, hnot⟩

theorem GoodPath.deliver {folder : String} (h : GoodPath P folder w) {d : Delivery}
    (hd : d.inserted = o.keywords.inserted) (uid : ℕ) : GoodPath P folder (w.deliver d uid) := by
  refine ⟨h.distinct.deliver uid, h.move, h.gmail, ?_, h.elsewhere, ?_⟩
  · have htrash := h.trash
    unfold Provider.trashOf at htrash ⊢
    rwa [folders_deliver]
  · intro m' hm' hfolder flag hflag name hname hsame
    have hat : m'.isAt m'.uid = true := Message.isAt_iff.mpr ⟨hfolder, rfl⟩
    obtain ⟨m, hf, hflags⟩ := find_deliver_has ((h.distinct.deliver uid).find_eq hm' hat)
    obtain ⟨hm, hat'⟩ := World.find_some hf
    have hcanonical := h.canonical m hm (Message.isAt_iff.mp hat').1
    rcases hflags with hkept | hadded
    · exact hcanonical flag (hkept ▸ hflag) name hname hsame
    · rw [hadded, addFlag] at hflag
      split at hflag
      · exact hcanonical flag hflag name hname hsame
      · rcases List.mem_append.mp hflag with hflag | hflag
        · exact hcanonical flag hflag name hname hsame
        · -- the marker is no system flag
          have hslashes : ∀ name ∈ ["\\Seen", "\\Flagged"], '\\' ∈ (lower name).toList := by
            decide
          rw [List.mem_singleton.mp hflag, hd] at hsame
          exact absurd hsame (o.keywords.insertedOk.lower_ne (hslashes name hname))

/-! ## Runs that follow each other -/

/-- The outcome of one run with its own budget and clock, and the account after it. -/
def runOn (P : Provider) (o : ForwarderOptions) (budget : ℚ) (clock : ℕ → ℚ) (w : World) :
    Except Exc SyncResult × World :=
  let options := { o with timeBudgetSeconds := budget }
  let x := (run options).exec (onClock P clock) (initial options) (w, 0)
  (x.1.1, x.2.1)

/-- Runs that follow each other, with their results. -/
inductive Runs (P : Provider) (o : ForwarderOptions) : World → List SyncResult → World → Prop
  | none (w : World) : Runs P o w [] w
  | run {w w' w'' : World} {result : SyncResult} {results : List SyncResult} (budget : ℚ)
      (clock : ℕ → ℚ) (h : runOn P o budget clock w = (.ok result, w'))
      (hs : Runs P o w' results w'') : Runs P o w (result :: results) w''

/-- How many messages of its queue a run begins. -/
def begins (o : ForwarderOptions) (budget : ℚ) (clock : ℕ → ℚ) (w : World) : ℕ :=
  begun clock budget (clock 0) 1 (w.eligible o.keywords).length

/-- The run can look up the Trash, or begins no message: there is none, or the first reading after
    the one it starts with is beyond the budget. -/
def Proceeds (P : Provider) (o : ForwarderOptions) (budget : ℚ) (clock : ℕ → ℚ) (w : World) : Prop :=
  P.exportsTrash = true ∨ w.eligible o.keywords = [] ∨ budget < clock 1 - clock 0

/-- The first `n` messages of the queue have been handled, each of them once. -/
structure Handled (k : Keywords) (d : Delivery) (w w' : World) (n : ℕ) : Prop where
  gmail : w'.gmail = w.gmail ++ ((w.eligible k).take n).filterMap (w.copyOf d)
  eligible : w'.eligible k = (w.eligible k).drop n
  trashed : ∀ uid ∈ (w.eligible k).take n, ∃ m, w.find uid = some m ∧ w'.find uid = none ∧
    ∃ m' ∈ w'.messages, World.IsTrashed d m m'
  untouched : ∀ m ∈ w.messages, (∀ uid ∈ (w.eligible k).take n, m.isAt uid = false) →
    m ∈ w'.messages

section

variable {folder : String} (h : GoodPath P folder w)

include h

theorem GoodPath.handled {k : Keywords} {d : Delivery} (hd : d.trash = folder) (n : ℕ) :
    Handled k d w (((w.eligible k).take n).foldl (World.forward d) w) n := by
  have hnodup : ((w.eligible k).take n).Nodup :=
    (h.distinct.live_sorted _).nodup.sublist (List.take_sublist n _)
  have hf := World.forwarded_foldl (d := d) (hd ▸ h.elsewhere) h.distinct hnodup
  refine ⟨hf.gmail, hf.eligible h.distinct, ?_, hf.kept⟩
  intro uid huid
  obtain ⟨m, hm, -⟩ := h.due uid (List.mem_of_mem_take huid)
  refine ⟨m, hm, ?_, hf.trashed uid huid m hm⟩
  rw [hf.find, if_pos huid]

/-- One run, against the clock. -/
theorem runOn_good {budget : ℚ} {clock : ℕ → ℚ} (hgo : Proceeds P o budget clock w) : ∃ result,
    runOn P o budget clock w = (.ok result, ((w.eligible o.keywords).take
      (begins o budget clock w)).foldl (World.forward (deliveryOf P o folder)) w) ∧
    result.error = none ∧
    result.remaining = (w.eligible o.keywords).length - begins o budget clock w := by
  have hx : P.exportsTrash = true ∨ begins o budget clock w = 0 := by
    refine hgo.imp_right (fun h => begun_eq_zero.mpr ?_)
    rwa [List.length_eq_zero_iff]
  have hexec := Routine.Safe.exec (h := onClock P clock) (x := (w, 0)) id
    (fun _ _ => rfl) (fun _ => rfl) (run_good (o := { o with timeBudgetSeconds := budget }) h clock hx)
  obtain ⟨result, hok, herror, hw', hleft⟩ := hexec
  exact ⟨result, Prod.ext hok hw', herror, hleft⟩

/-- One run that can look up the Trash takes a prefix of the queue. -/
theorem runOn_takes (hx : P.exportsTrash = true) (budget : ℚ) (clock : ℕ → ℚ) : ∃ result n,
    runOn P o budget clock w = (.ok result,
      ((w.eligible o.keywords).take n).foldl (World.forward (deliveryOf P o folder)) w) ∧
    result.error = none ∧ n ≤ (w.eligible o.keywords).length ∧
    result.remaining = (w.eligible o.keywords).length - n ∧
    ((∀ i j, clock j - clock i ≤ budget) → result.remaining = 0) := by
  obtain ⟨result, hrun, herror, hleft⟩ :=
    runOn_good h (show Proceeds P o budget clock w from Or.inl hx)
  refine ⟨result, begins o budget clock w, hrun, herror, begun_le _ _ _, hleft, fun hclock => ?_⟩
  rw [hleft, begins, begun_all (fun i => hclock 0 i), Nat.sub_self]

/-- One run that cannot look up the Trash. -/
theorem runOn_aborts {budget : ℚ} {clock : ℕ → ℚ} (hno : ¬ Proceeds P o budget clock w) :
    ∃ uid ∈ w.eligible o.keywords, ∃ result,
      runOn P o budget clock w = (.ok result, w.deliver (deliveryOf P o folder) uid) ∧
      (w.eligible o.keywords).head? = some uid ∧ (∃ text, result.error = some text) ∧
      result.remaining = (w.eligible o.keywords).length ∧ 0 < begins o budget clock w := by
  unfold Proceeds at hno
  rw [not_or, not_or, Bool.not_eq_true, Rat.not_lt] at hno
  obtain ⟨hx, hqueue, hwithin⟩ := hno
  cases huids : w.eligible o.keywords with
  | nil => exact absurd huids hqueue
  | cons uid rest =>
      have hexec := Routine.Safe.exec (h := onClock P clock) (x := (w, 0)) id
        (fun _ _ => rfl) (fun _ => rfl) (run_aborts (o := { o with timeBudgetSeconds := budget }) h
          clock hx huids (Rat.not_lt.mpr hwithin))
      obtain ⟨result, hok, herror, hw', hleft⟩ := hexec
      have hbegins : 0 < begins o budget clock w := by
        rw [Nat.pos_iff_ne_zero, begins, Ne, begun_eq_zero, not_or, List.length_eq_zero_iff,
          Rat.not_lt]
        exact ⟨hqueue, hwithin⟩
      refine ⟨uid, List.mem_cons_self, result, Prod.ext hok hw', rfl, herror, ?_, hbegins⟩
      rw [← huids]
      exact hleft

end

/-- Runs that follow each other are one run, and the last one says how much is left. -/
theorem Runs.cut {folder : String} {w' : World} {results : List SyncResult}
    (hs : Runs P o w results w') (hx : P.exportsTrash = true) (h : GoodPath P folder w) :
    ∃ n ≤ (w.eligible o.keywords).length,
      w' = ((w.eligible o.keywords).take n).foldl (World.forward (deliveryOf P o folder)) w ∧
      (results = [] → n = 0) ∧
      ∀ last ∈ results.getLast?, last.remaining = (w.eligible o.keywords).length - n := by
  induction hs with
  | none w => exact ⟨0, Nat.zero_le _, rfl, fun _ => rfl, nofun⟩
  | @run w w₁ w₂ result results budget clock hrun hs ih =>
      obtain ⟨result', hrun', -, hleft₁⟩ :=
        runOn_good h (show Proceeds P o budget clock w from Or.inl hx)
      have hn₁ : begins o budget clock w ≤ (w.eligible o.keywords).length := begun_le _ _ _
      generalize begins o budget clock w = n₁ at hrun' hleft₁ hn₁
      rw [hrun'] at hrun
      cases hrun
      have hhandled := h.handled (k := o.keywords) (d := deliveryOf P o folder) rfl n₁
      have hgood := h.foldl (d := deliveryOf P o folder) rfl
        ((h.distinct.live_sorted (fun m => !matchesAny m.flags o.keywords.quarantine)).nodup.sublist
          (List.take_sublist n₁ _))
      obtain ⟨n₂, hn₂, rfl, hnone, hlast⟩ := ih hgood
      -- the later runs find what the first one has left
      have hqueue := hhandled.eligible
      have hleft : (World.eligible o.keywords (((w.eligible o.keywords).take n₁).foldl
          (World.forward (deliveryOf P o folder)) w)).length =
            (w.eligible o.keywords).length - n₁ := by
        rw [hqueue, List.length_drop]
      rw [hleft] at hn₂ hlast
      refine ⟨n₁ + n₂, by omega, ?_, nofun, ?_⟩
      · rw [List.take_add, List.foldl_append, ← hqueue]
      · intro last hmem
        cases results with
        | nil =>
            have hlast' : last = result := by simpa using hmem.symm
            rw [hlast', hleft₁, hnone rfl]
            rfl
        | cons next rest =>
            rw [hlast last (by simpa using hmem)]
            omega

/-- A run that cannot look up the Trash leaves the queue as it is, and an account without a queue. -/
theorem runOn_stays {folder : String} (h : GoodPath P folder w) (hx : P.exportsTrash = false)
    (budget : ℚ) (clock : ℕ → ℚ) : ∃ result w', runOn P o budget clock w = (.ok result, w') ∧
      GoodPath P folder w' ∧ w'.eligible o.keywords = w.eligible o.keywords ∧
      result.remaining = (w.eligible o.keywords).length ∧
      (w' = w ∨ ∃ uid, (w.eligible o.keywords).head? = some uid ∧
        w' = w.deliver (deliveryOf P o folder) uid) := by
  by_cases hgo : Proceeds P o budget clock w
  · obtain ⟨result, hrun, -, hleft⟩ := runOn_good (o := o) h hgo
    have hnone : begins o budget clock w = 0 := by
      refine begun_eq_zero.mpr ((hgo.resolve_left (by simp [hx])).imp_left ?_)
      exact List.length_eq_zero_iff.mpr
    rw [hnone] at hrun hleft
    exact ⟨result, w, hrun, h, rfl, hleft, Or.inl rfl⟩
  · obtain ⟨uid, -, result, hrun, hhead, -, hleft, -⟩ := runOn_aborts (o := o) h hgo
    exact ⟨result, _, hrun, h.deliver (d := deliveryOf P o folder) rfl uid,
      eligible_deliver h.distinct (d := deliveryOf P o folder) rfl uid, hleft,
      Or.inr ⟨uid, hhead, rfl⟩⟩

/-- Runs that cannot look up the Trash say how long the queue is. -/
theorem Runs.stuck {folder : String} {w' : World} {results : List SyncResult}
    (hs : Runs P o w results w') (hx : P.exportsTrash = false) (h : GoodPath P folder w) :
    (w.eligible o.keywords = [] → w' = w) ∧
    ∀ result ∈ results, result.remaining = (w.eligible o.keywords).length := by
  induction hs with
  | none w => exact ⟨fun _ => rfl, nofun⟩
  | @run w w₁ w₂ result results budget clock hrun hs ih =>
      obtain ⟨result', w', hrun', hgood, hqueue, hleft, hw'⟩ := runOn_stays (o := o) h hx budget clock
      rw [hrun'] at hrun
      cases hrun
      obtain ⟨hsame, hrest⟩ := ih hgood
      rw [hqueue] at hsame hrest
      refine ⟨fun hnone => ?_, fun r hr => ?_⟩
      · rcases hw' with rfl | ⟨uid, hhead, -⟩
        · exact hsame hnone
        · rw [hnone] at hhead
          exact absurd hhead nofun
      · rcases List.mem_cons.mp hr with rfl | hr
        · exact hleft
        · exact hrest r hr

/-! ## Exactly once -/

/-- **What is promised of a run**: without an error it handles the messages it begins, and says how
    many it leaves. -/
def Delivers (P : Provider) (o : ForwarderOptions) (folder : String) (budget : ℚ) (clock : ℕ → ℚ)
    (w : World) : Prop :=
  ∃ result w', runOn P o budget clock w = (.ok result, w') ∧ result.error = none ∧
    Handled o.keywords (deliveryOf P o folder) w w' (begins o budget clock w) ∧
    result.remaining = (w'.eligible o.keywords).length

theorem delivers_iff {folder : String} (h : GoodPath P folder w) (budget : ℚ) (clock : ℕ → ℚ) :
    Delivers P o folder budget clock w ↔ Proceeds P o budget clock w := by
  constructor
  · rintro ⟨result, w', hrun, -, hhandled, -⟩
    by_contra hno
    obtain ⟨uid, huid, result', hrun', hhead, -, -, hbegins⟩ := runOn_aborts (o := o) h hno
    rw [hrun'] at hrun
    cases hrun
    -- the first message would be in the Trash
    have hin : uid ∈ (w.eligible o.keywords).take (begins o budget clock w) := by
      obtain ⟨n, hn⟩ := Nat.exists_eq_succ_of_ne_zero (Nat.pos_iff_ne_zero.mp hbegins)
      cases huids : w.eligible o.keywords with
      | nil =>
          rw [huids] at hhead
          exact absurd hhead nofun
      | cons v rest =>
          rw [huids] at hhead
          cases hhead
          rw [hn]
          exact List.mem_cons_self
    obtain ⟨m, hf, hgone, -⟩ := hhandled.trashed uid hin
    rw [World.find_deliver_self hf] at hgone
    exact absurd hgone nofun
  · intro hgo
    obtain ⟨result, hrun, herror, hleft⟩ := runOn_good (o := o) h hgo
    have hhandled := h.handled (k := o.keywords) (d := deliveryOf P o folder) rfl
      (begins o budget clock w)
    refine ⟨result, _, hrun, herror, hhandled, ?_⟩
    rw [hleft, hhandled.eligible, List.length_drop]

/-- **Exactly once on the good path.** A run handles the messages it begins, and says how much of the
    queue is left, if and only if it can look up the Trash or begins none. When runs that follow each
    other have left nothing, every message of the first queue has been handled exactly once, and the
    account is the one a single run leaves that is not cut short. -/
theorem exactly_once {folder : String} (h : GoodPath P folder w) (o : ForwarderOptions) :
    (∀ budget clock, Delivers P o folder budget clock w ↔ Proceeds P o budget clock w) ∧
    (∀ results last w', Runs P o w (results ++ [last]) w' → last.remaining = 0 →
      w'.eligible o.keywords = [] ∧
      Handled o.keywords (deliveryOf P o folder) w w' (w.eligible o.keywords).length ∧
      ∀ budget clock result w'', runOn P o budget clock w = (.ok result, w'') →
        result.remaining = 0 → w'' = w') := by
  refine ⟨fun budget clock => delivers_iff h budget clock, fun results last w' hs hlast => ?_⟩
  have hhandled := h.handled (k := o.keywords) (d := deliveryOf P o folder) rfl
    (w.eligible o.keywords).length
  rcases Bool.eq_false_or_eq_true P.exportsTrash with hx | hx
  · obtain ⟨n, hn, rfl, -, hleft⟩ := hs.cut hx h
    have hlast' := hleft last (by simp)
    have hn' : n = (w.eligible o.keywords).length := by omega
    subst hn'
    refine ⟨?_, hhandled, ?_⟩
    · rw [hhandled.eligible, List.drop_length]
    · intro budget clock result w'' hrun hresult
      obtain ⟨result', hrun', -, hleft'⟩ :=
        runOn_good h (show Proceeds P o budget clock w from Or.inl hx)
      have hn' : begins o budget clock w ≤ (w.eligible o.keywords).length := begun_le _ _ _
      rw [hrun'] at hrun
      cases hrun
      have hall : begins o budget clock w = (w.eligible o.keywords).length := by omega
      rw [hall]
  · -- such runs leave something unless there was nothing
    obtain ⟨hsame, hleft⟩ := hs.stuck hx h
    have hnone : w.eligible o.keywords = [] :=
      List.length_eq_zero_iff.mp ((hleft last (by simp)).symm.trans hlast)
    rw [hnone] at hhandled
    rw [hsame hnone, hnone]
    refine ⟨rfl, hhandled, fun budget clock result w'' hrun _ => ?_⟩
    obtain ⟨result', w₁, hrun', -, -, -, hw₁⟩ := runOn_stays (o := o) h hx budget clock
    rw [hrun'] at hrun
    cases hrun
    rcases hw₁ with rfl | ⟨uid, hhead, -⟩
    · rfl
    · rw [hnone] at hhead
      exact absurd hhead nofun

theorem mixedInbox_good (exports : Bool) :
    GoodPath { exportsTrash := exports } "Deleted Messages" mixedInbox where
  distinct := by unfold World.InboxDistinct; decide
  move := rfl
  gmail := fun _ => ⟨"id", rfl⟩
  trash := rfl
  elsewhere := by decide
  canonical := by
    unfold Message.Canonical
    decide

/-- One run, followed by none, on the three mails of `mixedInbox`. -/
theorem exactly_once_mixed : ∃ result w',
    runOn { exportsTrash := true } .default 480 (fun _ => 0) mixedInbox = (.ok result, w') ∧
    w'.eligible .default = [] ∧ w'.gmail = [⟨⟨1, [105]⟩, ["INBOX", "iCloud"]⟩] := by
  obtain ⟨hrun, hruns⟩ := exactly_once (mixedInbox_good true) .default
  obtain ⟨result, w', hresult, -, hhandled, hleft⟩ := (hrun 480 (fun _ => 0)).mpr (Or.inl rfl)
  have hnone : w'.eligible .default = [] := by
    have hbegins : begins .default 480 (fun _ => 0) mixedInbox = 1 := by decide +kernel
    have hqueue := hhandled.eligible
    rw [hbegins] at hqueue
    exact hqueue.trans (by decide +kernel)
  have hzero : result.remaining = 0 := by
    rw [hleft]
    exact congrArg List.length hnone
  obtain ⟨-, hall, -⟩ := hruns [] result w' (.run 480 _ hresult (.none w')) hzero
  refine ⟨result, w', hresult, hnone, ?_⟩
  rw [hall.gmail]
  decide +kernel

/-- With a package that does not export the name, the first mail is still in the INBOX. -/
theorem not_delivers : GoodPath {} "Deleted Messages" mixedInbox ∧
    ¬ Delivers {} .default "Deleted Messages" 480 (fun _ => 0) mixedInbox := by
  refine ⟨mixedInbox_good false, fun h => ?_⟩
  rcases (delivers_iff (mixedInbox_good false) 480 _).mp h with hx | hqueue | hbudget
  · exact absurd hx (by decide)
  · exact absurd hqueue (by decide +kernel)
  · exact absurd hbudget (by decide +kernel)

end Forwarder

end MailTransporter
