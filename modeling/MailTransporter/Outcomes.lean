import MailTransporter.Phases
import MailTransporter.Settlement
import Mathlib.Data.Multiset.MapFold

set_option autoImplicit false

/-! # The outcomes of the messages make up the outcome of the run

The account and a `Plan` fix what becomes of every message: whether it is in the INBOX when it is
fetched, the keywords it carries, and what Gmail and the server answer when it is inserted and
marked. `fate` says where such a message ends and `Tally` what the counters of a run are. Both
depend on the set of the messages only, so the order in which they are processed does not matter. -/

namespace MailTransporter

open Effect
open Effect.Routine (raise attempt getSelf modifySelf settle)

namespace Outcomes

/-- What Gmail and the server make of a message that is to be inserted. -/
inductive Verdict where
  | accepted
  | unverified
  | transient
  | tooLarge
  | rejected
deriving DecidableEq, Repr

/-- What becomes of a message. -/
inductive Outcome where
  | vanished
  | quarantined
  | inserted
  | attempted (verdict : Verdict)
deriving DecidableEq, Repr

/-- What is fixed about the server and Gmail. -/
structure Plan where
  verdict : ℕ → Verdict
  /-- The flags `FETCH` reports of a message. -/
  report : Message → List String
  /-- The folder the server names as its Trash. -/
  special : Option String
  /-- Whether a folder with one of the names of a Trash exists. -/
  present : String → Bool
  offers : String → Bool
  /-- Whether the installed `imapclient` exports `TRASH`. -/
  exports : Bool

/-- The folder that is the Trash, where it can be looked up. -/
def Plan.trash (p : Plan) : Option String :=
  if p.exports then
    match p.special with
    | some name => if name = "" then trashFolderCandidates.find? p.present else some name
    | none => trashFolderCandidates.find? p.present
  else none

/-- The server offers a way to move a message. -/
def Plan.Moves (p : Plan) : Prop := p.offers "MOVE" = true ∨ p.offers "UIDPLUS" = true

/-- The outcome of the message that was to be fetched at `uid`. -/
def outcome (k : Keywords) (p : Plan) (w : World) (uid : ℕ) : Outcome :=
  match w.find uid with
  | none => .vanished
  | some m =>
      if matchesAny m.flags k.quarantine then .quarantined
      else if m.has k.inserted then .inserted
      else .attempted (p.verdict uid)

/-- The account, and the message that was fetched last. -/
structure Desk where
  world : World
  current : ℕ

variable (o : ForwarderOptions) (started : ℚ) (p : Plan)

/-- The answer to `messages.insert`. -/
def Answers (verdict : Verdict) {labels : List String} {raw : RawMail}
    (r : Reply (.insertRaw raw labels)) : Prop :=
  match verdict with
  | .accepted => ∃ id, r = .ok id
  | .unverified => ∃ id, r = .ok id
  | .transient => ∃ text status, r = .error (.gmailError .retryable text status)
  | .tooLarge => ∃ text status, r = .error (.gmailError .permanent text status) ∧
      perMessage status = true
  | .rejected => ∃ text status, r = .error (.gmailError .permanent text status) ∧
      perMessage status = false

/-- A message of a folder, by its UID if that was given out before `n`. -/
structure Content where
  uid : Option ℕ
  folder : String
  raw : RawMail
  flags : List String
deriving DecidableEq

def content (n : ℕ) (m : Message) : Content :=
  ⟨if m.uid < n then some m.uid else none, m.folder, m.raw, m.flags⟩

/-- The mailbox, up to the order of the messages and the UIDs given out from `n` on. -/
def view (n : ℕ) (w : World) : Multiset Content :=
  Multiset.map (content n) (w.messages : Multiset Message)

def moved (folder : String) (m : Message) : Content := ⟨none, folderName folder, m.raw, m.flags⟩

/-- A message set aside: under a keyword, or in a folder. -/
def aside (n : ℕ) (keyword folder : String) (m : Message) : Content :=
  if o.quarantineMode = .keyword then content n (m.withFlags (addFlag keyword m.flags))
  else moved folder m

/-- The rejections are settled after the loop. -/
def Outcome.pending : Outcome → Bool
  | .attempted .tooLarge => true
  | .attempted .rejected => true
  | _ => false

/-- Gmail has accepted the message in this run. -/
def Outcome.forwarded : Outcome → Bool
  | .attempted .accepted => true
  | .attempted .unverified => true
  | _ => false

/-- The other counters a message moves in the loop. -/
def Outcome.trashed : Outcome → Bool
  | .inserted => true
  | .attempted .accepted => true
  | _ => false

def Outcome.skipped : Outcome → Bool
  | .vanished => true
  | .quarantined => true
  | _ => false

def Outcome.delayed : Outcome → Bool
  | .attempted .transient => true
  | _ => false

def Outcome.unverified : Outcome → Bool
  | .attempted .unverified => true
  | _ => false

/-- Gmail has rejected the message, and that is its own fault, or it may be that of the account. -/
def Outcome.tooLarge : Outcome → Bool
  | .attempted .tooLarge => true
  | _ => false

def Outcome.rejected : Outcome → Bool
  | .attempted .rejected => true
  | _ => false

/-- **Where a message ends.** `spared` is whether the rejections that may be no fault of the message
    are left alone. -/
def fate (n : ℕ) (trash : String) (spared : Bool) : Outcome → Message → Content
  | .inserted, m => moved trash m
  | .attempted .accepted, m => moved trash (m.withFlags (addFlag o.keywords.inserted m.flags))
  | .attempted .unverified, m => aside o n o.keywords.unverified o.unverifiedFolder m
  | .attempted .tooLarge, m => aside o n o.keywords.failed o.failedFolder m
  | .attempted .rejected, m =>
      if spared then content n m else aside o n o.keywords.failed o.failedFolder m
  | _, m => content n m

/-- Where it is when the loop is through with it. -/
def during (n : ℕ) (trash : String) (x : Outcome) (m : Message) : Content :=
  if x.pending then content n m else fate o n trash true x m

/-! ## The counters -/

/-- What one message adds in the loop. -/
def Outcome.count (x : Outcome) (r : SyncResult) : SyncResult :=
  match x with
  | .vanished => { r with skipped := r.skipped + 1 }
  | .quarantined => { r with skipped := r.skipped + 1 }
  | .inserted => { r with trashed := r.trashed + 1 }
  | .attempted .accepted => { r with forwarded := r.forwarded + 1, trashed := r.trashed + 1 }
  | .attempted .unverified =>
      { r with forwarded := r.forwarded + 1, quarantined := r.quarantined + 1 }
  | .attempted .transient => { r with retryLater := r.retryLater + 1 }
  | _ => r

/-- The rejection a message adds: its UID, and whether it is a fault of the message. -/
def Outcome.rejection (x : Outcome) (uid : ℕ) : List (ℕ × Bool) :=
  match x with
  | .attempted .tooLarge => [(uid, true)]
  | .attempted .rejected => [(uid, false)]
  | _ => []

/-- A rejection without its text. -/
def plain (r : Rejection) : ℕ × Bool := (r.uid, r.perMessage)

/-- The list of rejections, after a message of outcome `x`. -/
def Rejects (x : Outcome) (uid : ℕ) (before after : List Rejection) : Prop :=
  after.map plain = before.map plain ++ x.rejection uid

theorem Rejects.refl {x : Outcome} {uid : ℕ} {before after : List Rejection} (h : after = before)
    (hx : x.rejection uid = []) : Rejects x uid before after := by
  rw [Rejects, h, hx, List.append_nil]

/-- The copy a message leaves in Gmail. -/
def sent (k : Keywords) (extraLabels : List String) (w : World) (uid : ℕ) : List GmailCopy :=
  match w.find uid with
  | none => []
  | some m =>
      if (outcome k p w uid).forwarded then
        [⟨m.raw, gmailLabelsFor ⟨uid, m.raw, p.report m⟩ extraLabels⟩]
      else []

variable {o} {started} {p} {n uid : ℕ} {m : Message} {V : Multiset Content} {w w' : World}

/-! ## One message among the others -/

/-- The message `m` is at `uid`, and `V` is what the mailbox holds besides. -/
structure Held (n uid : ℕ) (m : Message) (V : Multiset Content) (w : World) : Prop where
  wellFormed : WellFormed w
  next : n ≤ w.uidNext
  mem : m ∈ w.messages
  isAt : m.isAt uid = true
  view : view n w = content n m ::ₘ V

/-- The message has ended as `c`. -/
structure Filed (n : ℕ) (c : Content) (V : Multiset Content) (w : World) : Prop where
  wellFormed : WellFormed w
  next : n ≤ w.uidNext
  view : view n w = c ::ₘ V

theorem Held.filed (h : Held n uid m V w) : Filed n (content n m) V w :=
  ⟨h.wellFormed, h.next, h.view⟩

theorem Held.find (h : Held n uid m V w) : w.find uid = some m := h.wellFormed.find_eq h.mem h.isAt

/-- The other messages are not at `uid`. -/
theorem split_of_mem (hw : WellFormed w) (hm : m ∈ w.messages) (hat : m.isAt uid = true) :
    ∃ before after, w.messages = before ++ m :: after ∧ ∀ x ∈ before ++ after, x.isAt uid = false := by
  obtain ⟨before, after, hsplit⟩ := List.append_of_mem hm
  refine ⟨before, after, hsplit, fun x hx => Bool.eq_false_iff.mpr (fun hx' => ?_)⟩
  have hdistinct := hw.distinct
  rw [hsplit, List.map_append, List.map_cons] at hdistinct
  have hout := (List.nodup_cons.mp (List.perm_middle.nodup_iff.mp hdistinct)).1
  rw [← List.map_append] at hout
  have hsame : x.uid = m.uid := (Message.isAt_iff.mp hx').2.trans (Message.isAt_iff.mp hat).2.symm
  exact hout (hsame ▸ List.mem_map_of_mem hx)

theorem view_of_split {before after : List Message} (hsplit : w.messages = before ++ m :: after) :
    view n w = content n m ::ₘ Multiset.map (content n) ((before ++ after : List Message) :
      Multiset Message) := by
  have hperm : (before ++ m :: after).Perm (m :: (before ++ after)) := List.perm_middle
  rw [view, hsplit, Multiset.coe_eq_coe.mpr hperm, ← Multiset.cons_coe, Multiset.map_cons]

/-- What the mailbox holds besides `m`. -/
theorem Held.split (h : Held n uid m V w) : ∃ before after, w.messages = before ++ m :: after ∧
    (∀ x ∈ before ++ after, x.isAt uid = false) ∧
    V = Multiset.map (content n) ((before ++ after : List Message) : Multiset Message) := by
  obtain ⟨before, after, hsplit, hothers⟩ := split_of_mem h.wellFormed h.mem h.isAt
  refine ⟨before, after, hsplit, hothers, ?_⟩
  have hview := h.view
  rw [view_of_split hsplit] at hview
  exact (Multiset.cons_inj_right _).mp hview.symm

theorem held_of_find (hw : WellFormed w) (hn : n ≤ w.uidNext) (hf : w.find uid = some m) :
    ∃ V, Held n uid m V w := by
  obtain ⟨hm, hat⟩ := World.find_some hf
  obtain ⟨before, after, hsplit, -⟩ := split_of_mem hw hm hat
  exact ⟨_, hw, hn, hm, hat, view_of_split hsplit⟩

theorem Held.unique (h : Held n uid m V w) {m' : Message} {V' : Multiset Content}
    (h' : Held n uid m' V' w) : m' = m ∧ V' = V := by
  have hm : m' = m := Option.some.inj (h'.find.symm.trans h.find)
  have hview := h'.view
  rw [h.view, hm] at hview
  exact ⟨hm, ((Multiset.cons_inj_right _).mp hview).symm⟩

/-- Calls that leave the messages leave the message. -/
theorem Held.same (h : Held n uid m V w) (hw : WellFormed w') (hm : w'.messages = w.messages)
    (hn : w.uidNext ≤ w'.uidNext) : Held n uid m V w' := by
  refine ⟨hw, h.next.trans hn, hm ▸ h.mem, h.isAt, ?_⟩
  rw [Outcomes.view, hm]
  exact h.view

/-- A `STORE` leaves the other messages. -/
theorem map_store_others {f : List String → List String} {l : List Message}
    (h : ∀ x ∈ l, x.isAt uid = false) :
    l.map (fun m => if m.isAt uid then m.withFlags (f m.flags) else m) = l := by
  have hid : ∀ x ∈ l, (if x.isAt uid then x.withFlags (f x.flags) else x) = x := by
    intro x hx
    rw [h x hx]
    rfl
  rw [List.map_congr_left hid, List.map_id']

theorem filter_others {l : List Message} (h : ∀ x ∈ l, x.isAt uid = false) :
    l.filter (fun m => !m.isAt uid) = l :=
  List.filter_eq_self.mpr (fun x hx => by rw [h x hx]; rfl)

theorem Held.store (h : Held n uid m V w) (flag : String) :
    Held n uid (m.withFlags (addFlag flag m.flags)) V (effect (.addFlags uid flag) w) := by
  obtain ⟨before, after, hsplit, hothers, hV⟩ := h.split
  have hmessages : (effect (.addFlags uid flag) w).messages =
      before ++ m.withFlags (addFlag flag m.flags) :: after := by
    simp only [effect, World.store, hsplit, List.map_append, List.map_cons, h.isAt, if_true]
    rw [map_store_others (fun x hx => hothers x (List.mem_append_left _ hx)),
      map_store_others (fun x hx => hothers x (List.mem_append_right _ hx))]
  refine ⟨h.wellFormed.effect _, h.next, ?_, h.isAt, ?_⟩
  · rw [hmessages]
    exact List.mem_append_right _ List.mem_cons_self
  · rw [view_of_split hmessages, hV]

/-- The message as it enters a folder during the run. -/
theorem content_placed (hn : n ≤ w.uidNext) (m : Message) (folder : String) :
    content n (m.placed folder w.uidNext) = moved folder m := by
  have hout : ¬w.uidNext < n := Nat.not_lt.mpr hn
  simp [content, moved, Message.placed, hout]

theorem Held.move (h : Held n uid m V w) (folder : String) :
    Filed n (moved folder m) V (effect (.move uid folder) w) := by
  obtain ⟨before, after, hsplit, hothers, hV⟩ := h.split
  refine ⟨h.wellFormed.effect _, h.next.trans (uidNext_le_effect _ _), ?_⟩
  have hmessages : (effect (.move uid folder) w).messages =
      (before ++ after) ++ m.placed folder w.uidNext :: [] := by
    simp only [effect, World.moveTo, h.find, hsplit, List.filter_append, List.filter_cons, h.isAt,
      Bool.not_true, Bool.false_eq_true, if_false]
    rw [filter_others (fun x hx => hothers x (List.mem_append_left _ hx)),
      filter_others (fun x hx => hothers x (List.mem_append_right _ hx))]
  rw [view_of_split hmessages, content_placed h.next, List.append_nil, hV]

theorem Held.copy (h : Held n uid m V w) (folder : String) :
    Held n uid m (moved folder m ::ₘ V) (effect (.copy uid folder) w) := by
  have hmessages : (effect (.copy uid folder) w).messages =
      w.messages ++ m.placed folder w.uidNext :: [] := by
    simp only [effect, World.copyTo, h.find]
  refine ⟨h.wellFormed.effect _, h.next.trans (uidNext_le_effect _ _), ?_, h.isAt, ?_⟩
  · rw [hmessages]
    exact List.mem_append_left _ h.mem
  · rw [view_of_split hmessages, content_placed h.next, List.append_nil]
    have hview := h.view
    unfold Outcomes.view at hview
    rw [hview, Multiset.cons_swap]

theorem Held.expunge (h : Held n uid m V w) (hdeleted : m.has deletedFlag = true) :
    Outcomes.view n (effect (.uidExpunge uid) w) = V := by
  obtain ⟨before, after, hsplit, hothers, hV⟩ := h.split
  have hrest : ∀ l : List Message, (∀ x ∈ l, x.isAt uid = false) →
      l.filter (fun m => !(m.isAt uid && m.has deletedFlag)) = l := by
    intro l hl
    refine List.filter_eq_self.mpr (fun x hx => ?_)
    rw [hl x hx]
    rfl
  have hmessages : (effect (.uidExpunge uid) w).messages = before ++ after := by
    simp only [effect, World.drop, hsplit, List.filter_append, List.filter_cons, h.isAt, hdeleted,
      Bool.and_self, Bool.not_true, Bool.false_eq_true, if_false]
    rw [hrest before (fun x hx => hothers x (List.mem_append_left _ hx)),
      hrest after (fun x hx => hothers x (List.mem_append_right _ hx))]
  rw [Outcomes.view, hmessages, hV]

section methods

variable {s : ICloudMailbox} {d d' : Desk} {keyword : String}

/-- The session is open, and if it knows the Trash it knows the right one. -/
structure Ready (p : Plan) (s : ICloudMailbox) : Prop where
  connected : s.connected = true
  trash : s.trashFolder = none ∨ s.trashFolder = p.trash

/-- A call that is neither an insert nor the `FETCH` of a message: Gmail is as it was, and so is the
    message that was fetched last. -/
structure Apart (d d' : Desk) : Prop where
  gmail : d'.world.gmail = d.world.gmail
  current : d'.current = d.current

theorem Apart.refl (d : Desk) : Apart d d := ⟨rfl, rfl⟩

theorem Apart.trans {a b c : Desk} (h : Apart a b) (h' : Apart b c) : Apart a c :=
  ⟨h'.gmail.trans h.gmail, h'.current.trans h.current⟩

end methods

/-! ## One message, as planned -/

open Forwarder

section message

variable {s : RunState} {d d' : Desk} {trash : String}

/-- The message is left where it is. -/
theorem Held.left {x : Outcome} (h : Held n uid m V w) (hx : during o n trash x m = content n m) :
    Filed n (during o n trash x m) V w := hx ▸ h.filed

/-- The copy of an accepted message. -/
def copies (extraLabels : List String) (verdict : Verdict) (message : FetchedMessage) :
    List GmailCopy :=
  if (Outcome.attempted verdict).forwarded then
    [⟨message.raw, gmailLabelsFor message extraLabels⟩]
  else []

end message

/-! ## The mailbox by fates -/

/-- The mailbox in which every message of `w₀` has met its fate. -/
def filed (w₀ : World) (fates : ℕ → Message → Content) : Multiset Content :=
  Multiset.map (fun m => fates m.uid m) (w₀.messages : Multiset Message)

section loop

variable {w₀ : World} {fates : ℕ → Message → Content} {s : RunState} {d : Desk} {trash : String}

/-- The content of a message says which message it is, if its UID is an old one. -/
theorem content_inj {m m' : Message} (hlt : m.uid < n) (h : content n m' = content n m) : m' = m := by
  obtain ⟨huid, hfolder, hraw, hflags⟩ := Content.mk.inj h
  rw [if_pos hlt] at huid
  have huid : m'.uid = m.uid := by
    by_cases hlt' : m'.uid < n
    · rw [if_pos hlt'] at huid
      exact Option.some.inj huid
    · rw [if_neg hlt'] at huid
      exact absurd huid nofun
  cases m
  cases m'
  cases huid
  cases hfolder
  cases hraw
  cases hflags
  rfl

/-- The mailbox at a point of the run: the messages have met `fates`, and nothing has been done to
    those that are left. -/
structure At (w₀ : World) (fates : ℕ → Message → Content) (left : List ℕ) (w : World) : Prop where
  wellFormed : WellFormed w
  next : w₀.uidNext ≤ w.uidNext
  view : view w₀.uidNext w = filed w₀ fates
  proper : ∀ m, (fates m.uid m).uid = none ∨ (fates m.uid m).uid = (content w₀.uidNext m).uid
  untouched : ∀ u ∈ left, fates u = content w₀.uidNext
  given : ∀ u ∈ left, u < w₀.uidNext

/-- What is left is found as it was at first. -/
theorem At.find {left : List ℕ} (h : At w₀ fates left w) {u : ℕ} (hu : u ∈ left) :
    w.find u = w₀.find u := by
  have huntouched := h.untouched u hu
  have hgiven := h.given u hu
  have hview := h.view
  unfold Outcomes.view filed at hview
  cases hf : w₀.find u with
  | some m =>
      obtain ⟨hm, hat⟩ := World.find_some hf
      obtain ⟨-, huid⟩ := Message.isAt_iff.mp hat
      have hin : content w₀.uidNext m ∈ Multiset.map (content w₀.uidNext)
          (w.messages : Multiset Message) := by
        rw [hview]
        refine Multiset.mem_map.mpr ⟨m, Multiset.mem_coe.mpr hm, ?_⟩
        rw [huid, huntouched]
      obtain ⟨m', hm', hsame⟩ := Multiset.mem_map.mp hin
      have heq : m' = m := content_inj (huid ▸ hgiven) hsame
      exact h.wellFormed.find_eq (heq ▸ Multiset.mem_coe.mp hm') hat
  | none =>
      cases hf' : w.find u with
      | none => rfl
      | some m' =>
          obtain ⟨hm', hat'⟩ := World.find_some hf'
          obtain ⟨-, huid'⟩ := Message.isAt_iff.mp hat'
          have hin : content w₀.uidNext m' ∈ Multiset.map (fun m => fates m.uid m)
              (w₀.messages : Multiset Message) := by
            rw [← hview]
            exact Multiset.mem_map.mpr ⟨m', Multiset.mem_coe.mpr hm', rfl⟩
          obtain ⟨m, hm, hfate⟩ := Multiset.mem_map.mp hin
          have hold : (content w₀.uidNext m').uid = some u := by
            simp [content, huid', hgiven]
          -- a message that has met a fate of its own does not keep its UID as another one
          have hsome : (content w₀.uidNext m).uid = some u := by
            have hfateUid : (fates m.uid m).uid = some u := by rw [hfate, hold]
            rcases h.proper m with hnone | hsame
            · rw [hnone] at hfateUid
              exact absurd hfateUid nofun
            · exact hsame ▸ hfateUid
          have hmu : m.uid = u := by
            unfold content at hsome
            dsimp only at hsome
            split at hsome
            · exact Option.some.inj hsome
            · exact absurd hsome nofun
          have hcontent : content w₀.uidNext m' = content w₀.uidNext m := by
            rw [← hfate, hmu, huntouched]
          have heq : m' = m := content_inj (hmu ▸ hgiven) hcontent
          have hnot := World.find_none hf (Multiset.mem_coe.mp hm)
          rw [← heq, hat'] at hnot
          exact absurd hnot nofun

/-- One message that was left meets its fate. -/
theorem At.step {u : ℕ} {rest : List ℕ} (h : At w₀ fates (u :: rest) w) (hw₀ : WellFormed w₀)
    (hu : u ∉ rest) {f : Message → Content} (hw' : WellFormed w') (hnext : w₀.uidNext ≤ w'.uidNext)
    (hf : ∀ m, (f m).uid = none ∨ (f m).uid = (content w₀.uidNext m).uid)
    (hsome : ∀ m V, Held w₀.uidNext u m V w → Outcomes.view w₀.uidNext w' = f m ::ₘ V)
    (hnone : w.find u = none → w' = w ∧ f = content w₀.uidNext) :
    At w₀ (Function.update fates u f) rest w' := by
  have huntouched := h.untouched u List.mem_cons_self
  have hfind := h.find List.mem_cons_self
  have hrest : ∀ v ∈ rest, Function.update fates u f v = content w₀.uidNext := by
    intro v hv
    have hne : v ≠ u := fun he => hu (he ▸ hv)
    rw [Function.update_of_ne hne]
    exact h.untouched v (List.mem_cons_of_mem _ hv)
  refine ⟨hw', hnext, ?_, fun m => ?_, hrest, fun v hv => h.given v (List.mem_cons_of_mem _ hv)⟩
  · cases hf₀ : w₀.find u with
    | none =>
        obtain ⟨rfl, rfl⟩ := hnone (hfind.trans hf₀)
        rw [← huntouched, Function.update_eq_self]
        exact h.view
    | some m =>
        obtain ⟨V, hheld⟩ := held_of_find h.wellFormed h.next (hfind.trans hf₀)
        obtain ⟨hm, hat⟩ := World.find_some hf₀
        obtain ⟨-, huid⟩ := Message.isAt_iff.mp hat
        obtain ⟨before, after, hsplit⟩ := List.append_of_mem hm
        have hdistinct := hw₀.distinct
        rw [hsplit, List.map_append, List.map_cons] at hdistinct
        have hout := (List.nodup_cons.mp (List.perm_middle.nodup_iff.mp hdistinct)).1
        rw [← List.map_append] at hout
        have hsplitFiled : ∀ g : ℕ → Message → Content, filed w₀ g =
            g m.uid m ::ₘ Multiset.map (fun x => g x.uid x)
              ((before ++ after : List Message) : Multiset Message) := by
          intro g
          have hperm : (before ++ m :: after).Perm (m :: (before ++ after)) := List.perm_middle
          rw [filed, hsplit, Multiset.coe_eq_coe.mpr hperm, ← Multiset.cons_coe, Multiset.map_cons]
        -- the others are what is left of the view when this message is taken out
        have hV : V = Multiset.map (fun x => fates x.uid x)
            ((before ++ after : List Message) : Multiset Message) := by
          have hview := hheld.view
          rw [h.view, hsplitFiled, huid, huntouched] at hview
          exact ((Multiset.cons_inj_right _).mp hview).symm
        have hothers : Multiset.map (fun x => Function.update fates u f x.uid x)
            ((before ++ after : List Message) : Multiset Message) =
            Multiset.map (fun x => fates x.uid x)
              ((before ++ after : List Message) : Multiset Message) := by
          refine Multiset.map_congr rfl (fun x hx => ?_)
          have hne : x.uid ≠ u := by
            intro he
            refine hout ?_
            rw [huid, ← he]
            exact List.mem_map_of_mem (Multiset.mem_coe.mp hx)
          rw [Function.update_of_ne hne]
        rw [hsome m V hheld, hsplitFiled, hothers, hV, huid, Function.update_self]
  · by_cases he : m.uid = u
    · rw [he, Function.update_self]
      exact hf m
    · rw [Function.update_of_ne he]
      exact h.proper m

/-! ## The loop -/

/-- The fates after the loop. -/
def looped (o : ForwarderOptions) (p : Plan) (w₀ : World) (trash : String) (uids : List ℕ)
    (fates : ℕ → Message → Content) (u : ℕ) : Message → Content :=
  if u ∈ uids then during o w₀.uidNext trash (outcome o.keywords p w₀ u) else fates u

/-- The fates after these rejections have been settled. -/
def failed (o : ForwarderOptions) (w₀ : World) (uids : List ℕ) (fates : ℕ → Message → Content)
    (u : ℕ) : Message → Content :=
  if u ∈ uids then aside o w₀.uidNext o.keywords.failed o.failedFolder else fates u

/-- How many of the messages have such an outcome. -/
def number (k : Keywords) (p : Plan) (w₀ : World) (uids : List ℕ) (f : Outcome → Bool) : ℕ :=
  uids.countP (fun u => f (outcome k p w₀ u))

/-- The breaker spares the messages whose rejection may be the fault of the account. -/
def spares (o : ForwarderOptions) (p : Plan) (w₀ : World) (uids : List ℕ) : Bool :=
  decide (0 < o.rejectionThreshold) &&
    decide (o.rejectionThreshold ≤ number o.keywords p w₀ uids Outcome.rejected) &&
    decide (number o.keywords p w₀ uids Outcome.forwarded = 0)

/-- The fates of the messages of a run. -/
def destiny (o : ForwarderOptions) (p : Plan) (w₀ : World) (trash : String) (uids : List ℕ) (u : ℕ) :
    Message → Content :=
  if u ∈ uids then
    fate o w₀.uidNext trash (spares o p w₀ uids) (outcome o.keywords p w₀ u)
  else content w₀.uidNext

/-- **The outcome of a run, by the outcomes of its messages.** -/
structure Sums (o : ForwarderOptions) (p : Plan) (extraLabels : List String) (w₀ : World)
    (trash : String) (uids : List ℕ) (r : SyncResult) (w : World) : Prop where
  mailbox : view w₀.uidNext w = filed w₀ (destiny o p w₀ trash uids)
  gmail : w.gmail = w₀.gmail ++ uids.flatMap (sent p o.keywords extraLabels w₀)
  listed : r.listed = uids.length
  forwarded : r.forwarded = number o.keywords p w₀ uids Outcome.forwarded
  trashed : r.trashed = number o.keywords p w₀ uids Outcome.trashed
  skipped : r.skipped = number o.keywords p w₀ uids Outcome.skipped
  retryLater : r.retryLater = number o.keywords p w₀ uids Outcome.delayed
  quarantined : r.quarantined = number o.keywords p w₀ uids Outcome.unverified +
    (number o.keywords p w₀ uids Outcome.tooLarge +
      if spares o p w₀ uids then 0 else number o.keywords p w₀ uids Outcome.rejected)
  remaining : r.remaining = 0
  error : r.error.isSome = spares o p w₀ uids

/-- The rejections that are settled. -/
def settled (spared : Bool) (rejected : List Rejection) : List Rejection :=
  if spared then rejected.filter Rejection.perMessage else rejected

/-- A run that has listed these messages. -/
def fresh (mailbox : ICloudMailbox) : RunState := ⟨mailbox, {}, []⟩

end loop

/-! ## The order of the messages -/

/-- Two runs have come to the same: the same messages are in the Trash, under a keyword or where they
    were, Gmail has accepted the same mails as often, and the counters are the same. -/
structure SameOutcome (n : ℕ) (r r' : SyncResult) (w w' : World) : Prop where
  mailbox : view n w = view n w'
  gmail : w.gmail.Perm w'.gmail
  listed : r.listed = r'.listed
  forwarded : r.forwarded = r'.forwarded
  trashed : r.trashed = r'.trashed
  skipped : r.skipped = r'.skipped
  retryLater : r.retryLater = r'.retryLater
  quarantined : r.quarantined = r'.quarantined
  remaining : r.remaining = r'.remaining
  error : r.error.isSome = r'.error.isSome

section order

variable {w₀ : World} {trash : String} {extraLabels : List String} {uids uids' : List ℕ}
  {r r' : SyncResult}

theorem number_perm {k : Keywords} (h : uids.Perm uids') (f : Outcome → Bool) :
    number k p w₀ uids f = number k p w₀ uids' f := h.countP_eq _

theorem spares_perm (h : uids.Perm uids') : spares o p w₀ uids = spares o p w₀ uids' := by
  rw [spares, spares, number_perm h, number_perm h]

theorem destiny_perm (h : uids.Perm uids') :
    destiny o p w₀ trash uids = destiny o p w₀ trash uids' := by
  funext u
  unfold destiny
  rw [spares_perm h]
  simp only [h.mem_iff]

/-- What the outcomes of the messages make up does not depend on their order. -/
theorem Sums.same (h : Sums o p extraLabels w₀ trash uids r w)
    (h' : Sums o p extraLabels w₀ trash uids' r' w') (hperm : uids.Perm uids') :
    SameOutcome w₀.uidNext r r' w w' where
  mailbox := by rw [h.mailbox, h'.mailbox, destiny_perm hperm]
  gmail := by
    rw [h.gmail, h'.gmail]
    exact (hperm.flatMap_right _).append_left _
  listed := by rw [h.listed, h'.listed, hperm.length_eq]
  forwarded := by rw [h.forwarded, h'.forwarded, number_perm hperm]
  trashed := by rw [h.trashed, h'.trashed, number_perm hperm]
  skipped := by rw [h.skipped, h'.skipped, number_perm hperm]
  retryLater := by rw [h.retryLater, h'.retryLater, number_perm hperm]
  quarantined := by
    rw [h.quarantined, h'.quarantined, spares_perm hperm, number_perm hperm, number_perm hperm,
      number_perm hperm]
  remaining := by rw [h.remaining, h'.remaining]
  error := by rw [h.error, h'.error, spares_perm hperm]

end order

/-! ## Two mails in either order -/

end Outcomes

end MailTransporter
