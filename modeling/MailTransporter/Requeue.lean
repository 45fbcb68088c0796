import MailTransporter.CliRules
import MailTransporter.Diary
import MailTransporter.Inbox
import MailTransporter.Settlement

set_option autoImplicit false

/-! # What `retry` puts back into the queue

A message is out of the queue while it carries either quarantine keyword, and `retry` clears one of
the two. `Apart` says that no message carries both. A run keeps it, because it writes a quarantine
keyword only on a message it has fetched without the other; `mark-failed` keeps it as long as it is
given no message with the unverified keyword but those it refuses. -/

namespace MailTransporter

open Effect

namespace Requeue

/-! ## The server and the other clients -/

/-- `SEARCH` names every message of the INBOX that matches and none twice, and a `FETCH` of flags
    leaves no message out. -/
def Complete (w : World) (op : Op) (r : Reply op) : Prop :=
  match op, r with
  | .search criteria, .ok uids => uids.Nodup ∧ ∀ uid, ∀ m ∈ w.messages, m.isAt uid = true →
      matchesCriteria criteria m = true → uid ∈ uids
  | .fetch uids .flags, .ok fetched => ∀ uid ∈ uids, ∀ m ∈ w.messages, m.isAt uid = true →
      (fetched.lookup uid).isSome = true
  | _, _ => True

def Server : Env Op Reply World := fun w op r w' => Serves w op r w' ∧ Complete w op r

/-- The event leaves the keywords of the tool alone. -/
def KeepsKeywords (k : Keywords) : Event → Prop
  | .arrive _ _ flags => ∀ keyword ∈ k.all, hasFlag flags keyword = false
  | .reflag m flags => ∀ keyword ∈ k.all, hasFlag flags keyword = m.has keyword
  | _ => True

/-- A move of the other clients. -/
def Others (k : Keywords) (w w' : World) : Prop :=
  ∃ e : Event, e.Enabled w ∧ KeepsKeywords k e ∧ w' = e.apply w

/-- The event puts nothing back into the INBOX and marks nothing there as `\Deleted`. -/
def Calm : Event → Prop
  | .refile _ folder => folderName folder ≠ "INBOX"
  | .duplicate _ folder => folderName folder ≠ "INBOX"
  | .reflag m flags => hasFlag flags deletedFlag = true → m.has deletedFlag = true
  | _ => True

/-- A calm move of the other clients. -/
def Calmly (k : Keywords) (w w' : World) : Prop :=
  ∃ e : Event, e.Enabled w ∧ KeepsKeywords k e ∧ Calm e ∧ w' = e.apply w

/-! ## Messages without a keyword -/

/-- No message at `uid` carries the keyword. -/
def Free (keyword : String) (uid : ℕ) (w : World) : Prop :=
  ∀ m ∈ w.messages, m.isAt uid = true → m.has keyword = false

/-- No message carries both quarantine keywords. -/
structure Apart (k : Keywords) (w : World) : Prop where
  wellFormed : WellFormed w
  apart : ∀ m ∈ w.messages, m.has k.failed = true → m.has k.unverified = false

variable {k : Keywords} {w w' : World} {uid : ℕ} {keyword : String}

theorem Free.of_not {m : Message} (h : Free keyword uid w) (hm : m ∈ w.messages)
    (hat : m.isAt uid = true) (hhas : m.has keyword = true) : False := by
  rw [h m hm hat] at hhas
  exact absurd hhas nofun

/-- What is under an old UID after an event was there before, with the same keywords of the tool. -/
theorem apply_old (hw : WellFormed w) {e : Event} (he : e.Enabled w) (hk : KeepsKeywords k e)
    {m' : Message} (hm' : m' ∈ (e.apply w).messages) :
    (∃ m ∈ w.messages, m.uid = m'.uid ∧ m.folder = m'.folder ∧
      ∀ keyword ∈ k.all, m'.has keyword = m.has keyword) ∨
    (∀ keyword ∈ k.all, m'.has keyword = false) ∨
    (∃ m ∈ w.messages, ∃ folder, (e = .refile m folder ∨ e = .duplicate m folder) ∧
      m' = m.placed folder w.uidNext) := by
  rcases mem_apply hw he hm' with hm | ⟨m, hm, flags, rfl, rfl⟩ | ⟨raw, u, flags, rfl, rfl⟩ | hput
  · exact Or.inl ⟨m', hm, rfl, rfl, fun _ _ => rfl⟩
  · exact Or.inl ⟨m, hm, rfl, rfl, hk⟩
  · exact Or.inr (Or.inl hk)
  · exact Or.inr (Or.inr hput)

theorem apart_apply (h : Apart k w) {e : Event} (he : e.Enabled w) (hk : KeepsKeywords k e) :
    Apart k (e.apply w) := by
  refine ⟨h.wellFormed.apply he, fun m' hm' hfailed => ?_⟩
  rcases apply_old h.wellFormed he hk hm' with ⟨m, hm, -, -, hsame⟩ | hnone |
    ⟨m, hm, folder, -, rfl⟩
  · rw [hsame _ Diary.failed_mem] at hfailed
    rw [hsame _ Diary.unverified_mem]
    exact h.apart m hm hfailed
  · exact hnone _ Diary.unverified_mem
  · exact h.apart m hm hfailed

theorem free_apply (hw : WellFormed w) {e : Event} (he : e.Enabled w) (hk : KeepsKeywords k e)
    (hkw : keyword ∈ k.all) (hu : uid < w.uidNext) (h : Free keyword uid w) :
    Free keyword uid (e.apply w) := by
  intro m' hm' hat'
  obtain ⟨hfolder, rfl⟩ := Message.isAt_iff.mp hat'
  rcases apply_old hw he hk hm' with ⟨m, hm, hum, hf, hsame⟩ | hnone | ⟨m, hm, folder, -, rfl⟩
  · rw [hsame keyword hkw]
    exact h m hm (Message.isAt_iff.mpr ⟨hf.trans hfolder, hum⟩)
  · exact hnone keyword hkw
  · rw [Message.placed_uid] at hu
    exact absurd hu (Nat.lt_irrefl _)

/-- A call gives the message at an old UID no keyword but the one it stores there. -/
theorem free_serves {op : Op} {r : Reply op} (hE : Serves w op r w')
    (hop : ∀ flag, op = .addFlags uid flag → lower flag ≠ lower keyword) (hu : uid < w.uidNext)
    (h : Free keyword uid w) : Free keyword uid w' := by
  intro m' hm' hat'
  rcases hE.origin hm' with ⟨m, hm, rfl | rfl⟩ | ⟨m, -, u, folder, -, -, rfl⟩
  · exact h m' hm hat'
  · refine Bool.eq_false_iff.mpr (fun hhas => ?_)
    obtain ⟨u, flag, rfl, hat, heq⟩ := of_has_flagsAfter (h m hm hat') hhas
    have huid : u = uid := (Message.isAt_iff.mp hat).2.symm.trans (Message.isAt_iff.mp hat').2
    subst huid
    exact hop flag rfl heq.symm
  · have huid : w.uidNext = uid := (Message.isAt_iff.mp hat').2
    omega

/-- What a call must respect: a quarantine keyword is stored only where the other one is not. -/
def Allowed (k : Keywords) (w : World) : Op → Prop
  | .addFlags uid flag =>
      (lower flag = lower k.failed → Free k.unverified uid w) ∧
      (lower flag = lower k.unverified → Free k.failed uid w)
  | _ => True

/-- **An allowed call keeps the keywords apart.** -/
theorem apart_serves (h : Apart k w) {op : Op} {r : Reply op} (hg : Allowed k w op)
    (hE : Serves w op r w') : Apart k w' := by
  refine ⟨hE.wellFormed h.wellFormed, fun m' hm' hfailed => ?_⟩
  rcases hE.origin hm' with ⟨m, hm, rfl | rfl⟩ | ⟨m, hm, u, folder, -, -, rfl⟩
  · exact h.apart m' hm hfailed
  · refine Bool.eq_false_iff.mpr (fun hunverified => ?_)
    by_cases hf : m.has k.failed = true
    · -- the call has stored the unverified keyword on a message with the failed one
      obtain ⟨u, flag, rfl, hat, heq⟩ := of_has_flagsAfter (h.apart m hm hf) hunverified
      exact (hg.2 heq.symm).of_not hm hat hf
    · obtain ⟨u, flag, rfl, hat, heq⟩ := of_has_flagsAfter (Bool.eq_false_iff.mpr hf) hfailed
      have hold := hg.1 heq.symm m hm hat
      have hunverified : hasFlag (flagsAfter (.addFlags u flag) m) k.unverified = true := hunverified
      obtain ⟨_, _, hop, -, heq'⟩ := of_has_flagsAfter hold hunverified
      cases hop
      exact k.failed_ne_unverified (heq.trans heq'.symm)
  · exact h.apart m hm hfailed

/-! ## What keeps messages free of a keyword -/

/-- Under the UIDs given out, what is free of a keyword it is protected from stays so. -/
structure Kept (P : ℕ → String → Prop) (w w' : World) : Prop where
  uidNext : w.uidNext ≤ w'.uidNext
  free : ∀ uid keyword, P uid keyword → uid < w.uidNext → Free keyword uid w → Free keyword uid w'

/-- A protection, as long as the keywords are apart. -/
def Keeps (k : Keywords) (P : ℕ → String → Prop) (w w' : World) : Prop :=
  Apart k w → Apart k w' ∧ Kept P w w'

variable {P P' : ℕ → String → Prop}

theorem Keeps.refl (w : World) : Keeps k P w w :=
  fun h => ⟨h, Nat.le_refl _, fun _ _ _ _ hfree => hfree⟩

theorem Keeps.trans {a b c : World} (h : Keeps k P a b) (h' : Keeps k P b c) : Keeps k P a c := by
  intro ha
  obtain ⟨hb, hab⟩ := h ha
  obtain ⟨hc, hbc⟩ := h' hb
  refine ⟨hc, hab.uidNext.trans hbc.uidNext, fun uid keyword hP hu hfree => ?_⟩
  exact hbc.free uid keyword hP (Nat.lt_of_lt_of_le hu hab.uidNext) (hab.free uid keyword hP hu hfree)

theorem Keeps.mono (h : Keeps k P w w') (hP : ∀ uid keyword, P' uid keyword → P uid keyword) :
    Keeps k P' w w' := by
  intro hw
  obtain ⟨hw', hkept⟩ := h hw
  exact ⟨hw', hkept.uidNext, fun uid keyword hp => hkept.free uid keyword (hP uid keyword hp)⟩

/-- The keywords of the tool, wherever they are. -/
def Everywhere (k : Keywords) (_ : ℕ) (keyword : String) : Prop := keyword ∈ k.all

theorem Others.keeps (h : Others k w w') : Keeps k (Everywhere k) w w' := by
  intro hw
  obtain ⟨e, he, hk, rfl⟩ := h
  refine ⟨apart_apply hw he hk, uidNext_le_apply he, fun uid keyword hkw hu hfree => ?_⟩
  exact free_apply hw.wellFormed he hk hkw hu hfree

/-- The others leave the keywords alone, and no call stores a keyword where it is protected. -/
def discipline (k : Keywords) (P : ℕ → String → Prop) : Discipline Op World where
  rely := Keeps k (Everywhere k)
  guard := fun w op => Allowed k w op ∧
    ∀ uid flag, op = .addFlags uid flag → ∀ keyword, P uid keyword → lower flag ≠ lower keyword

/-- **A call that the discipline allows keeps what it protects.** -/
theorem keeps_step {op : Op} {r : Reply op} (hg : (discipline k P).guard w op)
    (hE : Server w op r w') : Keeps k P w w' := by
  intro hw
  refine ⟨apart_serves hw hg.1 hE.1, hE.1.uidNext_le, fun uid keyword hp hu hfree => ?_⟩
  exact free_serves hE.1 (fun flag hop => hg.2 uid flag hop keyword hp) hu hfree

/-- What protects keywords of the tool. -/
def growth (hP : ∀ uid keyword, P uid keyword → keyword ∈ k.all) :
    Growth Server (discipline k P) (fun op => op.isInsert = false) where
  grow := Keeps k P
  refl := .refl
  trans := .trans
  rely := fun h => h.mono hP
  step := fun _ hg hE => keeps_step hg hE

/-- The call adds flags to a message. -/
def stores : Op → Bool
  | .addFlags _ _ => true
  | _ => false

/-- A call that stores nothing is always allowed. -/
theorem guard_of_not_store {op : Op} (h : stores op = false) (w : World) :
    (discipline k P).guard w op := by
  cases op
  case addFlags uid flag => exact absurd h nofun
  all_goals exact ⟨trivial, nofun⟩

theorem guard_of_isRoutine (w : World) (op : Op) (h : op.isRoutine = true) :
    (discipline k P).guard w op := by
  refine guard_of_not_store ?_ w
  cases op
  case addFlags uid flag => exact absurd h nofun
  all_goals rfl

/-- What a call that stores nothing, or something else than a keyword of the tool, keeps. -/
def routineGrowth (k : Keywords) (P : ℕ → String → Prop) :
    Growth Server (discipline k P) (fun op => op.isRoutine = true) where
  grow := Keeps k (Everywhere k)
  refl := .refl
  trans := .trans
  rely := id
  step := by
    intro w op r w' hop hg hE hw
    refine ⟨apart_serves hw hg.1 hE.1, hE.1.uidNext_le, fun uid keyword _ hu => ?_⟩
    refine free_serves hE.1 ?_ hu
    rintro flag rfl
    exact absurd hop nofun

/-- Nothing stands against a move of a message whose `\Deleted` flag nothing protects. -/
theorem mayMove (hP : ∀ uid keyword, P uid keyword → keyword ∈ k.all) (uid : ℕ) (folder : String)
    (w : World) :
    Forwarder.MayMove Server (discipline k P) (growth hP).grow uid folder w where
  move := fun v _ => guard_of_not_store rfl v
  copy := fun v _ => guard_of_not_store rfl v
  after := by
    intro _ _ v _ _ _
    refine ⟨⟨⟨fun he => ?_, fun he => ?_⟩, ?_⟩, guard_of_not_store rfl v⟩
    · exact absurd he.symm k.failedOk.ne_deleted
    · exact absurd he.symm k.unverifiedOk.ne_deleted
    · rintro u flag hop keyword hp he
      cases hop
      have hkw := hP uid keyword hp
      simp only [Keywords.all, List.mem_cons, List.not_mem_nil, or_false] at hkw
      rcases hkw with rfl | rfl | rfl
      · exact k.insertedOk.ne_deleted he.symm
      · exact k.failedOk.ne_deleted he.symm
      · exact k.unverifiedOk.ne_deleted he.symm

/-! ## A run -/

/-- What `_process` protects: everything elsewhere, and the failed keyword on its own message. -/
def Processing (k : Keywords) (uid : ℕ) (u : ℕ) (keyword : String) : Prop :=
  keyword ∈ k.all ∧ (u ≠ uid ∨ keyword = k.failed)

/-- What the settlement protects. -/
def Settling (k : Keywords) (_ : ℕ) (keyword : String) : Prop := keyword = k.unverified

theorem processing_all (uid u : ℕ) (keyword : String) (h : Processing k uid u keyword) :
    keyword ∈ k.all := h.1

theorem settling_all (u : ℕ) (keyword : String) (h : Settling k u keyword) : keyword ∈ k.all := by
  rw [show keyword = k.unverified from h]
  exact Diary.unverified_mem

/-- A rejected message may still get the failed keyword. -/
structure Rejectable (k : Keywords) (uid : ℕ) (w : World) : Prop where
  given : uid < w.uidNext
  free : Free k.unverified uid w

theorem Rejectable.later (h : Rejectable k uid w) (hw : Apart k w) (hkept : Keeps k P w w')
    (hP : P uid k.unverified) : Rejectable k uid w' := by
  obtain ⟨-, hkept⟩ := hkept hw
  exact ⟨Nat.lt_of_lt_of_le h.given hkept.uidNext, hkept.free uid _ hP h.given h.free⟩

/-- A message that is fetched without a quarantine keyword carries none. -/
theorem free_of_delivers {message : FetchedMessage} (hw : WellFormed w)
    (hd : ICloudMailbox.Delivers Server w message w')
    (hclear : k.quarantine.any message.hasKeyword = false) :
    message.uid < w'.uidNext ∧ Free k.failed message.uid w' ∧ Free k.unverified message.uid w' := by
  obtain ⟨he, m, hm, hat, -, hsame⟩ := Serves.delivers (hd.map id (fun h => h.1))
  obtain rfl : w = w' := he.symm
  have hat : m.isAt message.uid = true := hat
  have huid := (Message.isAt_iff.mp hat).2
  have hnone : ∀ keyword, message.hasKeyword keyword = false → Free keyword message.uid w := by
    intro keyword hout m' hm' hat'
    have hone := hw.unique hm' hm ((Message.isAt_iff.mp hat').2.trans huid.symm)
    rw [hone, ← hout]
    exact (hsame keyword).symm
  simp only [Keywords.quarantine, List.any_cons, List.any_nil, Bool.or_false,
    Bool.or_eq_false_iff] at hclear
  refine ⟨?_, hnone _ hclear.1, hnone _ hclear.2⟩
  rw [← huid]
  exact hw.given m hm

variable {o : ForwarderOptions}

theorem guard_inserted (w : World) (uid : ℕ) :
    (discipline k (Processing k uid)).guard w (.addFlags uid k.inserted) := by
  refine ⟨⟨fun he => absurd he k.inserted_ne_failed, fun he => absurd he k.inserted_ne_unverified⟩, ?_⟩
  rintro u flag hop keyword ⟨-, hne | rfl⟩
  · cases hop
    exact absurd rfl hne
  · cases hop
    exact k.inserted_ne_failed

theorem guard_unverified (h : Free k.failed uid w) :
    (discipline k (Processing k uid)).guard w (.addFlags uid k.unverified) := by
  refine ⟨⟨fun he => absurd he.symm k.failed_ne_unverified, fun _ => h⟩, ?_⟩
  rintro u flag hop keyword ⟨-, hne | rfl⟩
  · cases hop
    exact absurd rfl hne
  · cases hop
    exact k.failed_ne_unverified.symm

theorem guard_failed (h : Free k.unverified uid w) :
    (discipline k (Settling k)).guard w (.addFlags uid k.failed) := by
  refine ⟨⟨fun _ => h, fun he => absurd he k.failed_ne_unverified⟩, ?_⟩
  rintro u flag hop keyword hkw
  cases hop
  rw [show keyword = k.unverified from hkw]
  exact k.failed_ne_unverified

/-- **One message.** -/
theorem process_keeps (hk : o.keywords = k) {extraLabels : List String} {s : RunState}
    (hw : Apart k w) : (Forwarder.process o extraLabels uid).Safe Server
      (discipline k (Processing k uid)) (fun _ s' w' => Forwarder.Adds (Rejectable k) uid s s' w' ∧
        Keeps k (Processing k uid) w w') s w := by
  let G : Growth Server (discipline k (Processing k uid)) (fun op => op.isInsert = false) :=
    growth (processing_all uid)
  have hissue : ∀ v raw, (discipline k (Processing k uid)).guard v (.issueTrash raw) :=
    fun v _ => guard_of_not_store rfl v
  have hinsert : ∀ v raw labels, (discipline k (Processing k uid)).guard v
      (.insertRaw raw labels) := fun v _ _ => guard_of_not_store rfl v
  refine Forwarder.process_safe G guard_of_isRoutine
    (fun s' w' hs hw' => ⟨Or.inl hs.rejected, hw'⟩) (fun e s' w' hs hw' => ⟨Or.inl hs.rejected, hw'⟩)
    ?_ ?_
  · intro message s₁ w₁ w₂ hs₁ _ _ hw₂ _ _ _
    refine (Forwarder.trash_safe G guard_of_isRoutine (fun v _ => hissue v _)
      (fun folder => mayMove _ _ folder w₂)).mono ?_
    rintro r s' w' ⟨hs', hw'⟩
    exact ⟨Or.inl (hs'.rejected.trans hs₁.rejected), G.trans hw₂ hw'⟩
  · rintro message s₁ w₁ w₂ hs₁ hw₁ hd hw₂ rfl _ hclear
    rw [hk] at hclear
    have hapart₂ := (hw₂ hw).1
    obtain ⟨hgiven, hfailed, hunverified⟩ := free_of_delivers (hw₁ hw).1.wellFormed hd hclear
    -- up to the answer of Gmail nobody has written on the message
    have hanswer : ∀ {r v v'}, Keeps k (Everywhere k) w₂ v →
        Server v (.insertRaw message.raw (gmailLabelsFor message extraLabels)) r v' →
        Keeps k (Everywhere k) w₂ v' :=
      fun hv hE => hv.trans (keeps_step (guard_of_not_store rfl _) hE)
    have hleft : ∀ {v}, Keeps k (Everywhere k) w₂ v → G.grow w v :=
      fun hv => G.trans hw₂ (hv.mono (processing_all message.uid))
    refine Forwarder.insert_at (fun v _ => hinsert v _ _) ?_ ?_ ?_ ?_
    · intro id v v' hv hE
      have hv' := hanswer hv hE
      have hstore : ∀ v'', G.grow v' v'' →
          (discipline k (Processing k message.uid)).guard v''
            (.addFlags message.uid o.keywords.unverified) := by
        intro v'' hv''
        have hall := (G.trans (hv'.mono (processing_all message.uid)) hv'') hapart₂
        rw [hk]
        exact guard_unverified
          (hall.2.free _ _ ⟨Diary.failed_mem, Or.inr rfl⟩ hgiven hfailed)
      refine (Forwarder.recordInsert_safe G guard_of_isRoutine (fun v _ => hk ▸ guard_inserted v _)
        hstore (mayMove _ _ _ v') (fun _ _ _ _ _ v _ => hissue v _)
        (fun _ v _ _ _ folder => mayMove _ _ folder v)).mono ?_
      rintro r s' w' ⟨hs', hw', -⟩
      exact ⟨Or.inl (hs'.trans hs₁.rejected), G.trans (hleft hv') hw'⟩
    · intro e e' v v' hv hE
      exact ⟨Or.inl hs₁.rejected, hleft (hanswer hv hE)⟩
    · intro text status v v' hv hE s' hs'
      exact ⟨Or.inl (hs'.rejected.trans hs₁.rejected), hleft (hanswer hv hE)⟩
    · intro text status v v' hv hE
      have hv' := hanswer hv hE
      have hrejectable : Rejectable k message.uid v' :=
        Rejectable.later ⟨hgiven, hunverified⟩ hapart₂ hv' Diary.unverified_mem
      refine ⟨Or.inr ⟨text, MailTransporter.perMessage status, ?_, hrejectable⟩, hleft hv'⟩
      show s₁.rejected ++ _ = s.rejected ++ _
      rw [hs₁.rejected]

theorem quarantine_keeps (hk : o.keywords = k) {s : RunState} (hw : Apart k w)
    (h : Rejectable k uid w) : (Forwarder.quarantine o uid o.keywords.failed o.failedFolder).Safe
      Server (discipline k (Settling k)) (fun _ s' w' => s.SameError s' ∧ Keeps k (Settling k) w w')
      s w := by
  let G : Growth Server (discipline k (Settling k)) (fun op => op.isInsert = false) :=
    growth settling_all
  have hstore : ∀ v, G.grow w v → (discipline k (Settling k)).guard v
      (.addFlags uid o.keywords.failed) := by
    intro v hv
    rw [hk]
    exact guard_failed (h.later hw hv rfl).free
  refine (Forwarder.quarantine_safe G guard_of_isRoutine (fun _ => hstore) (mayMove _ _ _ w)).mono ?_
  rintro r s' w' ⟨hs', hw', -⟩
  exact ⟨hs', hw'⟩

/-- Nothing is protected. -/
def Nothing (_ : ℕ) (_ : String) : Prop := False

/-- What is allowed where more is protected is allowed. -/
theorem safe_unprotected {α : Type} {m : Run α} {Q : Except Exc α → RunState → World → Prop}
    {s : RunState} (h : m.Safe Server (discipline k P) Q s w) :
    m.Safe Server (discipline k Nothing) Q s w :=
  h.guard_mono id (fun hg => ⟨hg.1, fun _ _ _ _ hnothing => hnothing.elim⟩)

/-- `SEARCH` names no message twice. -/
theorem listing_nodup (keywords : List String) (s : ICloudMailbox) :
    (ICloudMailbox.listInboxUids (some keywords)).Safe
      (Env.answering fun op r => ∃ w w', Server w op r w') .free
      (fun r _ _ => ∀ uids, r = .ok uids → uids.Nodup) s () :=
  Settlement.listInboxUids_nodup (fun _ _ ⟨_, _, hE⟩ => hE.2.1) _ s

/-- **A run stores a quarantine keyword only where the other one is not.** -/
theorem run_apart (hk : o.keywords = k) {s : RunState} (hs : s.rejected = []) (hw : Apart k w) :
    (Forwarder.run o).Safe Server (discipline k Nothing) (fun _ _ _ => True) s w := by
  have hrun := Forwarder.run_rejecting (K := Apart k) (A := Apart k) (N := Rejectable k)
    guard_of_isRoutine (routineGrowth k Nothing) (o := o) (fun hw' h => (hw' h).1)
    (fun hw' h => (hw' h).1) (fun hw' h hN => hN.later h hw' Diary.unverified_mem) id ?_ ?_ ?_ hs hw
  · exact hrun.mono (fun _ _ _ _ => trivial)
  · intro s w hw
    rw [safe_onMailbox]
    have hgrow := Routine.Safe.of_uses (routineGrowth k Nothing)
      (ICloudMailbox.listInboxUids_glances (some o.keywords.quarantine)).looks
      (fun _ => Op.isRoutine_of_isLook)
      (fun w' op _ hop => guard_of_isRoutine w' op (Op.isRoutine_of_isLook hop)) (s := s.mailbox)
      (w := w)
    refine (hgrow.also (fun hE => ⟨_, _, hE⟩) (listing_nodup _ _)).mono ?_
    rintro r mailbox w' ⟨hw', hnodup⟩
    exact ⟨(hw' hw).1, rfl, hnodup⟩
  · intro extraLabels uid s w hw
    refine (safe_unprotected (process_keeps hk hw)).mono ?_
    rintro r s' w' ⟨hadds, hw'⟩
    obtain ⟨hapart, -⟩ := hw' hw
    refine ⟨hadds, fun u hne hN => hN.later hw hw' ?_, fun _ => hapart, fun _ _ => hapart⟩
    exact ⟨Diary.unverified_mem, Or.inl hne⟩
  · intro uid s w hw hN
    refine (safe_unprotected (quarantine_keeps hk hw hN)).mono ?_
    rintro r s' w' ⟨hs', hw'⟩
    obtain ⟨hapart, -⟩ := hw' hw
    exact ⟨hapart, fun _ => hapart, fun u hN => hN.later hw hw' rfl, hs'.error⟩

/-! ## What listings show -/

/-- A `FETCH` of flags shows every message it is asked about as it is. -/
theorem reported_eq (hw : WellFormed w) {uids : List ℕ} {fetched : Fetched}
    (hE : Server w (.fetch uids .flags) (.ok fetched) w') (hin : uid ∈ uids) {m : Message}
    (hm : m ∈ w.messages) (hat : m.isAt uid = true) (flag : String) :
    hasFlag (ICloudMailbox.reportedFlags fetched uid) flag = m.has flag := by
  obtain ⟨hserves, hcomplete⟩ := hE
  obtain ⟨item, hl⟩ := Option.isSome_iff_exists.mp (hcomplete uid hin m hm hat)
  have he : w' = w := hserves.cases.elim id id
  obtain ⟨m', hm', hat', -, flags, hflags, hsame⟩ := hserves.2 _ (mem_of_lookup hl)
  have huid := (Message.isAt_iff.mp hat').2.trans (Message.isAt_iff.mp hat).2.symm
  rw [he] at hm'
  have hone := hw.unique hm' hm huid
  have hreported : ICloudMailbox.reportedFlags fetched uid = flags := by
    unfold ICloudMailbox.reportedFlags
    rw [hl]
    exact congrArg (fun o => o.getD []) hflags
  rw [hreported, ← hone]
  exact hsame flag

/-- What a listing shows with a keyword was there with it. -/
theorem shown_of_lists {grow : World → World → Prop} {flags : List (ℕ × List String)}
    (h : ICloudMailbox.Lists Server grow w flags w') {item : ℕ × List String} (hitem : item ∈ flags)
    (hhas : hasFlag item.2 keyword = true) :
    ∃ m ∈ w'.messages, m.isAt item.1 = true ∧ m.has keyword = true := by
  obtain ⟨found, w₁, -, ⟨-, rfl, -⟩ | ⟨fetched, w₂, -, hE, rfl⟩⟩ := h
  · exact absurd hitem List.not_mem_nil
  · obtain ⟨uid, -, rfl⟩ := List.mem_map.mp hitem
    exact reportedFlags_has hE.1.2 hhas

theorem lookup_listing (f : ℕ → List String) {uids : List ℕ} (h : uid ∈ uids) :
    Cli.flagsOf (uids.map (fun u => (u, f u))) uid = f uid := by
  unfold Cli.flagsOf
  induction uids with
  | nil => exact absurd h List.not_mem_nil
  | cons u rest ih =>
      rw [List.map_cons, List.lookup_cons]
      by_cases hu : uid = u
      · simp [hu]
      · have hbeq : (uid == u) = false := by simp [hu]
        rw [hbeq]
        exact ih ((List.mem_cons.mp h).resolve_left hu)

/-- A message that was not `\Deleted` when the INBOX was searched is listed as it is. -/
theorem listed_eq {grow : World → World → Prop} {flags : List (ℕ × List String)}
    (h : ICloudMailbox.Lists Server grow w flags w') (hw' : WellFormed w') {m m' : Message}
    (hm : m ∈ w.messages) (hat : m.isAt uid = true) (hlive : m.has deletedFlag = false)
    (hm' : m' ∈ w'.messages) (hat' : m'.isAt uid = true) (flag : String) :
    hasFlag (Cli.flagsOf flags uid) flag = m'.has flag := by
  obtain ⟨found, w₁, hsearch, hrest⟩ := h
  have hin : uid ∈ ICloudMailbox.sortUids found := by
    refine ICloudMailbox.mem_sortUids.mpr (hsearch.2.2 uid m hm hat ?_)
    simp [matchesCriteria, hlive]
  rcases hrest with ⟨hnil, -, -⟩ | ⟨fetched, w₂, -, hE, rfl⟩
  · rw [hnil] at hin
    exact absurd hin List.not_mem_nil
  · obtain rfl : w' = w₂ := hE.1.cases.elim id id
    rw [lookup_listing _ (List.mem_dedup.mpr hin)]
    exact reported_eq hw' hE hin hm' hat' flag

/-! ## `retry` -/

theorem everywhere_all (u : ℕ) (keyword : String) (h : Everywhere k u keyword) : keyword ∈ k.all := h

/-- What `retry` keeps: it gives no message a keyword. -/
def retryGrowth (k : Keywords) :
    Growth Server (discipline k (Everywhere k)) (fun op => op.isImap = true) :=
  (growth everywhere_all).restrict (fun _ => Op.isInsert_of_isImap)

/-- A reply that shows a message without a keyword says that it carries none. -/
theorem free_of_cleared (hw : WellFormed w) (hw' : WellFormed w')
    (h : ICloudMailbox.ShowsCleared Server w uid keyword w') : Free keyword uid w' := by
  intro m hm hat
  rcases h with ⟨response, flags, hE, hl, hout⟩ | ⟨fetched, hE, hout⟩
  · obtain ⟨m', hm', hat', hsame⟩ := hE.1.2 _ (mem_of_lookup hl)
    have huid := (Message.isAt_iff.mp hat).2.trans (Message.isAt_iff.mp hat').2.symm
    rw [hw'.unique hm hm' huid, ← hout]
    exact (hsame keyword).symm
  · obtain rfl : w' = w := hE.1.cases.elim id id
    rw [← hout]
    exact (reported_eq hw hE (List.mem_singleton_self uid) hm hat keyword).symm

/-- The other quarantine keyword. -/
theorem other_quarantine (h : keyword ∈ k.quarantine) : ∃ other ∈ k.quarantine,
    (∀ kw ∈ k.quarantine, kw = keyword ∨ kw = other) ∧
    ∀ w, Apart k w → ∀ m ∈ w.messages, m.has keyword = true → m.has other = false := by
  simp only [Keywords.quarantine, List.mem_cons, List.not_mem_nil, or_false] at h ⊢
  rcases h with rfl | rfl
  · exact ⟨k.unverified, Or.inr rfl, fun kw hkw => hkw, fun w hw m hm => hw.apart m hm⟩
  · refine ⟨k.failed, Or.inl rfl, fun kw hkw => hkw.symm, fun w hw m hm hunverified => ?_⟩
    refine Bool.eq_false_iff.mpr (fun hfailed => ?_)
    rw [hw.apart m hm hfailed] at hunverified
    exact absurd hunverified (by simp)

/-- No quarantine keyword is on the message at a UID that has been given out. -/
structure Released (k : Keywords) (uid : ℕ) (w : World) : Prop where
  apart : Apart k w
  given : uid < w.uidNext
  free : ∀ keyword ∈ k.quarantine, Free keyword uid w

theorem Released.later (h : Released k uid w) (hw : Keeps k (Everywhere k) w w') :
    Released k uid w' := by
  obtain ⟨hapart, hkept⟩ := hw h.apart
  refine ⟨hapart, Nat.lt_of_lt_of_le h.given hkept.uidNext, fun keyword hkw => ?_⟩
  exact hkept.free uid keyword (Diary.all_of_quarantine hkw) h.given (h.free keyword hkw)

/-- **What a `cleared` line means.** The message carried the keyword and hence not the other one, and
    it carries neither any more. -/
theorem released_of_retried (hw : Apart k w) (hkw : keyword ∈ k.quarantine) {lines : List Line}
    (h : Cli.Retried Server (Keeps k (Everywhere k)) keyword w lines w') {keyword' : String}
    (hline : Line.cleared uid keyword' ∈ lines) : Released k uid w' := by
  obtain ⟨-, flags, w₁, w₂, w₃, w₄, h₁, hlists, ⟨item, hitem, rfl, hhas⟩, h₂, hcleared, h₄⟩ :=
    h.2 uid keyword' hline
  have hlook : ∀ {op : Op} {r : Reply op} {v v' : World}, stores op = false →
      Server v op r v' → Keeps k (Everywhere k) v v' :=
    fun hop hE => keeps_step (guard_of_not_store hop _) hE
  have hlisted : Keeps k (Everywhere k) w₁ w₂ := by
    obtain ⟨found, v₁, hsearch, ⟨-, -, rfl⟩ | ⟨fetched, v₂, hv, hE, -⟩⟩ := hlists
    · exact hlook rfl hsearch
    · exact (hlook rfl hsearch).trans (hv.trans (hlook rfl hE))
  have hclears : Keeps k (Everywhere k) w₃ w₄ := by
    rcases hcleared with ⟨response, found, hE, -, -⟩ | ⟨fetched, hE, -⟩
    · exact hlook rfl hE
    · exact hlook rfl hE
  have hapart₂ := ((h₁.trans hlisted) hw).1
  have hapart₃ := (h₂ hapart₂).1
  have hapart₄ := (hclears hapart₃).1
  obtain ⟨m, hm, hat, hcarried⟩ := shown_of_lists hlists hitem hhas
  have huid := (Message.isAt_iff.mp hat).2
  obtain ⟨other, hother, hcases, hapart⟩ := other_quarantine hkw
  have hfree : Free other item.1 w₂ := by
    intro m' hm' hat'
    rw [hapart₂.wellFormed.unique hm' hm ((Message.isAt_iff.mp hat').2.trans huid.symm)]
    exact hapart w₂ hapart₂ m hm hcarried
  have hgiven : item.1 < w₂.uidNext := huid ▸ hapart₂.wellFormed.given m hm
  obtain ⟨-, hkept⟩ := (h₂.trans hclears) hapart₂
  have hreleased : Released k item.1 w₄ := by
    refine ⟨hapart₄, Nat.lt_of_lt_of_le hgiven hkept.uidNext, fun kw hin => ?_⟩
    rcases hcases kw hin with rfl | rfl
    · exact free_of_cleared hapart₃.wellFormed hapart₄.wellFormed hcleared
    · exact hkept.free _ _ (Diary.all_of_quarantine hother) hgiven hfree
  exact hreleased.later h₄

theorem guard_of_isLook (w : World) (op : Op) (h : op.isLook = true) :
    (discipline k P).guard w op := guard_of_isRoutine w op (Op.isRoutine_of_isLook h)

theorem retryKeyword_mem (args : RetryArgs) : Cli.retryKeyword k args ∈ k.quarantine := by
  unfold Cli.retryKeyword
  split <;> simp [Keywords.quarantine]

/-- A `retry` releases what it reports. -/
theorem retry_releases (args : RetryArgs) (hw : Apart k w) :
    (Cli.cmdRetry k args).Safe Server (discipline k (Everywhere k)) (fun _ s' w' =>
      ∀ uid keyword, Line.cleared uid keyword ∈ s'.output → Released k uid w')
      (Cli.initial k false) w := by
  refine (Cli.cmdRetry_safe (retryGrowth k) guard_of_isLook
    (fun _ v _ => guard_of_not_store rfl v)).mono ?_
  rintro r s' w' ⟨lines, hout, hlines⟩ uid keyword hline
  have hline : Line.cleared uid keyword ∈ lines := by
    rw [hout] at hline
    exact hline
  exact released_of_retried hw (retryKeyword_mem args) hlines hline

/-! ## `mark-failed` -/

/-- If the message at `uid` carries the unverified keyword, `mark-failed` sees the inserted one. -/
def Heeded (k : Keywords) (uid : ℕ) (w : World) : Prop :=
  ∀ m ∈ w.messages, m.isAt uid = true → m.has k.unverified = true →
    m.has k.inserted = true ∧ m.has deletedFlag = false

/-- Nobody gives a message the unverified keyword, or hides one that carries it. -/
structure Stays (k : Keywords) (w w' : World) : Prop where
  free : ∀ uid, Free k.unverified uid w → Free k.unverified uid w'
  heeded : ∀ uid, Heeded k uid w → Heeded k uid w'

/-- What `mark-failed` and calm clients keep. -/
def Marks (k : Keywords) (w w' : World) : Prop := Apart k w → Apart k w' ∧ Stays k w w'

theorem Marks.refl (w : World) : Marks k w w := fun h => ⟨h, fun _ h => h, fun _ h => h⟩

theorem Marks.trans {a b c : World} (h : Marks k a b) (h' : Marks k b c) : Marks k a c := by
  intro ha
  obtain ⟨hb, hab⟩ := h ha
  obtain ⟨hc, hbc⟩ := h' hb
  exact ⟨hc, fun uid hfree => hbc.free uid (hab.free uid hfree),
    fun uid hheeded => hbc.heeded uid (hab.heeded uid hheeded)⟩

/-- It is enough to know where the messages of the INBOX come from. -/
theorem Stays.of_origin (h : ∀ m' ∈ w'.messages, m'.folder = "INBOX" →
    m'.has k.unverified = true → ∃ m ∈ w.messages, m.folder = "INBOX" ∧ m.uid = m'.uid ∧
      m.has k.unverified = true ∧ (m.has k.inserted = true → m'.has k.inserted = true) ∧
      (m.has deletedFlag = false → m'.has deletedFlag = false)) : Stays k w w' := by
  refine ⟨fun uid hfree m' hm' hat' => Bool.eq_false_iff.mpr (fun hhas => ?_),
    fun uid hheeded m' hm' hat' hhas => ?_⟩
  · obtain ⟨hfolder, rfl⟩ := Message.isAt_iff.mp hat'
    obtain ⟨m, hm, hf, hu, hcarried, -⟩ := h m' hm' hfolder hhas
    exact hfree.of_not hm (Message.isAt_iff.mpr ⟨hf, hu⟩) hcarried
  · obtain ⟨hfolder, rfl⟩ := Message.isAt_iff.mp hat'
    obtain ⟨m, hm, hf, hu, hcarried, hins, hdel⟩ := h m' hm' hfolder hhas
    obtain ⟨hi, hd⟩ := hheeded m hm (Message.isAt_iff.mpr ⟨hf, hu⟩) hcarried
    exact ⟨hins hi, hdel hd⟩

theorem Calmly.marks (h : Calmly k w w') : Marks k w w' := by
  intro hw
  obtain ⟨e, he, hk, hcalm, rfl⟩ := h
  refine ⟨apart_apply hw he hk, .of_origin (fun m' hm' hfolder hhas => ?_)⟩
  rcases mem_apply hw.wellFormed he hm' with hm | ⟨m, hm, flags, rfl, rfl⟩ |
    ⟨raw, u, flags, rfl, rfl⟩ | ⟨m, hm, folder, hput, rfl⟩
  · exact ⟨m', hm, hfolder, rfl, hhas, id, id⟩
  · refine ⟨m, hm, hfolder, rfl, (hk _ Diary.unverified_mem) ▸ hhas, fun hi => ?_, fun hd => ?_⟩
    · exact (hk _ Diary.inserted_mem).trans hi
    · refine Bool.eq_false_iff.mpr (fun hdeleted => ?_)
      rw [hcalm hdeleted] at hd
      exact absurd hd nofun
  · have hnone := hk _ Diary.unverified_mem
    have hhas : hasFlag flags k.unverified = true := hhas
    rw [hnone] at hhas
    exact absurd hhas nofun
  · rcases hput with rfl | rfl
    · exact absurd hfolder hcalm
    · exact absurd hfolder hcalm

/-- The calls of `mark-failed`: looks, and stores of the failed keyword on messages without the
    unverified one. -/
def marking (k : Keywords) : Discipline Op World where
  rely := Marks k
  guard := fun w op => op.isLook = true ∨
    ∃ uid, op = .addFlags uid k.failed ∧ Free k.unverified uid w

/-- **A call of `mark-failed`.** -/
theorem marks_step {op : Op} {r : Reply op} (hg : (marking k).guard w op)
    (hE : Server w op r w') : Marks k w w' := by
  intro hw
  have hallowed : Allowed k w op := by
    rcases hg with hlook | ⟨uid, rfl, hfree⟩
    · exact (guard_of_isLook (P := Nothing) w op hlook).1
    · exact ⟨fun _ => hfree, fun he => absurd he k.failed_ne_unverified⟩
  have hputs : ∀ uid folder, ¬op.puts uid folder := by
    rintro uid folder (rfl | rfl)
    · rcases hg with hlook | ⟨_, hop, -⟩
      · exact absurd hlook nofun
      · exact absurd hop nofun
    · rcases hg with hlook | ⟨_, hop, -⟩
      · exact absurd hlook nofun
      · exact absurd hop nofun
  have hremoves : ∀ uid flag, op ≠ .removeFlags uid flag := by
    rintro uid flag rfl
    rcases hg with hlook | ⟨_, hop, -⟩
    · exact absurd hlook nofun
    · exact absurd hop nofun
  -- the only flag a message can have gained is the failed keyword
  have hgained : ∀ (m : Message) (flag : String), lower flag ≠ lower k.failed →
      hasFlag m.flags flag = false → hasFlag (flagsAfter op m) flag = false := by
    intro m flag hne hout
    refine Bool.eq_false_iff.mpr (fun hin => ?_)
    obtain ⟨uid, f, rfl, -, heq⟩ := of_has_flagsAfter hout hin
    rcases hg with hlook | ⟨_, hop, -⟩
    · exact absurd hlook nofun
    · cases hop
      exact hne heq
  refine ⟨apart_serves hw hallowed hE.1, .of_origin (fun m' hm' hfolder hhas => ?_)⟩
  rcases hE.1.origin hm' with ⟨m, hm, rfl | rfl⟩ | ⟨m, -, u, folder, hput, -, -⟩
  · exact ⟨m', hm, hfolder, rfl, hhas, id, id⟩
  · refine ⟨m, hm, hfolder, rfl, ?_, fun hi => has_flagsAfter hremoves hi, fun hd => ?_⟩
    · by_contra hout
      have hnone := hgained m k.unverified k.failed_ne_unverified.symm (Bool.eq_false_iff.mpr hout)
      have hhas : hasFlag (flagsAfter op m) k.unverified = true := hhas
      rw [hnone] at hhas
      exact absurd hhas nofun
    · exact hgained m deletedFlag k.failedOk.ne_deleted.symm hd
  · exact absurd hput (hputs u folder)

def marked (k : Keywords) : Growth Server (marking k) (fun op => op.isImap = true) where
  grow := Marks k
  refl := .refl
  trans := .trans
  rely := id
  step := fun _ hg hE => marks_step hg hE

/-- **`mark-failed` marks no message that carries the unverified keyword**, if it sees the inserted
    keyword on those it is given. -/
theorem markFailed_apart {uids : List ℕ} {s : CliState} (hw : Apart k w)
    (hheeded : ∀ uid ∈ uids, Heeded k uid w) :
    (Cli.cmdMarkFailed k uids).Safe Server (marking k) (fun _ _ _ => True) s w := by
  refine (Cli.cmdMarkFailed_safe (marked k) (fun _ _ h => Or.inl h) ?_).mono
    (fun _ _ _ _ => trivial)
  intro flags w₁ w₂ hw₁ hlists uid huid hinserted v hv
  have hlook : ∀ {op : Op} {r : Reply op} {v v' : World}, op.isLook = true →
      Server v op r v' → Marks k v v' := fun hop hE => marks_step (Or.inl hop) hE
  have hlisted : Marks k w₁ w₂ := by
    obtain ⟨found, v₁, hsearch, ⟨-, -, rfl⟩ | ⟨fetched, v₂, hv, hE, -⟩⟩ := hlists
    · exact hlook rfl hsearch
    · exact (hlook rfl hsearch).trans (Marks.trans hv (hlook rfl hE))
  obtain ⟨hapart₁, hstays₁⟩ := hw₁ hw
  obtain ⟨hapart₂, hstays₂⟩ := hlisted hapart₁
  have hheeded₁ := hstays₁.heeded uid (hheeded uid huid)
  have hfree : Free k.unverified uid w₂ := by
    by_contra hnot
    have hcarried : ∃ m ∈ w₁.messages, m.isAt uid = true ∧ m.has k.unverified = true := by
      by_contra hnone
      refine hnot (hstays₂.free uid (fun m hm hat => Bool.eq_false_iff.mpr (fun hhas => ?_)))
      exact hnone ⟨m, hm, hat, hhas⟩
    obtain ⟨m, hm, hat, hhas⟩ := hcarried
    obtain ⟨-, hlive⟩ := hheeded₁ m hm hat hhas
    refine hnot (fun m' hm' hat' => Bool.eq_false_iff.mpr (fun hhas' => ?_))
    obtain ⟨hinserted', -⟩ := hstays₂.heeded uid hheeded₁ m' hm' hat' hhas'
    have hshown := listed_eq hlists hapart₂.wellFormed hm hat hlive hm' hat' k.inserted
    rw [hinserted, hinserted'] at hshown
    exact absurd hshown nofun
  exact Or.inr ⟨uid, rfl, (hv hapart₂).2.free uid hfree⟩

/-! ## Histories -/

/-- A run or a command, from the state its object starts in. -/
def sessionOf {σ α : Type} (m : Py σ α) (s : σ) : Session Op Reply World where
  Result := Except Exc α × σ
  program := m s
  enter := id
  leave := fun _ w => w

/-- One step of a history: other clients move, or a run or a command is made, killed anywhere.
    `Given` says what `mark-failed` may be given. -/
inductive Step (k : Keywords) (Given : List ℕ → World → Prop) (w w' : World) : Prop
  | others (h : Others k w w')
  | run (o : ForwarderOptions) (hk : o.keywords = k)
      (h : (sessionOf (Forwarder.run o) (Forwarder.initial o)).Runs Server (Others k) w w')
  | retry (args : RetryArgs)
      (h : (sessionOf (Cli.cmdRetry k args) (Cli.initial k false)).Runs Server (Others k) w w')
  | markFailed (uids : List ℕ) (hgiven : Given uids w)
      (h : (sessionOf (Cli.cmdMarkFailed k uids) (Cli.initial k false)).Runs Server (Calmly k) w w')

def Reachable (k : Keywords) (Given : List ℕ → World → Prop) : World → World → Prop :=
  Relation.ReflTransGen (Step k Given)

/-- `mark-failed` is given no message with the unverified keyword but those it refuses. -/
def Heeds (k : Keywords) (uids : List ℕ) (w : World) : Prop := ∀ uid ∈ uids, Heeded k uid w

/-- A session that is safe under a discipline around `Apart` keeps the keywords apart. -/
theorem apart_of_runs {D : Discipline Op World} {others : World → World → Prop} {σ α : Type}
    {m : Py σ α} {s : σ} (refl : ∀ w, D.rely w w)
    (trans : ∀ {a b c}, D.rely a b → D.rely b c → D.rely a c)
    (hothers : ∀ {w w'}, others w w' → D.rely w w')
    (hrely : ∀ {w w'}, D.rely w w' → Apart k w → Apart k w')
    (hstep : ∀ {w op r w'}, D.guard w op → Server w op r w' → Apart k w → Apart k w')
    (hw : Apart k w) (hsafe : m.Safe Server D (fun _ _ _ => True) s w)
    (h : (sessionOf m s).Runs Server others w w') : Apart k w' := by
  obtain ⟨v, o, rfl, hv, -⟩ := h.safe (D := D) (M := Apart k) refl trans hothers hrely hstep hw
    hsafe (fun _ _ _ _ _ => trivial)
  exact hv

/-- **No message ever carries both quarantine keywords.** -/
theorem apart_of_reachable {w₀ : World} (hw₀ : Apart k w₀) (h : Reachable k (Heeds k) w₀ w) :
    Apart k w := by
  induction h with
  | refl => exact hw₀
  | tail _ hstep ih =>
      cases hstep with
      | others h => exact (h.keeps ih).1
      | run o hk h =>
          exact apart_of_runs Keeps.refl Keeps.trans Others.keeps (fun hr hv => (hr hv).1)
            (fun hg hE hv => (keeps_step hg hE hv).1) ih (run_apart hk rfl ih) h
      | retry args h =>
          exact apart_of_runs Keeps.refl Keeps.trans Others.keeps (fun hr hv => (hr hv).1)
            (fun hg hE hv => (keeps_step hg hE hv).1) ih
            ((retry_releases args ih).mono (fun _ _ _ _ => trivial)) h
      | markFailed uids hgiven h =>
          exact apart_of_runs Marks.refl Marks.trans Calmly.marks (fun hr hv => (hr hv).1)
            (fun hg hE hv => (marks_step hg hE hv).1) ih (markFailed_apart ih hgiven) h

/-! ## The next run -/

/-- There is a message at `uid` in the INBOX, and it is not `\Deleted`. -/
def Waits (uid : ℕ) (w : World) : Prop :=
  ∃ m ∈ w.messages, m.isAt uid = true ∧ m.has deletedFlag = false

/-- The other clients move, and the message stays where it is. -/
def watching (k : Keywords) (uid : ℕ) : Discipline Op World where
  rely := fun w w' => Drift (Others k) w w' ∧ Waits uid w'
  guard := fun _ _ => True

theorem keeps_of_drift (h : Drift (Others k) w w') : Keeps k (Everywhere k) w w' :=
  h.rely Keeps.refl Keeps.trans Others.keeps

theorem Released.clear (h : Released k uid w) {m : Message} (hm : m ∈ w.messages)
    (hat : m.isAt uid = true) : matchesAny m.flags k.quarantine = false := by
  rw [matchesAny_quarantine, Bool.or_eq_false_iff]
  exact ⟨h.free k.failed (by simp [Keywords.quarantine]) m hm hat,
    h.free k.unverified (by simp [Keywords.quarantine]) m hm hat⟩

/-- The listing of the next run names a released message. -/
theorem listed_of_released (h : Released k uid w) (s : ICloudMailbox) :
    (ICloudMailbox.listInboxUids (some k.quarantine)).Safe Server (watching k uid)
      (fun r _ _ => ∀ uids, r = .ok uids → uid ∈ uids) s w := by
  refine ICloudMailbox.listInboxUids_names (I := Released k uid) ?_ ?_ ?_ ?_ h
  · rintro op w w₁ h ⟨hothers, -⟩ hop
    refine ⟨trivial, fun r w₂ hE => (h.later (keeps_of_drift hothers)).later (keeps_step ?_ hE)⟩
    exact guard_of_isLook w₁ op (Op.isLook_of_isGlance hop)
  · rintro w w₁ uids w₂ h ⟨hothers, m, hm, hat, hlive⟩ hE
    refine hE.2.2 uid m hm hat ?_
    rw [matchesCriteria_queue, hlive, (h.later (keeps_of_drift hothers)).clear hm hat]
    rfl
  · rintro w w₁ uids w₂ h ⟨-, m, hm, hat, hlive⟩ hE
    refine hE.2.2 uid m hm hat ?_
    simp [matchesCriteria, hlive]
  · rintro w w₁ uids fetched w₂ h ⟨hothers, m, hm, hat, -⟩ hin hE
    have h₁ := h.later (keeps_of_drift hothers)
    have hshown := reported_eq h₁.apart.wellFormed hE hin hm hat
    rw [← h₁.clear hm hat]
    unfold matchesAny
    rw [funext hshown]
    rfl

/-- What looks and the other clients keep meanwhile. -/
def looking (k : Keywords) (uid : ℕ) :
    Growth (Server.only fun op => op.isLook = true) (watching k uid) (fun op => op.isImap = true) where
  grow := Keeps k (Everywhere k)
  refl := .refl
  trans := .trans
  rely := fun h => keeps_of_drift h.1
  step := fun _ _ hE => keeps_step (guard_of_isLook _ _ hE.1) hE.2

/-- The next run finds no quarantine keyword on a released message. -/
theorem fetched_of_released (h : Released k uid w) (s : ICloudMailbox) :
    (ICloudMailbox.fetchMessage uid).Safe Server (watching k uid)
      (fun r _ _ => ∀ message, r = .ok message →
        k.quarantine.any message.hasKeyword = false) s w := by
  refine Routine.Safe.of_only (ICloudMailbox.fetchMessage_glances uid).looks ?_
  refine (ICloudMailbox.fetchMessage_safe (looking k uid) (fun _ _ _ => trivial) uid).mono ?_
  rintro r s' w' ⟨-, -, hok⟩ message rfl
  obtain ⟨hu, w₁, hw₁, hd⟩ := hok message rfl
  obtain ⟨-, m, hm, hat, -, hsame⟩ := Serves.delivers (hd.map id (fun hE => hE.2.1))
  have hflags : message.hasKeyword = m.has := funext hsame
  rw [hflags]
  exact (h.later hw₁).clear hm (hu ▸ hat)

/-- What a `retry` in this state promises for every message it reports as cleared: while the message
    is in the INBOX and not `\Deleted`, the next run lists it and does not find it quarantined. -/
def Requeues (k : Keywords) (w : World) : Prop :=
  ∀ args r s w' uid keyword,
    Program.Steps (Server.under (Drift (Others k)))
      (w, Cli.cmdRetry k args (Cli.initial k false)) (w', .pure (r, s)) →
    Line.cleared uid keyword ∈ s.output → ∀ w'', Drift (Others k) w' w'' → ∀ mailbox,
      (ICloudMailbox.listInboxUids (some k.quarantine)).Safe Server (watching k uid)
        (fun r _ _ => ∀ uids, r = .ok uids → uid ∈ uids) mailbox w'' ∧
      (ICloudMailbox.fetchMessage uid).Safe Server (watching k uid)
        (fun r _ _ => ∀ message, r = .ok message →
          k.quarantine.any message.hasKeyword = false) mailbox w''

/-- **Retry really re-queues.** In every history in which `mark-failed` is given no message with the
    unverified keyword but those it refuses, a `retry` keeps what it promises. -/
theorem requeued {w₀ : World} (hw₀ : Apart k w₀) (h : Reachable k (Heeds k) w₀ w) :
    Requeues k w := by
  intro args r s w' uid keyword hsteps hline w'' hothers mailbox
  have hw := apart_of_reachable hw₀ h
  have hsteps := Env.under_mono (fun hd => keeps_of_drift hd) hsteps
  obtain ⟨-, hend⟩ := Program.Safe.steps (I := fun _ => True) (fun _ h => h) (fun _ _ h => h)
    (retry_releases args hw) trivial hsteps
  have hreleased : Released k uid w'' := (hend uid keyword hline).later (keeps_of_drift hothers)
  exact ⟨listed_of_released hreleased mailbox, fetched_of_released hreleased mailbox⟩

/-! ## One mail -/

/-- A conforming provider, as a handler. -/
def serve (P : Provider) (w : World) (op : Op) : Reply op × World :=
  match op with
  | .search criteria => (.ok (w.searchInbox criteria).dedup, w)
  | op => P.handle 0 w op

theorem complete_fetchInbox {uids : List ℕ} (hin : uid ∈ uids) {m : Message} (hm : m ∈ w.messages)
    (hat : m.isAt uid = true) (items : FetchItems) :
    ((w.fetchInbox uids items).lookup uid).isSome = true := by
  rw [lookup_fetchInbox, if_pos hin]
  cases hf : w.find uid with
  | none =>
      rw [World.find_none hf hm] at hat
      exact absurd hat nofun
  | some m' => rfl

theorem serve_server (P : Provider) (w : World) (op : Op) :
    Server w op (serve P w op).1 (serve P w op).2 := by
  cases op
  case search criteria =>
    refine ⟨⟨Or.inl rfl, trivial⟩, List.nodup_dedup _, fun uid m hm hat hmatch => ?_⟩
    refine List.mem_dedup.mpr (List.mem_map.mpr ⟨m, List.mem_filter.mpr ⟨hm, ?_⟩, ?_⟩)
    · rw [hmatch, (Message.isAt_iff.mp hat).1]
      rfl
    · exact (Message.isAt_iff.mp hat).2
  case fetch uids items =>
    refine ⟨P.serves 0 w _, ?_⟩
    cases items
    case flags => exact fun uid hin m hm hat => complete_fetchInbox hin hm hat .flags
    all_goals trivial
  all_goals exact ⟨P.serves 0 w _, trivial⟩

/-- The same provider, on a server that ignores every `STORE` of the inserted keyword. -/
def forget (P : Provider) (w : World) (op : Op) : Reply op × World :=
  match op with
  | .addFlags uid flag =>
      if flag = DEFAULT_INSERTED_KEYWORD then (.ok [], w) else serve P w (.addFlags uid flag)
  | op => serve P w op

theorem forget_server (P : Provider) (w : World) (op : Op) :
    Server w op (forget P w op).1 (forget P w op).2 := by
  cases op
  case addFlags uid flag =>
    by_cases he : flag = DEFAULT_INSERTED_KEYWORD
    · have hanswer : forget P w (.addFlags uid flag) = (.ok [], w) := if_pos he
      rw [hanswer]
      refine ⟨⟨Or.inr ⟨?_, rfl⟩, nofun⟩, trivial⟩
      rw [he]
      change decide (lower DEFAULT_INSERTED_KEYWORD ≠ lower deletedFlag) = true
      decide
    · have hanswer : forget P w (.addFlags uid flag) = serve P w (.addFlags uid flag) := if_neg he
      rw [hanswer]
      exact serve_server P w _
  all_goals exact serve_server P w _

/-- One mail with these keywords, which Gmail has accepted as often as `gmail` says. -/
def keptMail (flags : List String) (gmail : List GmailCopy) : World :=
  ⟨[⟨"INBOX", 1, ⟨0, [72, 105]⟩, flags⟩], ["INBOX"], 2, gmail⟩

theorem oneMail_apart : Apart Keywords.default oneMail where
  wellFormed := oneMail_wellFormed
  apart := by
    intro m hm _
    rw [List.mem_singleton.mp hm]
    rfl

/-- A message that was marked by hand. -/
theorem marked_reachable : Reachable Keywords.default (Heeds Keywords.default) oneMail
    (keptMail ["$GmailFailed"] []) := by
  refine .single (.markFailed [1] ?_ ?_)
  · intro uid _ m hm _ hhas
    rw [List.mem_singleton.mp hm] at hhas
    exact absurd hhas nofun
  · have hexec : ((sessionOf (Cli.cmdMarkFailed Keywords.default [1])
        (Cli.initial Keywords.default false)).program.exec (serve {}) oneMail).2 =
        keptMail ["$GmailFailed"] [] := by
      decide +kernel
    rw [← hexec]
    exact Session.Runs.exec (serve {}) (serve_server {}) oneMail

/-- `retry` on the message that was marked by hand. -/
theorem requeued_marked : Requeues Keywords.default (keptMail ["$GmailFailed"] []) :=
  requeued oneMail_apart marked_reachable

/-! ## A mail with both keywords -/

/-- Any message may be marked by hand. -/
def Unheeded (_ : List ℕ) (_ : World) : Prop := True

/-- Gmail's copy of the mail. -/
def accepted : GmailCopy := ⟨⟨0, [72, 105]⟩, ["INBOX", "UNREAD", "iCloud"]⟩

/-- A run that could not record its insert, and a `mark-failed` after it. -/
theorem both_reachable : Reachable Keywords.default Unheeded oneMail
    (keptMail ["$GmailUnverified", "$GmailFailed"] [accepted]) := by
  have hrun : ((sessionOf (Forwarder.run ForwarderOptions.default)
      (Forwarder.initial ForwarderOptions.default)).program.exec (forget {}) oneMail).2 =
      keptMail ["$GmailUnverified"] [accepted] := by
    decide +kernel
  have hmark : ((sessionOf (Cli.cmdMarkFailed Keywords.default [1])
      (Cli.initial Keywords.default false)).program.exec (serve {})
      (keptMail ["$GmailUnverified"] [accepted])).2 =
      keptMail ["$GmailUnverified", "$GmailFailed"] [accepted] := by
    decide +kernel
  have hfirst : Step Keywords.default Unheeded oneMail (keptMail ["$GmailUnverified"] [accepted]) := by
    refine .run ForwarderOptions.default rfl ?_
    rw [← hrun]
    exact Session.Runs.exec (forget {}) (forget_server {}) oneMail
  refine .tail (.single hfirst) (.markFailed [1] trivial ?_)
  rw [← hmark]
  exact Session.Runs.exec (serve {}) (serve_server {}) _

/-- The `SEARCH` of the run after a `retry` that keeps its promise names the message. -/
theorem Requeues.searched {h : World → (op : Op) → Reply op × World}
    (hE : ∀ w op, Server w op (h w op).1 (h w op).2) (hw : Requeues k w) {args : RetryArgs}
    {uid : ℕ} {keyword : String}
    (hline : Line.cleared uid keyword ∈
      ((Cli.cmdRetry k args).exec h (Cli.initial k false) w).1.2.output)
    (hwaits : Waits uid ((Cli.cmdRetry k args).exec h (Cli.initial k false) w).2)
    {uids : List ℕ} {w' : World}
    (hsearch : Server ((Cli.cmdRetry k args).exec h (Cli.initial k false) w).2
      (.search (ICloudMailbox.searchCriteria k.quarantine)) (.ok uids) w') : uid ∈ uids := by
  have hsteps := Program.Steps.under (Drift (Others k)) (fun _ => .refl)
    (Program.exec_steps h hE (Cli.cmdRetry k args (Cli.initial k false)) w)
  obtain ⟨hlist, -⟩ := hw args _ _ _ uid keyword hsteps hline _ .refl
    { readonly := false, skipKeywords := [], connected := true }
  have hnamed := (hlist _ ⟨.refl, hwaits⟩).2 (.ok uids) w' hsearch (ICloudMailbox.sortUids uids) rfl
  exact (List.perm_insertionSort _ uids).mem_iff.mp hnamed

/-- The arguments of `retry --uid 1`. -/
def retryOne : RetryArgs := ⟨.uids [1], false, false⟩

/-- `retry` clears the failed keyword of the message with both, says that the next run will pick it
    up, and the unverified keyword still keeps it out of the listing. -/
theorem not_requeued :
    ¬ ∀ w, Reachable Keywords.default Unheeded oneMail w → Requeues Keywords.default w := by
  intro h
  have hboth := h _ both_reachable
  have hline : Line.cleared 1 "$GmailFailed" ∈ ((Cli.cmdRetry Keywords.default retryOne).exec
      (serve {}) (Cli.initial Keywords.default false)
      (keptMail ["$GmailUnverified", "$GmailFailed"] [accepted])).1.2.output := by
    decide +kernel
  have hleft : ((Cli.cmdRetry Keywords.default retryOne).exec (serve {})
      (Cli.initial Keywords.default false)
      (keptMail ["$GmailUnverified", "$GmailFailed"] [accepted])).2 =
      keptMail ["$GmailUnverified"] [accepted] := by
    decide +kernel
  have hwaits : Waits 1 (keptMail ["$GmailUnverified"] [accepted]) := by
    unfold Waits
    decide
  have hsearch := serve_server {} (keptMail ["$GmailUnverified"] [accepted])
    (.search (ICloudMailbox.searchCriteria Keywords.default.quarantine))
  have hnamed := hboth.searched (serve_server {}) hline (by rw [hleft]; exact hwaits)
    (by rw [hleft]; exact hsearch)
  have hnone : ¬ 1 ∈ ((keptMail ["$GmailUnverified"] [accepted]).searchInbox
      (ICloudMailbox.searchCriteria Keywords.default.quarantine)).dedup := by
    decide +kernel
  exact hnone hnamed

end Requeue

end MailTransporter
