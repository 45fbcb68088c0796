import MailTransporter.CliRules
import MailTransporter.ForwarderRules
import MailTransporter.Provider
import MailTransporter.Effect.System

set_option autoImplicit false

/-! # No mail is lost

Any number of runs and commands at once, their calls interleaved in any order and each of them
killed at any point, while other clients deliver, move, flag and remove mail. `Ledger` keeps the
books: what the tool has taken out of the INBOX, what the others have removed from any folder, and
which moves to the Trash were issued.

The proof is one invariant (`Ledger.Sound`) and one relation (`Ledger.Grows`) that every call the
guards let through and every move of the others keep. What a run knows about a message between two
calls is `Ledger.Named` and what Gmail has accepted, and both survive whatever the others do. -/

namespace MailTransporter

open Effect

/-- The account, and the books kept about it. -/
structure Ledger where
  world : World
  taken : List Message
  removed : List Message
  issued : List (RawMail × List GmailCopy)
deriving DecidableEq

/-- The INBOX messages that a step took out of the INBOX or newly flagged `\Deleted`. -/
def touched (w w' : World) : List Message :=
  w.messages.filter (fun m => decide (m.folder = "INBOX") &&
    w'.messages.all (fun m' => !m'.isAt m.uid || (!m.has deletedFlag && m'.has deletedFlag)))

theorem mem_touched {w w' : World} {m : Message} (h : m ∈ touched w w') :
    m ∈ w.messages ∧ m.folder = "INBOX" ∧ ∀ m' ∈ w'.messages, m'.isAt m.uid = true →
      m.has deletedFlag = false ∧ m'.has deletedFlag = true := by
  simp only [touched, List.mem_filter, Bool.and_eq_true, decide_eq_true_eq, List.all_eq_true] at h
  obtain ⟨hm, hfolder, hall⟩ := h
  refine ⟨hm, hfolder, fun m' hm' hat => ?_⟩
  have := hall m' hm'
  simpa [hat] using this

namespace Ledger

/-- The books before anything has happened. -/
def opened (w : World) : Ledger := ⟨w, [], [], []⟩

/-- A move to the Trash that is being issued, with what Gmail has accepted by then. -/
def issuedBy (op : Op) (w : World) : List (RawMail × List GmailCopy) :=
  match op with
  | .issueTrash raw => [(raw, w.gmail)]
  | _ => []

/-- A call of the tool, entered into the books. -/
def Books : Env Op Reply Ledger := fun l op r l' =>
  Serves l.world op r l'.world ∧
  l'.taken = l.taken ++ touched l.world l'.world ∧
  l'.removed = l.removed ∧
  l'.issued = l.issued ++ issuedBy op l.world

/-- The message an event takes out of its folder. -/
def removedBy : Event → List Message
  | .remove m => [m]
  | .refile m _ => [m]
  | _ => []

/-- Nobody else sets the inserted keyword. -/
def LeavesInserted (k : Keywords) : Event → Prop
  | .arrive _ _ flags => hasFlag flags k.inserted = false
  | .reflag m flags => hasFlag flags k.inserted = true → m.has k.inserted = true
  | _ => True

/-- A move of the other clients. -/
def Others (k : Keywords) (l l' : Ledger) : Prop :=
  ∃ e : Event, e.Enabled l.world ∧ LeavesInserted k e ∧
    l' = { l with world := e.apply l.world, removed := l.removed ++ removedBy e }

/-- A run or a command. All of them share the keywords and the failed folder; every other option
    and every argument is free. -/
inductive Session (k : Keywords) (failed : String) : Program Op Reply Unit → Prop
  | run (o : ForwarderOptions) (hk : o.keywords = k) (hf : o.failedFolder = failed) :
      Session k failed ((Forwarder.run o).thread (Forwarder.initial o))
  | retry (args : RetryArgs) :
      Session k failed ((Cli.cmdRetry k args).thread (Cli.initial k false))
  | markFailed (uids : List ℕ) :
      Session k failed ((Cli.cmdMarkFailed k uids).thread (Cli.initial k false))

/-- The systems reached from the account `w`. -/
def Reachable (k : Keywords) (failed : String) (w : World) : System Op Reply Ledger → Prop :=
  System.Reachable Books (Session k failed) (Others k) (opened w)

/-! ## The invariant -/

section

variable (k : Keywords) (failed : String)

/-- Gmail has the mail, or a copy with a UID from `bound` on is in the failed folder, unless another
    client has removed that copy from there. -/
def Backed (l : Ledger) (bound : ℕ) (raw : RawMail) : Prop :=
  l.world.Accepted raw ∨ ∃ m, (m ∈ l.world.messages ∨ m ∈ l.removed) ∧
    m.folder = folderName failed ∧ m.raw = raw ∧ bound ≤ m.uid

structure Sound (l : Ledger) : Prop where
  wellFormed : WellFormed l.world
  inserted : ∀ m ∈ l.world.messages, m.has k.inserted = true → l.world.Accepted m.raw
  issued : ∀ entry ∈ l.issued, ∃ copy ∈ entry.2, copy.raw = entry.1
  taken : ∀ m ∈ l.taken, l.Backed failed (m.uid + 1) m.raw

/-- What no step takes back. -/
structure Grows (l l' : Ledger) : Prop where
  uidNext : l.world.uidNext ≤ l'.world.uidNext
  named : ∀ m' ∈ l'.world.messages, m'.uid < l.world.uidNext →
    ∃ m ∈ l.world.messages, m.uid = m'.uid ∧ m.folder = m'.folder ∧ m.raw = m'.raw
  accepted : ∀ raw, l.world.Accepted raw → l'.world.Accepted raw
  backed : ∀ bound raw, l.Backed failed bound raw → l'.Backed failed bound raw

/-- What a call must respect. -/
def Allowed (l : Ledger) : Op → Prop
  | .addFlags uid flag =>
      (lower flag = lower k.inserted →
        ∀ m ∈ l.world.messages, m.isAt uid = true → l.world.Accepted m.raw) ∧
      (lower flag = lower deletedFlag →
        ∀ m ∈ l.world.messages, m.isAt uid = true → l.Backed failed (uid + 1) m.raw)
  | .uidExpunge uid =>
      ∀ m ∈ l.world.messages, m.isAt uid = true → l.Backed failed (uid + 1) m.raw
  | .move uid folder =>
      folderName folder = folderName failed ∨
      ∀ m ∈ l.world.messages, m.isAt uid = true → l.world.Accepted m.raw
  | .issueTrash raw => l.world.Accepted raw
  | _ => True

/-- The discipline every session keeps. -/
def discipline : Discipline Op Ledger where
  rely := fun l l' => l.Sound k failed → l'.Sound k failed ∧ l.Grows failed l'
  guard := Allowed k failed

end

variable {k : Keywords} {failed : String}

namespace Grows

theorem refl (l : Ledger) : l.Grows failed l where
  uidNext := Nat.le_refl _
  named := fun m hm _ => ⟨m, hm, rfl, rfl, rfl⟩
  accepted := fun _ h => h
  backed := fun _ _ h => h

theorem trans {l l' l'' : Ledger} (h : l.Grows failed l') (h' : l'.Grows failed l'') :
    l.Grows failed l'' where
  uidNext := Nat.le_trans h.uidNext h'.uidNext
  named := by
    intro m'' hm'' hu
    obtain ⟨m', hm', hu', hf', hr'⟩ := h'.named m'' hm'' (Nat.lt_of_lt_of_le hu h.uidNext)
    rw [← hu'] at hu
    obtain ⟨m, hm, hu, hf, hr⟩ := h.named m' hm' hu
    exact ⟨m, hm, hu.trans hu', hf.trans hf', hr.trans hr'⟩
  accepted := fun raw ha => h'.accepted raw (h.accepted raw ha)
  backed := fun bound raw hb => h'.backed bound raw (h.backed bound raw hb)

end Grows

/-! ## One call -/

/-- A call that takes a message out of the INBOX leaves it backed. -/
theorem backed_takes {l l' : Ledger} {op : Op} {m : Message} (hs : WellFormed l.world)
    (hg : Allowed k failed l op) (hw : l'.world = effect op l.world) (hr : l'.removed = l.removed)
    (hm : m ∈ l.world.messages) (ht : op.takes m) : l'.Backed failed (m.uid + 1) m.raw := by
  rcases ht with ⟨folder, rfl, hfolder⟩ | ⟨rfl, hfolder, -⟩
  · have hat : m.isAt m.uid = true := Message.isAt_iff.mpr ⟨hfolder, rfl⟩
    rcases hg with hf | ha
    · have hin := effect_puts hs (Or.inl rfl : (Op.move m.uid folder).puts m.uid folder) hm hat
      rw [← hw] at hin
      refine Or.inr ⟨_, Or.inl hin, ?_, rfl, ?_⟩
      · rw [Message.placed_folder, hf]
      · have := hs.given m hm
        rw [Message.placed_uid]
        omega
    · refine Or.inl ?_
      rw [hw]
      exact accepted_effect _ (ha m hm hat)
  · have hat : m.isAt m.uid = true := Message.isAt_iff.mpr ⟨hfolder, rfl⟩
    rcases hg m hm hat with ha | ⟨m₁, hin, hf, hraw, hb⟩
    · refine Or.inl ?_
      rw [hw]
      exact accepted_effect _ ha
    · rcases hin with hin | hin
      · rcases effect_keeps (.uidExpunge m.uid) hin with hk | hk
        · rw [← hw] at hk
          exact Or.inr ⟨_, Or.inl hk, hf, hraw, hb⟩
        · rcases hk with ⟨_, he, _⟩ | ⟨he, _, _⟩
          · cases he
          · have : m.uid = m₁.uid := by
              injection he
            omega
      · rw [← hr] at hin
        exact Or.inr ⟨m₁, Or.inr hin, hf, hraw, hb⟩

/-- A backed mail stays backed. -/
theorem backed_effect {l l' : Ledger} {op : Op} {bound : ℕ} {raw : RawMail}
    (hs : WellFormed l.world) (hg : Allowed k failed l op) (hw : l'.world = effect op l.world)
    (hr : l'.removed = l.removed) (hb : l.Backed failed bound raw) :
    l'.Backed failed bound raw := by
  rcases hb with ha | ⟨m, hin, hf, rfl, hb⟩
  · refine Or.inl ?_
    rw [hw]
    exact accepted_effect op ha
  · rcases hin with hin | hin
    · rcases effect_keeps op hin with hk | hk
      · rw [← hw] at hk
        exact Or.inr ⟨_, Or.inl hk, hf, rfl, hb⟩
      · rcases backed_takes hs hg hw hr hin hk with ha | ⟨m', hin', hf', hraw', hb'⟩
        · exact Or.inl ha
        · exact Or.inr ⟨m', hin', hf', hraw', by omega⟩
    · rw [← hr] at hin
      exact Or.inr ⟨m, Or.inr hin, hf, rfl, hb⟩

/-- The inserted keyword stays on accepted mail only. -/
theorem inserted_effect {l : Ledger} {op : Op}
    (hi : ∀ m ∈ l.world.messages, m.has k.inserted = true → l.world.Accepted m.raw)
    (hg : Allowed k failed l op) {m' : Message} (hm' : m' ∈ (effect op l.world).messages)
    (hhas : m'.has k.inserted = true) : (effect op l.world).Accepted m'.raw := by
  refine accepted_effect op ?_
  rcases mem_effect hm' with ⟨m, hm, rfl⟩ | ⟨m, hm, uid, folder, _, _, rfl⟩
  · rw [Message.withFlags_raw]
    by_cases hh : m.has k.inserted = true
    · exact hi m hm hh
    · have hout : hasFlag m.flags k.inserted = false := Bool.eq_false_iff.mpr hh
      have hin : hasFlag (flagsAfter op m) k.inserted = true := hhas
      cases op
      case addFlags uid flag =>
        simp only [flagsAfter] at hin
        by_cases hat : m.isAt uid = true
        · rw [if_pos hat, hasFlag_addFlag, hout, Bool.false_or, decide_eq_true_eq] at hin
          exact hg.1 hin.symm m hm hat
        · rw [if_neg hat, hout] at hin
          exact absurd hin (by simp)
      case removeFlags uid flag =>
        simp only [flagsAfter] at hin
        by_cases hat : m.isAt uid = true
        · rw [if_pos hat, hasFlag_removeFlag, hout, Bool.false_and] at hin
          exact absurd hin (by simp)
        · rw [if_neg hat, hout] at hin
          exact absurd hin (by simp)
      all_goals
        simp only [flagsAfter] at hin
        rw [hout] at hin
        exact absurd hin (by simp)
  · exact hi m hm hhas

/-- What a call newly takes out of the INBOX or flags `\Deleted` is backed. -/
theorem backed_touched {l l' : Ledger} {op : Op} (hs : WellFormed l.world)
    (hg : Allowed k failed l op) (hw : l'.world = effect op l.world) (hr : l'.removed = l.removed)
    {m : Message} (hm : m ∈ touched l.world l'.world) : l'.Backed failed (m.uid + 1) m.raw := by
  obtain ⟨hm, hfolder, hall⟩ := mem_touched hm
  have hat : m.isAt m.uid = true := Message.isAt_iff.mpr ⟨hfolder, rfl⟩
  rcases effect_keeps op hm with hk | hk
  swap
  · exact backed_takes hs hg hw hr hm hk
  rw [← hw] at hk
  obtain ⟨hout, hin⟩ : hasFlag m.flags deletedFlag = false ∧
      hasFlag (flagsAfter op m) deletedFlag = true := hall _ hk hat
  cases op
  case addFlags uid flag =>
    simp only [flagsAfter] at hin
    by_cases hat' : m.isAt uid = true
    · rw [if_pos hat', hasFlag_addFlag, hout, Bool.false_or, decide_eq_true_eq] at hin
      obtain ⟨-, rfl⟩ := Message.isAt_iff.mp hat'
      exact backed_effect hs hg hw hr (hg.2 hin.symm m hm hat')
    · rw [if_neg hat', hout] at hin
      exact absurd hin (by simp)
  case removeFlags uid flag =>
    simp only [flagsAfter] at hin
    by_cases hat' : m.isAt uid = true
    · rw [if_pos hat', hasFlag_removeFlag, hout, Bool.false_and] at hin
      exact absurd hin (by simp)
    · rw [if_neg hat', hout] at hin
      exact absurd hin (by simp)
  all_goals
    simp only [flagsAfter] at hin
    rw [hout] at hin
    exact absurd hin (by simp)

theorem touched_self (w : World) : touched w w = [] := by
  refine List.eq_nil_iff_forall_not_mem.mpr (fun m hm => ?_)
  obtain ⟨hm, hfolder, hall⟩ := mem_touched hm
  obtain ⟨h, h'⟩ := hall m hm (Message.isAt_iff.mpr ⟨hfolder, rfl⟩)
  rw [h] at h'
  exact absurd h' nofun

/-- **One guarded call keeps the invariant and what has grown.** -/
theorem books_step {l l' : Ledger} {op : Op} {r : Reply op} (hs : l.Sound k failed)
    (hg : Allowed k failed l op) (h : Books l op r l') :
    l'.Sound k failed ∧ l.Grows failed l' := by
  obtain ⟨hserves, htaken, hremoved, hissued⟩ := h
  have hentry : ∀ entry ∈ l'.issued, ∃ copy ∈ entry.2, copy.raw = entry.1 := by
    intro entry he
    rw [hissued] at he
    rcases List.mem_append.mp he with he | he
    · exact hs.issued entry he
    · cases op
      case issueTrash raw =>
        rw [List.mem_singleton.mp he]
        exact hg
      all_goals exact absurd he nofun
  -- a call that fails may have taken effect or not
  rcases hserves.cases with hw | hw
  · have hb : ∀ bound raw, l.Backed failed bound raw → l'.Backed failed bound raw := by
      intro bound raw hb
      unfold Backed at hb ⊢
      rw [hw, hremoved]
      exact hb
    refine ⟨⟨?_, ?_, hentry, ?_⟩, ⟨?_, ?_, ?_, hb⟩⟩
    · rw [hw]
      exact hs.wellFormed
    · rw [hw]
      exact hs.inserted
    · intro m hm
      rw [htaken, hw, touched_self, List.append_nil] at hm
      exact hb _ _ (hs.taken m hm)
    · rw [hw]
    · rw [hw]
      exact fun m hm _ => ⟨m, hm, rfl, rfl, rfl⟩
    · rw [hw]
      exact fun _ h => h
  · have hb : ∀ bound raw, l.Backed failed bound raw → l'.Backed failed bound raw :=
      fun _ _ => backed_effect hs.wellFormed hg hw hremoved
    refine ⟨⟨?_, ?_, hentry, ?_⟩, ⟨?_, ?_, ?_, hb⟩⟩
    · rw [hw]
      exact hs.wellFormed.effect op
    · rw [hw]
      exact fun m' hm' hhas => inserted_effect hs.inserted hg hm' hhas
    · intro m hm
      rw [htaken] at hm
      rcases List.mem_append.mp hm with hm | hm
      · exact hb _ _ (hs.taken m hm)
      · exact backed_touched hs.wellFormed hg hw hremoved hm
    · rw [hw]
      exact uidNext_le_effect op _
    · rw [hw]
      exact fun m' hm' hu => named_effect hm' hu
    · rw [hw]
      exact fun raw h => accepted_effect op h

/-- **A move of the others keeps them too.** -/
theorem others_step {l l' : Ledger} (hs : l.Sound k failed) (h : Others k l l') :
    l'.Sound k failed ∧ l.Grows failed l' := by
  obtain ⟨e, he, hleaves, rfl⟩ := h
  have haccepted : ∀ raw, l.world.Accepted raw → (e.apply l.world).Accepted raw := by
    intro raw ha
    unfold World.Accepted
    rw [apply_gmail]
    exact ha
  have hb : ∀ bound raw, l.Backed failed bound raw →
      Backed failed { l with world := e.apply l.world, removed := l.removed ++ removedBy e }
        bound raw := by
    rintro bound raw (ha | ⟨m, hin | hin, hf, hraw, hb⟩)
    · exact Or.inl (haccepted raw ha)
    · rcases apply_keeps e hin with hk | ⟨m₀, flags, -, -, hk⟩ | ⟨m₀, hu, ht⟩
      · exact Or.inr ⟨m, Or.inl hk, hf, hraw, hb⟩
      · exact Or.inr ⟨_, Or.inl hk, hf, hraw, hb⟩
      · have hm₀ : m₀ ∈ l.world.messages ∧ m₀ ∈ removedBy e := by
          rcases ht with rfl | ⟨folder, rfl⟩
          · exact ⟨he, List.mem_singleton_self m₀⟩
          · exact ⟨he, List.mem_singleton_self m₀⟩
        rw [hs.wellFormed.unique hin hm₀.1 hu] at hf hraw hb
        exact Or.inr ⟨m₀, Or.inr (List.mem_append_right _ hm₀.2), hf, hraw, hb⟩
    · exact Or.inr ⟨m, Or.inr (List.mem_append_left _ hin), hf, hraw, hb⟩
  refine ⟨⟨hs.wellFormed.apply he, ?_, hs.issued, fun m hm => hb _ _ (hs.taken m hm)⟩,
    ⟨uidNext_le_apply he, ?_, haccepted, hb⟩⟩
  · intro m' hm' hhas
    refine haccepted _ ?_
    rcases mem_apply hs.wellFormed he hm' with hm | ⟨m, hm, flags, rfl, rfl⟩ |
      ⟨raw, uid, flags, rfl, rfl⟩ | ⟨m, hm, folder, _, rfl⟩
    · exact hs.inserted m' hm hhas
    · exact hs.inserted m hm (hleaves hhas)
    · have hhas : hasFlag flags k.inserted = true := hhas
      have hout : hasFlag flags k.inserted = false := hleaves
      rw [hout] at hhas
      exact absurd hhas nofun
    · exact hs.inserted m hm hhas
  · exact fun m' hm' hu => named_apply hs.wellFormed he hm' hu

/-! ## What a session knows -/

/-- The books grow, from sound to sound. -/
def growth (k : Keywords) (failed : String) : Growth Books (discipline k failed) (fun _ => True) where
  grow := fun l l' => l.Sound k failed → l'.Sound k failed ∧ l.Grows failed l'
  refl := fun l hs => ⟨hs, Grows.refl l⟩
  trans := fun h h' hs => by
    obtain ⟨hs', hg⟩ := h hs
    obtain ⟨hs'', hg'⟩ := h' hs'
    exact ⟨hs'', hg.trans hg'⟩
  rely := fun h => h
  step := fun _ hg hE hs => books_step hs hg hE

/-- Whatever message is at `uid`, now or later, is this mail. -/
def Named (l : Ledger) (uid : ℕ) (raw : RawMail) : Prop :=
  uid < l.world.uidNext ∧ ∀ m ∈ l.world.messages, m.uid = uid → m.raw = raw

theorem Named.grows {l l' : Ledger} {uid : ℕ} {raw : RawMail} (h : l.Named uid raw)
    (hg : l.Grows failed l') : l'.Named uid raw := by
  refine ⟨Nat.lt_of_lt_of_le h.1 hg.uidNext, fun m' hm' hu => ?_⟩
  have hlt : m'.uid < l.world.uidNext := hu ▸ h.1
  obtain ⟨m, hm, hu', -, hraw⟩ := hg.named m' hm' hlt
  rw [← hraw]
  exact h.2 m hm (hu'.trans hu)

theorem books_serves {l l' : Ledger} {op : Op} {r : Reply op} (h : Books l op r l') :
    Serves l.world op r l'.world := h.1

/-- A fetched message names its UID from then on. -/
theorem named_of_delivers {l l' : Ledger} {message : FetchedMessage} (hs : l.Sound k failed)
    (h : ICloudMailbox.Delivers Books l message l') :
    l'.Named message.uid message.raw ∧
      (message.hasKeyword k.inserted = true → l'.world.Accepted message.raw) := by
  obtain ⟨hw, m, hm, hat, hraw, hsame⟩ := Serves.delivers (h.map Ledger.world books_serves)
  obtain ⟨-, hu⟩ := Message.isAt_iff.mp hat
  unfold Named
  rw [hw]
  refine ⟨⟨hu ▸ hs.wellFormed.given m hm, fun m' hm' hu' => ?_⟩, fun hhas => ?_⟩
  · rw [hs.wellFormed.unique hm' hm (hu'.trans hu.symm)]
    exact hraw
  · have hin : m.has k.inserted = true := (hsame k.inserted).symm.trans hhas
    rw [← hraw]
    exact hs.inserted m hm hin

/-- The guard of a call on an accepted message. -/
theorem accepted_at {l : Ledger} {uid : ℕ} {raw : RawMail} (hn : l.Named uid raw)
    (ha : l.world.Accepted raw) :
    ∀ m ∈ l.world.messages, m.isAt uid = true → l.world.Accepted m.raw := by
  intro m hm hat
  rw [hn.2 m hm (Message.isAt_iff.mp hat).2]
  exact ha

theorem allowed_copy (l : Ledger) (uid : ℕ) (folder : String) :
    Allowed k failed l (.copy uid folder) := trivial

theorem allowed_insertRaw (l : Ledger) (raw : RawMail) (labels : List String) :
    Allowed k failed l (.insertRaw raw labels) := trivial

/-- An accepted message may be moved anywhere. -/
theorem mayMove_accepted {l : Ledger} {uid : ℕ} {raw : RawMail} (hs : l.Sound k failed)
    (hn : l.Named uid raw) (ha : l.world.Accepted raw) (folder : String) :
    Forwarder.MayMove Books (discipline k failed) (growth k failed).grow uid folder l := by
  refine ⟨fun l' hg => ?_, fun _ _ => trivial, fun l₁ l₂ l₃ h₁ hE h₃ => ?_⟩
  · obtain ⟨-, hg⟩ := hg hs
    exact Or.inr (accepted_at (hn.grows hg) (hg.accepted raw ha))
  · obtain ⟨hs₁, hg₁⟩ := h₁ hs
    obtain ⟨hs₂, hg₂⟩ := books_step hs₁ (allowed_copy l₁ _ _) hE
    obtain ⟨-, hg₃⟩ := h₃ hs₂
    have hg := (hg₁.trans hg₂).trans hg₃
    have hat := accepted_at (hn.grows hg) (hg.accepted raw ha)
    refine ⟨⟨fun _ => hat, fun _ m hm h => Or.inl (hat m hm h)⟩, fun m hm h => ?_⟩
    exact Or.inl (hat m hm h)

/-- Any message may be moved into the failed folder: the copy is there before the message goes. -/
theorem mayMove_failed {l : Ledger} {uid : ℕ} (hs : l.Sound k failed)
    (hu : uid < l.world.uidNext) :
    Forwarder.MayMove Books (discipline k failed) (growth k failed).grow uid failed l := by
  refine ⟨fun _ _ => Or.inl rfl, fun _ _ => trivial, fun l₁ l₂ l₃ h₁ hE h₃ => ?_⟩
  obtain ⟨hs₁, hg₁⟩ := h₁ hs
  obtain ⟨hs₂, hg₂⟩ := books_step hs₁ (allowed_copy l₁ _ _) hE
  obtain ⟨-, hg₃⟩ := h₃ hs₂
  have hw : l₂.world = effect (.copy uid failed) l₁.world := Serves.effect_of_ok rfl hE.1
  have hback : ∀ m ∈ l₃.world.messages, m.isAt uid = true →
      l₃.Backed failed (uid + 1) m.raw := by
    intro m₃ hm₃ hat₃
    obtain ⟨hfolder₃, hu₃⟩ := Message.isAt_iff.mp hat₃
    have hlt₁ : uid < l₁.world.uidNext := Nat.lt_of_lt_of_le hu hg₁.uidNext
    have hlt₂ := Nat.lt_of_lt_of_le hlt₁ hg₂.uidNext
    obtain ⟨m₂, hm₂, hu₂, hfolder₂, hraw₂⟩ := hg₃.named m₃ hm₃ (hu₃ ▸ hlt₂)
    obtain ⟨m₁, hm₁, hu₁, hfolder₁, hraw₁⟩ := hg₂.named m₂ hm₂ (by omega)
    have hat₁ : m₁.isAt uid = true :=
      Message.isAt_iff.mpr ⟨(hfolder₁.trans hfolder₂).trans hfolder₃, (hu₁.trans hu₂).trans hu₃⟩
    have hin := effect_puts hs₁.wellFormed (Or.inr rfl : (Op.copy uid failed).puts uid failed)
      hm₁ hat₁
    rw [← hw] at hin
    refine hg₃.backed _ _ (Or.inr ⟨_, Or.inl hin, rfl, hraw₁.trans hraw₂, ?_⟩)
    rw [Message.placed_uid]
    exact hlt₁
  refine ⟨⟨fun he => ?_, fun _ => hback⟩, hback⟩
  exact absurd he.symm k.insertedOk.ne_deleted

/-! ## The sessions -/

/-- The loop invariant of a run: the books are sound, and a rejected message has a UID. -/
def Running (k : Keywords) (failed : String) (s : RunState) (l : Ledger) : Prop :=
  l.Sound k failed ∧ ∀ rejection ∈ s.rejected, rejection.uid < l.world.uidNext

theorem Running.stable {s s' : RunState} {l l' : Ledger} (hsame : s.Same s')
    (hg : (growth k failed).grow l l') (h : Running k failed s l) : Running k failed s' l' := by
  obtain ⟨hs, hr⟩ := h
  obtain ⟨hs', hg⟩ := hg hs
  refine ⟨hs', fun rejection hin => ?_⟩
  rw [hsame.rejected] at hin
  exact Nat.lt_of_lt_of_le (hr rejection hin) hg.uidNext

theorem allowed_of_isRoutine (l : Ledger) (op : Op) (h : op.isRoutine = true) :
    Allowed k failed l op := by
  cases op
  all_goals first | exact trivial | exact absurd h nofun

/-- The keywords of a quarantine say nothing about Gmail. -/
theorem allowed_failed (l : Ledger) (uid : ℕ) : Allowed k failed l (.addFlags uid k.failed) :=
  ⟨fun h => absurd h.symm k.inserted_ne_failed, fun h => absurd h k.failedOk.ne_deleted⟩

theorem allowed_unverified (l : Ledger) (uid : ℕ) :
    Allowed k failed l (.addFlags uid k.unverified) :=
  ⟨fun h => absurd h.symm k.inserted_ne_unverified, fun h => absurd h k.unverifiedOk.ne_deleted⟩

/-- The growth, as the rules of the sync loop need it. -/
abbrev runGrowth (k : Keywords) (failed : String) :
    Growth Books (discipline k failed) (fun op => op.isInsert = false) :=
  (growth k failed).restrict (fun _ _ => trivial)

variable {o : ForwarderOptions}

/-- An accepted message is recorded and trashed. -/
theorem recordInsert_safe (hk : o.keywords = k) {message : FetchedMessage} {s : RunState}
    {l : Ledger} (hJ : Running k failed s l) (hn : l.Named message.uid message.raw)
    (ha : l.world.Accepted message.raw) :
    (Forwarder.recordInsert o message).Safe Books (discipline k failed)
      (fun _ s' l' => Running k failed s' l') s l := by
  have hlater : ∀ {l'}, (growth k failed).grow l l' → l'.Sound k failed ∧
      l'.Named message.uid message.raw ∧ l'.world.Accepted message.raw := by
    intro l' h
    obtain ⟨hs', hg⟩ := h hJ.1
    exact ⟨hs', hn.grows hg, hg.accepted _ ha⟩
  refine (Forwarder.recordInsert_safe (runGrowth k failed) allowed_of_isRoutine
    ?_ ?_ ?_ ?_ ?_).mono ?_
  · intro l' h
    obtain ⟨-, hn', ha'⟩ := hlater h
    rw [hk]
    exact ⟨fun _ => accepted_at hn' ha', fun h => absurd h k.insertedOk.ne_deleted⟩
  · intro l' _
    rw [hk]
    exact allowed_unverified l' _
  · exact mayMove_accepted hJ.1 hn ha _
  · intro _ l₂ _ _ h₂ l₃ h₃
    exact (hlater ((growth k failed).trans h₂ h₃)).2.2
  · intro _ l₂ _ _ h₂ folder
    obtain ⟨hs₂, hn₂, ha₂⟩ := hlater h₂
    exact mayMove_accepted hs₂ hn₂ ha₂ folder
  · rintro r s' l' ⟨hrej, hg, -⟩
    obtain ⟨hs', hg⟩ := hg hJ.1
    refine ⟨hs', fun rejection hin => ?_⟩
    rw [hrej] at hin
    exact Nat.lt_of_lt_of_le (hJ.2 rejection hin) hg.uidNext

theorem process_safe (hk : o.keywords = k) {extraLabels : List String} {uid : ℕ} {s : RunState}
    {l : Ledger} (hJ : Running k failed s l) :
    (Forwarder.process o extraLabels uid).Safe Books (discipline k failed)
      (fun _ s' l' => Running k failed s' l') s l := by
  refine Forwarder.process_safe (runGrowth k failed) allowed_of_isRoutine
    (fun _ _ hsame hg => hJ.stable hsame.toSame hg)
    (fun _ _ _ hsame hg => hJ.stable hsame.toSame hg) ?_ ?_
  · intro message s₁ l₁ l₂ hsame h₁ hd h₂ _ hinserted _
    obtain ⟨hs₁, -⟩ := h₁ hJ.1
    obtain ⟨hn, ha⟩ := named_of_delivers hs₁ hd
    have hJ₂ := hJ.stable hsame.toSame h₂
    have ha := ha (hk ▸ hinserted)
    refine (Forwarder.trash_safe (runGrowth k failed) allowed_of_isRoutine ?_
      (mayMove_accepted hJ₂.1 hn ha)).mono (fun _ _ _ h => hJ₂.stable h.1 h.2)
    intro l₃ h₃
    exact (h₃ hJ₂.1).2.accepted _ ha
  · intro message s₁ l₁ l₂ hsame h₁ hd h₂ _ _ _
    obtain ⟨hs₁, -⟩ := h₁ hJ.1
    obtain ⟨hn, -⟩ := named_of_delivers hs₁ hd
    have hJ₂ := hJ.stable hsame.toSame h₂
    have hcall : ∀ {labels r l₃ l₄}, (growth k failed).grow l₂ l₃ →
        Books l₃ (.insertRaw message.raw labels) r l₄ → (growth k failed).grow l₂ l₄ :=
      fun h₃ hE => (growth k failed).trans h₃
        (fun hs₃ => books_step hs₃ (allowed_insertRaw _ _ _) hE)
    have hstay : ∀ {s' l₃}, (growth k failed).grow l₂ l₃ → s₁.Same s' → Running k failed s' l₃ :=
      fun h₃ hsame => hJ₂.stable hsame h₃
    refine Forwarder.insert_safe (runGrowth k failed) (fun _ _ => trivial) ?_
      (fun _ _ _ _ h₃ hE => hstay (hcall h₃ hE) (RunState.Same.refl s₁))
      (fun _ _ _ _ h₃ hE _ hsame => hstay (hcall h₃ hE) hsame.toSame) ?_
    · intro id l₃ l₄ h₃ hE
      have h₄ := hcall h₃ hE
      have hw := Serves.effect_of_ok rfl hE.1
      have ha : l₄.world.Accepted message.raw := by
        rw [hw]
        exact ⟨_, List.mem_append_right _ (List.mem_singleton_self _), rfl⟩
      exact recordInsert_safe hk (hstay h₄ (RunState.Same.refl s₁)) (hn.grows (h₄ hJ₂.1).2) ha
    · intro text status l₃ l₄ h₃ hE
      have h₄ := hcall h₃ hE
      have hJ₄ := hstay h₄ (RunState.Same.refl s₁)
      refine ⟨hJ₄.1, fun rejection hin => ?_⟩
      rcases List.mem_append.mp hin with hin | hin
      · exact hJ₄.2 rejection hin
      · rw [List.mem_singleton.mp hin]
        exact (hn.grows (h₄ hJ₂.1).2).1

theorem run_safe (hk : o.keywords = k) (hf : o.failedFolder = failed) {l : Ledger}
    (hs : l.Sound k failed) :
    (Forwarder.run o).Safe Books (discipline k failed) (fun _ _ _ => True)
      (Forwarder.initial o) l := by
  have hsettle : ∀ s l, Running k failed s l → (Forwarder.settleRejections o).Safe Books
      (discipline k failed) (fun r s' _ => r = .ok () → s'.result.error = none → True) s l := by
    intro s l hJ
    let P := fun (rejected : List Rejection) (l : Ledger) =>
      l.Sound k failed ∧ ∀ rejection ∈ rejected, rejection.uid < l.world.uidNext
    have hnext : ∀ rejection rest s l, P (rejection :: rest) l →
        (Forwarder.quarantine o rejection.uid o.keywords.failed o.failedFolder).Safe Books
          (discipline k failed) (fun r s' l' => (r = .ok () → P rest l') ∧
            (s'.result.error = none → s.result.error = none)) s l := by
      rintro rejection rest s₁ l₁ ⟨hs₁, hall⟩
      refine Forwarder.quarantine_next (runGrowth k failed) allowed_of_isRoutine ?_ ?_ ?_
      · intro l₂ _
        rw [hk]
        exact allowed_failed l₂ _
      · rw [hf]
        exact mayMove_failed hs₁ (hall rejection List.mem_cons_self)
      · intro _ l₂ _ _ hg
        obtain ⟨hs₂, hg⟩ := hg hs₁
        exact ⟨hs₂, fun r hr =>
          Nat.lt_of_lt_of_le (hall r (List.mem_cons_of_mem _ hr)) hg.uidNext⟩
    refine (Forwarder.settleRejections_safe hnext ?_ (fun _ => hJ)).mono
      (fun _ _ _ _ _ _ => trivial)
    exact fun _ => ⟨hJ.1, fun r hr => hJ.2 r (List.mem_filter.mp hr).1⟩
  refine (Forwarder.run_safe (J := Running k failed) (A := Running k failed)
    allowed_of_isRoutine (Forwarder.routineGrowth (runGrowth k failed))
    (fun hsame hg hJ => Running.stable hsame.toSame hg hJ)
    (fun hsame hg hJ => Running.stable hsame.toSame hg hJ) ?_
    (fun _ _ _ _ => trivial) (fun s l h _ => hsettle s l (h.elim id And.left)) (fun _ _ => trivial)
    ⟨hs, fun _ h => absurd h List.not_mem_nil⟩).mono (fun _ _ _ _ => trivial)
  exact fun _ _ _ _ hJ => (process_safe hk hJ).mono (fun _ _ _ h => ⟨fun _ => h, fun _ _ => h⟩)

/-- The growth, as the rules of the commands need it. -/
abbrev commandGrowth (k : Keywords) (failed : String) :
    Growth Books (discipline k failed) (fun op => op.isImap = true) :=
  (growth k failed).restrict (fun _ _ => trivial)

theorem allowed_of_isLook (l : Ledger) (op : Op) (h : op.isLook = true) : Allowed k failed l op :=
  allowed_of_isRoutine l op (Op.isRoutine_of_isLook h)

/-- Every session is safe from sound books on. -/
theorem session_safe {p : Program Op Reply Unit} (hp : Session k failed p) {l : Ledger}
    (hs : l.Sound k failed) : p.Safe Books (discipline k failed) (fun _ _ => True) l := by
  cases hp with
  | run o hk hf =>
      rw [Routine.thread, Program.safe_bind]
      exact run_safe hk hf hs
  | retry args =>
      rw [Routine.thread, Program.safe_bind]
      exact (Cli.cmdRetry_safe (commandGrowth k failed) allowed_of_isLook
        (fun _ _ _ => trivial)).mono (fun _ _ _ _ => trivial)
  | markFailed uids =>
      rw [Routine.thread, Program.safe_bind]
      exact (Cli.cmdMarkFailed_safe (commandGrowth k failed) allowed_of_isLook
        (fun _ _ _ _ _ uid _ _ l' _ => allowed_failed l' uid)).mono (fun _ _ _ _ => trivial)

/-- The books are sound in every reachable system. -/
theorem sound_of_reachable {w : World} (hw : WellFormed w)
    (hinserted : ∀ m ∈ w.messages, m.has k.inserted = true → w.Accepted m.raw)
    {c : System Op Reply Ledger} (hc : Reachable k failed w c) : c.state.Sound k failed := by
  have hs : (opened w).Sound k failed := ⟨hw, hinserted, nofun, nofun⟩
  refine (System.safe (D := discipline k failed) (fun l hs => ⟨hs, Grows.refl l⟩) ?_
    (fun {l op r l'} hs hg hE _ => books_step hs hg hE) (fun hs h _ => others_step hs h)
    (fun h hs => (h hs).1) (fun p hp l hs => session_safe hp hs) hs hc).1
  exact fun h h' => (growth k failed).trans h h'

/-! ## One rejected mail

A run against a provider whose Gmail rejects everything, with the folder move as quarantine. -/

/-- The books of a session against a conforming provider. -/
def book (P : Provider) (l : Ledger) (op : Op) : Reply op × Ledger :=
  let world := P.after 0 l.world op
  (P.reply 0 l.world op,
    { world := world
      taken := l.taken ++ touched l.world world
      removed := l.removed
      issued := l.issued ++ issuedBy op l.world })

theorem book_books (P : Provider) (l : Ledger) (op : Op) :
    Books l op (book P l op).1 (book P l op).2 :=
  ⟨P.serves 0 l.world op, rfl, rfl, rfl⟩

/-- A provider whose Gmail rejects every mail. -/
def rejecting : Provider :=
  { gmail := fun _ => .error (.gmailError .permanent "invalid message" (some 400)) }

/-- The books after the rejected mail was moved into the failed folder. -/
def movedAside : Ledger :=
  ⟨⟨[⟨"Forward-Failed", 2, ⟨0, [72, 105]⟩, []⟩], ["INBOX", "Forward-Failed"], 3, []⟩,
    [⟨"INBOX", 1, ⟨0, [72, 105]⟩, []⟩], [], []⟩

def byFolder : ForwarderOptions := { ForwarderOptions.default with quarantineMode := .folder }

theorem movedAside_eq :
    (((Forwarder.run byFolder).thread (Forwarder.initial byFolder)).exec (book rejecting)
      (opened oneMail)).2 = movedAside := by
  decide +kernel

theorem oneMail_inserted : ∀ m ∈ oneMail.messages, m.has Keywords.default.inserted = true →
    oneMail.Accepted m.raw := by
  intro m hm hhas
  rw [List.mem_singleton.mp hm] at hhas
  exact absurd hhas (by decide)

theorem movedAside_reachable :
    Reachable Keywords.default "Forward-Failed" oneMail ⟨movedAside, [.pure ()]⟩ := by
  refine System.Reachable.session .refl (.run byFolder rfl rfl) ?_
  have h := Program.exec_steps (book rejecting) (book_books rejecting)
    ((Forwarder.run byFolder).thread (Forwarder.initial byFolder)) (opened oneMail)
  rw [movedAside_eq] at h
  exact h

/-! ## The theorem -/

/-- **No mail is lost.** In every state that any overlapping runs and commands reach, with any calls
    failing before or after their effect and any of the programs killed at any point:
    the inserted keyword is on accepted mail only; no move to the Trash was issued for mail Gmail
    had not accepted by then; and what the tool took out of the INBOX or flagged `\Deleted` Gmail has
    accepted, or a later copy of it was put into the failed folder, where it still is unless another
    client took it out. -/
theorem no_loss {w : World} (hw : WellFormed w)
    (hinserted : ∀ m ∈ w.messages, m.has k.inserted = true → w.Accepted m.raw)
    {c : System Op Reply Ledger} (hc : Reachable k failed w c) :
    (∀ m ∈ c.state.world.messages, m.has k.inserted = true → c.state.world.Accepted m.raw) ∧
    (∀ entry ∈ c.state.issued, ∃ copy ∈ entry.2, copy.raw = entry.1) ∧
    (∀ m ∈ c.state.taken, c.state.world.Accepted m.raw ∨
      ∃ m', (m' ∈ c.state.world.messages ∨ m' ∈ c.state.removed) ∧
        m'.folder = folderName failed ∧ m'.raw = m.raw ∧ m.uid < m'.uid) := by
  have hs := sound_of_reachable hw hinserted hc
  exact ⟨hs.inserted, hs.issued, hs.taken⟩

/-- The rejected mail is out of the INBOX and has its copy in the failed folder. -/
theorem no_loss_movedAside :
    (∀ m ∈ movedAside.world.messages, m.has Keywords.default.inserted = true →
      movedAside.world.Accepted m.raw) ∧
    (∀ entry ∈ movedAside.issued, ∃ copy ∈ entry.2, copy.raw = entry.1) ∧
    (∀ m ∈ movedAside.taken, movedAside.world.Accepted m.raw ∨
      ∃ m', (m' ∈ movedAside.world.messages ∨ m' ∈ movedAside.removed) ∧
        m'.folder = folderName "Forward-Failed" ∧ m'.raw = m.raw ∧ m.uid < m'.uid) :=
  no_loss oneMail_wellFormed oneMail_inserted movedAside_reachable

/-- The user may empty the failed folder: then mail the tool took out of the INBOX is neither in
    Gmail nor there. -/
theorem failed_copy_may_be_removed :
    WellFormed oneMail ∧
    (∀ m ∈ oneMail.messages, m.has Keywords.default.inserted = true → oneMail.Accepted m.raw) ∧
    ∃ c, Reachable Keywords.default "Forward-Failed" oneMail c ∧
      ∃ m ∈ c.state.taken, ¬ c.state.world.Accepted m.raw ∧
        ∀ m' ∈ c.state.world.messages,
          ¬ (m'.folder = folderName "Forward-Failed" ∧ m'.raw = m.raw) := by
  refine ⟨oneMail_wellFormed, oneMail_inserted, _, movedAside_reachable.tail (.others
    ⟨.remove ⟨"Forward-Failed", 2, ⟨0, [72, 105]⟩, []⟩, List.mem_singleton_self _, trivial, rfl⟩),
    ⟨"INBOX", 1, ⟨0, [72, 105]⟩, []⟩, List.mem_singleton_self _, ?_, ?_⟩
  · rintro ⟨copy, hcopy, -⟩
    exact absurd hcopy List.not_mem_nil
  · intro m' hm'
    exact absurd hm' List.not_mem_nil

end Ledger

end MailTransporter
