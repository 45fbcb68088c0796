import MailTransporter.ImapClient
import MailTransporter.Effect.Discipline
import Mathlib.Data.List.Nodup

set_option autoImplicit false

/-! # The mail server and Gmail

`World` is the mailbox of the account together with what Gmail has accepted. `effect` is what a call
does when the server carries it out, atomically; `Serves` says which answers a call may get: a value
with the effect, or an exception with the effect or without it, so a lost reply and a lost request
are both there. Flags are reported in any letter case and order, replies may leave messages out, and
`SEARCH` may report anything; what a reply does report about a message is true of it.

The INBOX is a folder like the others, and `MOVE` and `COPY` into it are allowed. A message gets a
new UID whenever it enters a folder and UIDs are never given out twice. -/

namespace MailTransporter

open Effect

/-- `INBOX` is case-insensitive, other folder names are not (RFC 3501). -/
def folderName (name : String) : String := if lower name = "inbox" then "INBOX" else name

/-- A message in a folder. -/
structure Message where
  folder : String
  uid : ℕ
  raw : RawMail
  flags : List String
deriving DecidableEq, Repr

namespace Message

def has (m : Message) (flag : String) : Bool := hasFlag m.flags flag

/-- The message a UID command addressed to `uid` in the INBOX is about. -/
def isAt (m : Message) (uid : ℕ) : Bool := decide (m.folder = "INBOX") && decide (m.uid = uid)

theorem isAt_iff {m : Message} {uid : ℕ} :
    m.isAt uid = true ↔ m.folder = "INBOX" ∧ m.uid = uid := by
  simp [isAt]

def withFlags (m : Message) (flags : List String) : Message := { m with flags := flags }

@[simp] theorem withFlags_folder (m : Message) (flags : List String) :
    (m.withFlags flags).folder = m.folder := rfl

@[simp] theorem withFlags_uid (m : Message) (flags : List String) :
    (m.withFlags flags).uid = m.uid := rfl

@[simp] theorem withFlags_raw (m : Message) (flags : List String) :
    (m.withFlags flags).raw = m.raw := rfl

@[simp] theorem withFlags_flags (m : Message) (flags : List String) :
    (m.withFlags flags).flags = flags := rfl

/-- The message as it enters `folder` under `uid`. -/
def placed (m : Message) (folder : String) (uid : ℕ) : Message :=
  { m with folder := folderName folder, uid := uid }

@[simp] theorem placed_folder (m : Message) (folder : String) (uid : ℕ) :
    (m.placed folder uid).folder = folderName folder := rfl

@[simp] theorem placed_uid (m : Message) (folder : String) (uid : ℕ) :
    (m.placed folder uid).uid = uid := rfl

@[simp] theorem placed_raw (m : Message) (folder : String) (uid : ℕ) :
    (m.placed folder uid).raw = m.raw := rfl

@[simp] theorem placed_flags (m : Message) (folder : String) (uid : ℕ) :
    (m.placed folder uid).flags = m.flags := rfl

end Message

/-- A message Gmail has accepted. -/
structure GmailCopy where
  raw : RawMail
  labels : List String
deriving DecidableEq, Repr

structure World where
  messages : List Message
  folders : List String
  uidNext : ℕ
  gmail : List GmailCopy
deriving DecidableEq

namespace World

/-- The message a UID command addressed to `uid` finds. -/
def find (w : World) (uid : ℕ) : Option Message := w.messages.find? (fun m => m.isAt uid)

/-- Gmail has accepted this mail. -/
def Accepted (w : World) (raw : RawMail) : Prop := ∃ copy ∈ w.gmail, copy.raw = raw

/-! ## The effects of calls -/

/-- `STORE`: rewrite the flags of the message at `uid`. -/
def store (uid : ℕ) (f : List String → List String) (w : World) : World :=
  { w with messages :=
      w.messages.map (fun m => if m.isAt uid then m.withFlags (f m.flags) else m) }

/-- Put a copy of the message at `uid` into `folder`. -/
def copyTo (uid : ℕ) (folder : String) (w : World) : World :=
  match w.find uid with
  | none => w
  | some m =>
      { w with
        messages := w.messages ++ [m.placed folder w.uidNext]
        uidNext := w.uidNext + 1 }

/-- Take the messages satisfying `p` out. -/
def drop (p : Message → Bool) (w : World) : World :=
  { w with messages := w.messages.filter (fun m => !p m) }

/-- Move the message at `uid` into `folder`. -/
def moveTo (uid : ℕ) (folder : String) (w : World) : World :=
  match w.find uid with
  | none => w
  | some m =>
      { w with
        messages := w.messages.filter (fun m => !m.isAt uid) ++ [m.placed folder w.uidNext]
        uidNext := w.uidNext + 1 }

/-- `messages.insert`: Gmail stores the mail. -/
def accept (raw : RawMail) (labels : List String) (w : World) : World :=
  { w with gmail := w.gmail ++ [⟨raw, labels⟩] }

end World

/-- `+FLAGS`: a flag the message has already is not added again. -/
def addFlag (flag : String) (flags : List String) : List String :=
  if hasFlag flags flag then flags else flags ++ [flag]

/-- `-FLAGS` -/
def removeFlag (flag : String) (flags : List String) : List String :=
  flags.filter (fun f => decide (lower f ≠ lower flag))

@[simp] theorem hasFlag_addFlag (flag f : String) (flags : List String) :
    hasFlag (addFlag flag flags) f = (hasFlag flags f || decide (lower f = lower flag)) := by
  unfold addFlag
  split
  · next h =>
    by_cases he : lower f = lower flag
    · rw [hasFlag_congr flags he, h]
      simp
    · simp [he]
  · simp [hasFlag]

@[simp] theorem hasFlag_removeFlag (flag f : String) (flags : List String) :
    hasFlag (removeFlag flag flags) f = (hasFlag flags f && decide (lower f ≠ lower flag)) := by
  rw [Bool.eq_iff_iff]
  simp only [hasFlag_iff, removeFlag, List.mem_filter, Bool.and_eq_true, decide_eq_true_eq]
  constructor
  · rintro ⟨g, ⟨hg, hne⟩, he⟩
    exact ⟨⟨g, hg, he⟩, he ▸ hne⟩
  · rintro ⟨⟨g, hg, he⟩, hne⟩
    exact ⟨g, ⟨hg, he ▸ hne⟩, he⟩

/-- What a call does when the server carries it out. -/
def effect : Op → World → World
  | .addFlags uid flag => World.store uid (addFlag flag)
  | .removeFlags uid flag => World.store uid (removeFlag flag)
  | .createFolder folder => fun w => { w with folders := w.folders ++ [folder] }
  | .move uid folder => World.moveTo uid folder
  | .copy uid folder => World.copyTo uid folder
  | .uidExpunge uid => World.drop (fun m => m.isAt uid && m.has deletedFlag)
  | .insertRaw raw labels => World.accept raw labels
  | _ => id

/-! ## Answers -/

/-- What a reply reports about the messages of the INBOX is true of them. -/
def Truthful (w : World) : (op : Op) → Value op → Prop
  | .fetch _ .headers, _ => True
  | .fetch _ _, data =>
      ∀ item ∈ data, ∃ m ∈ w.messages, m.isAt item.1 ∧
        (∀ raw, item.2.body = some (some raw) → raw = m.raw) ∧
        ∃ flags, item.2.flags = some flags ∧ SameFlags flags m.flags
  | .addFlags _ _, reply =>
      ∀ item ∈ reply, ∃ m ∈ w.messages, m.isAt item.1 ∧ SameFlags item.2 m.flags
  | .removeFlags _ _, reply =>
      ∀ item ∈ reply, ∃ m ∈ w.messages, m.isAt item.1 ∧ SameFlags item.2 m.flags
  | _, _ => True

/-- Calls that are no request to anybody. -/
def Op.isLocal : Op → Bool
  | .clock => true
  | .touch _ _ => true
  | .issueTrash _ => true
  | _ => false

/-- A `STORE` of a keyword; servers may ignore it without an error. -/
def Op.isKeywordStore : Op → Bool
  | .addFlags _ flag => decide (lower flag ≠ lower deletedFlag)
  | .removeFlags _ _ => true
  | _ => false

/-- The answers the server, Gmail and the process may give. -/
def Serves : Env Op Reply World := fun w op r w' =>
  match r with
  | .ok value =>
      (w' = effect op w ∨ (op.isKeywordStore = true ∧ w' = w)) ∧ Truthful w' op value
  | .error _ => op.isLocal = false ∧ (w' = w ∨ w' = effect op w)

theorem Serves.cases {w w' : World} {op : Op} {r : Reply op} (h : Serves w op r w') :
    w' = w ∨ w' = effect op w := by
  cases r with
  | ok value =>
      obtain ⟨h | ⟨_, h⟩, _⟩ := h
      · exact Or.inr h
      · exact Or.inl h
  | error e => exact h.2

/-! ## Well-formed mailboxes -/

/-- UIDs are distinct and have been given out. -/
structure WellFormed (w : World) : Prop where
  distinct : (w.messages.map Message.uid).Nodup
  given : ∀ m ∈ w.messages, m.uid < w.uidNext

namespace WellFormed

variable {w : World}

theorem unique (h : WellFormed w) {m m' : Message} (hm : m ∈ w.messages) (hm' : m' ∈ w.messages)
    (hu : m.uid = m'.uid) : m = m' :=
  List.inj_on_of_nodup_map h.distinct hm hm' hu

/-- In a well-formed mailbox `find` is membership. -/
theorem find_eq (h : WellFormed w) {m : Message} {uid : ℕ} (hm : m ∈ w.messages)
    (hat : m.isAt uid = true) : w.find uid = some m := by
  unfold World.find
  cases hf : w.messages.find? (fun m => m.isAt uid) with
  | none =>
      have := List.find?_eq_none.mp hf m hm
      exact absurd hat this
  | some m' =>
      have hat' := List.find?_some hf
      have hu : m'.uid = m.uid := by
        rw [(Message.isAt_iff.mp hat').2, (Message.isAt_iff.mp hat).2]
      rw [h.unique (List.mem_of_find?_eq_some hf) hm hu]

end WellFormed

theorem Message.not_isAt_placed {folder : String} (h : folderName folder ≠ "INBOX") (m : Message)
    (n uid : ℕ) : (m.placed folder n).isAt uid = false := by
  simp [isAt, h]

theorem World.find_some {w : World} {uid : ℕ} {m : Message} (h : w.find uid = some m) :
    m ∈ w.messages ∧ m.isAt uid = true := by
  have hat := List.find?_some h
  exact ⟨List.mem_of_find?_eq_some h, hat⟩

theorem World.find_none {w : World} {uid : ℕ} (h : w.find uid = none) {m : Message}
    (hm : m ∈ w.messages) : m.isAt uid = false := by
  have := List.find?_eq_none.mp h m hm
  simpa using this

/-! ## What an effect does to the messages

Every later fact about an effect is drawn from these: where a message of the new mailbox comes from,
which messages of the old one stay, and what enters a folder. -/

/-- The flags of a message after a call that leaves it where it is. -/
def flagsAfter : Op → Message → List String
  | .addFlags uid flag, m => if m.isAt uid then addFlag flag m.flags else m.flags
  | .removeFlags uid flag, m => if m.isAt uid then removeFlag flag m.flags else m.flags
  | _, m => m.flags

/-- The call puts the message at `uid` into `folder`. -/
def Op.puts (op : Op) (uid : ℕ) (folder : String) : Prop :=
  op = .move uid folder ∨ op = .copy uid folder

/-- The call takes `m` out of the INBOX. -/
def Op.takes (op : Op) (m : Message) : Prop :=
  (∃ folder, op = .move m.uid folder ∧ m.folder = "INBOX") ∨
  (op = .uidExpunge m.uid ∧ m.folder = "INBOX" ∧ m.has deletedFlag = true)

/-- A flag stays on a message unless the call takes flags off. -/
theorem has_flagsAfter {op : Op} (hop : ∀ uid flag, op ≠ .removeFlags uid flag) {m : Message}
    {flag : String} (h : hasFlag m.flags flag = true) : hasFlag (flagsAfter op m) flag = true := by
  cases op
  case addFlags uid f =>
    simp only [flagsAfter]
    split
    · rw [hasFlag_addFlag, h, Bool.true_or]
    · exact h
  case removeFlags uid f => exact absurd rfl (hop uid f)
  all_goals exact h

/-- A flag a message gets is the one a `STORE` on it names. -/
theorem of_has_flagsAfter {op : Op} {m : Message} {flag : String}
    (hout : hasFlag m.flags flag = false) (hin : hasFlag (flagsAfter op m) flag = true) :
    ∃ uid f, op = .addFlags uid f ∧ m.isAt uid = true ∧ lower flag = lower f := by
  have hno : hasFlag m.flags flag ≠ true := Bool.eq_false_iff.mp hout
  cases op
  case addFlags uid f =>
    simp only [flagsAfter] at hin
    by_cases hat : m.isAt uid = true
    · rw [if_pos hat, hasFlag_addFlag, hout, Bool.false_or, decide_eq_true_eq] at hin
      exact ⟨uid, f, rfl, hat, hin⟩
    · rw [if_neg hat] at hin
      exact absurd hin hno
  case removeFlags uid f =>
    simp only [flagsAfter] at hin
    by_cases hat : m.isAt uid = true
    · rw [if_pos hat, hasFlag_removeFlag, hout, Bool.false_and] at hin
      exact absurd hin nofun
    · rw [if_neg hat] at hin
      exact absurd hin hno
  all_goals exact absurd hin hno

theorem mem_store {uid : ℕ} {f : List String → List String} {w : World} {m' : Message} :
    m' ∈ (World.store uid f w).messages ↔
      ∃ m ∈ w.messages, m' = m.withFlags (if m.isAt uid then f m.flags else m.flags) := by
  simp only [World.store, List.mem_map]
  constructor
  · rintro ⟨m, hm, rfl⟩
    refine ⟨m, hm, ?_⟩
    split <;> rfl
  · rintro ⟨m, hm, rfl⟩
    refine ⟨m, hm, ?_⟩
    split <;> rfl

/-- A message after an effect was there before, or has just been put into a folder. -/
theorem mem_effect {op : Op} {w : World} {m' : Message} (h : m' ∈ (effect op w).messages) :
    (∃ m ∈ w.messages, m' = m.withFlags (flagsAfter op m)) ∨
    (∃ m ∈ w.messages, ∃ uid folder, op.puts uid folder ∧ m.isAt uid = true ∧
      m' = m.placed folder w.uidNext) := by
  cases op
  case addFlags uid flag => exact Or.inl (mem_store.mp h)
  case removeFlags uid flag => exact Or.inl (mem_store.mp h)
  case move uid folder =>
    simp only [effect, World.moveTo] at h
    cases hf : w.find uid with
    | none =>
        rw [hf] at h
        exact Or.inl ⟨m', h, rfl⟩
    | some m =>
        rw [hf] at h
        rcases List.mem_append.mp h with h | h
        · exact Or.inl ⟨m', (List.mem_filter.mp h).1, rfl⟩
        · obtain ⟨hm, hat⟩ := World.find_some hf
          exact Or.inr ⟨m, hm, uid, folder, Or.inl rfl, hat, List.mem_singleton.mp h⟩
  case copy uid folder =>
    simp only [effect, World.copyTo] at h
    cases hf : w.find uid with
    | none =>
        rw [hf] at h
        exact Or.inl ⟨m', h, rfl⟩
    | some m =>
        rw [hf] at h
        rcases List.mem_append.mp h with h | h
        · exact Or.inl ⟨m', h, rfl⟩
        · obtain ⟨hm, hat⟩ := World.find_some hf
          exact Or.inr ⟨m, hm, uid, folder, Or.inr rfl, hat, List.mem_singleton.mp h⟩
  case uidExpunge uid => exact Or.inl ⟨m', (List.mem_filter.mp h).1, rfl⟩
  all_goals exact Or.inl ⟨m', h, rfl⟩

/-- A message stays where it is unless the call takes it out of the INBOX. -/
theorem effect_keeps (op : Op) {w : World} {m : Message} (hm : m ∈ w.messages) :
    m.withFlags (flagsAfter op m) ∈ (effect op w).messages ∨ op.takes m := by
  cases op
  case addFlags uid flag => exact Or.inl (mem_store.mpr ⟨m, hm, rfl⟩)
  case removeFlags uid flag => exact Or.inl (mem_store.mpr ⟨m, hm, rfl⟩)
  case move uid folder =>
    simp only [effect, World.moveTo]
    cases hf : w.find uid with
    | none => exact Or.inl hm
    | some m₀ =>
        by_cases hat : m.isAt uid = true
        · obtain ⟨hfolder, rfl⟩ := Message.isAt_iff.mp hat
          exact Or.inr (Or.inl ⟨folder, rfl, hfolder⟩)
        · have hne : (!m.isAt uid) = true := by simpa using hat
          exact Or.inl (List.mem_append_left _ (List.mem_filter.mpr ⟨hm, hne⟩))
  case copy uid folder =>
    simp only [effect, World.copyTo]
    cases hf : w.find uid with
    | none => exact Or.inl hm
    | some m₀ => exact Or.inl (List.mem_append_left _ hm)
  case uidExpunge uid =>
    by_cases hp : (m.isAt uid && m.has deletedFlag) = true
    · simp only [Bool.and_eq_true] at hp
      obtain ⟨hfolder, rfl⟩ := Message.isAt_iff.mp hp.1
      exact Or.inr (Or.inr ⟨rfl, hfolder, hp.2⟩)
    · have hne : (!(m.isAt uid && m.has deletedFlag)) = true := by
        rw [Bool.not_eq_true']
        exact Bool.eq_false_iff.mpr hp
      exact Or.inl (List.mem_filter.mpr ⟨hm, hne⟩)
  all_goals exact Or.inl hm

/-- `MOVE` and `COPY` put the message they find into the folder. -/
theorem effect_puts {op : Op} {w : World} {m : Message} {uid : ℕ} {folder : String}
    (hw : WellFormed w) (hop : op.puts uid folder) (hm : m ∈ w.messages)
    (hat : m.isAt uid = true) : m.placed folder w.uidNext ∈ (effect op w).messages := by
  have hf := hw.find_eq hm hat
  rcases hop with rfl | rfl
  · simp [effect, World.moveTo, hf]
  · simp [effect, World.copyTo, hf]

theorem uidNext_le_effect (op : Op) (w : World) : w.uidNext ≤ (effect op w).uidNext := by
  cases op
  case move uid folder =>
    simp only [effect, World.moveTo]
    split <;> simp
  case copy uid folder =>
    simp only [effect, World.copyTo]
    split <;> simp
  all_goals exact Nat.le_refl _

theorem effect_gmail {op : Op} (w : World) (h : ∀ raw labels, op ≠ .insertRaw raw labels) :
    (effect op w).gmail = w.gmail := by
  cases op
  case insertRaw raw labels => exact absurd rfl (h raw labels)
  case move uid folder =>
    simp only [effect, World.moveTo]
    split <;> rfl
  case copy uid folder =>
    simp only [effect, World.copyTo]
    split <;> rfl
  all_goals rfl

/-- What Gmail has accepted stays accepted. -/
theorem accepted_effect {raw : RawMail} (op : Op) {w : World} (h : w.Accepted raw) :
    (effect op w).Accepted raw := by
  obtain ⟨copy, hc, he⟩ := h
  refine ⟨copy, ?_, he⟩
  by_cases hop : ∃ r labels, op = .insertRaw r labels
  · obtain ⟨r, labels, rfl⟩ := hop
    exact List.mem_append_left _ hc
  · rw [effect_gmail w (fun r labels he => hop ⟨r, labels, he⟩)]
    exact hc

theorem wellFormed_placed {w : World} (hw : WellFormed w) {ms : List Message}
    (hs : ms.Sublist w.messages) (m : Message) (folder : String) {fs : List String}
    {gs : List GmailCopy} {n : ℕ} (hn : w.uidNext ≤ n) :
    WellFormed ⟨ms ++ [m.placed folder n], fs, n + 1, gs⟩ where
  distinct := by
    rw [List.map_append, List.map_singleton, Message.placed_uid]
    refine List.Nodup.append (hw.distinct.sublist (hs.map _)) (List.nodup_singleton n) ?_
    rw [List.disjoint_singleton]
    intro hn'
    obtain ⟨m₁, h₁, hu⟩ := List.mem_map.mp hn'
    have := hw.given m₁ (hs.subset h₁)
    omega
  given := by
    intro m₁ h₁
    rcases List.mem_append.mp h₁ with h₁ | h₁
    · have := hw.given m₁ (hs.subset h₁)
      show m₁.uid < n + 1
      omega
    · rw [List.mem_singleton.mp h₁]
      exact Nat.lt_succ_self n

theorem WellFormed.effect {w : World} (hw : WellFormed w) (op : Op) :
    WellFormed (effect op w) := by
  have hstore : ∀ uid f, WellFormed (World.store uid f w) := by
    intro uid f
    have huid : ∀ m : Message,
        (if m.isAt uid then m.withFlags (f m.flags) else m).uid = m.uid := by
      intro m
      split <;> rfl
    refine ⟨?_, ?_⟩
    · have hmap : (World.store uid f w).messages.map Message.uid
          = w.messages.map Message.uid := by
        rw [World.store, List.map_map]
        exact List.map_congr_left (fun m _ => huid m)
      rw [hmap]
      exact hw.distinct
    · intro m' hm'
      obtain ⟨m, hm, rfl⟩ := mem_store.mp hm'
      exact hw.given m hm
  cases op
  case addFlags uid flag => exact hstore uid _
  case removeFlags uid flag => exact hstore uid _
  case move uid folder =>
    simp only [MailTransporter.effect, World.moveTo]
    split
    · exact hw
    · exact wellFormed_placed hw List.filter_sublist _ folder (Nat.le_refl _)
  case copy uid folder =>
    simp only [MailTransporter.effect, World.copyTo]
    split
    · exact hw
    · exact wellFormed_placed hw (List.Sublist.refl _) _ folder (Nat.le_refl _)
  case uidExpunge uid =>
    exact ⟨hw.distinct.sublist (List.filter_sublist.map _),
      fun m hm => hw.given m (List.mem_filter.mp hm).1⟩
  all_goals exact ⟨hw.distinct, hw.given⟩

/-! ## Calls about another message -/

/-- The call names no message at `uid`. -/
def Op.spares (uid : ℕ) : Op → Bool
  | .addFlags u _ => decide (u ≠ uid)
  | .removeFlags u _ => decide (u ≠ uid)
  | .move u _ => decide (u ≠ uid)
  | .copy u _ => decide (u ≠ uid)
  | .uidExpunge u => decide (u ≠ uid)
  | _ => true

theorem flagsAfter_of_spares {op : Op} {uid : ℕ} (hop : op.spares uid = true) {m : Message}
    (hat : m.isAt uid = true) : flagsAfter op m = m.flags := by
  have hne : ∀ u, u ≠ uid → m.isAt u = false := by
    intro u hu
    refine Bool.eq_false_iff.mpr (fun h => hu ?_)
    rw [← (Message.isAt_iff.mp h).2, (Message.isAt_iff.mp hat).2]
  cases op
  case addFlags u flag => simp [flagsAfter, hne u (of_decide_eq_true hop)]
  case removeFlags u flag => simp [flagsAfter, hne u (of_decide_eq_true hop)]
  all_goals rfl

theorem not_takes_of_spares {op : Op} {uid : ℕ} (hop : op.spares uid = true) {m : Message}
    (hat : m.isAt uid = true) : ¬op.takes m := by
  obtain ⟨-, rfl⟩ := Message.isAt_iff.mp hat
  rintro (⟨folder, rfl, -⟩ | ⟨rfl, -⟩)
  · exact absurd rfl (of_decide_eq_true hop)
  · exact absurd rfl (of_decide_eq_true hop)

/-- The message at a UID given out before stays as it is while no call names it. -/
theorem Serves.frame {w w' : World} {op : Op} {r : Reply op} (h : Serves w op r w') {uid : ℕ}
    (hop : op.spares uid = true) (hu : uid < w.uidNext) {m : Message} (hat : m.isAt uid = true) :
    m ∈ w'.messages ↔ m ∈ w.messages := by
  rcases h.cases with rfl | rfl
  · exact Iff.rfl
  constructor
  · intro hm
    rcases mem_effect hm with ⟨m₀, hm₀, rfl⟩ | ⟨m₀, -, u, folder, -, -, rfl⟩
    · rw [flagsAfter_of_spares hop (m := m₀) hat]
      exact hm₀
    · have := (Message.isAt_iff.mp hat).2
      rw [Message.placed_uid] at this
      omega
  · intro hm
    rcases effect_keeps op hm with hkeep | htakes
    · rw [flagsAfter_of_spares hop hat] at hkeep
      exact hkeep
    · exact absurd htakes (not_takes_of_spares hop hat)

/-- A message after a call was there before, perhaps with other flags, or has just been put into a
    folder. -/
theorem Serves.origin {w w' : World} {op : Op} {r : Reply op} (h : Serves w op r w') {m' : Message}
    (hm' : m' ∈ w'.messages) :
    (∃ m ∈ w.messages, (m' = m ∨ m' = m.withFlags (flagsAfter op m))) ∨
    (∃ m ∈ w.messages, ∃ uid folder, op.puts uid folder ∧ m.isAt uid = true ∧
      m' = m.placed folder w.uidNext) := by
  rcases h.cases with he | he
  · rw [he] at hm'
    exact Or.inl ⟨m', hm', Or.inl rfl⟩
  · rw [he] at hm'
    rcases mem_effect hm' with ⟨m, hm, hflags⟩ | hplaced
    · exact Or.inl ⟨m, hm, Or.inr hflags⟩
    · exact Or.inr hplaced

theorem Serves.wellFormed {w w' : World} {op : Op} {r : Reply op} (h : Serves w op r w')
    (hw : WellFormed w) : WellFormed w' := by
  rcases h.cases with rfl | rfl
  · exact hw
  · exact hw.effect op

theorem Serves.uidNext_le {w w' : World} {op : Op} {r : Reply op} (h : Serves w op r w') :
    w.uidNext ≤ w'.uidNext := by
  rcases h.cases with rfl | rfl
  · exact Nat.le_refl _
  · exact uidNext_le_effect op w

/-! ## The other mail clients -/

/-- What another client does to the account: deliver a new message, remove a message, move or copy
    one to a folder, or change the flags of one. -/
inductive Event where
  | arrive (raw : RawMail) (uid : ℕ) (flags : List String)
  | remove (m : Message)
  | refile (m : Message) (folder : String)
  | duplicate (m : Message) (folder : String)
  | reflag (m : Message) (flags : List String)

/-- A new message gets a UID not given out yet; everything else is done to a message there is. -/
def Event.Enabled (w : World) : Event → Prop
  | .arrive _ uid _ => w.uidNext ≤ uid
  | .remove m => m ∈ w.messages
  | .refile m _ => m ∈ w.messages
  | .duplicate m _ => m ∈ w.messages
  | .reflag m _ => m ∈ w.messages

def Event.apply (w : World) : Event → World
  | .arrive raw uid flags =>
      { w with messages := w.messages ++ [⟨"INBOX", uid, raw, flags⟩], uidNext := uid + 1 }
  | .remove m => { w with messages := w.messages.filter (fun m' => decide (m'.uid ≠ m.uid)) }
  | .refile m folder =>
      { w with
        messages := w.messages.filter (fun m' => decide (m'.uid ≠ m.uid)) ++
          [m.placed folder w.uidNext]
        uidNext := w.uidNext + 1 }
  | .duplicate m folder =>
      { w with
        messages := w.messages ++ [m.placed folder w.uidNext]
        uidNext := w.uidNext + 1 }
  | .reflag m flags =>
      { w with messages :=
          w.messages.map (fun m' => if m'.uid = m.uid then m'.withFlags flags else m') }

/-- A message after an event was there before, perhaps with new flags, or has just entered. -/
theorem mem_apply {e : Event} {w : World} (hw : WellFormed w) (he : e.Enabled w) {m' : Message}
    (h : m' ∈ (e.apply w).messages) :
    m' ∈ w.messages ∨
    (∃ m ∈ w.messages, ∃ flags, e = .reflag m flags ∧ m' = m.withFlags flags) ∨
    (∃ raw uid flags, e = .arrive raw uid flags ∧ m' = ⟨"INBOX", uid, raw, flags⟩) ∨
    (∃ m ∈ w.messages, ∃ folder, (e = .refile m folder ∨ e = .duplicate m folder) ∧
      m' = m.placed folder w.uidNext) := by
  cases e with
  | arrive raw uid flags =>
      rcases List.mem_append.mp h with h | h
      · exact Or.inl h
      · exact Or.inr (Or.inr (Or.inl ⟨raw, uid, flags, rfl, List.mem_singleton.mp h⟩))
  | remove m => exact Or.inl (List.mem_filter.mp h).1
  | refile m folder =>
      rcases List.mem_append.mp h with h | h
      · exact Or.inl (List.mem_filter.mp h).1
      · exact Or.inr (Or.inr (Or.inr ⟨m, he, folder, Or.inl rfl, List.mem_singleton.mp h⟩))
  | duplicate m folder =>
      rcases List.mem_append.mp h with h | h
      · exact Or.inl h
      · exact Or.inr (Or.inr (Or.inr ⟨m, he, folder, Or.inr rfl, List.mem_singleton.mp h⟩))
  | reflag m flags =>
      obtain ⟨m₁, h₁, hm'⟩ := List.mem_map.mp h
      by_cases hu : m₁.uid = m.uid
      · rw [if_pos hu] at hm'
        rw [hw.unique h₁ he hu] at hm'
        exact Or.inr (Or.inl ⟨m, he, flags, rfl, hm'.symm⟩)
      · rw [if_neg hu] at hm'
        exact Or.inl (hm' ▸ h₁)

/-- A message stays unless the event is about it. -/
theorem apply_keeps (e : Event) {w : World} {m : Message} (hm : m ∈ w.messages) :
    m ∈ (e.apply w).messages ∨
    (∃ m₀ flags, e = .reflag m₀ flags ∧ m.uid = m₀.uid ∧
      m.withFlags flags ∈ (e.apply w).messages) ∨
    (∃ m₀, m.uid = m₀.uid ∧ (e = .remove m₀ ∨ ∃ folder, e = .refile m₀ folder)) := by
  cases e with
  | arrive raw uid flags => exact Or.inl (List.mem_append_left _ hm)
  | remove m₀ =>
      by_cases hu : m.uid = m₀.uid
      · exact Or.inr (Or.inr ⟨m₀, hu, Or.inl rfl⟩)
      · exact Or.inl (List.mem_filter.mpr ⟨hm, decide_eq_true hu⟩)
  | refile m₀ folder =>
      by_cases hu : m.uid = m₀.uid
      · exact Or.inr (Or.inr ⟨m₀, hu, Or.inr ⟨folder, rfl⟩⟩)
      · exact Or.inl (List.mem_append_left _ (List.mem_filter.mpr ⟨hm, decide_eq_true hu⟩))
  | duplicate m₀ folder => exact Or.inl (List.mem_append_left _ hm)
  | reflag m₀ flags =>
      by_cases hu : m.uid = m₀.uid
      · exact Or.inr (Or.inl ⟨m₀, flags, rfl, hu, List.mem_map.mpr ⟨m, hm, if_pos hu⟩⟩)
      · exact Or.inl (List.mem_map.mpr ⟨m, hm, if_neg hu⟩)

theorem uidNext_le_apply {e : Event} {w : World} (he : e.Enabled w) :
    w.uidNext ≤ (e.apply w).uidNext := by
  cases e with
  | arrive raw uid flags => exact Nat.le_succ_of_le he
  | remove m => exact Nat.le_refl _
  | refile m folder => exact Nat.le_succ _
  | duplicate m folder => exact Nat.le_succ _
  | reflag m flags => exact Nat.le_refl _

@[simp] theorem apply_gmail (e : Event) (w : World) : (e.apply w).gmail = w.gmail := by
  cases e <;> rfl

theorem WellFormed.apply {w : World} (hw : WellFormed w) {e : Event} (he : e.Enabled w) :
    WellFormed (e.apply w) := by
  cases e with
  | arrive raw uid flags =>
      exact wellFormed_placed hw (List.Sublist.refl _) ⟨"INBOX", uid, raw, flags⟩ "INBOX" he
  | remove m =>
      exact ⟨hw.distinct.sublist (List.filter_sublist.map _),
        fun m hm => hw.given m (List.mem_filter.mp hm).1⟩
  | refile m folder =>
      exact wellFormed_placed hw List.filter_sublist m folder (Nat.le_refl _)
  | duplicate m folder =>
      exact wellFormed_placed hw (List.Sublist.refl _) m folder (Nat.le_refl _)
  | reflag m flags =>
      have huid : ∀ m' : Message,
          (if m'.uid = m.uid then m'.withFlags flags else m').uid = m'.uid := by
        intro m'
        split <;> rfl
      refine ⟨?_, fun m' hm' => ?_⟩
      · have hmap : (Event.apply w (.reflag m flags)).messages.map Message.uid
            = w.messages.map Message.uid := by
          rw [Event.apply, List.map_map]
          exact List.map_congr_left (fun m' _ => huid m')
        rw [hmap]
        exact hw.distinct
      · obtain ⟨m₁, h₁, rfl⟩ := List.mem_map.mp hm'
        rw [huid]
        exact hw.given m₁ h₁

/-! ## UIDs name messages

Whatever a step does, a message under a UID given out before it is the one that was there. -/

theorem named_effect {op : Op} {w : World} {m' : Message} (hm' : m' ∈ (effect op w).messages)
    (hu : m'.uid < w.uidNext) :
    ∃ m ∈ w.messages, m.uid = m'.uid ∧ m.folder = m'.folder ∧ m.raw = m'.raw := by
  rcases mem_effect hm' with ⟨m, hm, rfl⟩ | ⟨m, hm, uid, folder, _, _, rfl⟩
  · exact ⟨m, hm, rfl, rfl, rfl⟩
  · rw [Message.placed_uid] at hu
    exact absurd hu (Nat.lt_irrefl _)

theorem named_apply {e : Event} {w : World} (hw : WellFormed w) (he : e.Enabled w) {m' : Message}
    (hm' : m' ∈ (e.apply w).messages) (hu : m'.uid < w.uidNext) :
    ∃ m ∈ w.messages, m.uid = m'.uid ∧ m.folder = m'.folder ∧ m.raw = m'.raw := by
  rcases mem_apply hw he hm' with hm | ⟨m, hm, flags, rfl, rfl⟩ | ⟨raw, uid, flags, rfl, rfl⟩ |
    ⟨m, hm, folder, _, rfl⟩
  · exact ⟨m', hm, rfl, rfl, rfl⟩
  · exact ⟨m, hm, rfl, rfl, rfl⟩
  · have hle : w.uidNext ≤ uid := he
    have hlt : uid < w.uidNext := hu
    omega
  · rw [Message.placed_uid] at hu
    exact absurd hu (Nat.lt_irrefl _)

end MailTransporter
