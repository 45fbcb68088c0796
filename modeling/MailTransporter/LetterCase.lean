import MailTransporter.ForwarderRules
import MailTransporter.Exceptions
import MailTransporter.Provider
import MailTransporter.Effect.Lockstep
import Mathlib.Data.List.Forall2

set_option autoImplicit false

/-! # The letter case of flags

IMAP flags are case-insensitive, and `has_flag` compares them so. Here two accounts are compared that
differ in nothing but the letter case in which the server reports the flags. A `Server` answers from
the account and reads flags the way IMAP does, so on the two accounts it gives the same answers but
for letter case; the pass is run on both in lockstep. `gmail_labels_for` is the one place where a
flag is compared letter for letter, and a pass tells the two accounts apart exactly if they hold a
message that would be inserted and gets other labels. -/

namespace MailTransporter

open Effect
open Effect.Routine (raise attempt getSelf modifySelf settle)

/-- The call takes no flag off a message. -/
def Op.leavesFlags : Op → Bool
  | .removeFlags _ _ => false
  | _ => true

/-- The call is answered with flags. -/
def Op.reportsFlags : Op → Bool
  | .fetch _ _ => true
  | .addFlags _ _ => true
  | .removeFlags _ _ => true
  | _ => false

namespace LetterCase

/-! ## Flags -/

/-- The same flags but for letter case. -/
def RespelledFlags (flags flags' : List String) : Prop := flags.map lower = flags'.map lower

instance (flags flags' : List String) : Decidable (RespelledFlags flags flags') :=
  inferInstanceAs (Decidable (flags.map lower = flags'.map lower))

/-- The flags `gmail_labels_for` looks at are there in both lists, or in neither, letter for
    letter. -/
structure SameLabels (flags flags' : List String) : Prop where
  seen : "\\Seen" ∈ flags ↔ "\\Seen" ∈ flags'
  flagged : "\\Flagged" ∈ flags ↔ "\\Flagged" ∈ flags'

instance (flags flags' : List String) : Decidable (SameLabels flags flags') :=
  decidable_of_iff (("\\Seen" ∈ flags ↔ "\\Seen" ∈ flags') ∧
    ("\\Flagged" ∈ flags ↔ "\\Flagged" ∈ flags')) ⟨fun h => ⟨h.1, h.2⟩, fun h => ⟨h.1, h.2⟩⟩

/-- A message with these flags is not inserted: `_process` skips it or moves it to the Trash. -/
def handled (k : Keywords) (flags : List String) : Bool :=
  k.quarantine.any (hasFlag flags) || hasFlag flags k.inserted

theorem handled_iff {k : Keywords} {flags : List String} :
    handled k flags = true ↔ hasFlag flags k.failed = true ∨ hasFlag flags k.unverified = true ∨
      hasFlag flags k.inserted = true := by
  simp [handled, Keywords.quarantine, or_assoc]

namespace RespelledFlags

variable {flags flags' : List String}

theorem hasFlag (h : RespelledFlags flags flags') (flag : String) :
    hasFlag flags flag = MailTransporter.hasFlag flags' flag := by
  unfold MailTransporter.hasFlag
  rw [show flags.map lower = flags'.map lower from h]

theorem handled (h : RespelledFlags flags flags') (k : Keywords) :
    handled k flags = LetterCase.handled k flags' := by
  have hsame : MailTransporter.hasFlag flags = MailTransporter.hasFlag flags' := funext h.hasFlag
  unfold LetterCase.handled
  rw [hsame]

theorem matchesAny (h : RespelledFlags flags flags') (keywords : List String) :
    matchesAny flags keywords = MailTransporter.matchesAny flags' keywords := by
  have hsame : MailTransporter.hasFlag flags = MailTransporter.hasFlag flags' := funext h.hasFlag
  unfold MailTransporter.matchesAny
  rw [hsame]

theorem addFlag (h : RespelledFlags flags flags') (flag : String) :
    RespelledFlags (addFlag flag flags) (MailTransporter.addFlag flag flags') := by
  unfold MailTransporter.addFlag
  rw [h.hasFlag flag]
  split
  · exact h
  · have hmap : flags.map lower = flags'.map lower := h
    simp only [RespelledFlags, List.map_append, hmap]

theorem removeFlag (h : RespelledFlags flags flags') (flag : String) :
    RespelledFlags (removeFlag flag flags) (MailTransporter.removeFlag flag flags') := by
  have hfold : ∀ l : List String, (MailTransporter.removeFlag flag l).map lower =
      (l.map lower).filter (fun f => decide (f ≠ lower flag)) := by
    intro l
    rw [List.filter_map]
    rfl
  unfold RespelledFlags
  rw [hfold, hfold, show flags.map lower = flags'.map lower from h]

end RespelledFlags

/-- A flag added to both is there in both. -/
theorem SameLabels.addFlag {flags flags' : List String} (h : SameLabels flags flags')
    (hr : RespelledFlags flags flags') (flag : String) :
    SameLabels (addFlag flag flags) (MailTransporter.addFlag flag flags') := by
  unfold MailTransporter.addFlag
  rw [hr.hasFlag flag]
  split
  · exact h
  · exact ⟨by simp only [List.mem_append, h.seen], by simp only [List.mem_append, h.flagged]⟩

/-! ## Accounts -/

/-- The same message but for the letter case of its flags. -/
structure RespelledMessage (m m' : Message) : Prop where
  folder : m.folder = m'.folder
  uid : m.uid = m'.uid
  raw : m.raw = m'.raw
  flags : RespelledFlags m.flags m'.flags

/-- The accounts agree but for the messages, and the messages are related one by one. -/
structure Alike (R : Message → Message → Prop) (w w' : World) : Prop where
  messages : List.Forall₂ R w.messages w'.messages
  folders : w.folders = w'.folders
  uidNext : w.uidNext = w'.uidNext
  gmail : w.gmail = w'.gmail

/-- The two accounts differ at most in the letter case of flags. -/
abbrev Respelled : World → World → Prop := Alike RespelledMessage

theorem RespelledMessage.isAt {m m' : Message} (h : RespelledMessage m m') (uid : ℕ) :
    m.isAt uid = m'.isAt uid := by
  unfold Message.isAt
  rw [h.folder, h.uid]

theorem RespelledMessage.has {m m' : Message} (h : RespelledMessage m m') (flag : String) :
    m.has flag = m'.has flag := h.flags.hasFlag flag

theorem RespelledMessage.placed {m m' : Message} (h : RespelledMessage m m') (folder : String)
    (uid : ℕ) : RespelledMessage (m.placed folder uid) (m'.placed folder uid) :=
  ⟨rfl, rfl, h.raw, h.flags⟩

theorem RespelledMessage.flagsAfter {m m' : Message} (h : RespelledMessage m m') (op : Op) :
    RespelledMessage (m.withFlags (flagsAfter op m))
      (m'.withFlags (MailTransporter.flagsAfter op m')) := by
  refine ⟨h.folder, h.uid, h.raw, ?_⟩
  cases op
  case addFlags uid flag =>
    simp only [MailTransporter.flagsAfter, Message.withFlags_flags, h.isAt uid]
    split
    · exact h.flags.addFlag flag
    · exact h.flags
  case removeFlags uid flag =>
    simp only [MailTransporter.flagsAfter, Message.withFlags_flags, h.isAt uid]
    split
    · exact h.flags.removeFlag flag
    · exact h.flags
  all_goals exact h.flags

theorem store_messages (uid : ℕ) (f : List String → List String) (w : World) :
    (World.store uid f w).messages =
      w.messages.map (fun m => m.withFlags (if m.isAt uid then f m.flags else m.flags)) := by
  refine List.map_congr_left (fun m _ => ?_)
  split <;> rfl

namespace Alike

variable {R : Message → Message → Prop} {w w' : World}

theorem mono {R' : Message → Message → Prop} (h : Alike R w w')
    (hR : ∀ m ∈ w.messages, ∀ m' ∈ w'.messages, R m m' → R' m m') : Alike R' w w' := by
  obtain ⟨hlength, hzip⟩ := List.forall₂_iff_zip.mp h.messages
  refine ⟨List.forall₂_iff_zip.mpr ⟨hlength, fun hmm => ?_⟩, h.folders, h.uidNext, h.gmail⟩
  obtain ⟨hm, hm'⟩ := List.of_mem_zip hmm
  exact hR _ hm _ hm' (hzip hmm)

/-- A message of the one account has a partner in the other. -/
theorem partner (h : Alike R w w') {m : Message} (hm : m ∈ w.messages) :
    ∃ m' ∈ w'.messages, R m m' := by
  have hall := h.messages
  generalize w.messages = l at hall hm ⊢
  generalize w'.messages = l' at hall ⊢
  induction hall with
  | nil => exact absurd hm List.not_mem_nil
  | cons hhead _ ih =>
      rcases List.mem_cons.mp hm with rfl | hm
      · exact ⟨_, List.mem_cons_self, hhead⟩
      · obtain ⟨m', hm', hR⟩ := ih hm
        exact ⟨m', List.mem_cons_of_mem _ hm', hR⟩

variable (hR : ∀ m m', R m m' → RespelledMessage m m')

include hR

/-- A UID names related messages, or none in either account. -/
theorem find (h : Alike R w w') (uid : ℕ) :
    (w.find uid = none ∧ w'.find uid = none) ∨
      ∃ m m', w.find uid = some m ∧ w'.find uid = some m' ∧ R m m' := by
  have hall := h.messages
  unfold World.find
  generalize w.messages = l at hall ⊢
  generalize w'.messages = l' at hall ⊢
  induction hall with
  | nil => exact Or.inl ⟨rfl, rfl⟩
  | @cons m m' _ _ hhead _ ih =>
      rw [List.find?_cons, List.find?_cons, (hR m m' hhead).isAt uid]
      split
      · exact Or.inr ⟨m, m', rfl, rfl, hhead⟩
      · exact ih

/-- **A call does the same to both accounts.** -/
theorem effect {op : Op} (h : Alike R w w')
    (hflags : ∀ m m', R m m' →
      R (m.withFlags (flagsAfter op m)) (m'.withFlags (flagsAfter op m')))
    (hplaced : ∀ m m' uid folder, op.puts uid folder → m.isAt uid = true → R m m' →
      R (m.placed folder w.uidNext) (m'.placed folder w.uidNext)) :
    Alike R (effect op w) (MailTransporter.effect op w') := by
  have hfind := h.find hR
  have hput : ∀ uid folder m m', op.puts uid folder → w.find uid = some m → R m m' →
      R (m.placed folder w.uidNext) (m'.placed folder w'.uidNext) := by
    intro uid folder m m' hop hm hmm
    rw [← h.uidNext]
    exact hplaced m m' uid folder hop (World.find_some hm).2 hmm
  have hmap := List.rel_map hflags h.messages
  -- a call that writes flags maps both lists, one that moves finds the message in both or in none
  cases op
  case addFlags uid flag =>
    refine ⟨?_, h.folders, h.uidNext, h.gmail⟩
    simp only [MailTransporter.effect, store_messages]
    exact hmap
  case removeFlags uid flag =>
    refine ⟨?_, h.folders, h.uidNext, h.gmail⟩
    simp only [MailTransporter.effect, store_messages]
    exact hmap
  case createFolder folder =>
    refine ⟨h.messages, ?_, h.uidNext, h.gmail⟩
    show w.folders ++ [folder] = w'.folders ++ [folder]
    rw [h.folders]
  case insertRaw raw labels =>
    refine ⟨h.messages, h.folders, h.uidNext, ?_⟩
    show w.gmail ++ [⟨raw, labels⟩] = w'.gmail ++ [⟨raw, labels⟩]
    rw [h.gmail]
  case uidExpunge uid =>
    refine ⟨List.rel_filter ?_ h.messages, h.folders, h.uidNext, h.gmail⟩
    intro m m' hmm
    simp only [(hR m m' hmm).isAt uid, (hR m m' hmm).has deletedFlag]
  case copy uid folder =>
    simp only [MailTransporter.effect, World.copyTo]
    rcases hfind uid with ⟨hm, hm'⟩ | ⟨m, m', hm, hm', hmm⟩
    · rw [hm, hm']
      exact h
    · rw [hm, hm']
      refine ⟨List.rel_append h.messages ?_, h.folders, congrArg (· + 1) h.uidNext, h.gmail⟩
      exact .cons (hput uid folder m m' (Or.inr rfl) hm hmm) .nil
  case move uid folder =>
    simp only [MailTransporter.effect, World.moveTo]
    rcases hfind uid with ⟨hm, hm'⟩ | ⟨m, m', hm, hm', hmm⟩
    · rw [hm, hm']
      exact h
    · rw [hm, hm']
      refine ⟨List.rel_append (List.rel_filter ?_ h.messages) ?_, h.folders,
        congrArg (· + 1) h.uidNext, h.gmail⟩
      · intro n n' hnn
        simp only [(hR n n' hnn).isAt uid]
      · exact .cons (hput uid folder m m' (Or.inl rfl) hm hmm) .nil
  all_goals exact h

end Alike

/-! ## A server that reads flags as IMAP does -/

/-- The two dicts have the same keys, with values that `R` relates. -/
def SameKeys {α : Type} (R : α → α → Prop) : List (ℕ × α) → List (ℕ × α) → Prop :=
  List.Forall₂ (fun item item' => item.1 = item'.1 ∧ R item.2 item'.2)

/-- The same item of a `FETCH` reply but for the letter case of its flags. -/
structure RespelledItem (item item' : FetchItem) : Prop where
  body : item.body = item'.body
  headers : item.headers = item'.headers
  flags : RespelledFlags (item.flags.getD []) (item'.flags.getD [])

/-- The same value but for the letter case of the flags in it. -/
def SameValue : (op : Op) → Value op → Value op → Prop
  | .fetch _ _, data, data' => SameKeys RespelledItem data data'
  | .addFlags _ _, stored, stored' => SameKeys RespelledFlags stored stored'
  | .removeFlags _ _, stored, stored' => SameKeys RespelledFlags stored stored'
  | _, value, value' => value = value'

/-- The same answer but for the letter case of the flags in it. -/
def SameReply (op : Op) : Reply op → Reply op → Prop
  | .ok value, .ok value' => SameValue op value value'
  | .error e, .error e' => e = e'
  | _, _ => False

/-- A mail server together with Gmail and the clock, with a memory of its own. It answers truthfully,
    lists no message it holds for deleted, fetches the flags as they are spelled, and takes no notice
    of their letter case. -/
structure Server (Y : Type) where
  reply : Y → World → (op : Op) → Reply op
  carriesOut : Y → World → Op → Bool
  next : Y → World → Op → Y
  serves : ∀ y w op, Serves w op (reply y w op) (if carriesOut y w op then effect op w else w)
  lists : ∀ {y w rest uids}, reply y w (.search ("NOT" :: "DELETED" :: rest)) = .ok uids →
    ∀ uid ∈ uids, ∃ m ∈ w.messages, m.isAt uid = true ∧ m.has deletedFlag = false
  spells : ∀ {y w uids data}, reply y w (.fetch uids .message) = .ok data →
    ∀ item ∈ data, ∃ m ∈ w.messages, m.isAt item.1 = true ∧ item.2.flags = some m.flags
  blind : ∀ (y : Y) {w w' : World} (op : Op), Respelled w w' →
    SameReply op (reply y w op) (reply y w' op) ∧ carriesOut y w op = carriesOut y w' op ∧
      next y w op = next y w' op

namespace Server

variable {Y : Type}

/-- The account after the call. -/
def after (S : Server Y) (y : Y) (w : World) (op : Op) : World :=
  if S.carriesOut y w op then effect op w else w

/-- The server as a handler. -/
def handle (S : Server Y) (x : Y × World) (op : Op) : Reply op × (Y × World) :=
  (S.reply x.1 x.2 op, (S.next x.1 x.2 op, S.after x.1 x.2 op))

end Server

/-- One pass, with a record of its calls. -/
def pass {Y : Type} (S : Server Y) (o : ForwarderOptions) (y : Y) (w : World) :
    (Except Exc SyncResult × RunState) × ((Y × World) × List Exceptions.Event) :=
  (Forwarder.run o).exec (Exceptions.recorded S.handle) (Forwarder.initial o) ((y, w), [])

/-- A pass over each of the two accounts returns the same result, makes the same calls with the same
    arguments (the inserts with their bytes and labels, and the mutations of the mailbox), and leaves
    accounts that differ in letter case only. -/
structure SameRun {Y : Type} (S : Server Y) (o : ForwarderOptions) (y : Y) (w w' : World) : Prop where
  outcome : (pass S o y w).1 = (pass S o y w').1
  calls : (pass S o y w).2.2.map Sigma.fst = (pass S o y w').2.2.map Sigma.fst
  after : Respelled (pass S o y w).2.1.2 (pass S o y w').2.1.2

/-- No message that may be inserted gets other labels in the one account than in the other. -/
def Agree (k : Keywords) (w w' : World) : Prop :=
  ∀ m ∈ w.messages, ∀ m' ∈ w'.messages, m.folder = "INBOX" → m'.folder = "INBOX" → m.uid = m'.uid →
    m.has deletedFlag = false → handled k m.flags = false → SameLabels m.flags m'.flags

instance (k : Keywords) (w w' : World) : Decidable (Agree k w w') :=
  inferInstanceAs (Decidable (∀ m ∈ w.messages, ∀ m' ∈ w'.messages, m.folder = "INBOX" →
    m'.folder = "INBOX" → m.uid = m'.uid → m.has deletedFlag = false →
      handled k m.flags = false → SameLabels m.flags m'.flags))

/-! ## Two passes side by side

`Level` is what the two accounts have in common while nobody takes a flag off a message, and
`Settled` says of one message that it gets the same labels in both, deleted or not. -/

/-- The message gets the same labels in both accounts, if it is inserted at all. -/
def Matches (k : Keywords) (m m' : Message) : Prop :=
  handled k m.flags = false → SameLabels m.flags m'.flags

/-- The memory of the server and the two accounts. -/
structure Pair (Y : Type) where
  memory : Y
  first : World
  second : World

structure Level {Y : Type} (k : Keywords) (j : Pair Y) : Prop where
  wellFormed : WellFormed j.first
  wellFormed' : WellFormed j.second
  alike : Alike (fun m m' => RespelledMessage m m' ∧
    (m.folder = "INBOX" → m.has deletedFlag = false → Matches k m m')) j.first j.second

structure Settled {Y : Type} (k : Keywords) (uid : ℕ) (j : Pair Y) : Prop where
  given : uid < j.first.uidNext
  alike : Alike (fun m m' => RespelledMessage m m' ∧ (m.uid = uid → Matches k m m')) j.first j.second

theorem handled_flagsAfter {k : Keywords} {op : Op} (hop : op.leavesFlags = true) {m : Message}
    (h : handled k m.flags = true) : handled k (flagsAfter op m) = true := by
  have hkeep : ∀ flag, hasFlag m.flags flag = true → hasFlag (flagsAfter op m) flag = true := by
    intro flag
    refine has_flagsAfter ?_
    rintro uid flag rfl
    exact absurd hop nofun
  rw [handled_iff] at h ⊢
  exact h.imp (hkeep _) (Or.imp (hkeep _) (hkeep _))

/-- No call that leaves the flags on a message makes its labels differ. -/
theorem Matches.flagsAfter {k : Keywords} {op : Op} (hop : op.leavesFlags = true) {m m' : Message}
    (h : Matches k m m') (hr : RespelledMessage m m') :
    Matches k (m.withFlags (flagsAfter op m))
      (m'.withFlags (MailTransporter.flagsAfter op m')) := by
  intro hout
  have hbefore : handled k m.flags = false := by
    refine Bool.eq_false_iff.mpr (fun hin => ?_)
    have hafter := handled_flagsAfter hop hin
    rw [Message.withFlags_flags] at hout
    exact Bool.false_ne_true (hout.symm.trans hafter)
  have hsame := h hbefore
  cases op
  case addFlags uid flag =>
    simp only [MailTransporter.flagsAfter, Message.withFlags_flags, hr.isAt uid]
    split
    · exact hsame.addFlag hr.flags flag
    · exact hsame
  case removeFlags uid flag => exact absurd hop (by contradiction)
  all_goals exact hsame

namespace Pair

variable {Y : Type}

/-- Both accounts after the call. -/
def after (S : Server Y) (j : Pair Y) (op : Op) : Pair Y :=
  ⟨S.next j.memory j.first op, S.after j.memory j.first op, S.after j.memory j.second op⟩

/-- What the server does in the one account it does in the other. -/
theorem after_cases (S : Server Y) {j : Pair Y} (op : Op) (h : Respelled j.first j.second) :
    ((j.after S op).first = j.first ∧ (j.after S op).second = j.second) ∨
    ((j.after S op).first = effect op j.first ∧ (j.after S op).second = effect op j.second) := by
  obtain ⟨-, hout, -⟩ := S.blind j.memory op h
  simp only [after, Server.after, ← hout]
  split
  · exact Or.inr ⟨rfl, rfl⟩
  · exact Or.inl ⟨rfl, rfl⟩

end Pair

variable {Y : Type} {S : Server Y} {k : Keywords} {j : Pair Y} {op : Op}

theorem Level.respelled (h : Level k j) : Respelled j.first j.second :=
  h.alike.mono (fun _ _ _ _ hmm => hmm.1)

theorem Level.step (h : Level k j) (hop : op.leavesFlags = true) : Level k (j.after S op) := by
  have hserves := S.serves j.memory j.first op
  have hserves' := S.serves j.memory j.second op
  refine ⟨hserves.wellFormed h.wellFormed, hserves'.wellFormed h.wellFormed', ?_⟩
  rcases Pair.after_cases S op h.respelled with ⟨h₁, h₂⟩ | ⟨h₁, h₂⟩
  · rw [h₁, h₂]
    exact h.alike
  rw [h₁, h₂]
  refine h.alike.effect (fun _ _ hmm => hmm.1) ?_ ?_
  · rintro m m' ⟨hr, hm⟩
    refine ⟨hr.flagsAfter op, fun hfolder hlive => ?_⟩
    -- a message that is not `\Deleted` now was not so before
    have hbefore : m.has deletedFlag = false := by
      refine Bool.eq_false_iff.mpr (fun hin => ?_)
      have hafter : hasFlag (flagsAfter op m) deletedFlag = true := by
        refine has_flagsAfter ?_ hin
        rintro uid flag rfl
        exact absurd hop nofun
      exact Bool.false_ne_true (hlive.symm.trans hafter)
    exact (hm hfolder hbefore).flagsAfter hop hr
  · rintro m m' uid folder - hat ⟨hr, hm⟩
    exact ⟨hr.placed _ _, fun _ hlive => hm (Message.isAt_iff.mp hat).1 hlive⟩

theorem Settled.step {uid : ℕ} (h : Settled k uid j) (hop : op.leavesFlags = true) :
    Settled k uid (j.after S op) := by
  have hserves := S.serves j.memory j.first op
  refine ⟨lt_of_lt_of_le h.given hserves.uidNext_le, ?_⟩
  have hrespelled := h.alike.mono (fun _ _ _ _ hmm => hmm.1)
  rcases Pair.after_cases S op hrespelled with ⟨h₁, h₂⟩ | ⟨h₁, h₂⟩
  · rw [h₁, h₂]
    exact h.alike
  rw [h₁, h₂]
  refine h.alike.effect (fun _ _ hmm => hmm.1) ?_ ?_
  · rintro m m' ⟨hr, hm⟩
    exact ⟨hr.flagsAfter op, fun hu => (hm hu).flagsAfter hop hr⟩
  · rintro m m' u folder - - ⟨hr, -⟩
    -- the UID a message gets in another folder is a new one
    refine ⟨hr.placed _ _, fun hu => ?_⟩
    rw [Message.placed_uid] at hu
    exact absurd h.given (by omega)

theorem Respelled.wellFormed {w w' : World} (h : Respelled w w') (hw : WellFormed w) :
    WellFormed w' := by
  have huids : w.messages.map Message.uid = w'.messages.map Message.uid := by
    rw [← List.forall₂_eq_eq_eq]
    exact List.rel_map (fun m m' (hmm : RespelledMessage m m') => hmm.uid) h.messages
  refine ⟨huids ▸ hw.distinct, fun m' hm' => ?_⟩
  have hmem : m'.uid ∈ w.messages.map Message.uid := by
    rw [huids]
    exact List.mem_map_of_mem hm'
  obtain ⟨m, hm, hu⟩ := List.mem_map.mp hmem
  rw [← hu, ← h.uidNext]
  exact hw.given m hm

/-- Where the accounts agree they are level. -/
theorem Agree.level {w w' : World} (h : Agree k w w') (hw : WellFormed w) (hr : Respelled w w')
    (y : Y) : Level k (⟨y, w, w'⟩ : Pair Y) where
  wellFormed := hw
  wellFormed' := hr.wellFormed hw
  alike := hr.mono (fun m hm m' hm' hmm => ⟨hmm, fun hfolder hlive hout =>
    h m hm m' hm' hfolder (hmm.folder ▸ hfolder) hmm.uid hlive hout⟩)

/-- A message that is listed gets the same labels in both accounts from then on. -/
theorem Level.settled (h : Level k j) {m : Message} {uid : ℕ} (hm : m ∈ j.first.messages)
    (hat : m.isAt uid = true) (hlive : m.has deletedFlag = false) : Settled k uid j := by
  obtain ⟨hfolder, huid⟩ := Message.isAt_iff.mp hat
  refine ⟨huid ▸ h.wellFormed.given m hm, h.alike.mono ?_⟩
  rintro n hn n' - ⟨hr, hmatch⟩
  refine ⟨hr, fun hu => ?_⟩
  have hnm : n = m := h.wellFormed.unique hn hm (hu.trans huid.symm)
  rw [hnm] at hmatch ⊢
  exact hmatch hfolder hlive

/-! ## The methods of the mailbox in lockstep -/

/-- One call, answered from both accounts. -/
def twice (S : Server Y) (k : Keywords) : TwinEnv Op Reply (Pair Y) := fun j op r r' j' =>
  Level k j ∧ op.leavesFlags = true ∧ r = S.reply j.memory j.first op ∧
    r' = S.reply j.memory j.second op ∧ j' = j.after S op

theorem twice_same {j' : Pair Y} {r r' : Reply op} (h : twice S k j op r r' j') :
    SameReply op r r' := by
  obtain ⟨hlevel, -, rfl, rfl, -⟩ := h
  exact (S.blind j.memory op hlevel.respelled).1

theorem twice_eq {j' : Pair Y} {r r' : Reply op} (hop : op.reportsFlags = false)
    (h : twice S k j op r r' j') : r = r' := by
  have hsame := twice_same h
  cases r with
  | error e =>
      cases r' with
      | error e' => exact congrArg _ hsame
      | ok value' => exact hsame.elim
  | ok value =>
      cases r' with
      | error e' => exact hsame.elim
      | ok value' =>
          refine congrArg _ ?_
          cases op
          case fetch uids items => exact absurd hop nofun
          case addFlags uid flag => exact absurd hop nofun
          case removeFlags uid flag => exact absurd hop nofun
          all_goals exact hsame

/-- A routine that asks for no flags is blind. -/
theorem blind_of_quiet {σ α : Type} {m : Py σ α}
    (hm : m.Uses (fun op => op.reportsFlags = false)) : m.Blind (twice S k) :=
  Routine.blind_of_uses twice_eq hm

theorem lookup_same {α : Type} {R : α → α → Prop} {l l' : List (ℕ × α)} (h : SameKeys R l l')
    (uid : ℕ) : (l.lookup uid = none ∧ l'.lookup uid = none) ∨
      ∃ a a', l.lookup uid = some a ∧ l'.lookup uid = some a' ∧ R a a' := by
  induction h with
  | nil => exact Or.inl ⟨rfl, rfl⟩
  | @cons item item' _ _ hhead _ ih =>
      rw [List.lookup_cons, List.lookup_cons, hhead.1]
      split
      · exact Or.inr ⟨item.2, item'.2, rfl, rfl, hhead.2⟩
      · exact ih

theorem reportedFlags_same {data data' : Fetched} (h : SameKeys RespelledItem data data') (uid : ℕ) :
    RespelledFlags (ICloudMailbox.reportedFlags data uid)
      (ICloudMailbox.reportedFlags data' uid) := by
  unfold ICloudMailbox.reportedFlags
  rcases lookup_same h uid with ⟨hl, hl'⟩ | ⟨item, item', hl, hl', hitem⟩
  · rw [hl, hl']
    rfl
  · rw [hl, hl']
    exact hitem.flags

theorem lookupFlags_same {stored stored' : Stored} (h : SameKeys RespelledFlags stored stored')
    (uid : ℕ) :
    RespelledFlags ((stored.lookup uid).getD []) ((stored'.lookup uid).getD []) := by
  rcases lookup_same h uid with ⟨hl, hl'⟩ | ⟨flags, flags', hl, hl', hflags⟩
  · rw [hl, hl']
    rfl
  · rw [hl, hl']
    exact hflags

theorem call_twice {σ : Type} {s : σ} : (call op : Py σ (Value op)).Twins (twice S k)
    (fun value value' _ => SameValue op value value') (call op) s j := by
  refine Routine.twins_call (fun r r' j' h => ?_)
  have hsame := twice_same h
  cases r <;> cases r' <;> exact hsame

section mailbox

variable {uid : ℕ} {keyword folder : String} {s : ICloudMailbox}

open ICloudMailbox

theorem client_twice : client.Twins (twice S k) (fun _ _ j' => j' = j) client s j := by
  unfold Routine.Twins
  show Program.Twins _ _ ((if s.connected then (pure () : Mailbox Unit) else raise _) s)
    ((if s.connected then (pure () : Mailbox Unit) else raise _) s) j
  split
  · exact Routine.twins_pure rfl
  · exact Routine.twins_raise _

theorem refetchFlags_twice : (refetchFlags uid).Twins (twice S k)
    (fun flags flags' _ => RespelledFlags flags flags') (refetchFlags uid) s j := by
  refine client_twice.bind (fun _ _ _ _ _ => ?_)
  refine call_twice.bind (fun data data' _ _ hdata => ?_)
  exact Routine.twins_pure (reportedFlags_same hdata uid)

theorem storeKeyword_twice : (storeKeyword uid keyword).Twins (twice S k)
    (fun flags flags' _ => RespelledFlags flags flags') (storeKeyword uid keyword) s j := by
  refine client_twice.bind (fun _ _ _ _ _ => ?_)
  refine (blind_of_quiet encodeAscii_uses _ _).bind (fun _ _ _ _ _ => ?_)
  refine call_twice.bind (fun stored stored' _ _ hstored => ?_)
  have hflags := lookupFlags_same hstored uid
  rw [hflags.hasFlag keyword]
  split
  · exact Routine.twins_pure hflags
  · exact refetchFlags_twice

theorem addKeyword_blind : (addKeyword uid keyword).Blind (twice S k) := by
  intro s j
  refine storeKeyword_twice.attempt.bind (fun o o' _ _ ho => ?_)
  rcases ho.cases with ⟨e, rfl, rfl⟩ | ⟨flags, flags', rfl, rfl, hflags⟩
  · exact Routine.twins_raise _
  · dsimp only
    rw [hflags.hasFlag keyword]
    split
    · exact Routine.twins_pure rfl
    · exact Routine.twins_raise _

theorem copyAndExpunge_blind : (copyAndExpunge uid folder).Blind (twice S k) := by
  refine (blind_of_quiet (Routine.uses_call rfl)).bind (fun _ => ?_)
  -- nobody reads what the server says of the flags here
  intro s j
  exact call_twice.bind (fun _ _ s' j' _ => blind_of_quiet (Routine.uses_call rfl) s' j')

theorem moveToFolder_blind : (moveToFolder uid folder).Blind (twice S k) := by
  refine (blind_of_quiet client_uses).bind (fun _ => ?_)
  refine Routine.Blind.bind (Routine.Blind.attempt ?_) (fun o => ?_)
  · refine Routine.Blind.bind (blind_of_quiet ?_) (fun _ => ?_)
    · refine Routine.uses_bind (Routine.uses_call rfl) (fun found => ?_)
      split
      · exact Routine.uses_pure _
      · exact Routine.uses_call rfl
    refine (blind_of_quiet (Routine.uses_call rfl)).bind (fun canMove => ?_)
    split
    · exact blind_of_quiet (Routine.uses_call rfl)
    refine (blind_of_quiet (Routine.uses_call rfl)).bind (fun uidPlus => ?_)
    split
    · exact copyAndExpunge_blind
    · exact Routine.blind_raise _
  · cases o with
    | ok _ => exact Routine.blind_pure _
    | error e =>
        show Routine.Blind _ (if _ then _ else _)
        split
        · exact Routine.blind_raise _
        · exact Routine.blind_raise _

theorem moveToTrash_blind : (moveToTrash uid).Blind (twice S k) :=
  (blind_of_quiet (trashFolderName_uses (fun _ => rfl) rfl rfl)).bind (fun _ => moveToFolder_blind)

/-- The same message but for the letter case of its flags, with the same labels if it is inserted. -/
structure SameMessage (k : Keywords) (message message' : FetchedMessage) : Prop where
  uid : message.uid = message'.uid
  raw : message.raw = message'.raw
  flags : RespelledFlags message.flags message'.flags
  labels : handled k message.flags = false → SameLabels message.flags message'.flags

/-- What a `FETCH` shows of a settled message. -/
theorem Settled.shows (hlevel : Level k j) (h : Settled k uid j) {item item' : FetchItem}
    {data data' : Fetched} (hdata : S.reply j.memory j.first (.fetch [uid] .message) = .ok data)
    (hdata' : S.reply j.memory j.second (.fetch [uid] .message) = .ok data')
    (hl : data.lookup uid = some item) (hl' : data'.lookup uid = some item')
    (hout : handled k (item.flags.getD []) = false) :
    SameLabels (item.flags.getD []) (item'.flags.getD []) := by
  obtain ⟨m, hm, hat, hflags⟩ := S.spells hdata _ (mem_of_lookup hl)
  obtain ⟨m', hm', hat', hflags'⟩ := S.spells hdata' _ (mem_of_lookup hl')
  have hitem : item.flags = some m.flags := hflags
  have hitem' : item'.flags = some m'.flags := hflags'
  obtain ⟨n', hn', hr, hmatch⟩ := h.alike.partner hm
  have huid : m.uid = uid := (Message.isAt_iff.mp hat).2
  have hn : n' = m' :=
    hlevel.wellFormed'.unique hn' hm' (hr.uid.symm.trans (huid.trans (Message.isAt_iff.mp hat').2.symm))
  rw [hitem, Option.getD_some] at hout ⊢
  rw [hitem', Option.getD_some, ← hn]
  exact hmatch huid hout

theorem fetchMessage_twice (h : Settled k uid j) : (fetchMessage uid).Twins (twice S k)
    (fun message message' _ => SameMessage k message message') (fetchMessage uid) s j := by
  have hfetch : (do client; call (.fetch [uid] .message) : Mailbox Fetched).Twins (twice S k)
      (fun data data' _ => SameKeys RespelledItem data data' ∧
        ∀ item item', data.lookup uid = some item → data'.lookup uid = some item' →
          handled k (item.flags.getD []) = false →
            SameLabels (item.flags.getD []) (item'.flags.getD []))
      (do client; call (.fetch [uid] .message)) s j := by
    refine client_twice.bind ?_
    rintro _ _ s' _ rfl
    refine Routine.twins_call (fun r r' j' hE => ?_)
    have hsame := twice_same hE
    obtain ⟨hlevel, -, hr, hr', -⟩ := hE
    cases r with
    | error e => cases r' <;> exact hsame
    | ok data =>
        cases r' with
        | error e' => exact hsame.elim
        | ok data' => exact ⟨hsame, fun _ _ hl hl' => h.shows hlevel hr.symm hr'.symm hl hl'⟩
  refine hfetch.attempt.bind (fun o o' _ _ ho => ?_)
  rcases ho.cases with ⟨e, rfl, rfl⟩ | ⟨data, data', rfl, rfl, hdata, hlabels⟩
  · exact Routine.twins_raise _
  have hflags := reportedFlags_same hdata uid
  rcases lookup_same hdata uid with ⟨hl, hl'⟩ | ⟨item, item', hl, hl', hitem⟩
  · dsimp only
    rw [hl, hl']
    exact Routine.twins_raise _
  · dsimp only
    rw [hl, hl', Option.bind_some, Option.bind_some, ← hitem.body]
    rcases item.body with _ | _ | raw
    · exact Routine.twins_raise _
    · exact Routine.twins_raise _
    · refine Routine.twins_pure ⟨rfl, rfl, hflags, ?_⟩
      simp only [reportedFlags, hl, hl']
      exact hlabels item item' hl hl'

/-! ## The listing in lockstep -/

theorem inboxFlags_twice : inboxFlags.Twins (twice S k)
    (fun flags flags' _ => SameKeys RespelledFlags flags flags') inboxFlags s j := by
  have hfetch : searchAndFetchFlags.Twins (twice S k)
      (fun found found' _ => found.1 = found'.1 ∧ SameKeys RespelledItem found.2 found'.2)
      searchAndFetchFlags s j := by
    refine client_twice.bind (fun _ _ _ _ _ => ?_)
    refine call_twice.bind (fun uids uids' s' j' huids => ?_)
    rw [show uids = uids' from huids]
    split
    · exact Routine.twins_pure ⟨rfl, .nil⟩
    · refine client_twice.bind (fun _ _ _ _ _ => ?_)
      exact call_twice.bind (fun data data' _ _ hdata => Routine.twins_pure ⟨rfl, hdata⟩)
  refine hfetch.attempt.bind (fun o o' _ _ ho => ?_)
  rcases ho.cases with ⟨e, rfl, rfl⟩ | ⟨⟨uids, data⟩, ⟨_, data'⟩, rfl, rfl, rfl, hdata⟩
  · exact Routine.twins_raise _
  · refine Routine.twins_pure (List.forall₂_map_left_iff.mpr (List.forall₂_map_right_iff.mpr ?_))
    exact List.forall₂_same.mpr (fun uid _ => ⟨rfl, reportedFlags_same hdata uid⟩)

theorem listInboxUids_blind (skipKeywords : Option (List String)) :
    (listInboxUids skipKeywords).Blind (twice S k) := by
  refine Routine.blind_getSelf.bind (fun self => ?_)
  refine Routine.Blind.bind (Routine.Blind.attempt (blind_of_quiet ?_)) (fun o => ?_)
  · refine Routine.uses_bind client_uses (fun _ => ?_)
    exact Routine.uses_bind (Routine.uses_call rfl) (fun _ => Routine.uses_pure _)
  · cases o with
    | ok uids => exact Routine.blind_pure _
    | error e =>
        show Routine.Blind _ (if _ then _ else _)
        split
        · exact Routine.blind_raise _
        intro s j
        refine inboxFlags_twice.bind (fun flags flags' _ _ hflags => Routine.twins_pure ?_)
        have hkept : SameKeys RespelledFlags
            (flags.filter (fun item => !matchesAny item.2 (skipKeywords.getD self.skipKeywords)))
            (flags'.filter (fun item => !matchesAny item.2 (skipKeywords.getD self.skipKeywords))) :=
          List.rel_filter (fun item item' hitem => by simp only [hitem.2.matchesAny]) hflags
        rw [← List.forall₂_eq_eq_eq]
        exact List.rel_map (fun item item' hitem => hitem.1) hkept

end mailbox

/-! ## What is listed is settled -/

/-- What is settled stays settled. -/
def settling (S : Server Y) (k : Keywords) :
    Growth (twice S k).first (.alone : Discipline Op (Pair Y)) (fun _ => True) where
  grow j j' := ∀ uid, Settled k uid j → Settled k uid j'
  refl _ _ h := h
  trans h h' uid := h' uid ∘ h uid
  rely h := h ▸ fun _ hs => hs
  step := by
    rintro j op r j' - - ⟨r', -, hop, -, -, rfl⟩ uid h
    exact h.step hop

theorem search_settled {rest : List String} {uids : List ℕ} {j' : Pair Y}
    (h : (twice S k).first j (.search ("NOT" :: "DELETED" :: rest)) (.ok uids) j') :
    ∀ uid ∈ uids, Settled k uid j' := by
  obtain ⟨r', hlevel, hop, hr, -, rfl⟩ := h
  intro uid huid
  obtain ⟨m, hm, hat, hlive⟩ := S.lists hr.symm uid huid
  exact (hlevel.settled hm hat hlive).step hop

theorem listInboxUids_settled (skipKeywords : Option (List String)) (s : ICloudMailbox) :
    (ICloudMailbox.listInboxUids skipKeywords).Safe (twice S k).first .alone
      (fun r _ j' => ∀ uids, r = .ok uids → ∀ uid ∈ uids, Settled k uid j') s j := by
  have hlist : (ICloudMailbox.listInboxUids skipKeywords).Safe (twice S k).first .alone
      (fun r _ j' => True ∧ ∀ uids, r = .ok uids → ∀ uid ∈ uids, Settled k uid j') s j := by
    refine ICloudMailbox.listInboxUids_named (I := fun _ => True) ?_ ?_ ?_ trivial
    · exact fun _ _ _ => ⟨trivial, fun _ _ _ => trivial⟩
    · exact fun _ _ hE => search_settled hE
    · intro j₁ j₂ uids r j₃ uid _ hrely hE h
      rw [hrely] at hE
      exact (settling S k).step trivial trivial hE uid h
  exact hlist.mono (fun _ _ _ h => h.2)

/-! ## The pass in lockstep -/

section pass

open Forwarder

variable {o : ForwarderOptions} {s : RunState}

theorem moveAside_blind {uid : ℕ} {folder : String} : (moveAside uid folder).Blind (twice S k) := by
  refine moveToFolder_blind.on.attempt.bind (fun r => ?_)
  cases r with
  | ok _ => exact Routine.blind_modifySelf _
  | error e =>
      show Routine.Blind _ (if _ then _ else _)
      split
      · exact Routine.blind_raise _
      · exact Routine.blind_raise _

theorem quarantine_blind {uid : ℕ} {keyword folder : String} :
    (quarantine o uid keyword folder).Blind (twice S k) := by
  unfold quarantine
  split
  swap
  · exact moveAside_blind
  refine addKeyword_blind.on.attempt.bind (fun r => ?_)
  cases r with
  | ok _ => exact Routine.blind_modifySelf _
  | error e =>
      show Routine.Blind _ (if _ then _ else _)
      split
      · exact moveAside_blind
      · exact Routine.blind_raise _

theorem trash_blind {message : FetchedMessage} : (trash message).Blind (twice S k) := by
  refine (blind_of_quiet (Routine.uses_call rfl)).bind (fun _ => ?_)
  refine moveToTrash_blind.on.attempt.bind (fun r => ?_)
  cases r with
  | ok _ => exact Routine.blind_modifySelf _
  | error e =>
      show Routine.Blind _ (if _ then _ else _)
      split
      · exact Routine.blind_raise _
      · exact Routine.blind_raise _

theorem recordInsert_blind {message : FetchedMessage} :
    (recordInsert o message).Blind (twice S k) := by
  refine (Routine.blind_modifySelf _).bind (fun _ => ?_)
  refine addKeyword_blind.on.attempt.bind (fun r => ?_)
  cases r with
  | ok _ => exact trash_blind
  | error e =>
      show Routine.Blind _ (if _ then _ else _)
      split
      · exact quarantine_blind
      · exact Routine.blind_raise _

theorem insert_blind {extraLabels : List String} {message : FetchedMessage} :
    (insert o extraLabels message).Blind (twice S k) := by
  refine (blind_of_quiet (Routine.uses_call rfl)).attempt.bind (fun r => ?_)
  rcases r with e | id
  · rcases e with _ | _ | _ | ⟨_ | _ | _ | _, _, _⟩ | _
    case gmailError.retryable => exact Routine.blind_modifySelf _
    case gmailError.permanent => exact Routine.blind_modifySelf _
    all_goals exact Routine.blind_raise _
  · exact recordInsert_blind

/-- The labels depend on nothing else than what `SameLabels` compares. -/
theorem SameLabels.gmailLabelsFor {message message' : FetchedMessage}
    (h : SameLabels message.flags message'.flags) (extraLabels : List String) :
    gmailLabelsFor message extraLabels = gmailLabelsFor message' extraLabels := by
  have hseen : message.seen = message'.seen := decide_eq_decide.mpr h.seen
  have hflagged : message.flagged = message'.flagged := decide_eq_decide.mpr h.flagged
  unfold MailTransporter.gmailLabelsFor
  rw [hseen, hflagged]

theorem SameMessage.trash_eq {message message' : FetchedMessage}
    (h : SameMessage k message message') : trash message = trash message' := by
  unfold trash
  rw [h.uid, h.raw]

theorem SameMessage.insert_eq {message message' : FetchedMessage}
    (h : SameMessage k message message') (hout : handled k message.flags = false)
    (o : ForwarderOptions) (extraLabels : List String) :
    Forwarder.insert o extraLabels message = Forwarder.insert o extraLabels message' := by
  have hlabels := (h.labels hout).gmailLabelsFor extraLabels
  obtain ⟨uid, raw, flags⟩ := message
  obtain ⟨_, _, flags'⟩ := message'
  obtain ⟨rfl, rfl, -, -⟩ := h
  unfold Forwarder.insert
  generalize MailTransporter.gmailLabelsFor ⟨uid, raw, flags⟩ extraLabels = labels at hlabels ⊢
  subst hlabels
  refine congrArg (attempt (call (.insertRaw raw _)) >>= ·) (funext fun r => ?_)
  rcases r with e | id
  · rcases e with _ | _ | _ | ⟨_ | _ | _ | _, _, _⟩ | _
    all_goals rfl
  · rfl

/-- What becomes of a settled message does not depend on the letter case of its flags. -/
theorem process_twice {extraLabels : List String} {uid : ℕ} (h : Settled o.keywords uid j) :
    (process o extraLabels uid).Twins (twice S o.keywords) (fun a b _ => a = b)
      (process o extraLabels uid) s j := by
  refine (fetchMessage_twice h).on.attempt.bind (fun r r' s' j' hr => ?_)
  rcases hr.cases with ⟨e, rfl, rfl⟩ | ⟨message, message', rfl, rfl, hsame⟩
  · refine (?_ : Routine.Blind (twice S o.keywords) _) s' j'
    cases e with
    | messageGone text => exact Routine.blind_modifySelf _
    | mailboxError text => exact Routine.blind_raise _
    | abortRun text => exact Routine.blind_raise _
    | gmailError cls text status => exact Routine.blind_raise _
    | other name text => exact Routine.blind_raise _
  · have hkeyword : message.hasKeyword = message'.hasKeyword := funext hsame.flags.hasFlag
    dsimp only
    rw [hkeyword]
    split
    · exact Routine.blind_modifySelf _ s' j'
    next hquarantine =>
    split
    · rw [hsame.trash_eq]
      exact trash_blind s' j'
    · next hinserted =>
      have hout : handled o.keywords message.flags = false := by
        refine Bool.or_eq_false_iff.mpr ⟨Bool.eq_false_iff.mpr ?_, Bool.eq_false_iff.mpr ?_⟩
        · rw [← hkeyword] at hquarantine
          exact hquarantine
        · rw [← hkeyword] at hinserted
          exact hinserted
      have hinsert := hsame.insert_eq hout o extraLabels
      rw [hinsert]
      exact insert_blind s' j'

/-- What was settled before is settled after. -/
theorem twins_settling {σ α : Type} {R : α → α → Pair Y → Prop} {m m' : Py σ α} {s : σ}
    (h : m.Twins (twice S k) R m' s j) : m.Twins (twice S k)
      (fun a b j' => R a b j' ∧ ∀ uid, Settled k uid j → Settled k uid j') m' s j :=
  h.also ((Routine.Safe.follows (settling S k) (fun _ _ => trivial) m s j).mono
    (fun _ _ _ hj' _ _ => hj'))

/-- The loop over settled messages: by induction on the messages that are left. -/
theorem processAll_twice {extraLabels : List String} {started : ℚ} {uids : List ℕ}
    (h : ∀ uid ∈ uids, Settled o.keywords uid j) :
    (processAll o extraLabels started uids).Twins (twice S o.keywords) (fun a b _ => a = b)
      (processAll o extraLabels started uids) s j := by
  induction uids generalizing s j with
  | nil => exact Routine.twins_pure rfl
  | cons uid rest ih =>
      refine (twins_settling (blind_of_quiet (Routine.uses_call rfl) s j)).bind ?_
      rintro now _ s₁ j₁ ⟨rfl, hj₁⟩
      split
      · exact Routine.blind_modifySelf _ s₁ j₁
      have huid := hj₁ uid (h uid List.mem_cons_self)
      refine (twins_settling (process_twice huid)).attempt.bind ?_
      intro r r' s₂ j₂ hr
      rcases hr.cases with ⟨e, rfl, rfl⟩ | ⟨a, b, rfl, rfl, -, hj₂⟩
      · refine (?_ : Routine.Blind (twice S o.keywords) _) s₂ j₂
        cases e with
        | abortRun text => exact Routine.blind_modifySelf _
        | mailboxError text => exact Routine.blind_raise _
        | messageGone text => exact Routine.blind_raise _
        | gmailError cls text status => exact Routine.blind_raise _
        | other name text => exact Routine.blind_raise _
      · exact ih (fun u hu => hj₂ u (hj₁ u (h u (List.mem_cons_of_mem _ hu))))

theorem quarantineAll_blind (rejected : List Rejection) :
    (quarantineAll o rejected).Blind (twice S k) := by
  induction rejected with
  | nil => exact Routine.blind_pure _
  | cons rejection rest ih =>
      refine quarantine_blind.attempt.bind (fun r => ?_)
      rcases r with e | _
      · cases e with
        | abortRun text => exact Routine.blind_modifySelf _
        | mailboxError text => exact Routine.blind_raise _
        | messageGone text => exact Routine.blind_raise _
        | gmailError cls text status => exact Routine.blind_raise _
        | other name text => exact Routine.blind_raise _
      · exact ih

theorem settleRejections_blind : (settleRejections o).Blind (twice S k) := by
  refine Routine.blind_getSelf.bind (fun s => ?_)
  dsimp only
  split
  · refine Routine.Blind.bind ?_ (fun message => ?_)
    · unfold breakerMessage
      split
      · exact Routine.blind_raise _
      · exact Routine.blind_pure _
    · exact (Routine.blind_modifySelf _).bind (fun _ => quarantineAll_blind _)
  · exact quarantineAll_blind _

theorem extraLabelIds_blind (label : Option String) :
    (extraLabelIds label).Blind (twice S k) := by
  cases label with
  | none => exact Routine.blind_pure _
  | some name =>
      show Routine.Blind _ (if _ then _ else _)
      split
      · exact Routine.blind_pure _
      · exact (blind_of_quiet (Routine.uses_call rfl)).bind (fun _ => Routine.blind_pure _)

theorem quiet_of_isSetup {op : Op} (h : op.isSetup = true) : op.reportsFlags = false := by
  cases op <;> first | rfl | exact absurd h nofun

theorem session_blind (started : ℚ) : (session o started).Blind (twice S o.keywords) := by
  refine (blind_of_quiet (ICloudMailbox.requireKeywords_setup.mono fun _ => quiet_of_isSetup)).on.bind
    (fun _ => ?_)
  refine (blind_of_quiet (Routine.uses_call rfl)).bind (fun _ => ?_)
  refine (extraLabelIds_blind _).bind (fun extraLabels s j => ?_)
  -- every message that is listed is settled from here on
  refine ((listInboxUids_blind _ s.mailbox j).also (listInboxUids_settled _ s.mailbox)).on.bind ?_
  rintro uids _ s₁ j₁ ⟨rfl, huids⟩
  refine (twins_settling (Routine.blind_modifySelf _ s₁ j₁)).bind ?_
  rintro _ _ s₂ j₂ ⟨-, hj₂⟩
  refine (processAll_twice (fun uid hu => hj₂ uid (huids uid hu))).bind ?_
  rintro _ _ s₃ j₃ -
  refine Routine.blind_getSelf.bind (fun s => ?_) s₃ j₃
  split
  · exact Routine.blind_pure _
  · exact settleRejections_blind

/-- **A run does the same on both accounts.** -/
theorem run_blind (S : Server Y) (o : ForwarderOptions) :
    (run o).Blind (twice S o.keywords) := by
  have hend : ∀ started : ℚ, (do
      let ended ← call .clock
      count (fun r => { r with durationSeconds := round3 (ended - started) })
      let s ← getSelf
      pure s.result : Run SyncResult).Blind (twice S o.keywords) := by
    intro started
    refine (blind_of_quiet (Routine.uses_call rfl)).bind (fun ended => ?_)
    refine (Routine.blind_modifySelf _).bind (fun _ => ?_)
    exact Routine.blind_getSelf.bind (fun _ => Routine.blind_pure _)
  refine (blind_of_quiet (Routine.uses_call rfl)).bind (fun started => ?_)
  refine Routine.Blind.bind (Routine.Blind.attempt ?_) (fun r => ?_)
  · refine (blind_of_quiet (ICloudMailbox.connect_setup.mono fun _ => quiet_of_isSetup)).on.bind
      (fun _ => ?_)
    refine (session_blind started).attempt.bind (fun outcome => ?_)
    refine (blind_of_quiet (ICloudMailbox.close_setup.mono fun _ => quiet_of_isSetup)).on.bind
      (fun _ => ?_)
    exact Routine.blind_settle outcome
  · rcases r with e | _
    · show Routine.Blind _ (if _ then _ else _)
      split
      · exact (Routine.blind_modifySelf _).bind (fun _ => hend started)
      · exact (Routine.blind_raise _).bind (fun _ => hend started)
    · exact hend started

end pass

/-! ## Two recorded passes -/

theorem leavesFlags_of_isOn {uid : ℕ} {op : Op} (h : op.isOn uid = true) : op.leavesFlags = true := by
  cases op <;> first | rfl | exact absurd h nofun

theorem leavesFlags_of_isRoutine {op : Op} (h : op.isRoutine = true) : op.leavesFlags = true := by
  cases op <;> first | rfl | exact absurd h nofun

/-- Two recorded passes that have made the same calls so far. -/
structure Beside (k : Keywords) (x x' : (Y × World) × List Exceptions.Event) (j : Pair Y) : Prop where
  first : x.1 = (j.memory, j.first)
  second : x'.1 = (j.memory, j.second)
  calls : x.2.map Sigma.fst = x'.2.map Sigma.fst
  level : Level k j

theorem Beside.step {x x' : (Y × World) × List Exceptions.Event} (h : Beside k x x' j)
    (hop : op.leavesFlags = true) : ∃ j', twice S k j op (Exceptions.recorded S.handle x op).1
      (Exceptions.recorded S.handle x' op).1 j' ∧
      Beside k (Exceptions.recorded S.handle x op).2 (Exceptions.recorded S.handle x' op).2 j' := by
  obtain ⟨⟨y, w⟩, t⟩ := x
  obtain ⟨⟨y', w'⟩, t'⟩ := x'
  obtain ⟨h₁, h₂, hcalls, hlevel⟩ := h
  cases h₁
  cases h₂
  have hnext := (S.blind j.memory op hlevel.respelled).2.2
  refine ⟨j.after S op, ⟨hlevel, hop, rfl, rfl, rfl⟩, rfl, ?_, ?_, hlevel.step hop⟩
  · exact congrArg (fun y => (y, S.after j.memory j.second op)) hnext.symm
  · have hcalls : t.map Sigma.fst = t'.map Sigma.fst := hcalls
    simp only [Exceptions.recorded, List.map_append, hcalls, List.map_cons, List.map_nil]

/-- **Where the accounts agree, a pass does the same on both.** -/
theorem sameRun {w w' : World} (hw : WellFormed w) (hr : Respelled w w') (S : Server Y)
    (o : ForwarderOptions) (y : Y) (h : Agree o.keywords w w') : SameRun S o y w w' := by
  have huses : (Forwarder.run o).Uses (fun op => op.leavesFlags = true) :=
    Forwarder.run_uses (fun _ _ => leavesFlags_of_isOn) (fun _ => leavesFlags_of_isRoutine)
      (fun _ => rfl) (fun _ _ => rfl)
  have hstart : Beside o.keywords ((y, w), []) ((y, w'), []) ⟨y, w, w'⟩ :=
    ⟨rfl, rfl, rfl, h.level hw hr y⟩
  have htwins := run_blind S o (Forwarder.initial o) ⟨y, w, w'⟩
  obtain ⟨j, ⟨hfirst, hsecond, hcalls, hlevel⟩, hobj, hout⟩ :=
    htwins.exec (fun _ _ _ _ hop hx => hx.step hop) (huses _) hstart
  refine ⟨Prod.ext (Routine.both_eq hout) hobj, hcalls, ?_⟩
  have hafter : (pass S o y w).2.1.2 = j.first := congrArg Prod.snd hfirst
  have hafter' : (pass S o y w').2.1.2 = j.second := congrArg Prod.snd hsecond
  rw [hafter, hafter']
  exact hlevel.respelled

/-! ## The conforming provider is such a server -/

theorem find_respelled {w w' : World} (h : Respelled w w') (uid : ℕ) :
    (w.find uid = none ∧ w'.find uid = none) ∨
      ∃ m m', w.find uid = some m ∧ w'.find uid = some m' ∧ RespelledMessage m m' :=
  h.find (fun _ _ hmm => hmm) uid

theorem searchInbox_respelled {w w' : World} (h : Respelled w w') (criteria : List String) :
    w.searchInbox criteria = w'.searchInbox criteria := by
  have hmatch : ∀ {m m' : Message}, RespelledMessage m m' →
      matchesCriteria criteria m = matchesCriteria criteria m' := by
    intro m m' hmm
    fun_induction matchesCriteria criteria m with
    | case1 rest m ih => simp only [matchesCriteria, hmm.has, ih hmm]
    | case2 keyword rest m ih => simp only [matchesCriteria, hmm.has, ih hmm]
    | case3 => simp_all [matchesCriteria]
  unfold World.searchInbox
  rw [← List.forall₂_eq_eq_eq]
  refine List.rel_map (fun m m' (hmm : RespelledMessage m m') => hmm.uid)
    (List.rel_filter (fun m m' hmm => ?_) h.messages)
  simp only [hmm.folder, hmatch hmm]

theorem fetchInbox_respelled {w w' : World} (h : Respelled w w') (uids : List ℕ)
    (items : FetchItems) :
    SameKeys RespelledItem (w.fetchInbox uids items) (w'.fetchInbox uids items) := by
  induction uids with
  | nil => exact .nil
  | cons uid rest ih =>
      unfold World.fetchInbox
      rcases find_respelled h uid with ⟨hf, hf'⟩ | ⟨m, m', hf, hf', hmm⟩
      · rw [List.filterMap_cons_none (by rw [hf]; rfl), List.filterMap_cons_none (by rw [hf']; rfl)]
        exact ih
      · rw [List.filterMap_cons_some (by rw [hf]; rfl), List.filterMap_cons_some (by rw [hf']; rfl)]
        refine .cons ⟨rfl, ?_⟩ ih
        cases items with
        | message => exact ⟨congrArg (fun raw => some (some raw)) hmm.raw, rfl, hmm.flags⟩
        | flags => exact ⟨rfl, rfl, hmm.flags⟩
        | headers =>
            refine ⟨rfl, ?_, rfl⟩
            show some m.raw.bytes = some m'.raw.bytes
            rw [hmm.raw]

theorem storedFlags_respelled {w w' : World} (h : Respelled w w') (uid : ℕ) :
    SameKeys RespelledFlags (w.storedFlags uid) (w'.storedFlags uid) := by
  unfold World.storedFlags
  rcases find_respelled h uid with ⟨hf, hf'⟩ | ⟨m, m', hf, hf', hmm⟩
  · rw [hf, hf']
    exact .nil
  · rw [hf, hf']
    exact .cons ⟨rfl, hmm.flags⟩ .nil

theorem reply_respelled (P : Provider) {w w' : World} (h : Respelled w w') (op : Op) :
    SameReply op (P.reply 0 w op) (P.reply 0 w' op) := by
  have heffect : Respelled (effect op w) (effect op w') :=
    h.effect (fun _ _ hmm => hmm) (fun _ _ hmm => hmm.flagsAfter op)
      (fun _ _ _ folder _ _ hmm => hmm.placed folder _)
  cases op
  case search criteria =>
    simp only [Provider.reply]
    split
    · rfl
    · exact searchInbox_respelled h criteria
  case fetch uids items => exact fetchInbox_respelled h uids items
  case addFlags uid flag => exact storedFlags_respelled heffect uid
  case removeFlags uid flag => exact storedFlags_respelled heffect uid
  case folderExists folder =>
    show decide (folder ∈ w.folders) = decide (folder ∈ w'.folders)
    rw [h.folders]
  case insertRaw raw labels =>
    show SameReply (.insertRaw raw labels) (P.gmail raw) (P.gmail raw)
    cases P.gmail raw <;> rfl
  case trashConstant =>
    show SameReply .trashConstant (if P.exportsTrash then _ else _)
      (if P.exportsTrash then _ else _)
    cases P.exportsTrash <;> rfl
  all_goals rfl

theorem spells_fetchInbox {w : World} {uids : List ℕ} :
    ∀ item ∈ w.fetchInbox uids .message, ∃ m ∈ w.messages, m.isAt item.1 = true ∧
      item.2.flags = some m.flags := by
  intro item hitem
  obtain ⟨m, hf, he⟩ := Provider.mem_fetchInbox hitem
  obtain ⟨hm, hat⟩ := World.find_some hf
  exact ⟨m, hm, hat, by rw [he]; rfl⟩

theorem lists_searchInbox {w : World} {rest : List String} :
    ∀ uid ∈ w.searchInbox ("NOT" :: "DELETED" :: rest), ∃ m ∈ w.messages, m.isAt uid = true ∧
      m.has deletedFlag = false := by
  intro uid huid
  obtain ⟨m, hm, rfl⟩ := List.mem_map.mp huid
  obtain ⟨hm, hcriteria⟩ := List.mem_filter.mp hm
  simp only [matchesCriteria, Bool.and_eq_true, Bool.not_eq_true', decide_eq_true_eq] at hcriteria
  exact ⟨m, hm, Message.isAt_iff.mpr ⟨hcriteria.1, rfl⟩, hcriteria.2.1⟩

/-- A conforming provider. -/
def conforming (P : Provider) : Server Unit where
  reply _ w op := P.reply 0 w op
  carriesOut _ w op := (P.reply 0 w op).isOk
  next _ _ _ := ()
  serves _ w op := by
    have h := P.serves 0 w op
    unfold Provider.after at h
    cases hr : P.reply 0 w op with
    | ok value =>
        rw [hr] at h
        exact h
    | error e =>
        rw [hr] at h
        exact h
  lists := by
    intro _ w rest uids h
    simp only [Provider.reply] at h
    split at h
    · exact absurd h nofun
    · injection h with h
      rw [← h]
      exact lists_searchInbox
  spells := by
    rintro _ w uids data ⟨⟩
    exact spells_fetchInbox
  blind := by
    intro _ w w' op h
    have hreply := reply_respelled P h op
    refine ⟨hreply, ?_, rfl⟩
    cases hr : P.reply 0 w op <;> cases hr' : P.reply 0 w' op <;> rw [hr, hr'] at hreply
    · rfl
    · exact hreply.elim
    · exact hreply.elim
    · rfl

/-! ## A server that asks for one message

It lists the message at `uid` alone, refuses everything that would change the mailbox, and Gmail
refuses the insert. The pass goes as far as the insert, and the call shows the labels. -/

section asking

/-- The answers of the server. -/
def ask (uid : ℕ) (w : World) : (op : Op) → Reply op
  | .search _ => .ok ((w.searchInbox ["NOT", "DELETED"]).filter (fun u => decide (u = uid)))
  | .addFlags _ _ => .error (.other "IMAPClientError" "NO STORE")
  | .removeFlags _ _ => .error (.other "IMAPClientError" "NO STORE")
  | .createFolder _ => .error (.other "IMAPClientError" "NO CREATE")
  | .move _ _ => .error (.other "IMAPClientError" "NO MOVE")
  | .copy _ _ => .error (.other "IMAPClientError" "NO COPY")
  | .uidExpunge _ => .error (.other "IMAPClientError" "NO EXPUNGE")
  | .insertRaw _ _ => .error (.gmailError .auth "token has been revoked" none)
  | op => Provider.reply {} 0 w op

/-- The server that asks for the message at `uid`. -/
def asking (uid : ℕ) : Server Unit where
  reply _ w op := ask uid w op
  carriesOut _ _ _ := false
  next _ _ _ := ()
  serves _ w op := by
    cases op
    case search criteria => exact ⟨Or.inl rfl, trivial⟩
    case fetch uids items =>
      have h := Provider.serves {} 0 w (.fetch uids items)
      exact h
    all_goals first | exact ⟨rfl, Or.inl rfl⟩ | exact ⟨Or.inl rfl, trivial⟩
  lists := by
    rintro _ w rest uids ⟨⟩ u hu
    exact lists_searchInbox u (List.mem_filter.mp hu).1
  spells := by
    rintro _ w uids data ⟨⟩
    exact spells_fetchInbox
  blind := by
    intro _ w w' op h
    refine ⟨?_, rfl, rfl⟩
    cases op
    case search criteria =>
      show List.filter _ (w.searchInbox _) = List.filter _ (w'.searchInbox _)
      rw [searchInbox_respelled h]
    case fetch uids items => exact fetchInbox_respelled h uids items
    case folderExists folder => exact reply_respelled {} h (.folderExists folder)
    all_goals rfl

variable {k : Keywords} {w : World} {m : Message} {uid : ℕ}

/-- Options that ask for no label. -/
def plain (k : Keywords) : ForwarderOptions :=
  { ForwarderOptions.default with keywords := k, label := none }

/-- A call to the server, with its answer. -/
def asked (uid : ℕ) (w : World) (op : Op) : Exceptions.Event := ⟨op, ask uid w op⟩

/-- The server leaves the account as it is, so only the record changes. -/
def logged (uid : ℕ) (w : World) (t : List Exceptions.Event) (op : Op) :
    Reply op × List Exceptions.Event := (ask uid w op, t ++ [asked uid w op])

theorem pass_asking (w : World) (uid : ℕ) (o : ForwarderOptions) :
    (pass (asking uid) o () w).2.2 =
      ((Forwarder.run o).exec (logged uid w) (Forwarder.initial o) []).2 := by
  have hmap := Program.exec_map (h := Exceptions.recorded (asking uid).handle)
    (fun t => (((), w), t)) (fun t op => (rfl : _ = ((logged uid w t op).1, _)))
    (Forwarder.run o (Forwarder.initial o)) []
  exact congrArg (fun x => x.2.2) hmap

theorem exec_asked {σ : Type} {op : Op} {r : Reply op} (h : ask uid w op = r) (s : σ)
    (t : List Exceptions.Event) : (call op : Py σ (Value op)).exec (logged uid w) s t =
      ((r, s), t ++ [asked uid w op]) := by
  rw [← h]
  rfl

/-- The message at `uid` is listed and is to be inserted. -/
structure Due (k : Keywords) (uid : ℕ) (w : World) (m : Message) : Prop where
  listed : (w.searchInbox ["NOT", "DELETED"]).filter (fun u => decide (u = uid)) = [uid]
  found : w.find uid = some m
  fresh : handled k m.flags = false

theorem due (hw : WellFormed w) (hm : m ∈ w.messages) (hat : m.isAt uid = true)
    (hlive : m.has deletedFlag = false) (hout : handled k m.flags = false) : Due k uid w m := by
  refine ⟨?_, hw.find_eq hm hat, hout⟩
  obtain ⟨hfolder, rfl⟩ := Message.isAt_iff.mp hat
  have hnodup : (w.searchInbox ["NOT", "DELETED"]).Nodup :=
    hw.distinct.sublist (List.filter_sublist.map _)
  have hmem : m.uid ∈ w.searchInbox ["NOT", "DELETED"] := by
    refine List.mem_map_of_mem (List.mem_filter.mpr ⟨hm, ?_⟩)
    simp [matchesCriteria, hfolder, hlive]
  rw [List.filter_eq, List.count_eq_one_of_mem hnodup hmem]
  rfl

/-- The insert of a message, as the pass asks for it. -/
def insertCall (uid : ℕ) (m : Message) : Op :=
  .insertRaw m.raw (gmailLabelsFor ⟨uid, m.raw, m.flags⟩ [])

theorem process_asking (h : Due k uid w m) {s : RunState} (hs : s.mailbox.connected = true)
    (t : List Exceptions.Event) :
    (Forwarder.process (plain k) [] uid).exec (logged uid w) s t =
      ((.error (.abortRun "token has been revoked"), s),
        t ++ ([.fetch [uid] .message, insertCall uid m] : List Op).map (asked uid w)) := by
  have hreply : ask uid w (.fetch [uid] .message) = .ok [(uid, m.item .message)] := by
    simp [ask, Provider.reply, World.fetchInbox, h.found]
  have hfetch : (ICloudMailbox.fetchMessage uid).exec (logged uid w) s.mailbox t =
      ((.ok ⟨uid, m.raw, m.flags⟩, s.mailbox), t ++ [asked uid w (.fetch [uid] .message)]) := by
    simp [ICloudMailbox.fetchMessage, ICloudMailbox.client, Routine.exec_bind, hs,
      exec_asked hreply, Message.item, ICloudMailbox.reportedFlags]
  have hattempt : (attempt (onMailbox (ICloudMailbox.fetchMessage uid))).exec (logged uid w) s t =
      ((.ok (.ok ⟨uid, m.raw, m.flags⟩), s), t ++ [asked uid w (.fetch [uid] .message)]) := by
    rw [Routine.exec_attempt, onMailbox, Routine.exec_on, hfetch]
  obtain ⟨hquarantine, hinserted⟩ := Bool.or_eq_false_iff.mp h.fresh
  rw [Forwarder.process, Routine.exec_bind_ok _ _ _ hattempt]
  dsimp only
  rw [if_neg, if_neg, Forwarder.insert]
  · rw [Routine.exec_bind_ok _ _ _ (Routine.exec_attempt _ _ _ _), exec_asked rfl,
      List.append_assoc]
    rfl
  · exact Bool.eq_false_iff.mp hinserted
  · exact Bool.eq_false_iff.mp hquarantine

/-- The session once it is open. -/
def opened (k : Keywords) : RunState :=
  { Forwarder.initial (plain k) with mailbox := ⟨false, k.quarantine, true, none, 1, false, true⟩ }

theorem processAll_asking (h : Due k uid w m) {s : RunState} (hs : s.mailbox.connected = true)
    (t : List Exceptions.Event) : ∃ result,
      (Forwarder.processAll (plain k) [] 0 [uid]).exec (logged uid w) s t =
        ((.ok (), { s with result := result }),
          t ++ ([.clock, .fetch [uid] .message, insertCall uid m] : List Op).map (asked uid w)) := by
  have hbudget : ¬(0 : ℚ) - 0 > (plain k).timeBudgetSeconds := by
    show ¬(0 : ℚ) - 0 > 480
    decide +kernel
  have hprocess : (attempt (Forwarder.process (plain k) [] uid)).exec (logged uid w) s
      (t ++ [asked uid w .clock]) = ((.ok (.error (.abortRun "token has been revoked")), s),
        t ++ [asked uid w .clock] ++
          ([.fetch [uid] .message, insertCall uid m] : List Op).map (asked uid w)) := by
    rw [Routine.exec_attempt, process_asking h hs]
  rw [Forwarder.processAll, Routine.exec_bind_ok _ _ _ (exec_asked rfl s t), if_neg hbudget,
    Routine.exec_bind_ok _ _ _ hprocess, List.append_assoc]
  exact ⟨_, rfl⟩

/-- The calls of the session. -/
def sessionCalls (k : Keywords) (uid : ℕ) (m : Message) : List Op :=
  [.gmailClient, .search (ICloudMailbox.searchCriteria k.quarantine), .clock,
    .fetch [uid] .message, insertCall uid m]

theorem session_asking (h : Due k uid w m) (t : List Exceptions.Event) : ∃ result,
    (Forwarder.session (plain k) 0).exec (logged uid w) (opened k) t =
      ((.ok (), { opened k with result := result }),
        t ++ (sessionCalls k uid m).map (asked uid w)) := by
  have hready : (onMailbox ICloudMailbox.requireKeywords).exec (logged uid w) (opened k) t =
      ((.ok (), opened k), t) := rfl
  have hlabels : ∀ t, (Forwarder.extraLabelIds (plain k).label).exec (logged uid w) (opened k) t =
      ((.ok [], opened k), t) := fun _ => rfl
  have hreply : ask uid w (.search (ICloudMailbox.searchCriteria (plain k).keywords.quarantine)) =
      .ok [uid] := congrArg _ h.listed
  have hlist : ∀ t, (onMailbox (ICloudMailbox.listInboxUids (some (plain k).keywords.quarantine))).exec
      (logged uid w) (opened k) t = ((.ok [uid], opened k),
        t ++ [asked uid w (.search (ICloudMailbox.searchCriteria k.quarantine))]) := by
    intro t
    simp [onMailbox, ICloudMailbox.listInboxUids, ICloudMailbox.searchQueue, ICloudMailbox.client,
      Routine.exec_bind, exec_asked hreply, opened, ICloudMailbox.sortUids]
    rfl
  have hcount : ∀ t, (count (fun r => { r with listed := [uid].length })).exec (logged uid w)
      (opened k) t = ((.ok (), { opened k with result := { listed := 1 } }), t) := fun _ => rfl
  obtain ⟨result, hloop⟩ := processAll_asking h (s := { opened k with result := { listed := 1 } }) rfl
    (t ++ [asked uid w .gmailClient] ++
      [asked uid w (.search (ICloudMailbox.searchCriteria k.quarantine))])
  refine ⟨result, ?_⟩
  rw [Forwarder.session, Routine.exec_bind_ok _ _ _ hready,
    Routine.exec_bind_ok _ _ _ (exec_asked rfl _ t), Routine.exec_bind_ok _ _ _ (hlabels _),
    Routine.exec_bind_ok _ _ _ (hlist _), Routine.exec_bind_ok _ _ _ (hcount _),
    Routine.exec_bind_ok _ _ _ hloop]
  simp [Routine.exec_bind, opened, Forwarder.initial, sessionCalls]

/-- The calls of the pass. -/
def passCalls (k : Keywords) (uid : ℕ) (m : Message) : List Op :=
  [.clock, .openClient, .login, .selectFolder "INBOX" false, .hasCapability "IDLE"] ++
    sessionCalls k uid m ++ [.logout, .clock]

theorem calls_asking (h : Due k uid w m) :
    (pass (asking uid) (plain k) () w).2.2.map Sigma.fst = passCalls k uid m := by
  have hconnect : (onMailbox ICloudMailbox.connect).exec (logged uid w)
      (Forwarder.initial (plain k)) [asked uid w .clock] = ((.ok (), opened k),
        ([.clock, .openClient, .login, .selectFolder "INBOX" false, .hasCapability "IDLE"] :
          List Op).map (asked uid w)) := rfl
  obtain ⟨result, hsession⟩ := session_asking h
    (([.clock, .openClient, .login, .selectFolder "INBOX" false, .hasCapability "IDLE"] :
      List Op).map (asked uid w))
  rw [pass_asking, Forwarder.run, Routine.exec_bind_ok _ _ _ (exec_asked rfl _ _), List.nil_append,
    Routine.exec_bind_ok _ _ _ (Routine.exec_attempt _ _ _ _), Forwarder.withMailbox,
    Routine.exec_bind_ok _ _ _ hconnect, Routine.exec_bind_ok _ _ _ (Routine.exec_attempt _ _ _ _),
    hsession]
  rfl

/-- The labels tell which of the two flags a message carries. -/
theorem sameLabels_of_gmailLabelsFor {message message' : FetchedMessage}
    (h : gmailLabelsFor message [] = gmailLabelsFor message' []) :
    SameLabels message.flags message'.flags := by
  have hboth : message.seen = message'.seen ∧ message.flagged = message'.flagged := by
    unfold gmailLabelsFor at h
    revert h
    generalize message.seen = seen, message'.seen = seen'
    generalize message.flagged = flagged, message'.flagged = flagged'
    revert seen seen' flagged flagged'
    decide
  exact ⟨decide_eq_decide.mp hboth.1, decide_eq_decide.mp hboth.2⟩

/-- Where every message that may be asked for gets the same labels, the accounts agree. -/
theorem agree_of_asking {w w' : World} (hw : WellFormed w) (hr : Respelled w w')
    (h : ∀ uid, SameRun (asking uid) (plain k) () w w') : Agree k w w' := by
  intro m hm m' hm' hfolder hfolder' hu hlive hout
  have hw' := hr.wellFormed hw
  have hmm : RespelledMessage m m' := by
    obtain ⟨n', hn', hmn⟩ := hr.partner hm
    rw [← hw'.unique hn' hm' (hmn.uid.symm.trans hu)]
    exact hmn
  have hdue : Due k m.uid w m := due hw hm (Message.isAt_iff.mpr ⟨hfolder, rfl⟩) hlive hout
  have hdue' : Due k m.uid w' m' := by
    refine due hw' hm' (Message.isAt_iff.mpr ⟨hfolder', hu.symm⟩) ?_ ?_
    · rw [← hmm.has]
      exact hlive
    · rw [← hmm.flags.handled]
      exact hout
  have hcalls := (h m.uid).calls
  rw [calls_asking hdue, calls_asking hdue'] at hcalls
  simp [passCalls, sessionCalls, insertCall] at hcalls
  exact sameLabels_of_gmailLabelsFor hcalls.2

end asking

/-- **When a pass takes no notice of the letter case of flags.** For two accounts that differ in
    nothing else, every pass over every such server does the same on both exactly if no message that
    may be inserted is `\Seen` or `\Flagged` in this spelling in the one account only. -/
theorem sameRun_iff_agree {k : Keywords} {w w' : World} (hw : WellFormed w) (hr : Respelled w w') :
    (∀ o : ForwarderOptions, o.keywords = k → ∀ (Y : Type) (S : Server Y) (y : Y),
      SameRun S o y w w') ↔ Agree k w w' := by
  constructor
  · exact fun h => agree_of_asking hw hr (fun uid => h (plain k) rfl Unit (asking uid) ())
  · rintro h o rfl Y S y
    exact sameRun hw hr S o y h

/-- One mail in the INBOX, with these flags. -/
def flaggedMail (flags : List String) : World :=
  { oneMail with messages := [⟨"INBOX", 1, ⟨0, [72, 105]⟩, flags⟩] }

theorem flaggedMail_wellFormed (flags : List String) : WellFormed (flaggedMail flags) :=
  ⟨List.nodup_singleton 1, by simp [flaggedMail, oneMail]⟩

theorem flaggedMail_respelled {flags flags' : List String} (h : RespelledFlags flags flags') :
    Respelled (flaggedMail flags) (flaggedMail flags') :=
  ⟨.cons ⟨rfl, rfl, rfl, h⟩ .nil, rfl, rfl, rfl⟩

theorem keyword_respelled : SameRun (conforming {}) .default ()
    (flaggedMail ["\\Seen", "$junk"]) (flaggedMail ["\\Seen", "$Junk"]) :=
  (sameRun_iff_agree (k := Keywords.default) (flaggedMail_wellFormed _)
    (flaggedMail_respelled (by decide))).mpr (by decide) .default rfl Unit (conforming {}) ()

/-- With `\Seen` spelled otherwise, a mail that has been read reaches Gmail as unread. -/
theorem seen_respelled :
    WellFormed (flaggedMail ["\\Seen"]) ∧
    Respelled (flaggedMail ["\\Seen"]) (flaggedMail ["\\seen"]) ∧
    ¬SameRun (conforming {}) .default () (flaggedMail ["\\Seen"]) (flaggedMail ["\\seen"]) ∧
    (pass (conforming {}) .default () (flaggedMail ["\\Seen"])).2.1.2.gmail =
      [⟨⟨0, [72, 105]⟩, ["INBOX", "iCloud"]⟩] ∧
    (pass (conforming {}) .default () (flaggedMail ["\\seen"])).2.1.2.gmail =
      [⟨⟨0, [72, 105]⟩, ["INBOX", "UNREAD", "iCloud"]⟩] := by
  have hread : (pass (conforming {}) .default () (flaggedMail ["\\Seen"])).2.1.2.gmail =
      [⟨⟨0, [72, 105]⟩, ["INBOX", "iCloud"]⟩] := by decide +kernel
  have hunread : (pass (conforming {}) .default () (flaggedMail ["\\seen"])).2.1.2.gmail =
      [⟨⟨0, [72, 105]⟩, ["INBOX", "UNREAD", "iCloud"]⟩] := by decide +kernel
  refine ⟨flaggedMail_wellFormed _, flaggedMail_respelled (by decide), fun h => ?_, hread, hunread⟩
  have hgmail := h.after.gmail
  rw [hread, hunread] at hgmail
  exact absurd hgmail (by decide)

end LetterCase

end MailTransporter
