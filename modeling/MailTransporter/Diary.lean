import MailTransporter.ForwarderRules
import MailTransporter.Provider
import MailTransporter.Effect.History

set_option autoImplicit false

/-! # A diary of the tool and of the other clients

`Diary` adds to the account a log, newest note first: every mail that was fetched, every answer of
`insert_raw`, every marker the server confirmed, every quarantine keyword a command cleared, every
mail another client put into the INBOX, and how every run ended. `Due`, `Sent` and `Unrecorded` say
where a log leaves one mail; `Diary.Sound` relates that to the keywords in the mailbox, and every
call and every move of the others keeps it. -/

namespace MailTransporter

open Effect

/-! ## Logs -/

/-- How a run ended: it returned without an error, it returned with one, or it crashed or raised. -/
inductive Ending where
  | clean
  | failed
  | broken
deriving DecidableEq, Repr

/-- An answer of `insert_raw`: accepted, permanently rejected, or any other exception. -/
inductive Verdict where
  | accepted
  | rejected
  | other
deriving DecidableEq, Repr

inductive Note where
  | fetched (raw : RawMail)
  | answered (raw : RawMail) (verdict : Verdict)
  | marked (raw : RawMail)
  | cleared (raw : RawMail)
  | entered (raw : RawMail) (again : Bool)
  | ended (ending : Ending)
deriving DecidableEq

/-- The notes of a history, newest first. -/
abbrev Log := List Note

def Note.isEnd : Note → Bool
  | .ended _ => true
  | _ => false

/-- The two exceptions: a command cleared a quarantine keyword of the mail, or another client put it
    into the INBOX. -/
def Note.Excuses (raw : RawMail) : Note → Prop
  | .cleared r => r = raw
  | .entered r _ => r = raw
  | _ => False

namespace Log

/-- Another client has put a second copy of the mail into the INBOX, beside the first. -/
def Doubled (raw : RawMail) (l : Log) : Prop := Note.entered raw true ∈ l

/-- Another client has put the mail back into the INBOX since the run under way fetched it. -/
def Stirred (raw : RawMail) : Log → Prop
  | [] => False
  | .ended _ :: _ => False
  | .fetched r :: l => r ≠ raw ∧ Stirred raw l
  | .entered r _ :: l => r = raw ∨ Stirred raw l
  | _ :: l => Stirred raw l

/-- In the run under way Gmail has accepted or rejected the mail, without an exception since. -/
def Open (raw : RawMail) : Log → Prop
  | [] => False
  | .ended _ :: _ => False
  | .answered r v :: l => (r = raw ∧ v ≠ .other ∧ ¬ Stirred raw l) ∨ Open raw l
  | .fetched _ :: l => Open raw l
  | .marked _ :: l => Open raw l
  | .cleared r :: l => r ≠ raw ∧ Open raw l
  | .entered r _ :: l => r ≠ raw ∧ Open raw l

/-- In the run under way Gmail has accepted the mail, and no marker has been confirmed since. -/
def Unrecorded (raw : RawMail) : Log → Prop
  | [] => False
  | .ended _ :: _ => False
  | .answered r v :: l => (r = raw ∧ v = .accepted) ∨ Unrecorded raw l
  | .marked r :: l => r ≠ raw ∧ Unrecorded raw l
  | _ :: l => Unrecorded raw l

/-- A clean run has had the mail accepted or rejected, without an exception since. -/
def Due (raw : RawMail) : Log → Prop
  | [] => False
  | .ended e :: l => Due raw l ∨ (e = .clean ∧ Open raw l)
  | .answered _ _ :: l => Due raw l
  | .fetched _ :: l => Due raw l
  | .marked _ :: l => Due raw l
  | .cleared r :: l => r ≠ raw ∧ Due raw l
  | .entered r _ :: l => r ≠ raw ∧ Due raw l

/-- Gmail has accepted the mail, without an exception since and not in a run that ended badly
    without a marker. -/
def Sent (raw : RawMail) : Log → Prop
  | [] => False
  | .ended e :: l => Sent raw l ∧ ¬ (e ≠ .clean ∧ Unrecorded raw l)
  | .answered r v :: l => (r = raw ∧ v = .accepted ∧ ¬ Stirred raw l) ∨ Sent raw l
  | .fetched _ :: l => Sent raw l
  | .marked _ :: l => Sent raw l
  | .cleared r :: l => r ≠ raw ∧ Sent raw l
  | .entered r _ :: l => r ≠ raw ∧ Sent raw l

/-- No insert was made of a mail that was due or sent. -/
def Kept : Log → Prop
  | [] => True
  | .answered r _ :: l => Kept l ∧ (¬ Doubled r l → ¬ Due r l ∧ ¬ Sent r l)
  | _ :: l => Kept l

variable {raw : RawMail} {new l : Log}

/-! ### Where a decomposed log leaves a mail -/

theorem open_of_answered {during before : Log} {v : Verdict} (hv : v ≠ .other)
    (hbefore : ¬ Stirred raw before)
    (h : ∀ n ∈ during, n.isEnd = false ∧ ¬ n.Excuses raw) :
    Open raw (during ++ .answered raw v :: before) := by
  induction during with
  | nil => exact Or.inl ⟨rfl, hv, hbefore⟩
  | cons n rest ih =>
      have ih := ih (fun m hm => h m (List.mem_cons_of_mem _ hm))
      obtain ⟨hend, hex⟩ := h n List.mem_cons_self
      cases n with
      | fetched r => exact ih
      | answered r v' => exact Or.inr ih
      | marked r => exact ih
      | cleared r => exact ⟨hex, ih⟩
      | entered r again => exact ⟨hex, ih⟩
      | ended e => exact absurd hend nofun

theorem due_of_open {between : Log} (h : ∀ n ∈ between, ¬ n.Excuses raw) (ho : Open raw l) :
    Due raw (between ++ .ended .clean :: l) := by
  induction between with
  | nil => exact Or.inr ⟨rfl, ho⟩
  | cons n rest ih =>
      have ih := ih (fun m hm => h m (List.mem_cons_of_mem _ hm))
      have hex := h n List.mem_cons_self
      cases n with
      | fetched r => exact ih
      | answered r v => exact ih
      | marked r => exact ih
      | cleared r => exact ⟨hex, ih⟩
      | entered r again => exact ⟨hex, ih⟩
      | ended e => exact Or.inl ih

/-- A mail can only be unrecorded because of the last time it was accepted. -/
theorem unrecorded_append (h : Unrecorded raw (new ++ l))
    (hnew : Note.answered raw .accepted ∉ new) :
    ∀ n ∈ new, n.isEnd = false ∧ n ≠ .marked raw := by
  induction new with
  | nil => exact nofun
  | cons n rest ih =>
      have hn : Note.answered raw .accepted ≠ n := List.ne_of_not_mem_cons hnew
      have hrest := List.not_mem_of_not_mem_cons hnew
      have hlast : Unrecorded raw (rest ++ l) ∧ n.isEnd = false ∧ n ≠ .marked raw := by
        cases n with
        | fetched r => exact ⟨h, rfl, nofun⟩
        | answered r v =>
            rcases h with ⟨rfl, rfl⟩ | h
            · exact absurd rfl hn
            · exact ⟨h, rfl, nofun⟩
        | marked r => exact ⟨h.2, rfl, fun he => h.1 (Note.marked.inj he)⟩
        | cleared r => exact ⟨h, rfl, nofun⟩
        | entered r again => exact ⟨h, rfl, nofun⟩
        | ended e => exact h.elim
      intro m hm
      rcases List.mem_cons.mp hm with rfl | hm
      · exact hlast.2
      · exact ih hlast.1 hrest m hm

theorem sent_of_accepted {between before : Log} (hbefore : ¬ Stirred raw before)
    (hnew : Note.answered raw .accepted ∉ between) (h : ∀ n ∈ between, ¬ n.Excuses raw) :
    Sent raw (between ++ .answered raw .accepted :: before) ∨
      ∃ later ending during, between = later ++ .ended ending :: during ∧ ending ≠ .clean ∧
        ∀ n ∈ during, n.isEnd = false ∧ n ≠ .marked raw := by
  induction between with
  | nil => exact Or.inl (Or.inl ⟨rfl, rfl, hbefore⟩)
  | cons n rest ih =>
      have hrest := List.not_mem_of_not_mem_cons hnew
      have hex := h n List.mem_cons_self
      rcases ih hrest (fun m hm => h m (List.mem_cons_of_mem _ hm)) with hs |
        ⟨later, ending, during, rfl, hending, hduring⟩
      · cases n with
        | fetched r => exact Or.inl hs
        | answered r v => exact Or.inl (Or.inr hs)
        | marked r => exact Or.inl hs
        | cleared r => exact Or.inl ⟨hex, hs⟩
        | entered r again => exact Or.inl ⟨hex, hs⟩
        | ended e =>
            by_cases hbad : e ≠ .clean ∧ Unrecorded raw (rest ++ .answered raw .accepted :: before)
            · exact Or.inr ⟨[], e, rest, rfl, hbad.1, unrecorded_append hbad.2 hrest⟩
            · exact Or.inl ⟨hs, hbad⟩
      · exact Or.inr ⟨n :: later, ending, during, rfl, hending, hduring⟩

theorem Kept.suffix (h : Kept (new ++ l)) : Kept l := by
  induction new with
  | nil => exact h
  | cons n rest ih =>
      cases n with
      | fetched r => exact ih h
      | answered r v => exact ih h.1
      | marked r => exact ih h
      | cleared r => exact ih h
      | entered r again => exact ih h
      | ended e => exact ih h

/-! ### Notes that are put before a log -/

/-- What every admissible note keeps, any number of them keep. -/
theorem before_of {P : Log → Prop} {ok : Note → Prop} (step : ∀ {n l}, ok n → P l → P (n :: l))
    (h : ∀ n ∈ new, ok n) (hl : P l) : P (new ++ l) := by
  induction new with
  | nil => exact hl
  | cons n rest ih =>
      exact step (h n List.mem_cons_self) (ih (fun m hm => h m (List.mem_cons_of_mem _ hm)))

/-- What no admissible note brings about and every exception ends was there before, and there was no
    exception. -/
theorem before_inv {P : Log → Prop} {ok : Note → Prop}
    (step : ∀ {n l}, ok n → P (n :: l) → P l ∧ ¬ n.Excuses raw)
    (h : ∀ n ∈ new, ok n) (hp : P (new ++ l)) : P l ∧ ∀ n ∈ new, ¬ n.Excuses raw := by
  induction new with
  | nil => exact ⟨hp, nofun⟩
  | cons n rest ih =>
      obtain ⟨hrest, hn⟩ := step (h n List.mem_cons_self) hp
      obtain ⟨hl, hex⟩ := ih (fun m hm => h m (List.mem_cons_of_mem _ hm)) hrest
      refine ⟨hl, fun m hm => ?_⟩
      rcases List.mem_cons.mp hm with rfl | hm
      · exact hn
      · exact hex m hm

/-- A note in the middle of a run that is no answer. -/
def Inner (n : Note) : Prop := n.isEnd = false ∧ ∀ r v, n ≠ .answered r v

/-- Between the fetch of a mail and its insert others may only put mail into the INBOX. -/
theorem stirred_visits (h : ∀ n ∈ new, ∃ r again, n = .entered r again) :
    Stirred raw (new ++ l) ↔ (∃ n ∈ new, n.Excuses raw) ∨ Stirred raw l := by
  induction new with
  | nil => simp
  | cons n rest ih =>
      obtain ⟨r, again, rfl⟩ := h n List.mem_cons_self
      have ih := ih (fun m hm => h m (List.mem_cons_of_mem _ hm))
      have hhead : (∃ n ∈ .entered r again :: rest, n.Excuses raw) ↔
          r = raw ∨ ∃ n ∈ rest, n.Excuses raw := by
        rw [List.exists_mem_cons_iff]
        rfl
      rw [hhead, or_assoc, ← ih]
      rfl

theorem open_append (h : ∀ n ∈ new, Inner n) (ho : Open raw (new ++ l)) :
    Open raw l ∧ ∀ n ∈ new, ¬ n.Excuses raw := by
  refine before_inv (fun {n l} hn ho => ?_) h ho
  cases n with
  | fetched r => exact ⟨ho, nofun⟩
  | answered r v => exact absurd rfl (hn.2 r v)
  | marked r => exact ⟨ho, nofun⟩
  | cleared r => exact ⟨ho.2, ho.1⟩
  | entered r again => exact ⟨ho.2, ho.1⟩
  | ended e => exact ho.elim

theorem due_append (h : ∀ n ∈ new, n.isEnd = false) (hd : Due raw (new ++ l)) :
    Due raw l ∧ ∀ n ∈ new, ¬ n.Excuses raw := by
  refine before_inv (fun {n l} hn hd => ?_) h hd
  cases n with
  | fetched r => exact ⟨hd, nofun⟩
  | answered r v => exact ⟨hd, nofun⟩
  | marked r => exact ⟨hd, nofun⟩
  | cleared r => exact ⟨hd.2, hd.1⟩
  | entered r again => exact ⟨hd.2, hd.1⟩
  | ended e => exact absurd hn nofun

theorem sent_append (h : ∀ n ∈ new, Inner n) (hs : Sent raw (new ++ l)) :
    Sent raw l ∧ ∀ n ∈ new, ¬ n.Excuses raw := by
  refine before_inv (fun {n l} hn hs => ?_) h hs
  cases n with
  | fetched r => exact ⟨hs, nofun⟩
  | answered r v => exact absurd rfl (hn.2 r v)
  | marked r => exact ⟨hs, nofun⟩
  | cleared r => exact ⟨hs.2, hs.1⟩
  | entered r again => exact ⟨hs.2, hs.1⟩
  | ended e => exact absurd hn.1 nofun

theorem unrecorded_stays (h : ∀ n ∈ new, Inner n ∧ n ≠ .marked raw) (hu : Unrecorded raw l) :
    Unrecorded raw (new ++ l) := by
  refine before_of (fun {n l} hn hu => ?_) h hu
  obtain ⟨hn, hm⟩ := hn
  cases n with
  | fetched r => exact hu
  | answered r v => exact absurd rfl (hn.2 r v)
  | marked r => exact ⟨fun he => hm (he ▸ rfl), hu⟩
  | cleared r => exact hu
  | entered r again => exact hu
  | ended e => exact absurd hn.1 nofun

/-- Inner notes leave no mail unrecorded that was not. -/
theorem unrecorded_inv (h : ∀ n ∈ new, Inner n) (hu : ¬ Unrecorded raw l) :
    ¬ Unrecorded raw (new ++ l) := by
  refine before_of (P := fun l => ¬ Unrecorded raw l) (fun {n l} hn hu => ?_) h hu
  cases n with
  | fetched r => exact hu
  | answered r v => exact absurd rfl (hn.2 r v)
  | marked r => exact fun h => hu h.2
  | cleared r => exact hu
  | entered r again => exact hu
  | ended e => exact absurd hn.1 nofun

theorem kept_append (h : ∀ n ∈ new, Inner n) (hk : Kept l) : Kept (new ++ l) := by
  refine before_of (fun {n l} hn hk => ?_) h hk
  cases n with
  | fetched r => exact hk
  | answered r v => exact absurd rfl (hn.2 r v)
  | marked r => exact hk
  | cleared r => exact hk
  | entered r again => exact hk
  | ended e => exact hk

theorem Doubled.append (h : ¬ Doubled raw (new ++ l)) : ¬ Doubled raw l :=
  fun hl => h (List.mem_append_right _ hl)

end Log

/-! ## The diary -/

/-- The keywords the tool sets. -/
def Keywords.all (k : Keywords) : List String := [k.inserted, k.failed, k.unverified]

/-- The account, the keywords the server has confirmed, and the log. -/
structure Diary where
  world : World
  confirmed : List (RawMail × String)
  log : Log
deriving DecidableEq

instance : LawfulBEq (RawMail × String) := inferInstance

namespace Diary

/-- The flags a reply reports, by UID. -/
def reported : (op : Op) → Value op → List (ℕ × List String)
  | .addFlags _ _, reply => reply
  | .removeFlags _ _, reply => reply
  | .fetch _ .flags, data => data.map (fun item => (item.1, item.2.flags.getD []))
  | .fetch _ .message, data => data.map (fun item => (item.1, item.2.flags.getD []))
  | _, _ => []

/-- The keywords of the tool that a reply confirms. -/
def marksOf (k : Keywords) (op : Op) (r : Reply op) (w' : World) : List (RawMail × String) :=
  match r with
  | .error _ => []
  | .ok value => (reported op value).flatMap (fun item =>
      (w'.messages.filter (fun m => m.isAt item.1)).flatMap (fun m =>
        (k.all.filter (hasFlag item.2)).map (fun keyword => (m.raw, keyword))))

/-- The mail a completed move or expunge took out of the INBOX. -/
def goneBy : (op : Op) → Reply op → World → List RawMail
  | .move uid _, .ok _, w => (w.messages.filter (fun m => m.isAt uid)).map Message.raw
  | .uidExpunge uid, .ok _, w => (w.messages.filter (fun m => m.isAt uid)).map Message.raw
  | _, _, _ => []

/-- The quarantine keywords a call cleared. -/
def clearedBy (k : Keywords) (op : Op) (w w' : World) : List (RawMail × String) :=
  match op with
  | .removeFlags uid keyword =>
      if keyword ∈ k.quarantine then
        (w.messages.filter (fun m => m.isAt uid && m.has keyword &&
          w'.messages.all (fun m' => !m'.isAt uid || !m'.has keyword))).map
            (fun m => (m.raw, keyword))
      else []
  | _ => []

/-- The mail that was fetched. -/
def fetchedBy : (op : Op) → Reply op → List RawMail
  | .fetch _ .message, .ok data => data.filterMap (fun item => item.2.body.join)
  | _, _ => []

/-- The answer of an insert. -/
def answersOf : (op : Op) → Reply op → Log
  | .insertRaw raw _, .ok _ => [.answered raw .accepted]
  | .insertRaw raw _, .error (.gmailError .permanent _ _) => [.answered raw .rejected]
  | .insertRaw raw _, .error _ => [.answered raw .other]
  | _, _ => []

/-- An insert that raises has stored nothing, a completed expunge has removed the message, and the
    Trash is not the INBOX: the server moves and copies nothing into the INBOX. -/
def Honest (op : Op) (r : Reply op) (w w' : World) : Prop :=
  match op, r with
  | .insertRaw _ _, .error _ => w' = w
  | .uidExpunge uid, .ok _ => ∀ m ∈ w'.messages, m.isAt uid = false
  | .move _ folder, _ => folderName folder = "INBOX" → w' = w
  | .copy _ folder, _ => folderName folder = "INBOX" → w' = w
  | _, _ => True

/-- The notes about a call. -/
def notesOf (k : Keywords) (op : Op) (r : Reply op) (w w' : World) : Log :=
  (marksOf k op r w').map (fun c => .marked c.1) ++ (goneBy op r w).map .marked ++
    (clearedBy k op w w').map (fun c => .cleared c.1) ++ (fetchedBy op r).map .fetched ++
    answersOf op r

/-- A call of the tool, noted in the diary. -/
def Keeps (k : Keywords) : Env Op Reply Diary := fun d op r d' =>
  Serves d.world op r d'.world ∧ Honest op r d.world d'.world ∧
  d'.confirmed = marksOf k op r d'.world ++
    d.confirmed.filter (fun c => !decide (c ∈ clearedBy k op d.world d'.world)) ∧
  d'.log = notesOf k op r d.world d'.world ++ d.log

/-- The INBOX holds the mail more than once. -/
def again (w : World) (raw : RawMail) : Bool :=
  decide (2 ≤ (w.messages.filter
    (fun m => decide (m.folder = "INBOX") && decide (m.raw = raw))).length)

/-- The mail an event puts into the INBOX. -/
def enters : Event → List RawMail
  | .arrive raw _ _ => [raw]
  | .refile m folder => if folderName folder = "INBOX" then [m.raw] else []
  | .duplicate m folder => if folderName folder = "INBOX" then [m.raw] else []
  | _ => []

/-- Confirmed keywords persist: nobody else takes one from a message of the INBOX. -/
def Persists (k : Keywords) (d : Diary) : Event → Prop
  | .reflag m flags => m.folder = "INBOX" → ∀ keyword ∈ k.all, (m.raw, keyword) ∈ d.confirmed →
      m.has keyword = true → hasFlag flags keyword = true
  | _ => True

/-- A move of the other clients, noted in the diary. -/
def Others (k : Keywords) (d d' : Diary) : Prop :=
  ∃ e : Event, e.Enabled d.world ∧ Persists k d e ∧ d' = { d with
    world := e.apply d.world
    log := (enters e).map (fun raw => .entered raw (again (e.apply d.world) raw)) ++ d.log }

/-! ### The invariant -/

/-- A message with a confirmed keyword of the tool. -/
def HasMark (k : Keywords) (d : Diary) (m : Message) : Prop :=
  ∃ keyword ∈ k.all, m.has keyword = true ∧ (m.raw, keyword) ∈ d.confirmed

/-- Wherever the mail is in the INBOX, it has a confirmed keyword. -/
def Marked (k : Keywords) (d : Diary) (raw : RawMail) : Prop :=
  ∀ m ∈ d.world.messages, m.folder = "INBOX" → m.raw = raw → HasMark k d m

structure Sound (k : Keywords) (d : Diary) : Prop where
  wellFormed : WellFormed d.world
  unique : ∀ m ∈ d.world.messages, ∀ m' ∈ d.world.messages, m.folder = "INBOX" →
    m'.folder = "INBOX" → m.raw = m'.raw → ¬ Log.Doubled m.raw d.log → m.uid = m'.uid
  due : ∀ raw, ¬ Log.Doubled raw d.log → Log.Due raw d.log → Marked k d raw
  sent : ∀ raw, ¬ Log.Doubled raw d.log → Log.Sent raw d.log →
    Marked k d raw ∨ Log.Unrecorded raw d.log
  kept : Log.Kept d.log

/-- What a call must respect. -/
def Allowed (k : Keywords) (d : Diary) : Op → Prop
  | .insertRaw raw _ =>
      ¬ Log.Doubled raw d.log → ¬ Log.Due raw d.log ∧ ¬ Log.Sent raw d.log
  | .removeFlags _ flag => flag ∈ k.quarantine
  | _ => True

variable {k : Keywords}

/-! ### One call -/

theorem mem_marksOf {op : Op} {r : Reply op} {w' : World} {raw : RawMail} {keyword : String}
    (h : (raw, keyword) ∈ marksOf k op r w') :
    ∃ value, r = .ok value ∧ ∃ item ∈ reported op value, ∃ m ∈ w'.messages,
      m.isAt item.1 = true ∧ m.raw = raw ∧ keyword ∈ k.all ∧ hasFlag item.2 keyword = true := by
  cases r with
  | error e => exact absurd h List.not_mem_nil
  | ok value =>
      obtain ⟨item, hitem, h⟩ := List.mem_flatMap.mp h
      obtain ⟨m, hm, h⟩ := List.mem_flatMap.mp h
      obtain ⟨hm, hat⟩ := List.mem_filter.mp hm
      obtain ⟨keyword', hk, he⟩ := List.mem_map.mp h
      obtain ⟨hk, hhas⟩ := List.mem_filter.mp hk
      cases he
      exact ⟨value, rfl, item, hitem, m, hm, hat, rfl, hk, hhas⟩

/-- What a reply reports is on the message. -/
theorem reported_has {op : Op} {value : Value op} {w' : World} (ht : Truthful w' op value)
    (hw' : WellFormed w') {item : ℕ × List String} (hitem : item ∈ reported op value)
    {m : Message} (hm : m ∈ w'.messages) (hat : m.isAt item.1 = true) {flag : String}
    (h : hasFlag item.2 flag = true) : m.has flag = true := by
  have hone : ∀ m' ∈ w'.messages, m'.isAt item.1 = true → m' = m := by
    intro m' hm' hat'
    have hu := (Message.isAt_iff.mp hat').2.trans (Message.isAt_iff.mp hat).2.symm
    exact hw'.unique hm' hm hu
  have hfetch : ∀ data : Fetched, (∀ it ∈ data, ∃ m ∈ w'.messages, m.isAt it.1 = true ∧
      (∀ raw, it.2.body = some (some raw) → raw = m.raw) ∧
      ∃ flags, it.2.flags = some flags ∧ SameFlags flags m.flags) →
      item ∈ data.map (fun it => (it.1, it.2.flags.getD [])) → m.has flag = true := by
    intro data ht hitem
    obtain ⟨it, hit, rfl⟩ := List.mem_map.mp hitem
    obtain ⟨m', hm', hat', -, flags, hflags, hsame⟩ := ht it hit
    have he := hone m' hm' hat'
    subst he
    simp only [hflags, Option.getD_some] at h
    exact (hsame flag).symm.trans h
  cases op
  case addFlags uid f =>
    obtain ⟨m', hm', hat', hsame⟩ := ht item hitem
    have he := hone m' hm' hat'
    subst he
    exact (hsame flag).symm.trans h
  case removeFlags uid f =>
    obtain ⟨m', hm', hat', hsame⟩ := ht item hitem
    have he := hone m' hm' hat'
    subst he
    exact (hsame flag).symm.trans h
  case fetch uids items =>
    cases items with
    | message => exact hfetch value ht hitem
    | flags => exact hfetch value ht hitem
    | headers => exact absurd hitem List.not_mem_nil
  all_goals exact absurd hitem List.not_mem_nil

/-- No call of the tool puts anything into the INBOX. -/
theorem stems {d d' : Diary} {op : Op} {r : Reply op} (h : Keeps k d op r d') {m' : Message}
    (hm' : m' ∈ d'.world.messages) (hfolder : m'.folder = "INBOX") :
    ∃ m ∈ d.world.messages, m.folder = "INBOX" ∧ m.uid = m'.uid ∧ m.raw = m'.raw ∧
      (m' = m ∨ (d'.world = effect op d.world ∧ m' = m.withFlags (flagsAfter op m))) := by
  obtain ⟨hserves, hhonest, -, -⟩ := h
  rcases hserves.cases with hw | hw
  · rw [hw] at hm'
    exact ⟨m', hm', hfolder, rfl, rfl, Or.inl rfl⟩
  · rw [hw] at hm'
    rcases mem_effect hm' with ⟨m, hm, rfl⟩ | ⟨m, hm, uid, folder, hputs, -, rfl⟩
    · exact ⟨m, hm, hfolder, rfl, rfl, Or.inr ⟨hw, rfl⟩⟩
    · -- a copy into the INBOX would have a new UID, but then nothing has changed
      have hsame : d'.world = d.world := by
        rcases hputs with rfl | rfl
        · exact hhonest hfolder
        · exact hhonest hfolder
      rw [← hw, hsame] at hm'
      exact ⟨_, hm', hfolder, rfl, rfl, Or.inl rfl⟩

/-- Two keywords of the tool that differ at most in letter case are one. -/
theorem all_unique {keyword keyword' : String} (h : keyword ∈ k.all) (h' : keyword' ∈ k.all)
    (he : lower keyword = lower keyword') : keyword = keyword' := by
  simp only [Keywords.all, List.mem_cons, List.not_mem_nil, or_false] at h h'
  rcases h with rfl | rfl | rfl <;> rcases h' with rfl | rfl | rfl <;> first
    | rfl
    | exact absurd he k.inserted_ne_failed
    | exact absurd he.symm k.inserted_ne_failed
    | exact absurd he k.inserted_ne_unverified
    | exact absurd he.symm k.inserted_ne_unverified
    | exact absurd he k.failed_ne_unverified
    | exact absurd he.symm k.failed_ne_unverified

theorem all_of_quarantine {keyword : String} (h : keyword ∈ k.quarantine) : keyword ∈ k.all := by
  simp only [Keywords.quarantine, Keywords.all, List.mem_cons, List.not_mem_nil, or_false] at h ⊢
  exact Or.inr h

theorem inserted_mem : k.inserted ∈ k.all := by simp [Keywords.all]

theorem failed_mem : k.failed ∈ k.all := by simp [Keywords.all]

theorem unverified_mem : k.unverified ∈ k.all := by simp [Keywords.all]

/-- A keyword leaves a message only through a call that is noted to clear it. -/
theorem has_or_cleared {d d' : Diary} {op : Op} {r : Reply op} (hw : WellFormed d.world)
    (hg : Allowed k d op) (h : Keeps k d op r d') {m m' : Message} (hm : m ∈ d.world.messages)
    (hm' : m' ∈ d'.world.messages) (hfolder : m'.folder = "INBOX") (hu : m.uid = m'.uid)
    {keyword : String} (hk : keyword ∈ k.all) (hhas : m.has keyword = true) :
    m'.has keyword = true ∨ (m.raw, keyword) ∈ clearedBy k op d.world d'.world := by
  obtain ⟨m₀, hm₀, hfolder₀, hu₀, -, hcase⟩ := stems h hm' hfolder
  have he := hw.unique hm₀ hm (hu₀.trans hu.symm)
  subst he
  rcases hcase with rfl | ⟨hw', rfl⟩
  · exact Or.inl hhas
  · by_cases hout : hasFlag (flagsAfter op m₀) keyword = true
    · exact Or.inl hout
    · have hin : hasFlag m₀.flags keyword = true := hhas
      cases op
      case removeFlags uid flag =>
        refine Or.inr ?_
        simp only [flagsAfter] at hout
        by_cases hat : m₀.isAt uid = true
        · rw [if_pos hat, hasFlag_removeFlag, hin, Bool.true_and, decide_eq_true_eq] at hout
          -- it is the keyword that is cleared, and a guarded call clears a quarantine keyword only
          have he := all_unique hk (all_of_quarantine hg) (not_not.mp hout)
          subst he
          have hquarantine : keyword ∈ k.quarantine := hg
          simp only [clearedBy]
          rw [if_pos hquarantine]
          refine List.mem_map.mpr ⟨m₀, List.mem_filter.mpr ⟨hm₀, ?_⟩, rfl⟩
          rw [hat, hhas, Bool.true_and, Bool.true_and, List.all_eq_true]
          intro m₁ hm₁
          rw [hw'] at hm₁
          obtain ⟨m₂, hm₂, rfl⟩ := mem_store.mp hm₁
          by_cases hat₂ : m₂.isAt uid = true
          · rw [if_pos hat₂]
            simp [Message.has]
          · have hat₂ : (m₂.withFlags (if m₂.isAt uid then removeFlag keyword m₂.flags
                else m₂.flags)).isAt uid = false := Bool.eq_false_iff.mpr hat₂
            rw [hat₂]
            rfl
        · rw [if_neg hat] at hout
          exact absurd hin hout
      case addFlags uid flag =>
        simp only [flagsAfter] at hout
        by_cases hat : m₀.isAt uid = true
        · rw [if_pos hat, hasFlag_addFlag, hin, Bool.true_or] at hout
          exact absurd rfl hout
        · rw [if_neg hat] at hout
          exact absurd hin hout
      all_goals exact absurd hin hout

theorem mem_notesOf {op : Op} {r : Reply op} {w w' : World} {n : Note}
    (h : n ∈ notesOf k op r w w') :
    (∃ c ∈ marksOf k op r w', n = .marked c.1) ∨ (∃ raw ∈ goneBy op r w, n = .marked raw) ∨
      (∃ c ∈ clearedBy k op w w', n = .cleared c.1) ∨ (∃ raw ∈ fetchedBy op r, n = .fetched raw) ∨
      n ∈ answersOf op r := by
  simp only [notesOf, List.mem_append, List.mem_map] at h
  rcases h with (((⟨c, hc, rfl⟩ | ⟨raw, hraw, rfl⟩) | ⟨c, hc, rfl⟩) | ⟨raw, hraw, rfl⟩) | h
  · exact Or.inl ⟨c, hc, rfl⟩
  · exact Or.inr (Or.inl ⟨raw, hraw, rfl⟩)
  · exact Or.inr (Or.inr (Or.inl ⟨c, hc, rfl⟩))
  · exact Or.inr (Or.inr (Or.inr (Or.inl ⟨raw, hraw, rfl⟩)))
  · exact Or.inr (Or.inr (Or.inr (Or.inr h)))

theorem answersOf_insert (raw : RawMail) (labels : List String)
    (r : Reply (.insertRaw raw labels)) :
    ∃ v, answersOf (.insertRaw raw labels) r = [.answered raw v] := by
  rcases r with (_ | _ | _ | ⟨cls, text, status⟩ | _) | id
  case error.gmailError => cases cls <;> exact ⟨_, rfl⟩
  all_goals exact ⟨_, rfl⟩

/-- The notes about an insert are its answer. -/
theorem notesOf_insert (raw : RawMail) (labels : List String) (r : Reply (.insertRaw raw labels))
    (w w' : World) : notesOf k (.insertRaw raw labels) r w w' =
      answersOf (.insertRaw raw labels) r := by
  cases r <;> rfl

/-- The notes about any other call than an insert are inner ones. -/
theorem notesOf_inner {op : Op} {r : Reply op} {w v : World} (hop : op.isInsert = false) :
    ∀ n ∈ notesOf k op r w v, Log.Inner n := by
  intro n hn
  rcases mem_notesOf hn with ⟨c, _, rfl⟩ | ⟨raw, _, rfl⟩ | ⟨c, _, rfl⟩ | ⟨raw, _, rfl⟩ | hn
  · exact ⟨rfl, nofun⟩
  · exact ⟨rfl, nofun⟩
  · exact ⟨rfl, nofun⟩
  · exact ⟨rfl, nofun⟩
  · cases op
    case insertRaw raw labels => exact absurd hop nofun
    all_goals exact absurd hn List.not_mem_nil

theorem keeps_wellFormed {d d' : Diary} {op : Op} {r : Reply op} (hw : WellFormed d.world)
    (h : Keeps k d op r d') : WellFormed d'.world := by
  rcases h.1.cases with hw' | hw'
  · rw [hw']
    exact hw
  · rw [hw']
    exact hw.effect op

/-- A message keeps its mark unless a call is noted to clear it. -/
theorem hasMark_or_cleared {d d' : Diary} {op : Op} {r : Reply op} (hw : WellFormed d.world)
    (hg : Allowed k d op) (h : Keeps k d op r d') {m m' : Message} (hm : m ∈ d.world.messages)
    (hm' : m' ∈ d'.world.messages) (hfolder : m'.folder = "INBOX") (hu : m.uid = m'.uid)
    (hraw : m.raw = m'.raw) (hmark : HasMark k d m) :
    HasMark k d' m' ∨ Note.cleared m.raw ∈ notesOf k op r d.world d'.world := by
  obtain ⟨keyword, hk, hhas, hconfirmed⟩ := hmark
  by_cases hc : (m.raw, keyword) ∈ clearedBy k op d.world d'.world
  · refine Or.inr ?_
    simp only [notesOf, List.mem_append, List.mem_map]
    exact Or.inl (Or.inl (Or.inr ⟨_, hc, rfl⟩))
  · rcases has_or_cleared hw hg h hm hm' hfolder hu hk hhas with hhas' | hc'
    · refine Or.inl ⟨keyword, hk, hhas', ?_⟩
      rw [h.2.2.1, ← hraw]
      refine List.mem_append_right _ (List.mem_filter.mpr ⟨hconfirmed, ?_⟩)
      rw [decide_eq_false hc]
      rfl
    · exact absurd hc' hc

/-- A marked mail stays marked unless a call is noted to clear it. -/
theorem marked_or_cleared {d d' : Diary} {op : Op} {r : Reply op} (hw : WellFormed d.world)
    (hg : Allowed k d op) (h : Keeps k d op r d') {raw : RawMail} (hmark : Marked k d raw)
    (hnot : ∀ n ∈ notesOf k op r d.world d'.world, ¬ n.Excuses raw) : Marked k d' raw := by
  intro m' hm' hfolder hraw
  obtain ⟨m, hm, hfolder₀, hu, hraw₀, -⟩ := stems h hm' hfolder
  have hmr := hraw₀.trans hraw
  rcases hasMark_or_cleared hw hg h hm hm' hfolder hu hraw₀ (hmark m hm hfolder₀ hmr) with hk | hc
  · exact hk
  · exact absurd hmr (hnot _ hc)

/-- A completed move leaves nothing at its UID. -/
theorem gone_of_move {d d' : Diary} {uid : ℕ} {folder : String} (hw : WellFormed d.world)
    (h : Keeps k d (.move uid folder) (.ok ()) d') :
    ∀ m ∈ d'.world.messages, m.isAt uid = false := by
  have heffect : d'.world = effect (.move uid folder) d.world := Serves.effect_of_ok rfl h.1
  intro m hm
  rw [heffect] at hm
  simp only [effect, World.moveTo] at hm
  cases hf : d.world.find uid with
  | none =>
      rw [hf] at hm
      exact World.find_none hf hm
  | some m₀ =>
      rw [hf] at hm
      rcases List.mem_append.mp hm with hm | hm
      · simpa using (List.mem_filter.mp hm).2
      · -- the message that was moved has a new UID
        obtain ⟨hm₀, hat₀⟩ := World.find_some hf
        have hgiven := hw.given m₀ hm₀
        have hu := (Message.isAt_iff.mp hat₀).2
        rw [List.mem_singleton.mp hm]
        refine Bool.eq_false_iff.mpr (fun hat => ?_)
        have hu' : d.world.uidNext = uid := (Message.isAt_iff.mp hat).2
        omega

/-- Mail that a completed move or expunge took out of the INBOX is not in the INBOX any more, if it
    was there once. -/
theorem not_in_of_goneBy {d d' : Diary} {op : Op} {r : Reply op} {raw : RawMail}
    (hw : WellFormed d.world) (h : Keeps k d op r d')
    (hone : ∀ m ∈ d.world.messages, ∀ m' ∈ d.world.messages, m.folder = "INBOX" →
      m'.folder = "INBOX" → m.raw = raw → m'.raw = raw → m.uid = m'.uid)
    (hgone : raw ∈ goneBy op r d.world) :
    ∀ m' ∈ d'.world.messages, m'.folder = "INBOX" → m'.raw ≠ raw := by
  intro m' hm' hfolder' hraw'
  obtain ⟨m₀, hm₀, hfolder₀, hu₀, hraw₀, -⟩ := stems h hm' hfolder'
  have habsent : ∀ uid, (∀ m ∈ d'.world.messages, m.isAt uid = false) →
      ∀ m ∈ d.world.messages, m.isAt uid = true → m.raw = raw → False := by
    intro uid hall m hm hat hraw
    obtain ⟨hfolder, hu⟩ := Message.isAt_iff.mp hat
    have hsame := hone m hm m₀ hm₀ hfolder hfolder₀ hraw (hraw₀.trans hraw')
    have hat' : m'.isAt uid = true :=
      Message.isAt_iff.mpr ⟨hfolder', hu₀.symm.trans (hsame.symm.trans hu)⟩
    rw [hall m' hm'] at hat'
    exact absurd hat' nofun
  cases op
  case uidExpunge uid =>
    cases r with
    | error e => exact absurd hgone List.not_mem_nil
    | ok value =>
        obtain ⟨m, hm, hraw⟩ := List.mem_map.mp hgone
        obtain ⟨hm, hat⟩ := List.mem_filter.mp hm
        exact habsent uid h.2.1 m hm hat hraw
  case move uid folder =>
    cases r with
    | error e => exact absurd hgone List.not_mem_nil
    | ok value =>
        obtain ⟨m, hm, hraw⟩ := List.mem_map.mp hgone
        obtain ⟨hm, hat⟩ := List.mem_filter.mp hm
        exact habsent uid (gone_of_move hw h) m hm hat hraw
  all_goals exact absurd hgone List.not_mem_nil

/-- A mail whose marker has just been confirmed is marked. -/
theorem marked_of_note {d d' : Diary} {op : Op} {r : Reply op} {raw : RawMail}
    (hs : d.Sound k) (h : Keeps k d op r d') (hd : ¬ Log.Doubled raw d.log)
    (hn : Note.marked raw ∈ notesOf k op r d.world d'.world) : Marked k d' raw := by
  have hwf' := keeps_wellFormed hs.wellFormed h
  have hone : ∀ m ∈ d.world.messages, ∀ m' ∈ d.world.messages, m.folder = "INBOX" →
      m'.folder = "INBOX" → m.raw = raw → m'.raw = raw → m.uid = m'.uid := by
    intro m hm m' hm' hfolder hfolder' hraw hraw'
    exact hs.unique m hm m' hm' hfolder hfolder' (hraw.trans hraw'.symm) (hraw ▸ hd)
  rcases mem_notesOf hn with ⟨⟨raw', keyword⟩, hc, he⟩ | ⟨raw', hgone, he⟩ | ⟨c, _, he⟩ |
    ⟨raw', _, he⟩ | hans
  · cases he
    obtain ⟨value, rfl, item, hitem, m', hm', hat, hraw', hk, hflag⟩ := mem_marksOf hc
    have hhas := reported_has h.1.2 hwf' hitem hm' hat hflag
    have hmark : HasMark k d' m' := by
      refine ⟨keyword, hk, hhas, ?_⟩
      rw [h.2.2.1, hraw']
      exact List.mem_append_left _ hc
    intro m₁ hm₁ hfolder₁ hraw₁
    obtain ⟨hfolder', -⟩ := Message.isAt_iff.mp hat
    obtain ⟨m₀, hm₀, hfolder₀, hu₀, hraw₀, -⟩ := stems h hm' hfolder'
    obtain ⟨m₂, hm₂, hfolder₂, hu₂, hraw₂, -⟩ := stems h hm₁ hfolder₁
    have hu := hone m₂ hm₂ m₀ hm₀ hfolder₂ hfolder₀ (hraw₂.trans hraw₁) (hraw₀.trans hraw')
    rw [hwf'.unique hm₁ hm' (hu₂.symm.trans (hu.trans hu₀))]
    exact hmark
  · cases he
    intro m₁ hm₁ hfolder₁ hraw₁
    exact absurd hraw₁ (not_in_of_goneBy hs.wellFormed h hone hgone m₁ hm₁ hfolder₁)
  · exact absurd he nofun
  · exact absurd he nofun
  · cases op
    case insertRaw raw' labels =>
      obtain ⟨v, he⟩ := answersOf_insert raw' labels r
      rw [he] at hans
      exact absurd (List.mem_singleton.mp hans) nofun
    all_goals exact absurd hans List.not_mem_nil

/-- An insert changes neither the mailbox nor the confirmed keywords. -/
theorem keeps_insert {d d' : Diary} {raw : RawMail} {labels : List String}
    {r : Reply (.insertRaw raw labels)} (h : Keeps k d (.insertRaw raw labels) r d') :
    d'.world.messages = d.world.messages ∧ d'.confirmed = d.confirmed ∧
      ∃ v, d'.log = .answered raw v :: d.log := by
  obtain ⟨hserves, -, hconfirmed, hlog⟩ := h
  obtain ⟨v, hv⟩ := answersOf_insert raw labels r
  refine ⟨?_, ?_, v, ?_⟩
  · rcases hserves.cases with hw | hw <;> rw [hw]
    rfl
  · rw [hconfirmed]
    have hm : marksOf k (.insertRaw raw labels) r d'.world = [] := by
      cases r <;> rfl
    rw [hm, List.nil_append]
    exact List.filter_eq_self.mpr (fun c _ => rfl)
  · rw [hlog, notesOf_insert, hv, List.singleton_append]

/-- **A guarded call keeps the invariant.** -/
theorem keeps_sound {d d' : Diary} {op : Op} {r : Reply op} (hs : d.Sound k)
    (hg : Allowed k d op) (h : Keeps k d op r d') : d'.Sound k := by
  have hwf' := keeps_wellFormed hs.wellFormed h
  have hsub : ∀ {raw}, ¬ Log.Doubled raw d'.log → ¬ Log.Doubled raw d.log := by
    intro raw hd
    rw [h.2.2.2] at hd
    exact Log.Doubled.append hd
  have hunique : ∀ m ∈ d'.world.messages, ∀ m' ∈ d'.world.messages, m.folder = "INBOX" →
      m'.folder = "INBOX" → m.raw = m'.raw → ¬ Log.Doubled m.raw d'.log → m.uid = m'.uid := by
    intro m hm m' hm' hf hf' hraw hd
    obtain ⟨m₀, hm₀, hf₀, hu₀, hr₀, -⟩ := stems h hm hf
    obtain ⟨m₁, hm₁, hf₁, hu₁, hr₁, -⟩ := stems h hm' hf'
    rw [← hu₀, ← hu₁]
    refine hs.unique m₀ hm₀ m₁ hm₁ hf₀ hf₁ (hr₀.trans (hraw.trans hr₁.symm)) ?_
    rw [hr₀]
    exact hsub hd
  by_cases hop : op.isInsert = true
  · cases op
    case insertRaw raw labels =>
      -- an insert touches no message of the mailbox: only the log changes
      obtain ⟨hmessages, hconfirmed, v, hlog⟩ := keeps_insert h
      have hmarked : ∀ raw', Marked k d raw' → Marked k d' raw' := by
        intro raw' hm
        unfold Marked HasMark
        rw [hmessages, hconfirmed]
        exact hm
      refine ⟨hwf', hunique, fun raw' hd hdue => ?_, fun raw' hd hsent => ?_, ?_⟩
      · rw [hlog] at hdue
        exact hmarked raw' (hs.due raw' (hsub hd) hdue)
      · rw [hlog] at hsent ⊢
        rcases hsent with ⟨rfl, rfl, -⟩ | hsent
        · exact Or.inr (Or.inl ⟨rfl, rfl⟩)
        · exact (hs.sent raw' (hsub hd) hsent).imp (hmarked raw') Or.inr
      · rw [hlog]
        exact ⟨hs.kept, hg⟩
    all_goals exact absurd hop nofun
  · have hop : op.isInsert = false := Bool.eq_false_iff.mpr hop
    have hinner := notesOf_inner (k := k) (r := r) (w := d.world) (v := d'.world) hop
    refine ⟨hwf', hunique, fun raw hd hdue => ?_, fun raw hd hsent => ?_, ?_⟩
    · rw [h.2.2.2] at hdue
      obtain ⟨hdue, hnot⟩ := Log.due_append (fun n hn => (hinner n hn).1) hdue
      exact marked_or_cleared hs.wellFormed hg h (hs.due raw (hsub hd) hdue) hnot
    · rw [h.2.2.2] at hsent ⊢
      obtain ⟨hsent, hnot⟩ := Log.sent_append hinner hsent
      rcases hs.sent raw (hsub hd) hsent with hm | hu
      · exact Or.inl (marked_or_cleared hs.wellFormed hg h hm hnot)
      · -- the run had still to record it: this call did, or it is still unrecorded
        by_cases hn : Note.marked raw ∈ notesOf k op r d.world d'.world
        · exact Or.inl (marked_of_note hs h (hsub hd) hn)
        · refine Or.inr (Log.unrecorded_stays (fun n hin => ⟨hinner n hin, ?_⟩) hu)
          rintro rfl
          exact hn hin
    · rw [h.2.2.2]
      exact Log.kept_append hinner hs.kept

/-! ### One move of the others -/

/-- Of a mail the INBOX does not hold twice there is one message. -/
theorem uid_of_not_again {w : World} {raw : RawMail} (h : again w raw = false) {m m' : Message}
    (hm : m ∈ w.messages) (hm' : m' ∈ w.messages) (hf : m.folder = "INBOX")
    (hf' : m'.folder = "INBOX") (hr : m.raw = raw) (hr' : m'.raw = raw) : m.uid = m'.uid := by
  have hin : m ∈ w.messages.filter
      (fun m => decide (m.folder = "INBOX") && decide (m.raw = raw)) :=
    List.mem_filter.mpr ⟨hm, by simp [hf, hr]⟩
  have hin' : m' ∈ w.messages.filter
      (fun m => decide (m.folder = "INBOX") && decide (m.raw = raw)) :=
    List.mem_filter.mpr ⟨hm', by simp [hf', hr']⟩
  unfold again at h
  generalize w.messages.filter (fun m => decide (m.folder = "INBOX") && decide (m.raw = raw)) = l
    at h hin hin'
  match l, h with
  | [], _ => exact absurd hin List.not_mem_nil
  | [a], _ => rw [List.mem_singleton.mp hin, List.mem_singleton.mp hin']
  | a :: b :: rest, h => simp at h

/-- The notes about an event. -/
abbrev noticed (e : Event) (w : World) : Log :=
  (enters e).map (fun raw => .entered raw (again (e.apply w) raw))

theorem noticed_inner {e : Event} {w : World} :
    ∀ n ∈ noticed e w, Log.Inner n ∧ ∀ raw, n ≠ .cleared raw ∧ n ≠ .marked raw := by
  intro n hn
  obtain ⟨raw, -, rfl⟩ := List.mem_map.mp hn
  exact ⟨⟨rfl, nofun⟩, fun _ => ⟨nofun, nofun⟩⟩

/-- What is in the INBOX after an event was there before, or has been noticed to enter. -/
theorem stems_apply {d : Diary} {e : Event} (hs : WellFormed d.world) (he : e.Enabled d.world)
    (hp : Persists k d e) {m' : Message} (hm' : m' ∈ (e.apply d.world).messages)
    (hfolder : m'.folder = "INBOX") :
    m'.raw ∈ enters e ∨ ∃ m ∈ d.world.messages, m.folder = "INBOX" ∧ m.uid = m'.uid ∧
      m.raw = m'.raw ∧
      (HasMark k d m → ∃ keyword ∈ k.all, m'.has keyword = true ∧
        (m'.raw, keyword) ∈ d.confirmed) := by
  rcases mem_apply hs he hm' with hm | ⟨m, hm, flags, rfl, rfl⟩ | ⟨raw, uid, flags, rfl, rfl⟩ |
    ⟨m, hm, folder, hcase, rfl⟩
  · exact Or.inr ⟨m', hm, hfolder, rfl, rfl, id⟩
  · refine Or.inr ⟨m, hm, hfolder, rfl, rfl, ?_⟩
    rintro ⟨keyword, hk, hhas, hconfirmed⟩
    exact ⟨keyword, hk, hp hfolder keyword hk hconfirmed hhas, hconfirmed⟩
  · exact Or.inl (List.mem_singleton_self raw)
  · refine Or.inl ?_
    have hfolder : folderName folder = "INBOX" := hfolder
    rcases hcase with rfl | rfl
    · simp [enters, hfolder]
    · simp [enters, hfolder]

/-- **A move of the others keeps the invariant.** -/
theorem others_sound {d d' : Diary} (hs : d.Sound k) (h : Others k d d') : d'.Sound k := by
  obtain ⟨e, he, hp, rfl⟩ := h
  have hinner := noticed_inner (e := e) (w := d.world)
  have hmarked : ∀ {raw}, (∀ n ∈ noticed e d.world, ¬ n.Excuses raw) → Marked k d raw →
      Marked k { d with world := e.apply d.world, log := noticed e d.world ++ d.log } raw := by
    intro raw hnot hm m' hm' hfolder hraw
    rcases stems_apply hs.wellFormed he hp hm' hfolder with hin | ⟨m, hm₀, hf₀, -, hr₀, hmark⟩
    · exact absurd hraw (hnot _ (List.mem_map_of_mem hin))
    · exact hmark (hm m hm₀ hf₀ (hr₀.trans hraw))
  refine ⟨hs.wellFormed.apply he, ?_, fun raw hd hdue => ?_, fun raw hd hsent => ?_,
    Log.kept_append (fun n hn => (hinner n hn).1) hs.kept⟩
  · intro m hm m' hm' hf hf' hraw hd
    by_cases hin : m.raw ∈ enters e
    · have hagain : again (e.apply d.world) m.raw = false := by
        refine Bool.eq_false_iff.mpr (fun ht => hd ?_)
        refine List.mem_append_left _ (List.mem_map.mpr ⟨m.raw, hin, ?_⟩)
        rw [ht]
      exact uid_of_not_again hagain hm hm' hf hf' rfl hraw.symm
    · rcases stems_apply hs.wellFormed he hp hm hf with hin' | ⟨m₀, hm₀, hf₀, hu₀, hr₀, -⟩
      · exact absurd hin' hin
      rcases stems_apply hs.wellFormed he hp hm' hf' with hin' | ⟨m₁, hm₁, hf₁, hu₁, hr₁, -⟩
      · exact absurd (hraw ▸ hin') hin
      rw [← hu₀, ← hu₁]
      refine hs.unique m₀ hm₀ m₁ hm₁ hf₀ hf₁ (hr₀.trans (hraw.trans hr₁.symm)) ?_
      rw [hr₀]
      exact Log.Doubled.append hd
  · obtain ⟨hdue, hnot⟩ := Log.due_append (fun n hn => (hinner n hn).1.1) hdue
    exact hmarked hnot (hs.due raw (Log.Doubled.append hd) hdue)
  · obtain ⟨hsent, hnot⟩ := Log.sent_append (fun n hn => (hinner n hn).1) hsent
    rcases hs.sent raw (Log.Doubled.append hd) hsent with hm | hu
    · exact Or.inl (hmarked hnot hm)
    · exact Or.inr (Log.unrecorded_stays
        (fun n hn => ⟨(hinner n hn).1, ((hinner n hn).2 raw).2⟩) hu)

/-! ### What no step of a run takes back -/

/-- How many copies of the mail Gmail holds. -/
def copies (w : World) (raw : RawMail) : ℕ := (w.gmail.map GmailCopy.raw).count raw

/-- From `d` to `d'` nothing was inserted, cleared or ended; what is in the INBOX was there before
    with at most fewer marks, or has been noticed to enter. -/
structure Grows (k : Keywords) (d d' : Diary) : Prop where
  uidNext : d.world.uidNext ≤ d'.world.uidNext
  named : ∀ m' ∈ d'.world.messages, m'.uid < d.world.uidNext →
    ∃ m ∈ d.world.messages, m.uid = m'.uid ∧ m.folder = m'.folder ∧ m.raw = m'.raw
  gmail : ∀ raw, copies d'.world raw = copies d.world raw
  log : ∃ new, d'.log = new ++ d.log ∧ (∀ n ∈ new, Log.Inner n ∧ ∀ raw, n ≠ .cleared raw) ∧
    ∀ m' ∈ d'.world.messages, m'.folder = "INBOX" → (∃ n ∈ new, n.Excuses m'.raw) ∨
      ∃ m ∈ d.world.messages, m.folder = "INBOX" ∧ m.uid = m'.uid ∧ m.raw = m'.raw ∧
        (HasMark k d m → HasMark k d' m')

namespace Grows

theorem refl (d : Diary) : Grows k d d where
  uidNext := Nat.le_refl _
  named := fun m hm _ => ⟨m, hm, rfl, rfl, rfl⟩
  gmail := fun _ => rfl
  log := ⟨[], rfl, nofun, fun m hm hf => Or.inr ⟨m, hm, hf, rfl, rfl, id⟩⟩

theorem trans {d d' d'' : Diary} (h : Grows k d d') (h' : Grows k d' d'') : Grows k d d'' where
  uidNext := Nat.le_trans h.uidNext h'.uidNext
  named := by
    intro m'' hm'' hu
    obtain ⟨m', hm', hu', hf', hr'⟩ := h'.named m'' hm'' (Nat.lt_of_lt_of_le hu h.uidNext)
    rw [← hu'] at hu
    obtain ⟨m, hm, hu, hf, hr⟩ := h.named m' hm' hu
    exact ⟨m, hm, hu.trans hu', hf.trans hf', hr.trans hr'⟩
  gmail := fun raw => (h'.gmail raw).trans (h.gmail raw)
  log := by
    obtain ⟨new, hlog, hnew, hstem⟩ := h.log
    obtain ⟨new', hlog', hnew', hstem'⟩ := h'.log
    refine ⟨new' ++ new, by rw [hlog', hlog, List.append_assoc], fun n hn => ?_, ?_⟩
    · rcases List.mem_append.mp hn with hn | hn
      · exact hnew' n hn
      · exact hnew n hn
    · intro m'' hm'' hf''
      rcases hstem' m'' hm'' hf'' with ⟨n, hn, hex⟩ | ⟨m', hm', hf', hu', hr', hmark'⟩
      · exact Or.inl ⟨n, List.mem_append_left _ hn, hex⟩
      · rcases hstem m' hm' hf' with ⟨n, hn, hex⟩ | ⟨m, hm, hf, hu, hr, hmark⟩
        · exact Or.inl ⟨n, List.mem_append_right _ hn, hr' ▸ hex⟩
        · exact Or.inr ⟨m, hm, hf, hu.trans hu', hr.trans hr', fun h => hmark' (hmark h)⟩

end Grows

/-- A call of a run other than an insert. -/
theorem keeps_grows {d d' : Diary} {op : Op} {r : Reply op} (hs : d.Sound k)
    (hinsert : op.isInsert = false) (hremove : ∀ uid flag, op ≠ .removeFlags uid flag)
    (h : Keeps k d op r d') : Grows k d d' := by
  have hg : Allowed k d op := by
    cases op
    case insertRaw raw labels => exact absurd hinsert nofun
    case removeFlags uid flag => exact absurd rfl (hremove uid flag)
    all_goals trivial
  have hcleared : ∀ w w', clearedBy k op w w' = [] := by
    intro w w'
    cases op
    case removeFlags uid flag => exact absurd rfl (hremove uid flag)
    all_goals rfl
  have hnone : ∀ raw, Note.cleared raw ∉ notesOf k op r d.world d'.world := by
    intro raw hn
    rcases mem_notesOf hn with ⟨c, _, he⟩ | ⟨raw', _, he⟩ | ⟨c, hc, _⟩ | ⟨raw', _, he⟩ | hn
    · exact absurd he nofun
    · exact absurd he nofun
    · rw [hcleared] at hc
      exact absurd hc List.not_mem_nil
    · exact absurd he nofun
    · cases op
      case insertRaw raw' labels => exact absurd hinsert nofun
      all_goals exact absurd hn List.not_mem_nil
  refine ⟨?_, ?_, ?_, _, h.2.2.2, fun n hn => ⟨notesOf_inner hinsert n hn, ?_⟩, ?_⟩
  · rcases h.1.cases with hw | hw
    · rw [hw]
    · rw [hw]
      exact uidNext_le_effect op _
  · rcases h.1.cases with hw | hw
    · rw [hw]
      exact fun m hm _ => ⟨m, hm, rfl, rfl, rfl⟩
    · rw [hw]
      exact fun m' hm' hu => named_effect hm' hu
  · intro raw
    unfold copies
    rcases h.1.cases with hw | hw
    · rw [hw]
    · rw [hw, effect_gmail]
      rintro raw labels rfl
      exact absurd hinsert nofun
  · rintro raw rfl
    exact hnone raw hn
  · intro m' hm' hf
    obtain ⟨m, hm, hf₀, hu₀, hr₀, -⟩ := stems h hm' hf
    refine Or.inr ⟨m, hm, hf₀, hu₀, hr₀, fun hmark => ?_⟩
    rcases hasMark_or_cleared hs.wellFormed hg h hm hm' hf hu₀ hr₀ hmark with hk | hc
    · exact hk
    · exact absurd hc (hnone m.raw)

theorem others_grows {d d' : Diary} (hs : d.Sound k) (h : Others k d d') : Grows k d d' := by
  obtain ⟨e, he, hp, rfl⟩ := h
  have hinner := noticed_inner (e := e) (w := d.world)
  refine ⟨uidNext_le_apply he, fun m' hm' hu => ?_, fun raw => ?_, _, rfl,
    fun n hn => ⟨(hinner n hn).1, fun raw => ((hinner n hn).2 raw).1⟩, fun m' hm' hf => ?_⟩
  · exact named_apply hs.wellFormed he hm' hu
  · unfold copies
    rw [apply_gmail]
  · rcases stems_apply hs.wellFormed he hp hm' hf with hin | ⟨m, hm, hf₀, hu₀, hr₀, hmark⟩
    · exact Or.inl ⟨_, List.mem_map_of_mem hin, rfl⟩
    · exact Or.inr ⟨m, hm, hf₀, hu₀, hr₀, hmark⟩

end Diary

end MailTransporter
