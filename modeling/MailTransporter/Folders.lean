import MailTransporter.Exceptions
import MailTransporter.Fallback
import MailTransporter.Settings
import MailTransporter.Settlement
import Mathlib.Tactic.Linarith

set_option autoImplicit false

/-! # Where mail that is not in Gmail ends up

`FAILED_FOLDER` and `UNVERIFIED_FOLDER` are free texts, and nothing compares them with each other,
with the INBOX or with the folder `trash_folder` finds. Here a run is followed on an account with a
record of its calls: what Gmail refuses stays out of the Trash, and what was moved aside stays out
of the INBOX, as long as the names keep apart. Nobody else is at the account. -/

namespace MailTransporter

open Effect
open Effect.Routine (raise attempt getSelf modifySelf)

namespace Folders

/-! ## The folder `move_to_trash` uses -/

/-- The name `trash_folder` comes to: what the server marks as its Trash, or else the first candidate
    there is. An empty mark counts as none. -/
def trashName (special : Option String) (folders : List String) : Option String :=
  if special.getD "" = "" then trashFolderCandidates.find? (fun name => decide (name ∈ folders))
  else special

/-- The candidates up to the first one there is. -/
def upTo (folders : List String) : List String → List String
  | [] => []
  | name :: rest => if name ∈ folders then [name] else name :: upTo folders rest

/-- The names `trash_folder` may come to on an account with these folders, and perhaps more later. -/
def reach (special : Option String) (folders : List String) : List String :=
  if special.getD "" = "" then upTo folders trashFolderCandidates else special.toList

theorem mem_upTo {folders folders' : List String} (h : ∀ f ∈ folders, f ∈ folders')
    {candidates : List String} {name : String}
    (hname : candidates.find? (fun name => decide (name ∈ folders')) = some name) :
    name ∈ upTo folders candidates := by
  induction candidates with
  | nil => exact absurd hname nofun
  | cons candidate rest ih =>
      rw [List.find?_cons] at hname
      by_cases hthere : candidate ∈ folders
      · rw [decide_eq_true (h candidate hthere)] at hname
        simp only [upTo, if_pos hthere]
        exact List.mem_singleton.mpr (Option.some.inj hname).symm
      · simp only [upTo, if_neg hthere]
        by_cases hnew : candidate ∈ folders'
        · rw [decide_eq_true hnew] at hname
          exact List.mem_cons.mpr (Or.inl (Option.some.inj hname).symm)
        · rw [decide_eq_false hnew] at hname
          exact List.mem_cons_of_mem _ (ih hname)

theorem mem_reach {special : Option String} {folders folders' : List String}
    (h : ∀ f ∈ folders, f ∈ folders') {name : String} (hname : trashName special folders' = some name) :
    name ∈ reach special folders := by
  unfold trashName at hname
  unfold reach
  split at hname
  · next hempty =>
    rw [if_pos hempty]
    exact mem_upTo h hname
  · next hset =>
    rw [if_neg hset, hname]
    exact List.mem_singleton_self name

/-! ## The account -/

/-- The account, the calls made so far with their answers, and the time. -/
structure Log where
  world : World
  events : List Exceptions.Event
  now : ℚ

/-- The log a run starts with. -/
def opened (w : World) (now : ℚ) : Log := ⟨w, [], now⟩

/-- What an answer says about the account: the folder marked as the Trash, the folders there are, no
    UID twice, and a clock that does not go back. -/
def Tells (special : Option String) (l l' : Log) : (op : Op) → Reply op → Prop
  | .findTrash, .ok name => name = special
  | .folderExists folder, .ok there => there = decide (folder ∈ l.world.folders)
  | .search _, .ok uids => uids.Nodup
  | .clock, .ok now => l.now ≤ now ∧ now ≤ l'.now
  | _, _ => True

/-- The server, Gmail and the clock, with the log kept. -/
def Account (special : Option String) : Env Op Reply Log := fun l op r l' =>
  Serves l.world op r l'.world ∧ Tells special l l' op r ∧ l.now ≤ l'.now ∧
  l'.events = l.events ++ [⟨op, r⟩]

/-- The mail Gmail refuses for good in this answer. -/
def refusal : (op : Op) → Reply op → Option RawMail
  | .insertRaw raw _, .error (.gmailError .permanent _ _) => some raw
  | _, _ => none

/-- The mails Gmail has refused for good. -/
def refusals (t : List Exceptions.Event) : List RawMail :=
  t.filterMap (fun event => refusal event.1 event.2)

/-- The message at `uid` has been moved into `folder`, in one call or in three. -/
def MovedTo (folder : String) (uid : ℕ) (t : List Exceptions.Event) : Prop :=
  (⟨.move uid folder, .ok ()⟩ : Exceptions.Event) ∈ t ∨
  ∃ stored, ([⟨.copy uid folder, .ok ()⟩, ⟨.addFlags uid deletedFlag, .ok stored⟩,
    ⟨.uidExpunge uid, .ok ()⟩] : List Exceptions.Event) <:+: t

theorem refusals_append (t : List Exceptions.Event) (event : Exceptions.Event) :
    refusals (t ++ [event]) = refusals t ++ (refusal event.1 event.2).toList := by
  unfold refusals
  rw [List.filterMap_append]
  cases h : refusal event.1 event.2 with
  | none => simp [h]
  | some raw => simp [h]

theorem refusal_eq_some {op : Op} {r : Reply op} {raw : RawMail} (h : refusal op r = some raw) :
    ∃ labels, op = .insertRaw raw labels := by
  unfold refusal at h
  split at h
  · next raw' labels text status =>
    cases h
    exact ⟨labels, rfl⟩
  · exact absurd h nofun

theorem refusal_of_not_insert {op : Op} (hop : op.isInsert = false) (r : Reply op) :
    refusal op r = none := by
  cases op
  case insertRaw raw labels => exact absurd hop nofun
  all_goals rfl

variable {special : Option String}

theorem account_serves {l l' : Log} {op : Op} {r : Reply op} (h : Account special l op r l') :
    Serves l.world op r l'.world := h.1

theorem refusals_account {l l' : Log} {op : Op} {r : Reply op} (h : Account special l op r l')
    (hop : op.isInsert = false) : refusals l'.events = refusals l.events := by
  rw [h.2.2.2, refusals_append, refusal_of_not_insert hop r]
  exact List.append_nil _

/-! ## The invariant -/

/-- The message at `uid` is none that Gmail has refused. -/
def Unrefused (l : Log) (uid : ℕ) : Prop :=
  ∀ m ∈ l.world.messages, m.isAt uid = true → m.raw ∉ refusals l.events

/-- The message at `uid` may be put into `folder`. -/
structure MayHold (o : ForwarderOptions) (l : Log) (uid : ℕ) (folder : String) : Prop where
  away : folderName folder ≠ "INBOX"
  refused : folderName folder = folderName o.failedFolder ∨ Unrefused l uid

/-- Nothing is put into the INBOX, what Gmail has refused goes to the failed folder, and what it is
    offered has been moved nowhere. -/
def Allowed (o : ForwarderOptions) (l : Log) : Op → Prop
  | .move uid folder => MayHold o l uid folder
  | .copy uid folder => MayHold o l uid folder
  | .insertRaw raw _ => ∀ m ∈ l.world.messages, m.raw = raw → m.folder = "INBOX"
  | _ => True

/-- What holds of a log of allowed calls that began with the account `w₀`. -/
structure Sound (o : ForwarderOptions) (w₀ : World) (l : Log) : Prop where
  wellFormed : WellFormed l.world
  folders : ∀ folder ∈ w₀.folders, folder ∈ l.world.folders
  inbox : ∀ m ∈ l.world.messages, m.folder = "INBOX" →
    ∃ m₀ ∈ w₀.messages, m₀.isAt m.uid = true ∧ m₀.raw = m.raw
  refused : ∀ m ∈ l.world.messages, m.raw ∈ refusals l.events →
    m.folder = "INBOX" ∨ m.folder = folderName o.failedFolder
  marked : ∀ uid stored,
    ([⟨.addFlags uid deletedFlag, .ok stored⟩] : List Exceptions.Event) <:+ l.events →
    ∀ m ∈ l.world.messages, m.isAt uid = true → m.has deletedFlag = true
  gone : ∀ folder uid, MovedTo folder uid l.events → ∀ m ∈ l.world.messages, m.isAt uid = false

variable {o : ForwarderOptions} {w₀ : World} {l l' : Log} {op : Op} {r : Reply op}

theorem mayHold_of_puts {uid : ℕ} {folder : String} (hputs : op.puts uid folder)
    (hg : Allowed o l op) : MayHold o l uid folder := by
  rcases hputs with rfl | rfl
  · exact hg
  · exact hg

/-- A message of the INBOX was there before the call, with the same content. -/
theorem inbox_origin (hE : Account special l op r l') (hg : Allowed o l op) {m' : Message}
    (hm' : m' ∈ l'.world.messages) (hin : m'.folder = "INBOX") :
    ∃ m ∈ l.world.messages, m' = m ∨ m' = m.withFlags (flagsAfter op m) := by
  rcases (account_serves hE).origin hm' with hold | ⟨m, -, uid, folder, hputs, -, rfl⟩
  · exact hold
  · exact absurd hin (mayHold_of_puts hputs hg).away

theorem folders_account (hE : Account special l op r l') {folder : String}
    (h : folder ∈ l.world.folders) : folder ∈ l'.world.folders := by
  rcases (account_serves hE).cases with he | he
  · exact he ▸ h
  · rw [he]
    cases op
    case createFolder name => exact List.mem_append_left _ h
    case move uid name =>
      simp only [effect, World.moveTo]
      split <;> exact h
    case copy uid name =>
      simp only [effect, World.copyTo]
      split <;> exact h
    all_goals exact h

/-- After `STORE` has returned, the message has the mark. -/
theorem marked_store {uid : ℕ} {stored : Stored}
    (hE : Account special l (.addFlags uid deletedFlag) (.ok stored) l') {m' : Message}
    (hm' : m' ∈ l'.world.messages) (hat : m'.isAt uid = true) : m'.has deletedFlag = true := by
  have hstore : (Op.addFlags uid deletedFlag).isKeywordStore = false := by simp [Op.isKeywordStore]
  have hw := Serves.effect_of_ok hstore (account_serves hE)
  rw [hw] at hm'
  obtain ⟨m, -, rfl⟩ := mem_store.mp hm'
  have hat : m.isAt uid = true := hat
  simp [Message.has, hat]

/-- After the last call of a move has returned, nothing is left at the UID. -/
theorem gone_move {uid : ℕ} {folder : String}
    (hE : Account special l (.move uid folder) (.ok ()) l') (hg : MayHold o l uid folder)
    {m' : Message} (hm' : m' ∈ l'.world.messages) : m'.isAt uid = false := by
  have hw := Serves.effect_of_ok rfl (account_serves hE)
  rw [hw] at hm'
  simp only [effect, World.moveTo] at hm'
  cases hf : l.world.find uid with
  | none =>
      rw [hf] at hm'
      exact World.find_none hf hm'
  | some m =>
      rw [hf] at hm'
      rcases List.mem_append.mp hm' with hm' | hm'
      · simpa using (List.mem_filter.mp hm').2
      · rw [List.mem_singleton.mp hm']
        exact Message.not_isAt_placed hg.away m _ uid

theorem gone_expunge {uid : ℕ} (hE : Account special l (.uidExpunge uid) (.ok ()) l')
    (hmarked : ∀ m ∈ l.world.messages, m.isAt uid = true → m.has deletedFlag = true)
    {m' : Message} (hm' : m' ∈ l'.world.messages) : m'.isAt uid = false := by
  have hw := Serves.effect_of_ok rfl (account_serves hE)
  rw [hw] at hm'
  obtain ⟨hm, hkept⟩ := List.mem_filter.mp hm'
  refine Bool.eq_false_iff.mpr (fun hat => ?_)
  simp [hat, hmarked m' hm hat] at hkept

/-- A move is complete with its last call. -/
theorem movedTo_append {folder : String} {uid : ℕ} {t : List Exceptions.Event}
    {event : Exceptions.Event} (h : MovedTo folder uid (t ++ [event])) :
    MovedTo folder uid t ∨ event = ⟨.move uid folder, .ok ()⟩ ∨
    (event = ⟨.uidExpunge uid, .ok ()⟩ ∧
      ∃ stored, ([⟨.addFlags uid deletedFlag, .ok stored⟩] : List Exceptions.Event) <:+ t) := by
  rcases h with h | ⟨stored, h⟩
  · rcases List.mem_append.mp h with h | h
    · exact Or.inl (Or.inl h)
    · exact Or.inr (Or.inl (List.mem_singleton.mp h).symm)
  · rcases List.infix_concat_iff.mp h with h | h
    · rcases List.suffix_concat_iff.mp h with h | ⟨before, heq, hbefore⟩
      · exact absurd h nofun
      · have heq : [_, _] ++ [_] = before ++ [event] := heq
        obtain ⟨rfl, hlast⟩ := List.append_inj' heq rfl
        have hevent := (List.singleton_inj.mp hlast).symm
        exact Or.inr (Or.inr ⟨hevent, stored, (List.suffix_cons _ _).trans hbefore⟩)
    · exact Or.inl (Or.inr ⟨stored, h⟩)

/-- **One allowed call.** -/
theorem sound_step (hs : Sound o w₀ l) (hg : Allowed o l op) (hE : Account special l op r l') :
    Sound o w₀ l' := by
  have hS := account_serves hE
  refine ⟨hS.wellFormed hs.wellFormed, fun folder h => folders_account hE (hs.folders folder h),
    ?_, ?_, ?_, ?_⟩
  · intro m' hm' hin
    obtain ⟨m, hm, rfl | rfl⟩ := inbox_origin hE hg hm' hin
    · exact hs.inbox m' hm hin
    · exact hs.inbox m hm hin
  · intro m' hm' hraw
    rw [hE.2.2.2, refusals_append] at hraw
    rcases List.mem_append.mp hraw with hraw | hraw
    · rcases hS.origin hm' with ⟨m, hm, rfl | rfl⟩ | ⟨m, hm, uid, folder, hputs, hat, rfl⟩
      · exact hs.refused m' hm hraw
      · exact hs.refused m hm hraw
      · rcases (mayHold_of_puts hputs hg).refused with hfailed | hfree
        · exact Or.inr hfailed
        · exact absurd hraw (hfree m hm hat)
    · rw [Option.mem_toList] at hraw
      obtain ⟨labels, rfl⟩ := refusal_eq_some hraw
      have hold : m' ∈ l.world.messages := by
        rcases hS.cases with he | he
        · exact he ▸ hm'
        · rw [he] at hm'
          exact hm'
      exact Or.inl (hg m' hold rfl)
  · intro uid stored hlast m' hm' hat
    rw [hE.2.2.2, List.singleton_suffix_append_singleton_iff] at hlast
    cases hlast
    exact marked_store hE hm' hat
  · intro folder uid hmoved m' hm'
    rw [hE.2.2.2] at hmoved
    -- moved before this call, moved by it, or copied and now expunged by it
    rcases movedTo_append hmoved with hbefore | hlast | ⟨hlast, stored, hmark⟩
    · refine Bool.eq_false_iff.mpr (fun hat => ?_)
      obtain ⟨m, hm, hsame⟩ := inbox_origin hE hg hm' (Message.isAt_iff.mp hat).1
      have hnone := hs.gone folder uid hbefore m hm
      have hat' : m.isAt uid = true := by
        rcases hsame with rfl | rfl
        · exact hat
        · exact hat
      rw [hnone] at hat'
      exact absurd hat' nofun
    · cases hlast
      exact gone_move hE hg hm'
    · cases hlast
      exact gone_expunge hE (hs.marked uid stored hmark) hm'

/-! ## Finding the Trash -/

/-- Nobody else is there, and the calls only look. -/
def glancing : Discipline Op Log := ⟨fun l l' => l' = l, fun _ op => op.isGlance = true⟩

/-- The account is as it was, and Gmail has refused nothing more. -/
structure Unmoved (l l' : Log) : Prop where
  world : l'.world = l.world
  refusals : refusals l'.events = refusals l.events

theorem Unmoved.refl (l : Log) : Unmoved l l := ⟨rfl, rfl⟩

theorem Unmoved.trans {a b c : Log} (h : Unmoved a b) (h' : Unmoved b c) : Unmoved a c :=
  ⟨h'.world.trans h.world, h'.refusals.trans h.refusals⟩

/-- Calls around the work of a run, and calls that look. -/
abbrev Idle (op : Op) : Prop := op.isSurvey = true ∨ op.isGlance = true

theorem isInsert_of_idle (hop : Idle op) : op.isInsert = false := by
  cases op
  case insertRaw raw labels => exact absurd hop (by simp [Op.isSurvey, Op.isSetup, Op.isGlance,
    Op.isLook, Op.isQuiet])
  all_goals rfl

theorem unmoved_idle (hop : Idle op) (hE : Account special l op r l') : Unmoved l l' := by
  refine ⟨?_, refusals_account hE (isInsert_of_idle hop)⟩
  have heffect : effect op l.world = l.world := by
    cases op <;> first | rfl | exact absurd hop (by simp [Op.isSurvey, Op.isSetup, Op.isGlance,
      Op.isLook, Op.isQuiet])
  rcases (account_serves hE).cases with he | he
  · exact he
  · exact he.trans heffect

/-- A look, in a symbolic run. -/
theorem safe_glance {σ : Type} {op : Op} {Q : Except Exc (Value op) → σ → Log → Prop} {s : σ}
    {l : Log} (hop : op.isGlance = true)
    (h : ∀ r l', Unmoved l l' → Tells special l l' op r → Q r s l') :
    (call op : Py σ (Value op)).Safe (Account special) glancing Q s l := by
  rintro l₁ rfl
  exact ⟨hop, fun r l' hE => h r l' (unmoved_idle (Or.inr hop) hE) hE.2.1⟩

/-- The first candidate that exists is the one `find?` finds among the folders there are. -/
theorem firstExisting_finds {candidates : List String} {s : ICloudMailbox} {l : Log} :
    (ICloudMailbox.firstExisting candidates).Safe (Account special) glancing
      (fun r s' l' => s' = s ∧ Unmoved l l' ∧ ∀ name, r = .ok (some name) →
        candidates.find? (fun name => decide (name ∈ l.world.folders)) = some name) s l := by
  induction candidates generalizing l with
  | nil => exact ⟨rfl, .refl l, nofun⟩
  | cons candidate rest ih =>
      rw [ICloudMailbox.firstExisting, Routine.safe_bind]
      refine ICloudMailbox.client_safe ?_ (fun _ => ⟨rfl, .refl l, nofun⟩)
      rw [Routine.after_ok, Routine.safe_bind]
      refine safe_glance rfl ?_
      intro r l₁ hl₁ htells
      cases r with
      | error e => exact ⟨rfl, hl₁, nofun⟩
      | ok there =>
          have hthere : there = decide (candidate ∈ l.world.folders) := htells
          rw [Routine.after_ok]
          split
          · next hyes =>
            refine ⟨rfl, hl₁, fun name hname => ?_⟩
            cases hname
            rw [List.find?_cons, ← hthere, hyes]
          · next hno =>
            refine ih.mono ?_
            rintro r s' l₂ ⟨hs', hl₂, hfound⟩
            refine ⟨hs', hl₁.trans hl₂, fun name hname => ?_⟩
            rw [List.find?_cons, ← hthere, Bool.eq_false_iff.mpr hno, ← hl₁.world]
            exact hfound name hname

theorem findTrashFolder_finds {s : ICloudMailbox} {l : Log} :
    ICloudMailbox.findTrashFolder.Safe (Account special) glancing
      (fun r s' l' => s' = s ∧ Unmoved l l' ∧ ∀ name, r = .ok (some name) →
        trashName special l.world.folders = some name) s l := by
  rw [ICloudMailbox.findTrashFolder, Routine.safe_bind]
  refine ICloudMailbox.client_safe ?_ (fun _ => ⟨rfl, .refl l, fun _ h => absurd h (by simp)⟩)
  rw [Routine.after_ok, Routine.safe_bind]
  refine safe_glance rfl ?_
  rintro (e | _) l₀ hl₀ -
  · exact ⟨rfl, hl₀, fun _ h => absurd h (by simp)⟩
  rw [Routine.after_ok, Routine.safe_bind]
  refine safe_glance rfl ?_
  intro r l₁ hl₁ htells
  have hl₁ := hl₀.trans hl₁
  have hcandidates (hempty : special.getD "" = "") :
      (ICloudMailbox.firstExisting trashFolderCandidates).Safe (Account special) glancing
        (fun r s' l' => s' = s ∧ Unmoved l l' ∧ ∀ name, r = .ok (some name) →
          trashName special l.world.folders = some name) s l₁ := by
    refine firstExisting_finds.mono ?_
    rintro r s' l₂ ⟨hs', hl₂, hfound⟩
    refine ⟨hs', hl₁.trans hl₂, fun name hname => ?_⟩
    rw [trashName, if_pos hempty, ← hl₁.world]
    exact hfound name hname
  rcases r with e | name
  · exact ⟨rfl, hl₁, fun _ h => absurd h (by simp)⟩
  · have hspecial : name = special := htells
    subst hspecial
    rw [Routine.after_ok]
    cases name with
    | none => exact hcandidates rfl
    | some name =>
        dsimp only
        split
        · next hempty => exact hcandidates hempty
        · next hset =>
          refine ⟨rfl, hl₁, fun name' hname => ?_⟩
          cases hname
          unfold trashName
          exact if_neg hset

/-- What `trash_folder` returns has been found before, or is found now. -/
theorem trashFolderName_finds {s : ICloudMailbox} {l : Log} :
    ICloudMailbox.trashFolderName.Safe (Account special) glancing (fun r s' l' => Unmoved l l' ∧
      (∀ name, r = .ok name → s.trashFolder = some name ∨
        trashName special l.world.folders = some name) ∧
      ∀ name, s'.trashFolder = some name → s.trashFolder = some name ∨
        trashName special l.world.folders = some name) s l := by
  rw [ICloudMailbox.trashFolderName, Routine.safe_bind, Routine.safe_getSelf, Routine.after_ok]
  cases hself : s.trashFolder with
  | some name =>
      refine ⟨.refl l, fun name' hname => ?_, fun name' hname => ?_⟩
      · cases hname
        exact Or.inl rfl
      · exact Or.inl (hself.symm.trans hname)
  | none =>
      dsimp only
      rw [Routine.safe_bind, Routine.safe_attempt]
      refine findTrashFolder_finds.mono ?_
      rintro r s' l' ⟨rfl, hl', hfound⟩
      rw [Routine.after_ok]
      have hnone : ∀ name, s'.trashFolder = some name → none = some name ∨
          trashName special l.world.folders = some name :=
        fun name hname => Or.inl (hself.symm.trans hname)
      rcases r with e | name
      · exact ⟨hl', fun _ h => absurd h (by simp), hnone⟩
      · cases name with
        | none => exact ⟨hl', fun _ h => absurd h (by simp), hnone⟩
        | some name =>
            have hname := hfound name rfl
            dsimp only
            rw [Routine.safe_bind, Routine.safe_modifySelf, Routine.after_ok]
            refine ⟨hl', fun name' h => ?_, fun name' h => ?_⟩
            · cases h
              exact Or.inr hname
            · cases h
              exact Or.inr hname

/-! ## One message -/

/-- No other message has the content of the one at `uid`, and Gmail has not refused it. -/
def Sole (l : Log) (uid : ℕ) : Prop :=
  ∀ m ∈ l.world.messages, m.isAt uid = true → m.raw ∉ refusals l.events ∧
    ∀ m' ∈ l.world.messages, m'.raw = m.raw → m' = m

theorem Sole.unrefused {uid : ℕ} (h : Sole l uid) : Unrefused l uid :=
  fun m hm hat => (h m hm hat).1

/-- The discipline of a run. -/
def discipline (o : ForwarderOptions) : Discipline Op Log := ⟨fun l l' => l' = l, Allowed o⟩

/-- And of the way of one message, where nothing is done to the others. -/
def about (o : ForwarderOptions) (uid : ℕ) : Discipline Op Log where
  rely := fun l l' => l' = l
  guard := fun l op => Allowed o l op ∧ ∀ u, u ≠ uid → op.spares u = true

theorem unrefused_step (hg : Allowed o l op) (hE : Account special l op r l')
    (hop : op.isInsert = false) {uid : ℕ} (h : Unrefused l uid) : Unrefused l' uid := by
  intro m' hm' hat
  rw [refusals_account hE hop]
  obtain ⟨m, hm, rfl | rfl⟩ := inbox_origin hE hg hm' (Message.isAt_iff.mp hat).1
  · exact h m' hm hat
  · exact h m hm hat

/-- A call that spares a message, and is no refusal of it, leaves it the only one of its content. -/
theorem sole_step (hg : Allowed o l op) (hE : Account special l op r l') {uid : ℕ}
    (hspares : op.spares uid = true)
    (hkeep : ∀ m ∈ l.world.messages, m.isAt uid = true → refusal op r ≠ some m.raw)
    (h : Sole l uid) : Sole l' uid := by
  have hS := account_serves hE
  intro m' hm' hat
  have hm : m' ∈ l.world.messages := by
    obtain ⟨m, hm, rfl | rfl⟩ := inbox_origin hE hg hm' (Message.isAt_iff.mp hat).1
    · exact hm
    · have hat : m.isAt uid = true := hat
      rw [flagsAfter_of_spares hspares hat]
      exact hm
  obtain ⟨hfree, honly⟩ := h m' hm hat
  refine ⟨fun hin => ?_, fun m₂ hm₂ hraw => ?_⟩
  · rw [hE.2.2.2, refusals_append] at hin
    rcases List.mem_append.mp hin with hin | hin
    · exact hfree hin
    · exact hkeep m' hm hat (Option.mem_toList.mp hin)
  · rcases hS.origin hm₂ with ⟨m, hm₁, rfl | rfl⟩ | ⟨m, hm₁, u, folder, hputs, hat', rfl⟩
    · exact honly m₂ hm₁ hraw
    · rw [honly m hm₁ hraw, flagsAfter_of_spares hspares hat]
      rfl
    · rw [honly m hm₁ hraw] at hat'
      have hu : u = uid := (Message.isAt_iff.mp hat').2.symm.trans (Message.isAt_iff.mp hat).2
      subst hu
      rcases hputs with rfl | rfl
      · exact absurd rfl (of_decide_eq_true hspares)
      · exact absurd rfl (of_decide_eq_true hspares)

/-- What the calls about `uid` keep. -/
structure Later (o : ForwarderOptions) (w₀ : World) (uid : ℕ) (l l' : Log) : Prop where
  sound : Sound o w₀ l'
  sole : ∀ u, u ≠ uid → Sole l u → Sole l' u
  unrefused : Unrefused l uid → Unrefused l' uid

theorem Later.refl {uid : ℕ} (hs : Sound o w₀ l) : Later o w₀ uid l l :=
  ⟨hs, fun _ _ h => h, fun h => h⟩

theorem Later.trans {uid : ℕ} {a b c : Log} (h : Later o w₀ uid a b) (h' : Later o w₀ uid b c) :
    Later o w₀ uid a c :=
  ⟨h'.sound, fun u hu h₁ => h'.sole u hu (h.sole u hu h₁), fun h₁ => h'.unrefused (h.unrefused h₁)⟩

/-- Every call but the insert keeps it. -/
def keeping (special : Option String) (o : ForwarderOptions) (w₀ : World) (uid : ℕ) :
    Growth (Account special) (about o uid) (fun op => op.isInsert = false) where
  grow := fun l l' => Sound o w₀ l → Later o w₀ uid l l'
  refl := fun _ hs => .refl hs
  trans := fun h h' hs => (h hs).trans (h' (h hs).sound)
  rely := by
    rintro l _ rfl hs
    exact .refl hs
  step := by
    rintro l op r l' hop ⟨hg, hspares⟩ hE hs
    refine ⟨sound_step hs hg hE, fun u hu => ?_, unrefused_step hg hE hop⟩
    refine sole_step hg hE (hspares u hu) (fun m _ _ h => ?_)
    rw [refusal_of_not_insert hop r] at h
    exact absurd h nofun

theorem about_of_isRoutine (uid : ℕ) (l : Log) (op : Op) (h : op.isRoutine = true) :
    (about o uid).guard l op := by
  refine ⟨?_, fun u _ => ?_⟩
  · cases op
    all_goals first | exact trivial | exact absurd h (by contradiction)
  · cases op
    all_goals first | rfl | exact absurd h (by contradiction)

theorem mayMove {uid : ℕ} {folder : String} (hs : Sound o w₀ l)
    (haway : folderName folder ≠ "INBOX") (hfree : Unrefused l uid) :
    Forwarder.MayMove (Account special) (about o uid) (keeping special o w₀ uid).grow uid folder
      l where
  move := fun _ hl => ⟨⟨haway, Or.inr ((hl hs).unrefused hfree)⟩, fun _ hu => decide_eq_true hu.symm⟩
  copy := fun _ hl => ⟨⟨haway, Or.inr ((hl hs).unrefused hfree)⟩, fun _ hu => decide_eq_true hu.symm⟩
  after := fun _ _ _ _ _ _ => ⟨⟨trivial, fun _ hu => decide_eq_true hu.symm⟩,
    ⟨trivial, fun _ hu => decide_eq_true hu.symm⟩⟩

/-- The names of the folders keep apart, for the names in `reach` of the Trash. -/
structure Apart (failed unverified : String) (names : List String) : Prop where
  failedAway : folderName failed ≠ "INBOX"
  unverifiedAway : folderName unverified ≠ "INBOX"
  trashAway : ∀ name ∈ names, folderName name ≠ "INBOX"
  distinct : ∀ name ∈ names, folderName name ≠ folderName failed

/-- A Trash the session has found is one of those in reach. -/
def Knows (special : Option String) (w₀ : World) (mailbox : ICloudMailbox) : Prop :=
  ∀ name, mailbox.trashFolder = some name → name ∈ reach special w₀.folders

/-- What the way of one message leaves behind. -/
def Keeps (special : Option String) (o : ForwarderOptions) (w₀ : World) (uid : ℕ) (l : Log)
    (s' : RunState) (l' : Log) : Prop :=
  (∀ u, u ≠ uid → Sole l u → Sole l' u) ∧ Sound o w₀ l' ∧ Knows special w₀ s'.mailbox

theorem Later.keeps {uid : ℕ} {s : RunState} (h : Later o w₀ uid l l')
    (hknows : Knows special w₀ s.mailbox) : Keeps special o w₀ uid l s l' :=
  ⟨h.sole, h.sound, hknows⟩

theorem Later.andKeeps {uid : ℕ} {s : RunState} {l'' : Log} (h : Later o w₀ uid l l')
    (h' : Keeps special o w₀ uid l' s l'') : Keeps special o w₀ uid l s l'' :=
  ⟨fun u hu hsole => h'.1 u hu (h.sole u hu hsole), h'.2⟩

variable {s : RunState}

/-- Looking for the Trash finds one in reach. -/
theorem trashFolderName_knows {uid : ℕ} {mailbox : ICloudMailbox} (hs : Sound o w₀ l)
    (hknows : Knows special w₀ mailbox) :
    ICloudMailbox.trashFolderName.Safe (Account special) (about o uid) (fun r mailbox' l' =>
      (keeping special o w₀ uid).grow l l' ∧ Knows special w₀ mailbox' ∧
      ∀ name, r = .ok name → name ∈ reach special w₀.folders) mailbox l := by
  have hinsert : ∀ op : Op, op.isGlance = true → op.isInsert = false := fun op hop =>
    Op.isInsert_of_isImap (Op.isImap_of_isLook (Op.isLook_of_isGlance hop))
  have hguard : ∀ l op, op.isGlance = true → (about o uid).guard l op := fun l op hop =>
    about_of_isRoutine uid l op (Op.isRoutine_of_isLook (Op.isLook_of_isGlance hop))
  have hgrow := Routine.Safe.of_uses (keeping special o w₀ uid)
    ICloudMailbox.trashFolderName_glances hinsert (fun l' op _ => hguard l' op) (s := mailbox)
    (w := l)
  refine (hgrow.and (Routine.Safe.guard_mono trashFolderName_finds (fun h => h)
    (fun hop => hguard _ _ hop))).mono ?_
  rintro r mailbox' l' ⟨hl', -, hname, hcached⟩
  have hreach : ∀ name, mailbox.trashFolder = some name ∨
      trashName special l.world.folders = some name → name ∈ reach special w₀.folders := by
    rintro name (hbefore | hnow)
    · exact hknows name hbefore
    · exact mem_reach hs.folders hnow
  exact ⟨hl', fun name h => hreach name (hcached name h), fun name h => hreach name (hname name h)⟩

section apart

variable (hapart : Apart o.failedFolder o.unverifiedFolder (reach special w₀.folders))

include hapart

theorem trash_keeps {message : FetchedMessage} (hs : Sound o w₀ l)
    (hfree : Unrefused l message.uid) (hknows : Knows special w₀ s.mailbox) :
    (Forwarder.trash message).Safe (Account special) (about o message.uid)
      (fun _ s' l' => Keeps special o w₀ message.uid l s' l') s l := by
  refine (Forwarder.trash_named (keeping special o w₀ message.uid) (about_of_isRoutine message.uid)
    (N := fun mailbox _ => Knows special w₀ mailbox) (fun _ hN => hN) hknows
    (fun _ _ => ⟨trivial, fun _ _ => rfl⟩) ?_).mono ?_
  · intro l₁ hl₁ hknows₁
    have h₁ := hl₁ hs
    refine (trashFolderName_knows h₁.sound hknows₁).mono ?_
    rintro r mailbox l₂ ⟨hl₂, hknows₂, hname⟩
    have h₂ := hl₂ h₁.sound
    refine ⟨hl₂, hknows₂, fun name hr => ?_⟩
    exact mayMove h₂.sound (hapart.trashAway name (hname name hr))
      (h₂.unrefused (h₁.unrefused hfree))
  · rintro r s' l' ⟨-, hl', hknows'⟩
    exact (hl' hs).keeps hknows'

theorem recordInsert_keeps {message : FetchedMessage} (hs : Sound o w₀ l)
    (hfree : Unrefused l message.uid) (hknows : Knows special w₀ s.mailbox) :
    (Forwarder.recordInsert o message).Safe (Account special) (about o message.uid)
      (fun _ s' l' => Keeps special o w₀ message.uid l s' l') s l := by
  have hstore : ∀ keyword l', (about o message.uid).guard l' (.addFlags message.uid keyword) :=
    fun _ _ => ⟨trivial, fun _ hu => decide_eq_true hu.symm⟩
  rw [Forwarder.recordInsert, Routine.safe_bind, safe_count, Routine.after_ok, Routine.safe_bind,
    Routine.safe_attempt, safe_onMailbox]
  refine (ICloudMailbox.addKeyword_safe
    (Forwarder.imapGrowth (keeping special o w₀ message.uid)) (fun l' _ => hstore _ l')
    (fun l' _ => about_of_isRoutine message.uid l' _ rfl)).mono ?_
  rintro r mailbox l₁ ⟨rfl, hl₁, hr⟩
  have h₁ := hl₁ hs
  have hfree₁ := h₁.unrefused hfree
  rw [Routine.after_ok]
  rcases hr with ⟨rfl, -⟩ | ⟨text, rfl⟩
  · refine (trash_keeps hapart h₁.sound hfree₁ ?_).mono (fun _ _ _ h => h₁.andKeeps h)
    exact hknows
  · refine (Forwarder.quarantine_safe (keeping special o w₀ message.uid)
      (about_of_isRoutine message.uid) (fun _ l' _ => hstore _ l')
      (mayMove h₁.sound hapart.unverifiedAway hfree₁)).mono ?_
    rintro r s' l₂ ⟨hs', hl₂, -⟩
    refine (h₁.trans (hl₂ h₁.sound)).keeps (fun name hname => hknows name ?_)
    rw [hs'.trash] at hname
    exact hname

end apart

/-- What idle calls keep, where only allowed calls are made. -/
def idling (special : Option String) (o : ForwarderOptions) (w₀ : World) {D : Discipline Op Log}
    (hrely : ∀ {l l'}, D.rely l l' → l' = l) (hguard : ∀ {l op}, D.guard l op → Allowed o l op) :
    Growth (Account special) D Idle where
  grow := fun l l' => Unmoved l l' ∧ (Sound o w₀ l → Sound o w₀ l')
  refl := fun l => ⟨.refl l, fun hs => hs⟩
  trans := fun h h' => ⟨h.1.trans h'.1, fun hs => h'.2 (h.2 hs)⟩
  rely := by
    intro l l' h
    rw [hrely h]
    exact ⟨.refl _, fun hs => hs⟩
  step := fun hop hg hE => ⟨unmoved_idle hop hE, fun hs => sound_step hs (hguard hg) hE⟩

/-- The growth inside the way of one message. -/
abbrev looking (special : Option String) (o : ForwarderOptions) (w₀ : World) (uid : ℕ) :
    Growth (Account special) (about o uid) (fun op => op.isGlance = true) :=
  (idling special o w₀ (fun h => h) And.left).restrict (fun _ => Or.inr)

theorem Unmoved.sole (h : Unmoved l l') {uid : ℕ} (hsole : Sole l uid) : Sole l' uid := by
  unfold Sole
  rw [h.world, h.refusals]
  exact hsole

/-- A fetched message is the one at its UID. -/
theorem fetchMessage_unmoved (uid : ℕ) (mailbox : ICloudMailbox) (l : Log) :
    (ICloudMailbox.fetchMessage uid).Safe (Account special) (about o uid) (fun r mailbox' l' =>
      mailbox' = mailbox ∧ (Unmoved l l' ∧ (Sound o w₀ l → Sound o w₀ l')) ∧
      ∀ message, r = .ok message → message.uid = uid ∧
        ∃ m ∈ l'.world.messages, m.isAt message.uid = true ∧ m.raw = message.raw) mailbox l := by
  refine Routine.Safe.of_only (ICloudMailbox.fetchMessage_glances uid) ?_
  refine (ICloudMailbox.fetchMessage_safe ((looking special o w₀ uid).only.restrict
    (fun _ _ => trivial)) (fun l op hop => about_of_isRoutine uid l op
      (Op.isRoutine_of_isQuiet hop)) uid).mono ?_
  rintro r mailbox' l' ⟨hmailbox, hl', hok⟩
  refine ⟨hmailbox, hl', fun message hr => ?_⟩
  obtain ⟨huid, l₁, -, hd⟩ := hok message hr
  obtain ⟨hw, m, hm, hat, hraw, -⟩ :=
    Serves.delivers (hd.map Log.world (fun hE => account_serves hE.2))
  exact ⟨huid, m, hw ▸ hm, hat, hraw⟩

/-- A message that is the only one of its content may be offered to Gmail. -/
theorem allowed_insert {raw : RawMail} {m : Message} (hm : m ∈ l.world.messages) {uid : ℕ}
    (hat : m.isAt uid = true) (hraw : m.raw = raw) (hsole : Sole l uid) (labels : List String) :
    Allowed o l (.insertRaw raw labels) := by
  intro m' hm' hraw'
  rw [(hsole m hm hat).2 m' hm' (hraw'.trans hraw.symm)]
  exact (Message.isAt_iff.mp hat).1

theorem later_insert {raw : RawMail} {labels : List String} {r : Reply (.insertRaw raw labels)}
    (hs : Sound o w₀ l) (hE : Account special l (.insertRaw raw labels) r l') {m : Message}
    (hm : m ∈ l.world.messages) {uid : ℕ} (hat : m.isAt uid = true) (hraw : m.raw = raw)
    (hsole : Sole l uid) :
    Sound o w₀ l' ∧ (∀ u, u ≠ uid → Sole l u → Sole l' u) ∧
    (refusal (.insertRaw raw labels) r = none → Unrefused l' uid) := by
  have hg : Allowed o l (.insertRaw raw labels) := allowed_insert hm hat hraw hsole labels
  refine ⟨sound_step hs hg hE, fun u hu hsole' => ?_, fun hnone m' hm' hat' => ?_⟩
  · refine sole_step hg hE rfl (fun m' hm' hat' hrefused => ?_) hsole'
    obtain ⟨labels', heq⟩ := refusal_eq_some hrefused
    have hraw' : raw = m'.raw := by
      injection heq
    have hsame := (hsole' m' hm' hat').2 m hm (hraw.trans hraw')
    rw [hsame] at hat
    exact hu ((Message.isAt_iff.mp hat').2.symm.trans (Message.isAt_iff.mp hat).2)
  · rw [hE.2.2.2, refusals_append]
    have hsome : (refusal (.insertRaw raw labels) r).toList = [] := by
      rw [hnone]
      rfl
    rw [hsome, List.append_nil]
    obtain ⟨m₁, hm₁, rfl | rfl⟩ := inbox_origin hE hg hm' (Message.isAt_iff.mp hat').1
    · exact (hsole m' hm₁ hat').1
    · exact (hsole m₁ hm₁ hat').1

section apart

variable (hapart : Apart o.failedFolder o.unverifiedFolder (reach special w₀.folders))

include hapart

theorem insert_keeps {extraLabels : List String} {message : FetchedMessage} (hs : Sound o w₀ l)
    {m : Message} (hm : m ∈ l.world.messages) (hat : m.isAt message.uid = true)
    (hraw : m.raw = message.raw) (hsole : Sole l message.uid)
    (hknows : Knows special w₀ s.mailbox) :
    (Forwarder.insert o extraLabels message).Safe (Account special) (about o message.uid)
      (fun _ s' l' => Keeps special o w₀ message.uid l s' l') s l := by
  have hkeeps : ∀ {r l₁ l₂} {s' : RunState}, l₁ = l → Account special l₁ (.insertRaw message.raw
      (gmailLabelsFor message extraLabels)) r l₂ → s'.mailbox = s.mailbox →
      Keeps special o w₀ message.uid l s' l₂ := by
    rintro r l₁ l₂ s' rfl hE hmailbox
    obtain ⟨hs₂, hother, -⟩ := later_insert hs hE hm hat hraw hsole
    refine ⟨hother, hs₂, ?_⟩
    rw [hmailbox]
    exact hknows
  refine Forwarder.insert_at ?_ ?_ (fun _ _ _ _ hl hE => hkeeps hl hE rfl) ?_
    (fun _ _ _ _ hl hE => hkeeps hl hE rfl)
  · rintro l₁ rfl
    exact ⟨allowed_insert hm hat hraw hsole _, fun _ _ => rfl⟩
  · rintro id l₁ l₂ rfl hE
    obtain ⟨hs₂, hother, hfree⟩ := later_insert hs hE hm hat hraw hsole
    refine (recordInsert_keeps hapart hs₂ (hfree rfl) hknows).mono ?_
    exact fun _ _ _ h => ⟨fun u hu hsole' => h.1 u hu (hother u hu hsole'), h.2⟩
  · intro text status l₁ l₂ hl hE s' hs'
    have hsame : Keeps special o w₀ message.uid l s l₂ := hkeeps hl hE rfl
    refine ⟨hsame.1, hsame.2.1, fun name hname => hknows name ?_⟩
    rw [hs'.trash] at hname
    exact hname

/-- **The way of one message.** -/
theorem process_keeps {extraLabels : List String} {uid : ℕ} (hs : Sound o w₀ l)
    (hsole : Sole l uid) (hknows : Knows special w₀ s.mailbox) :
    (Forwarder.process o extraLabels uid).Safe (Account special) (about o uid)
      (fun _ s' l' => Keeps special o w₀ uid l s' l') s l := by
  have hcalm : ∀ {s'}, s.Calm s' → Knows special w₀ s'.mailbox := by
    intro s' hs' name hname
    rw [hs'.trash] at hname
    exact hknows name hname
  have hskip : ∀ {s' l'}, s.Calm s' → Unmoved l l' ∧ (Sound o w₀ l → Sound o w₀ l') →
      Keeps special o w₀ uid l s' l' :=
    fun hs' hl' => ⟨fun _ _ h => hl'.1.sole h, hl'.2 hs, hcalm hs'⟩
  refine Forwarder.process_of_fetch (fetchMessage_unmoved uid s.mailbox l)
    (fun _ _ hs' hl' => hskip hs' hl') (fun _ _ _ hs' hl' => hskip hs' hl') ?_ ?_
  · rintro message s' l' hs' ⟨hl', hsound⟩ ⟨rfl, -⟩ - -
    refine (trash_keeps hapart (hsound hs) (hl'.sole hsole).unrefused (hcalm hs')).mono ?_
    exact fun _ _ _ h => ⟨fun u hu hsole' => h.1 u hu (hl'.sole hsole'), h.2⟩
  · rintro message s' l' hs' ⟨hl', hsound⟩ ⟨rfl, m, hm, hat, hraw⟩ - -
    refine (insert_keeps hapart (hsound hs) hm hat hraw (hl'.sole hsole) (hcalm hs')).mono ?_
    exact fun _ _ _ h => ⟨fun u hu hsole' => h.1 u hu (hl'.sole hsole'), h.2⟩

end apart

/-! ## The run -/

/-- The growth of the run around its messages. -/
abbrev running (special : Option String) (o : ForwarderOptions) (w₀ : World) :
    Growth (Account special) (discipline o) Idle := idling special o w₀ (fun h => h) (fun h => h)

theorem allowed_of_idle {o : ForwarderOptions} (l : Log) (op : Op) (hop : Idle op) :
    (discipline o).guard l op := by
  cases op
  all_goals first | exact trivial | exact absurd hop (by simp [Op.isSurvey, Op.isSetup,
    Op.isGlance, Op.isLook, Op.isQuiet])

/-- What holds of the session while the messages of `uids` are still to come. -/
structure Going (special : Option String) (o : ForwarderOptions) (w₀ : World) (uids : List ℕ)
    (s : RunState) (l : Log) : Prop where
  sound : Sound o w₀ l
  nodup : uids.Nodup
  sole : ∀ uid ∈ uids, Sole l uid
  knows : Knows special w₀ s.mailbox

theorem Going.later {uids : List ℕ} {s s' : RunState} (h : Going special o w₀ uids s l)
    (hs : s.Steady s') (hl : (running special o w₀).grow l l') :
    Going special o w₀ uids s' l' := by
  refine ⟨hl.2 h.sound, h.nodup, fun uid hin => hl.1.sole (h.sole uid hin), fun name hname => ?_⟩
  rw [hs.trash] at hname
  exact h.knows name hname

/-- Whatever is settled may go to the failed folder. -/
theorem settleRejections_safe (haway : folderName o.failedFolder ≠ "INBOX") (s : RunState)
    (l : Log) : (Forwarder.settleRejections o).Safe (Account special) (discipline o)
      (fun _ _ _ => True) s l := by
  let G : Growth (Account special) (discipline o) (fun op => op.isInsert = false) :=
    ⟨fun _ _ => True, fun _ => trivial, fun _ _ => trivial, fun _ => trivial, fun _ _ _ => trivial⟩
  have hmove : ∀ uid l, Forwarder.MayMove (Account special) (discipline o) G.grow uid
      o.failedFolder l := fun uid l =>
    ⟨fun _ _ => ⟨haway, Or.inl rfl⟩, fun _ _ => ⟨haway, Or.inl rfl⟩,
      fun _ _ _ _ _ _ => ⟨trivial, trivial⟩⟩
  have hroutine : ∀ l op, op.isRoutine = true → (discipline o).guard l op := by
    intro l op hop
    cases op
    all_goals first | exact trivial | exact absurd hop nofun
  refine (Forwarder.settleRejections_safe (P := fun _ _ => True) ?_ (fun _ => trivial)
    (fun _ => trivial)).mono (fun _ _ _ _ => trivial)
  intro rejection rest s l _
  exact Forwarder.quarantine_next G hroutine (fun _ _ => trivial) (hmove rejection.uid l)
    (fun _ _ _ _ _ => trivial)

/-- A run makes allowed calls only, as long as the names keep apart. -/
theorem run_safe (hapart : Apart o.failedFolder o.unverifiedFolder (reach special w₀.folders))
    {s : RunState} (hs : Sound o w₀ l) (hsole : ∀ uid, Sole l uid)
    (hknows : Knows special w₀ s.mailbox) :
    (Forwarder.run o).Safe (Account special) (discipline o) (fun _ _ _ => True) s l := by
  refine (Forwarder.run_always (J := Going special o w₀) (K := fun _ _ => True)
    (Q := fun _ _ => True) (I := fun s l => Sound o w₀ l ∧ (∀ uid, Sole l uid) ∧
      Knows special w₀ s.mailbox) (fun l op hop => allowed_of_idle l op (Or.inl hop))
    ((running special o w₀).restrict (fun _ => Or.inl)) (fun _ => trivial)
    (fun hs hl hJ => hJ.later hs hl) (fun _ _ _ => trivial) (fun _ => trivial) ?_ ?_
    (fun _ => trivial) ?_ (fun s l _ _ => settleRejections_safe hapart.failedAway s l)
    (fun _ _ _ => trivial) ⟨hs, hsole, hknows⟩).mono (fun _ _ _ _ => trivial)
  · intro extraLabels uid rest s l hJ
    obtain ⟨hnotin, hnodup⟩ := List.nodup_cons.mp hJ.nodup
    refine Routine.Safe.mono (Routine.Safe.guard_mono (process_keeps hapart hJ.sound
      (hJ.sole uid List.mem_cons_self) hJ.knows) (fun h => h) And.left) ?_
    rintro r s' l' ⟨hsole', hs', hknows'⟩
    refine ⟨fun _ => ⟨hs', hnodup, fun u hu => ?_, hknows'⟩, fun _ _ => trivial, fun _ _ => trivial⟩
    have hne : u ≠ uid := fun he => hnotin (he ▸ hu)
    exact hsole' u hne (hJ.sole u (List.mem_cons_of_mem _ hu))
  · rintro s s' l l' hs hl ⟨h, hsole, hknows⟩
    refine ⟨hl.2 h, fun uid => hl.1.sole (hsole uid), fun name hname => ?_⟩
    rw [hs.trash] at hname
    exact hknows name hname
  · rintro s l ⟨h, hsole, hknows⟩
    rw [safe_onMailbox]
    have hgrow := Routine.Safe.of_uses (running special o w₀)
      (ICloudMailbox.listInboxUids_glances (some o.keywords.quarantine)) (fun _ => Or.inr)
      (fun l' op _ hop => allowed_of_idle l' op (Or.inr hop)) (s := s.mailbox) (w := l)
    have hkeeps : ICloudMailbox.KeepsTrash
        (ICloudMailbox.listInboxUids (some o.keywords.quarantine)) :=
      ICloudMailbox.listInboxUids_keeps _
    refine ((hgrow.also (A := fun _ _ => True) (fun _ => trivial) (hkeeps s.mailbox)).also
      (A := fun op r => ∃ l l', Account special l op r l') (fun hE => ⟨_, _, hE⟩)
      (Settlement.listInboxUids_nodup (fun _ _ ⟨_, _, hE⟩ => hE.2.1) _ s.mailbox)).mono ?_
    rintro r mailbox l' ⟨⟨hl', hsame⟩, hnodup⟩
    refine ⟨fun uids hr => ⟨hl'.2 h, hnodup uids hr, fun uid _ => hl'.1.sole (hsole uid), ?_⟩,
      fun _ _ => trivial⟩
    intro name hname
    rw [show mailbox.trashFolder = s.mailbox.trashFolder from hsame] at hname
    exact hknows name hname

/-! ## A budget that is over at once

With a negative `TIME_BUDGET_SECONDS` the loop stops before its first message. -/

/-- Nobody else is there, and all calls are idle. -/
def idleOnly : Discipline Op Log := ⟨fun l l' => l' = l, fun _ op => Idle op⟩

/-- The clock goes on. -/
def ticking (special : Option String) : Growth (Account special) idleOnly Idle where
  grow := fun l l' => l.now ≤ l'.now
  refl := fun l => le_refl l.now
  trans := le_trans
  rely := by
    rintro l _ rfl
    exact le_refl _
  step := fun _ _ hE => hE.2.2.1

/-- The run has started before now and has been refused nothing. -/
def Started (started : ℚ) (s : RunState) (l : Log) : Prop := started ≤ l.now ∧ s.rejected = []

theorem Started.later {started : ℚ} {s s' : RunState} (h : Started started s l) (hs : s.Steady s')
    (hl : l.now ≤ l'.now) : Started started s' l' := ⟨h.1.trans hl, hs.rejected.trans h.2⟩

theorem processAll_idle (hbudget : o.timeBudgetSeconds < 0) {extraLabels : List String}
    {started : ℚ} {uids : List ℕ} {s : RunState} (h : Started started s l) :
    (Forwarder.processAll o extraLabels started uids).Safe (Account special) idleOnly
      (fun r s' _ => (r = .ok () → s'.rejected = []) ∧ ∀ e, r = .error e → True) s l := by
  cases uids with
  | nil => exact ⟨fun _ => h.2, fun _ _ => trivial⟩
  | cons uid rest =>
      rw [Forwarder.processAll, Routine.safe_bind, safe_call']
      rintro l₁ rfl
      refine ⟨Or.inl rfl, fun r l₂ hE => ?_⟩
      cases r with
      | error e => exact ⟨by simp, fun _ _ => trivial⟩
      | ok now =>
          have hnow : l₁.now ≤ now := hE.2.1.1
          have hover : now - started > o.timeBudgetSeconds := by
            have hstarted := h.1
            linarith
          rw [Routine.after_ok, if_pos hover, safe_count]
          exact ⟨fun _ => h.2, fun _ _ => trivial⟩

theorem run_idle (hbudget : o.timeBudgetSeconds < 0) {s : RunState} (hs : s.rejected = []) :
    (Forwarder.run o).Safe (Account special) idleOnly (fun _ _ _ => True) s l := by
  have hallowed : ∀ (l : Log) (op : Op), op.isSurvey = true → (idleOnly).guard l op :=
    fun _ _ hop => Or.inl hop
  refine (Forwarder.run_of_session (Q := fun _ _ => True) (I := Started) hallowed
    ((ticking special).restrict (fun _ => Or.inl)) (fun hs hl h => h.later hs hl)
    (fun _ => trivial) (fun _ _ _ => trivial) ?_ ?_).mono (fun _ _ _ _ => trivial)
  · intro started s l h
    refine Forwarder.session_of_loop (K := fun s _ => s.rejected = []) (Q := fun _ _ => True)
      (I := Started started) (J := fun _ => Started started) hallowed
      ((ticking special).restrict (fun _ => Or.inl)) (fun _ => trivial)
      (fun hs hl h => h.later hs hl) (fun hs hl h => h.later hs hl) (fun _ => trivial) ?_
      (fun s l hnone hne => absurd hnone hne)
      (fun extraLabels uids s l h => processAll_idle hbudget h) h
    intro s l h
    rw [safe_onMailbox]
    refine (Routine.Safe.of_uses (ticking special) (ICloudMailbox.listInboxUids_glances _)
      (fun _ => Or.inr) (fun _ _ _ hop => Or.inr hop)).mono ?_
    intro r mailbox l' hl'
    exact ⟨fun _ _ => ⟨h.1.trans hl', h.2⟩, fun _ _ => trivial⟩
  · rw [safe_call']
    rintro l₁ rfl
    refine ⟨Or.inl rfl, fun r l₂ hE => ⟨fun started hr => ?_, fun _ _ => trivial⟩⟩
    subst hr
    exact ⟨hE.2.1.2, hs⟩

/-! ## The theorem -/

/-- What the claim is about, at a point `l` of a run and for a point `l₀` before it: what Gmail has
    refused is not in the folder that is the Trash at `l₀`, and what has been moved into one of the two
    quarantine folders is in the INBOX at most with a quarantine keyword. -/
structure Kept (special : Option String) (o : ForwarderOptions) (w : World) (l₀ l : Log) : Prop where
  trash : ∀ raw ∈ refusals l.events, ∀ name, trashName special l₀.world.folders = some name →
    ∀ m ∈ l.world.messages, m.raw = raw → m.folder ≠ folderName name
  inbox : ∀ uid folder, folder = o.failedFolder ∨ folder = o.unverifiedFolder →
    MovedTo folder uid l.events → ∀ m₀ ∈ w.messages, m₀.isAt uid = true →
    ∀ m ∈ l.world.messages, m.raw = m₀.raw → m.folder = "INBOX" →
    Fallback.carries o.keywords m = true

theorem sound_opened {w : World} (hw : WellFormed w) (now : ℚ) : Sound o w (opened w now) where
  wellFormed := hw
  folders := fun _ h => h
  inbox := fun m hm hin => ⟨m, hm, Message.isAt_iff.mpr ⟨hin, rfl⟩, rfl⟩
  refused := nofun
  marked := fun _ _ h => absurd (List.suffix_nil.mp h) nofun
  gone := by
    rintro folder uid (h | ⟨stored, h⟩)
    · exact absurd h List.not_mem_nil
    · exact absurd (List.infix_nil.mp h) nofun

theorem sole_opened {w : World} (hraws : (w.messages.map Message.raw).Nodup) (now : ℚ) (uid : ℕ) :
    Sole (opened w now) uid :=
  fun _ hm _ => ⟨nofun, fun _ hm' hraw => List.inj_on_of_nodup_map hraws hm' hm hraw⟩

/-- The log is sound wherever the run is. -/
theorem sound_of_steps {w : World} (hw : WellFormed w) (hraws : (w.messages.map Message.raw).Nodup)
    (hapart : Apart o.failedFolder o.unverifiedFolder (reach special w.folders)) {now : ℚ}
    {p : Program Op Reply (Except Exc SyncResult × RunState)}
    (h : Program.Steps (Account special)
      (opened w now, Forwarder.run o (Forwarder.initial o)) (l, p)) : Sound o w l := by
  have hrun := run_safe (s := Forwarder.initial o) hapart (sound_opened hw now)
    (sole_opened hraws now) (fun _ hname => absurd hname nofun)
  have hunder := Program.Steps.under (discipline o).rely (fun _ => rfl) h
  refine (Program.Safe.steps (I := Sound o w) ?_ ?_ hrun (sound_opened hw now) hunder).1
  · rintro l _ rfl hs
    exact hs
  · exact fun hg hE hs => sound_step hs hg hE

theorem kept_of_sound {w : World} (hraws : (w.messages.map Message.raw).Nodup)
    (hapart : Apart o.failedFolder o.unverifiedFolder (reach special w.folders)) {l₀ : Log}
    (hs₀ : Sound o w l₀) (hs : Sound o w l) : Kept special o w l₀ l := by
  refine ⟨fun raw hraw name hname m hm he hin => ?_, fun uid folder _ hmoved m₀ hm₀ hat m hm he hin => ?_⟩
  · have hreach := mem_reach hs₀.folders hname
    rcases hs.refused m hm (he ▸ hraw) with hinbox | hfailed
    · exact hapart.trashAway name hreach (hin.symm.trans hinbox)
    · exact hapart.distinct name hreach (hin.symm.trans hfailed)
  · obtain ⟨m₁, hm₁, hat₁, he₁⟩ := hs.inbox m hm hin
    have hsame : m₁ = m₀ := List.inj_on_of_nodup_map hraws hm₁ hm₀ (he₁.trans he)
    rw [hsame] at hat₁
    have huid : m.uid = uid := (Message.isAt_iff.mp hat₁).2.symm.trans (Message.isAt_iff.mp hat).2
    have hnone := hs.gone folder uid hmoved m hm
    rw [Message.isAt_iff.mpr ⟨hin, huid⟩] at hnone
    exact absurd hnone nofun

/-- Where all calls are idle, Gmail refuses nothing and nothing is moved. -/
theorem kept_of_idle {w : World} {l₀ : Log} (h : ∀ event ∈ l.events, Idle event.1) :
    Kept special o w l₀ l := by
  refine ⟨fun raw hraw => ?_, fun uid folder _ hmoved => ?_⟩
  · obtain ⟨event, hin, hrefusal⟩ := List.mem_filterMap.mp hraw
    rw [refusal_of_not_insert (isInsert_of_idle (h event hin))] at hrefusal
    exact absurd hrefusal nofun
  · rcases hmoved with hmove | ⟨stored, hcopy⟩
    · exact absurd (h _ hmove) (by simp [Idle, Op.isSurvey, Op.isSetup, Op.isGlance, Op.isLook,
        Op.isQuiet])
    · have hin := hcopy.subset List.mem_cons_self
      exact absurd (h _ hin) (by simp [Idle, Op.isSurvey, Op.isSetup, Op.isGlance, Op.isLook,
        Op.isQuiet])

theorem idle_of_steps (hbudget : o.timeBudgetSeconds < 0) {w : World} {now : ℚ}
    {p : Program Op Reply (Except Exc SyncResult × RunState)}
    (h : Program.Steps (Account special)
      (opened w now, Forwarder.run o (Forwarder.initial o)) (l, p)) :
    ∀ event ∈ l.events, Idle event.1 := by
  have hrun : (Forwarder.run o).Safe (Account special) idleOnly (fun _ _ _ => True)
      (Forwarder.initial o) (opened w now) := run_idle hbudget rfl
  have hunder := Program.Steps.under idleOnly.rely (fun _ => rfl) h
  refine (Program.Safe.steps (I := fun l => ∀ event ∈ l.events, Idle event.1) ?_ ?_ hrun
    (fun _ h => absurd h List.not_mem_nil) hunder).1
  · rintro l _ rfl hl
    exact hl
  · intro l op r l' hg hE hl event hin
    rw [hE.2.2.2] at hin
    rcases List.mem_append.mp hin with hin | hin
    · exact hl event hin
    · rw [List.mem_singleton.mp hin]
      exact hg

/-- **Where the names keep apart, mail that is not in Gmail stays out of the Trash and of the queue.**
    For every environment that is accepted, at every point of every run: if neither of the two folders
    is the INBOX, and no name in reach of `trash_folder` is the INBOX or the failed folder, what Gmail
    has refused is not in the Trash and what has been moved aside is not back in the INBOX. So it is,
    too, if the time budget is negative. -/
theorem unforwarded_kept (e : Environ) {registered registered' : Secrets.Registered}
    {settings : ForwarderSettings}
    (hsettings : (ForwarderSettings.fromEnv e).outcome registered = (.ok settings, registered'))
    {special : Option String} {w : World} (hw : WellFormed w)
    (hraws : (w.messages.map Message.raw).Nodup)
    (hcondition : Apart (e.getD "FAILED_FOLDER" "Forward-Failed")
        (e.getD "UNVERIFIED_FOLDER" "Forward-Unverified") (reach special w.folders) ∨
      ∃ budget, e.envInt "TIME_BUDGET_SECONDS" 480 = .ok budget ∧ budget < 0)
    {now : ℚ} {l₀ l : Log} {p₀ p : Program Op Reply (Except Exc SyncResult × RunState)}
    (hbefore : Program.Steps (Account special)
      (opened w now, Forwarder.run settings.options (Forwarder.initial settings.options)) (l₀, p₀))
    (hafter : Program.Steps (Account special) (l₀, p₀) (l, p)) :
    Kept special settings.options w l₀ l := by
  obtain ⟨-, -, -, hbudget, -, hfailed, hunverified⟩ :=
    ForwarderSettings.fromEnv_eq_ok_iff.mp hsettings
  have hsteps := hbefore.trans hafter
  rcases hcondition with hapart | ⟨budget, hread, hnegative⟩
  · rw [hfailed, hunverified] at hapart
    exact kept_of_sound hraws hapart (sound_of_steps hw hraws hapart hbefore)
      (sound_of_steps hw hraws hapart hsteps)
  · have hsame : settings.timeBudgetSeconds = budget := Except.ok.inj (hbudget.symm.trans hread)
    have hover : settings.options.timeBudgetSeconds < 0 := by
      show (settings.timeBudgetSeconds : ℚ) < 0
      rw [hsame]
      exact_mod_cast hnegative
    exact kept_of_idle (idle_of_steps hover hsteps)

/-! ## Two configurations -/

/-- A provider's answer; a `SEARCH` names no message twice. -/
def answer (P : Provider) (l : Log) : (op : Op) → Reply op
  | .search criteria => .ok (l.world.searchInbox criteria).dedup
  | op => P.reply l.now l.world op

/-- A provider, with the log kept and the time standing still. -/
def log (P : Provider) (l : Log) (op : Op) : Reply op × Log :=
  (answer P l op, ⟨P.after l.now l.world op, l.events ++ [⟨op, answer P l op⟩], l.now⟩)

theorem log_account (P : Provider) (l : Log) (op : Op) :
    Account P.trash l op (log P l op).1 (log P l op).2 := by
  refine ⟨?_, ?_, le_refl _, rfl⟩
  · cases op
    case search criteria =>
      refine ⟨Or.inl ?_, trivial⟩
      show P.after l.now l.world (.search criteria) = l.world
      unfold Provider.after
      split <;> rfl
    all_goals exact P.serves l.now l.world _
  · cases op
    case search criteria => exact List.nodup_dedup _
    case clock => exact ⟨le_refl _, le_refl _⟩
    case findTrash => exact rfl
    case folderExists folder => exact rfl
    case trashConstant =>
      show Tells P.trash l _ .trashConstant (if P.exportsTrash then _ else _)
      cases P.exportsTrash <;> exact trivial
    case insertRaw raw labels =>
      show Tells P.trash l _ (.insertRaw raw labels) (P.gmail raw)
      cases P.gmail raw <;> exact trivial
    all_goals exact trivial

/-- The folder mode, with `FAILED_FOLDER` as given. -/
def byFolder (failed : String) : Environ where
  get := fun
    | "ICLOUD_USER" => some "me@icloud.com"
    | "ICLOUD_PASSWORD" => some "pass"
    | "GMAIL_OAUTH_JSON" => some "{...}"
    | "QUARANTINE_MODE" => some "folder"
    | "FAILED_FOLDER" => some failed
    | _ => none
  accessSecretVersion := fun _ => ""
  int := fun _ => none
  lower := lower
  loads := fun _ => .ok (.obj [("client_id", .str "id"), ("client_secret", .str "key"),
    ("refresh_token", .str "token")])

/-- What is read from it. -/
def settingsOf (failed : String) : ForwarderSettings where
  icloud := { user := "me@icloud.com", password := "pass", host := "imap.mail.me.com",
              port := 993, timeout := 60 }
  gmail := { clientId := .str "id", clientSecret := .str "key", refreshToken := .str "token",
             label := some "iCloud" }
  failedFolder := failed
  unverifiedFolder := "Forward-Unverified"
  keywords := Keywords.default
  quarantineMode := .folder
  timeBudgetSeconds := 480
  rejectionThreshold := 3

theorem accepted_trash : (ForwarderSettings.fromEnv (byFolder "Trash")).outcome [] =
    (.ok (settingsOf "Trash"), []) := by
  refine ForwarderSettings.fromEnv_eq_ok_iff.mpr ⟨?_, ?_, ⟨[], ?_, ?_⟩, ?_, ?_, ?_, ?_⟩
  all_goals rfl

theorem accepted_failed : (ForwarderSettings.fromEnv (byFolder "Forward-Failed")).outcome [] =
    (.ok (settingsOf "Forward-Failed"), []) := by
  refine ForwarderSettings.fromEnv_eq_ok_iff.mpr ⟨?_, ?_, ⟨[], ?_, ?_⟩, ?_, ?_, ?_, ?_⟩
  all_goals rfl

/-- Gmail refuses every mail, and the Trash is the folder with that name. -/
def refusing : Provider where
  trash := none
  gmail := fun _ => .error (.gmailError .permanent "too large" (some 413))

/-- One mail, and a Trash. -/
def withTrash : World := { oneMail with folders := ["INBOX", "Trash"] }

theorem withTrash_wellFormed : WellFormed withTrash := ⟨by decide, by decide⟩

/-- The run with `FAILED_FOLDER` as given. -/
def refusedRun (failed : String) : (Except Exc SyncResult × RunState) × Log :=
  (Forwarder.run (settingsOf failed).options).exec (log refusing)
    (Forwarder.initial (settingsOf failed).options) (opened withTrash 0)

theorem refusedRun_steps (failed : String) : Program.Steps (Account none)
    (opened withTrash 0, Forwarder.run (settingsOf failed).options
      (Forwarder.initial (settingsOf failed).options))
    ((refusedRun failed).2, .pure (refusedRun failed).1) :=
  Program.exec_steps (log refusing) (log_account refusing) _ _

/-- With `FAILED_FOLDER=Trash` the refused mail is in the Trash. -/
theorem refused_in_trash : (ForwarderSettings.fromEnv (byFolder "Trash")).outcome [] =
      (.ok (settingsOf "Trash"), []) ∧
    Program.Steps (Account none)
      (opened withTrash 0, Forwarder.run (settingsOf "Trash").options
        (Forwarder.initial (settingsOf "Trash").options))
      ((refusedRun "Trash").2, .pure (refusedRun "Trash").1) ∧
    ¬Kept none (settingsOf "Trash").options withTrash (refusedRun "Trash").2
      (refusedRun "Trash").2 := by
  refine ⟨accepted_trash, refusedRun_steps "Trash", fun hkept => ?_⟩
  have hraw : (⟨0, [72, 105]⟩ : RawMail) ∈ refusals (refusedRun "Trash").2.events := by
    decide +kernel
  have hname : trashName none (refusedRun "Trash").2.world.folders = some "Trash" := by
    decide +kernel
  have hin : ⟨"Trash", 2, ⟨0, [72, 105]⟩, []⟩ ∈ (refusedRun "Trash").2.world.messages := by
    decide +kernel
  exact hkept.trash _ hraw "Trash" hname _ hin rfl rfl

/-- With another name it is kept apart. -/
theorem unforwarded_kept_failed : (refusedRun "Forward-Failed").2.world.messages =
      [⟨"Forward-Failed", 2, ⟨0, [72, 105]⟩, []⟩] ∧
    Kept none (settingsOf "Forward-Failed").options withTrash (refusedRun "Forward-Failed").2
      (refusedRun "Forward-Failed").2 := by
  refine ⟨by decide +kernel, ?_⟩
  refine unforwarded_kept (byFolder "Forward-Failed") accepted_failed withTrash_wellFormed
    (by decide) (Or.inl ⟨by decide, by decide, by decide, by decide⟩)
    (refusedRun_steps "Forward-Failed") .refl

end Folders

end MailTransporter
