import MailTransporter.Vanishing

set_option autoImplicit false

/-! # Progress from run to run

The watcher calls the forwarder again at once while a run reports messages that remain. `Gauge` keeps
the account as it was when the INBOX was last searched beside the account, so the queue of a run can
be compared with the queue it leaves. A run takes as many messages out of the queue as it trashes and
quarantines and puts none back, so a chain of runs that each trash or quarantine something is no
longer than the queue. -/

namespace MailTransporter

open Effect
open Effect.Routine (raise attempt getSelf modifySelf settle)

namespace Progress

/-- The account, and the account as it was when the INBOX was last searched. -/
structure Gauge where
  world : World
  listed : World

def opened (w : World) : Gauge := ⟨w, w⟩

/-- The account last searched, after a call. -/
def Gauge.searched (d : Gauge) (op : Op) (w' : World) : World :=
  match op with
  | .search _ => w'
  | _ => d.listed

/-- `SEARCH` names messages that match, and none twice. -/
def Searches (w : World) (op : Op) (r : Reply op) : Prop :=
  match op, r with
  | .search criteria, .ok uids => uids.Nodup ∧
      ∀ uid ∈ uids, ∃ m ∈ w.messages, m.isAt uid = true ∧ matchesCriteria criteria m = true
  | _, _ => True

/-- The server, with the gauge read. -/
def Gauges : Env Op Reply Gauge := fun d op r d' =>
  Serves d.world op r d'.world ∧ Searches d.world op r ∧ d'.listed = d.searched op d'.world

/-- The flags that keep a message out of the queue. -/
def marks (k : Keywords) : List String := deletedFlag :: k.quarantine

/-- The other clients take no such flag off a message. -/
def KeepsMarks (k : Keywords) : Event → Prop
  | .reflag m flags => ∀ flag ∈ marks k, m.has flag = true → hasFlag flags flag = true
  | _ => True

/-- One move of the other clients. -/
def Other (k : Keywords) (d d' : Gauge) : Prop :=
  ∃ e : Event, e.Enabled d.world ∧ KeepsMarks k e ∧ d' = { d with world := e.apply d.world }

def Others (k : Keywords) : Gauge → Gauge → Prop := Relation.ReflTransGen (Other k)

/-- The UIDs of the messages of the INBOX that are neither `\Deleted` nor quarantined. -/
def queued (k : Keywords) (w : World) : List ℕ := w.live (fun m => !matchesAny m.flags k.quarantine)

variable {k : Keywords} {w₀ : World}

/-! ## Messages only leave the queue -/

/-- A message under a UID given out before was there, in the same folder, and has lost no mark. -/
structure Wears (k : Keywords) (w w' : World) : Prop where
  uidNext : w.uidNext ≤ w'.uidNext
  old : ∀ m' ∈ w'.messages, m'.uid < w.uidNext → ∃ m ∈ w.messages, m.uid = m'.uid ∧
    m.folder = m'.folder ∧ ∀ flag ∈ marks k, m.has flag = true → m'.has flag = true

theorem Wears.refl (w : World) : Wears k w w :=
  ⟨Nat.le_refl _, fun m hm _ => ⟨m, hm, rfl, rfl, fun _ _ h => h⟩⟩

theorem Wears.trans {a b c : World} (h : Wears k a b) (h' : Wears k b c) : Wears k a c where
  uidNext := h.uidNext.trans h'.uidNext
  old := by
    intro m'' hm'' hu
    obtain ⟨m', hm', hu', hf', hkeep'⟩ := h'.old m'' hm'' (Nat.lt_of_lt_of_le hu h.uidNext)
    obtain ⟨m, hm, hum, hf, hkeep⟩ := h.old m' hm' (hu' ▸ hu)
    refine ⟨m, hm, hum.trans hu', hf.trans hf', fun flag hflag hhas => ?_⟩
    exact hkeep' flag hflag (hkeep flag hflag hhas)

theorem wears_serves {w w' : World} {op : Op} {r : Reply op} (hE : Serves w op r w')
    (hop : ∀ uid flag, op ≠ .removeFlags uid flag) : Wears k w w' := by
  refine ⟨hE.uidNext_le, fun m' hm' hu => ?_⟩
  rcases hE.origin hm' with ⟨m, hm, rfl | rfl⟩ | ⟨m, hm, uid, folder, -, -, rfl⟩
  · exact ⟨m', hm, rfl, rfl, fun _ _ h => h⟩
  · exact ⟨m, hm, rfl, rfl, fun _ _ hhas => has_flagsAfter hop hhas⟩
  · rw [Message.placed_uid] at hu
    exact absurd hu (Nat.lt_irrefl _)

theorem wears_apply {w : World} (hw : WellFormed w) {e : Event} (he : e.Enabled w)
    (hk : KeepsMarks k e) : Wears k w (e.apply w) := by
  refine ⟨uidNext_le_apply he, fun m' hm' hu => ?_⟩
  rcases mem_apply hw he hm' with hm | ⟨m, hm, flags, rfl, rfl⟩ | ⟨raw, uid, flags, rfl, rfl⟩ |
    ⟨m, -, folder, -, rfl⟩
  · exact ⟨m', hm, rfl, rfl, fun _ _ h => h⟩
  · exact ⟨m, hm, rfl, rfl, fun flag hflag hhas => hk flag hflag hhas⟩
  · have hle : w.uidNext ≤ uid := he
    have hlt : uid < w.uidNext := hu
    omega
  · rw [Message.placed_uid] at hu
    exact absurd hu (Nat.lt_irrefl _)

theorem mem_queued {w : World} {uid : ℕ} : uid ∈ queued k w ↔
    ∃ m ∈ w.messages, m.isAt uid = true ∧ ∀ flag ∈ marks k, m.has flag = false := by
  unfold queued
  rw [World.mem_live]
  simp only [Bool.not_eq_true', matchesAny_quarantine, Bool.or_eq_false_iff]
  simp only [marks, Keywords.quarantine, List.mem_cons, List.not_mem_nil, or_false,
    forall_eq_or_imp, forall_eq]
  exact Iff.rfl

theorem queued_nodup {w : World} (hw : WellFormed w) : (queued k w).Nodup := by
  have hinbox : w.InboxDistinct := hw.distinct.sublist (List.filter_sublist.map _)
  exact (hinbox.live_sorted _).nodup

/-- What is in the queue under an old UID was in the queue. -/
theorem Wears.queued {w w' : World} (h : Wears k w w') {uid : ℕ} (hin : uid ∈ queued k w')
    (hu : uid < w.uidNext) : uid ∈ Progress.queued k w := by
  obtain ⟨m', hm', hat', hclear⟩ := mem_queued.mp hin
  obtain ⟨hfolder, rfl⟩ := Message.isAt_iff.mp hat'
  obtain ⟨m, hm, hum, hf, hkeep⟩ := h.old m' hm' hu
  refine mem_queued.mpr ⟨m, hm, Message.isAt_iff.mpr ⟨hf.trans hfolder, hum⟩, ?_⟩
  intro flag hflag
  refine Bool.eq_false_iff.mpr (fun hhas => ?_)
  have hhas' := hkeep flag hflag hhas
  rw [hclear flag hflag] at hhas'
  exact absurd hhas' nofun

/-- The message at `uid` is out of the queue for good. -/
def Spent (k : Keywords) (uid : ℕ) (w : World) : Prop :=
  uid < w.uidNext ∧ ∀ m ∈ w.messages, m.isAt uid = true → ∃ flag ∈ marks k, m.has flag = true

theorem Spent.later {w w' : World} {uid : ℕ} (h : Spent k uid w) (hw : Wears k w w') :
    Spent k uid w' := by
  refine ⟨Nat.lt_of_lt_of_le h.1 hw.uidNext, fun m' hm' hat' => ?_⟩
  obtain ⟨hfolder, rfl⟩ := Message.isAt_iff.mp hat'
  obtain ⟨m, hm, hum, hf, hkeep⟩ := hw.old m' hm' h.1
  obtain ⟨flag, hflag, hhas⟩ := h.2 m hm (Message.isAt_iff.mpr ⟨hf.trans hfolder, hum⟩)
  exact ⟨flag, hflag, hkeep flag hflag hhas⟩

theorem Spent.not_queued {w : World} {uid : ℕ} (h : Spent k uid w) : uid ∉ queued k w := by
  intro hin
  obtain ⟨m, hm, hat, hclear⟩ := mem_queued.mp hin
  obtain ⟨flag, hflag, hhas⟩ := h.2 m hm hat
  rw [hclear flag hflag] at hhas
  exact absurd hhas nofun

/-! ### What takes a message out of the queue -/

theorem spent_of_move {w w' : World} {uid : ℕ} {folder : String} (hu : uid < w.uidNext)
    (hE : Serves w (.move uid folder) (.ok ()) w') : Spent k uid w' := by
  have he := Serves.effect_of_ok rfl hE
  refine ⟨Nat.lt_of_lt_of_le hu hE.uidNext_le, fun m hm hat => ?_⟩
  rw [he] at hm
  simp only [effect, World.moveTo] at hm
  cases hf : w.find uid with
  | none =>
      rw [hf] at hm
      rw [World.find_none hf hm] at hat
      exact absurd hat (by simp)
  | some m₀ =>
      rw [hf] at hm
      rcases List.mem_append.mp hm with hm | hm
      · have hout := (List.mem_filter.mp hm).2
        rw [hat] at hout
        exact absurd hout (by simp)
      · rw [List.mem_singleton.mp hm] at hat
        have huid := (Message.isAt_iff.mp hat).2
        rw [Message.placed_uid] at huid
        omega

theorem spent_of_store {w : World} {uid : ℕ} {flag : String} (hu : uid < w.uidNext)
    (hflag : flag ∈ marks k) : Spent k uid (effect (.addFlags uid flag) w) := by
  refine ⟨hu, fun m hm hat => ⟨flag, hflag, ?_⟩⟩
  exact (Vanishing.holds_of_stored hm hat).2

theorem spent_of_confirms {w w' : World} {uid : ℕ} {keyword : String} (hw : WellFormed w')
    (hkw : keyword ∈ marks k) (h : ICloudMailbox.Confirms Serves w uid keyword w') :
    Spent k uid w' := by
  obtain ⟨m, hm, hat, hhas⟩ := Serves.confirms h
  have huid := (Message.isAt_iff.mp hat).2
  refine ⟨huid ▸ hw.given m hm, fun m' hm' hat' => ⟨keyword, hkw, ?_⟩⟩
  have hsame := (Message.isAt_iff.mp hat').2.trans huid.symm
  rw [hw.unique hm' hm hsame]
  exact hhas

/-! ## What one message comes to -/

open Forwarder

/-- The messages a run has trashed or quarantined. -/
def taken (s : RunState) : ℕ := s.result.trashed + s.result.quarantined

/-- The messages a run has passed over, which the next run meets again. -/
def passed (s : RunState) : ℕ := s.result.skipped + s.result.retryLater

/-- What only the loop and the settlement write. -/
def stamp (s : RunState) : ℕ × ℕ × Option String :=
  (s.result.listed, s.result.remaining, s.result.error)

section message

variable {W : Type} {E : Env Op Reply W} {D : Discipline Op W} {P N : W → Prop}

/-- A `MOVE` establishes `P`, and so does a `STORE` of `\Deleted` or a confirmed keyword. -/
structure Taking (E : Env Op Reply W) (grow : W → W → Prop) (keywords : List String) (uid : ℕ)
    (P : W → Prop) (w : W) : Prop where
  move : ∀ folder v v', grow w v → E v (.move uid folder) (.ok ()) v' → P v'
  delete : ∀ v stored v', grow w v → E v (.addFlags uid deletedFlag) (.ok stored) v' → P v'
  confirm : ∀ keyword ∈ keywords, ∀ v v', grow w v →
    ICloudMailbox.Confirms E v uid keyword v' → P v'

/-- The message has been counted as taken and `P` holds, or an exception was raised. -/
structure Took (P : W → Prop) (r : Except Exc Unit) (s s' : RunState) (w' : W) : Prop where
  stamp : stamp s' = stamp s
  rejected : s'.rejected = s.rejected
  passed : passed s' = passed s
  ok : r = .ok () → taken s' = taken s + 1 ∧ P w'
  error : ∀ e, r = .error e → taken s' = taken s

/-- An exception was raised and nothing counted. -/
theorem Took.raised {e : Exc} {s s' : RunState} {w' : W} (hr : s'.rejected = s.rejected)
    (hs : s'.result = s.result) : Took P (.error e) s s' w' := by
  refine ⟨?_, hr, ?_, nofun, fun _ _ => ?_⟩
  · rw [Progress.stamp, Progress.stamp, hs]
  · rw [Progress.passed, Progress.passed, hs]
  · rw [taken, taken, hs]

/-- What `_process` comes to when it returns. -/
inductive Handled (P N : W → Prop) (uid : ℕ) (s s' : RunState) (w' : W) : Prop
  | taken (hr : s'.rejected = s.rejected) (hp : passed s' = passed s)
      (ht : taken s' = Progress.taken s + 1) (h : P w')
  | passed (hr : s'.rejected = s.rejected) (hp : passed s' = Progress.passed s + 1)
      (ht : Progress.taken s' = Progress.taken s)
  | rejected (text : String) (perMessage : Bool)
      (hr : s'.rejected = s.rejected ++ [⟨uid, text, perMessage⟩])
      (hp : Progress.passed s' = Progress.passed s) (ht : Progress.taken s' = Progress.taken s)
      (h : N w')

/-- What `_process` comes to. -/
structure Processed (P N : W → Prop) (uid : ℕ) (r : Except Exc Unit) (s s' : RunState) (w' : W) :
    Prop where
  stamp : stamp s' = stamp s
  ok : r = .ok () → Handled P N uid s s' w'
  error : ∀ e, r = .error e → s'.rejected = s.rejected ∧ taken s' = taken s

theorem Took.processed {uid : ℕ} {r : Except Exc Unit} {s s' : RunState} {w' : W}
    (h : Took P r s s' w') : Processed P N uid r s s' w' :=
  ⟨h.stamp, fun hr => .taken h.rejected h.passed (h.ok hr).1 (h.ok hr).2,
    fun e hr => ⟨h.rejected, h.error e hr⟩⟩

variable (F : Growth E D (fun _ => True)) (allowed : ∀ w op, D.guard w op)
  (stable : ∀ {w w'}, F.grow w w' → P w → P w') {o : ForwarderOptions} {uid : ℕ} {s : RunState}
  {w : W}

theorem Taking.later {keywords : List String} {w' : W} (h : Taking E F.grow keywords uid P w)
    (hw : F.grow w w') : Taking E F.grow keywords uid P w' where
  move := fun folder v v' hv => h.move folder v v' (F.trans hw hv)
  delete := fun v stored v' hv => h.delete v stored v' (F.trans hw hv)
  confirm := fun keyword hk v v' hv => h.confirm keyword hk v v' (F.trans hw hv)

/-- The growth, as the mailbox methods need it. -/
def imaps : Growth E D (fun op => op.isImap = true) := F.restrict (fun _ _ => trivial)

include allowed stable

theorem moveAside_takes {folder : String} (h : Taking E F.grow o.keywords.quarantine uid P w) :
    (moveAside uid folder).Safe E D (fun r s' w' => Took P r s s' w') s w := by
  rw [moveAside, Routine.safe_bind, Routine.safe_attempt, safe_onMailbox]
  refine (ICloudMailbox.moveToFolder_establishes F allowed stable (h.move folder) h.delete).mono ?_
  rintro r mailbox w' ⟨rfl, -, hok, herror⟩
  rw [Routine.after_ok]
  rcases r with e | ⟨⟩
  · dsimp only
    rw [if_pos (herror e rfl)]
    exact .raised rfl rfl
  · exact ⟨rfl, rfl, rfl, fun _ => ⟨rfl, hok rfl⟩, by simp⟩

theorem quarantine_takes {keyword folder : String} (hkw : keyword ∈ o.keywords.quarantine)
    (h : Taking E F.grow o.keywords.quarantine uid P w) :
    (quarantine o uid keyword folder).Safe E D (fun r s' w' => Took P r s s' w') s w := by
  unfold quarantine
  split
  swap
  · exact moveAside_takes F allowed stable h
  rw [Routine.safe_bind, Routine.safe_attempt, safe_onMailbox]
  refine (ICloudMailbox.addKeyword_safe (imaps F) (fun v _ => allowed v _)
    (fun v _ => allowed v _)).mono ?_
  rintro r mailbox w' ⟨rfl, hw', ⟨rfl, w₁, hw₁, hc⟩ | ⟨text, rfl⟩⟩
  · exact ⟨rfl, rfl, rfl, fun _ => ⟨rfl, h.confirm keyword hkw w₁ w' hw₁ hc⟩, nofun⟩
  · simp only [Routine.after_ok, Exc.isMailboxError, if_true]
    exact moveAside_takes F allowed stable (h.later F hw')

theorem trash_takes {message : FetchedMessage} (hu : message.uid = uid)
    (h : Taking E F.grow o.keywords.quarantine uid P w) :
    (trash message).Safe E D (fun r s' w' => Took P r s s' w') s w := by
  subst hu
  rw [trash, Routine.safe_bind]
  refine ICloudMailbox.safe_any_call F allowed (fun _ r w₁ _ _ hw₁ => ?_)
  rcases r with e | ⟨⟩
  · exact .raised rfl rfl
  have h₁ := h.later F hw₁
  rw [Routine.after_ok, Routine.safe_bind, Routine.safe_attempt, safe_onMailbox]
  refine (ICloudMailbox.moveToTrash_establishes F allowed stable h₁.move h₁.delete).mono ?_
  rintro r mailbox w' ⟨-, hok⟩
  rw [Routine.after_ok]
  rcases r with e | ⟨⟩
  · dsimp only
    split
    · exact .raised rfl rfl
    · exact .raised rfl rfl
  · exact ⟨rfl, rfl, rfl, fun _ => ⟨Nat.add_right_comm _ _ _, hok rfl⟩, by simp⟩

theorem recordInsert_takes {message : FetchedMessage} (hu : message.uid = uid)
    (h : Taking E F.grow o.keywords.quarantine uid P w) :
    (recordInsert o message).Safe E D (fun r s' w' => Took P r s s' w') s w := by
  rw [recordInsert, Routine.safe_bind, safe_count, Routine.after_ok, Routine.safe_bind,
    Routine.safe_attempt, safe_onMailbox]
  refine (ICloudMailbox.addKeyword_safe (imaps F) (fun v _ => allowed v _)
    (fun v _ => allowed v _)).mono ?_
  rintro r mailbox w' ⟨rfl, hw', ⟨rfl, -⟩ | ⟨text, rfl⟩⟩
  · rw [Routine.after_ok]
    exact (trash_takes F allowed stable hu (h.later F hw')).mono
      (fun _ _ _ ht => ⟨ht.stamp, ht.rejected, ht.passed, ht.ok, ht.error⟩)
  · simp only [Routine.after_ok, Exc.isMailboxError, if_true]
    rw [hu]
    exact (quarantine_takes F allowed stable (List.mem_cons_of_mem _ List.mem_cons_self)
      (h.later F hw')).mono (fun _ _ _ ht => ⟨ht.stamp, ht.rejected, ht.passed, ht.ok, ht.error⟩)

theorem insert_takes {extraLabels : List String} {message : FetchedMessage}
    (hu : message.uid = uid) (h : Taking E F.grow o.keywords.quarantine uid P w)
    (hN : ∀ w', F.grow w w' → N w') :
    (Forwarder.insert o extraLabels message).Safe E D
      (fun r s' w' => Processed P N uid r s s' w') s w := by
  rw [Forwarder.insert, Routine.safe_bind, Routine.safe_attempt]
  refine ICloudMailbox.safe_any_call F allowed (fun _ r w₁ _ _ hw₁ => ?_)
  rw [Routine.after_ok]
  rcases r with e | id
  · rcases e with _ | _ | _ | ⟨_ | _ | _ | _, text, status⟩ | _
    case gmailError.retryable => exact ⟨rfl, fun _ => .passed rfl rfl rfl, by simp⟩
    case gmailError.permanent =>
      exact ⟨rfl, fun _ => .rejected text _ (by rw [← hu]) rfl rfl (hN w₁ hw₁), by simp⟩
    all_goals exact ⟨rfl, by simp, fun _ _ => ⟨rfl, rfl⟩⟩
  · exact (recordInsert_takes F allowed stable hu (h.later F hw₁)).mono
      (fun _ _ _ ht => ht.processed)

/-- **One message.** `hfetch` is what is known once the message has been fetched and carries no
    quarantine keyword. -/
theorem process_takes {extraLabels : List String}
    (hfetch : ∀ message v v', F.grow w v → ICloudMailbox.Delivers E v message v' →
      message.uid = uid → matchesAny message.flags o.keywords.quarantine = false →
      F.grow w v' → Taking E F.grow o.keywords.quarantine uid P v' ∧
        ∀ v'', F.grow v' v'' → N v'') :
    (process o extraLabels uid).Safe E D (fun r s' w' => Processed P N uid r s s' w') s w := by
  rw [process, Routine.safe_bind, Routine.safe_attempt, safe_onMailbox]
  refine (ICloudMailbox.fetchMessage_safe (imaps F) (fun v _ _ => allowed v _) uid).mono ?_
  rintro r mailbox w' ⟨rfl, hw', hok⟩
  rw [Routine.after_ok]
  rcases r with e | message
  · cases e with
    | messageGone text =>
      exact ⟨rfl, fun _ => .passed rfl (Nat.add_right_comm _ _ _) rfl, by simp⟩
    | mailboxError text => exact ⟨rfl, by simp, fun _ _ => ⟨rfl, rfl⟩⟩
    | abortRun text => exact ⟨rfl, by simp, fun _ _ => ⟨rfl, rfl⟩⟩
    | gmailError cls text status => exact ⟨rfl, by simp, fun _ _ => ⟨rfl, rfl⟩⟩
    | other name text => exact ⟨rfl, by simp, fun _ _ => ⟨rfl, rfl⟩⟩
  · obtain ⟨hu, v, hv, hd⟩ := hok message rfl
    dsimp only
    split
    · exact ⟨rfl, fun _ => .passed rfl (Nat.add_right_comm _ _ _) rfl, by simp⟩
    · next hclear =>
      have hclear : matchesAny message.flags o.keywords.quarantine = false :=
        Bool.eq_false_iff.mpr hclear
      obtain ⟨htaking, hN⟩ := hfetch message v w' hv hd hu hclear hw'
      split
      · exact (trash_takes F allowed stable hu htaking).mono (fun _ _ _ ht => ht.processed)
      · exact insert_takes F allowed stable hu htaking hN

end message

/-! ## The counters of a run that reports no error -/

section counters

variable {o : ForwarderOptions}

/-- Nothing is known of the answers. -/
abbrev Answers : Env Op Reply Unit := Env.answering fun _ _ => True

def nothing : Growth Answers .free (fun _ => True) where
  grow := fun _ _ => True
  refl := fun _ => trivial
  trans := fun _ _ => trivial
  rely := fun _ => trivial
  step := fun _ _ _ => trivial

theorem taking_nothing (keywords : List String) (uid : ℕ) :
    Taking Answers nothing.grow keywords uid (fun _ => True) () :=
  ⟨fun _ _ _ _ _ => trivial, fun _ _ _ _ _ => trivial, fun _ _ _ _ _ _ => trivial⟩

/-- The messages a run has counted or keeps in its list of rejections. -/
def handled (s : RunState) : ℕ := taken s + passed s + s.rejected.length

/-- The result says nothing of an error, and the messages of the listing add up. -/
def Adds (listed : ℕ) (s : RunState) : Prop :=
  s.result.error = none → s.result.listed = listed ∧ handled s + s.result.remaining = listed

theorem process_handles (extraLabels : List String) (uid : ℕ) (s : RunState) :
    (process o extraLabels uid).Safe Answers .free
      (fun r s' _ => stamp s' = stamp s ∧ (r = .ok () → handled s' = handled s + 1)) s () := by
  refine (process_takes (N := fun _ => True) nothing (fun _ _ => trivial) (fun _ h => h)
    (fun _ _ _ _ _ _ _ _ => ⟨taking_nothing _ uid, fun _ _ => trivial⟩)).mono ?_
  intro r s' _ h
  refine ⟨h.stamp, fun hr => ?_⟩
  unfold handled
  rcases h.ok hr with ⟨hrej, hp, ht, -⟩ | ⟨hrej, hp, ht⟩ | ⟨text, b, hrej, hp, ht, -⟩
  · rw [hrej, hp, ht]
    omega
  · rw [hrej, hp, ht]
    omega
  · rw [hrej, hp, ht, List.length_append, List.length_singleton]
    omega

/-- The loop. -/
theorem processAll_adds {extraLabels : List String} {started : ℚ} {uids : List ℕ} {s : RunState}
    {n : ℕ} (hs : stamp s = (n, 0, none)) (hn : handled s + uids.length = n) :
    (processAll o extraLabels started uids).Safe Answers .free
      (fun r s' _ => r = .ok () → Adds n s') s () := by
  induction uids generalizing s with
  | nil =>
      obtain ⟨hl, hr, -⟩ : s.result.listed = n ∧ s.result.remaining = 0 ∧ s.result.error = none := by
        simpa [stamp] using hs
      refine fun _ _ => ⟨hl, ?_⟩
      rw [hr]
      exact hn
  | cons uid rest ih =>
      obtain ⟨hl, hr, -⟩ : s.result.listed = n ∧ s.result.remaining = 0 ∧ s.result.error = none := by
        simpa [stamp] using hs
      rw [processAll, Routine.safe_bind]
      refine Routine.safe_answer (fun now _ => ?_)
      rcases now with e | now
      · simp
      rw [Routine.after_ok]
      split
      · exact fun _ _ => ⟨hl, hn⟩
      · rw [Routine.safe_bind, Routine.safe_attempt]
        refine (process_handles extraLabels uid s).mono ?_
        rintro r s' _ ⟨hs', hok⟩
        rw [Routine.after_ok]
        split
        · refine ih (hs'.trans hs) ?_
          rw [hok rfl, ← hn, List.length_cons]
          omega
        · exact fun _ => (by rintro ⟨⟩)
        · simp

/-- An error that has been reported stays in the result. -/
theorem keepError_ne_none (result : SyncResult) (text : String) :
    result.keepError text ≠ none := by
  unfold SyncResult.keepError
  split
  · split <;> nofun
  · nofun

/-- The settlement of a list: without an error the whole list is counted. -/
theorem quarantineAll_adds {rejected : List Rejection} {s : RunState} :
    (quarantineAll o rejected).Safe Answers .free (fun r s' _ => r = .ok () →
      (s'.result.error = none → s.result.error = none ∧ stamp s' = stamp s ∧
        taken s' = taken s + rejected.length ∧ passed s' = passed s)) s () := by
  induction rejected generalizing s with
  | nil => exact fun _ he => ⟨he, rfl, rfl, rfl⟩
  | cons rejection rest ih =>
      rw [quarantineAll, Routine.safe_bind, Routine.safe_attempt]
      have hkw : o.keywords.failed ∈ o.keywords.quarantine := List.mem_cons_self
      refine (quarantine_takes nothing (fun _ _ => trivial) (fun _ h => h) hkw
        (taking_nothing _ rejection.uid)).mono ?_
      intro r s₁ _ h
      rw [Routine.after_ok]
      split
      · refine ih.mono ?_
        intro r s' _ h' hr he
        obtain ⟨he₁, hs, ht, hp⟩ := h' hr he
        have herror : s₁.result.error = s.result.error := congrArg (fun t => t.2.2) h.stamp
        refine ⟨herror ▸ he₁, hs.trans h.stamp, ?_, hp.trans h.passed⟩
        rw [ht, (h.ok rfl).1, List.length_cons]
        omega
      · exact fun _ he => absurd he (keepError_ne_none _ _)
      · simp

theorem settleRejections_adds {s : RunState} {n : ℕ} (h : Adds n s) :
    (settleRejections o).Safe Answers .free (fun r s' _ => r = .ok () →
      s'.result.error = none → s'.result.listed = n ∧
        taken s' + passed s' + s'.result.remaining = n) s () := by
  simp only [settleRejections, Routine.safe_bind, Routine.safe_getSelf, Routine.after_ok]
  split
  · rw [Routine.safe_bind]
    unfold breakerMessage
    split
    · simp
    · rw [Routine.safe_pure, Routine.after_ok, Routine.safe_bind, safe_count, Routine.after_ok]
      refine quarantineAll_adds.mono ?_
      intro r s' _ h' hr he
      exact absurd (h' hr he).1 (keepError_ne_none _ _)
  · refine quarantineAll_adds.mono ?_
    intro r s' _ h' hr he
    obtain ⟨he₀, hs, ht, hp⟩ := h' hr he
    obtain ⟨hl, hn⟩ := h he₀
    have hlisted : s'.result.listed = s.result.listed := congrArg Prod.fst hs
    have hremaining : s'.result.remaining = s.result.remaining := congrArg (fun t => t.2.1) hs
    refine ⟨hlisted.trans hl, ?_⟩
    unfold handled at hn
    omega

/-- What a run has counted adds up to what it has listed. -/
def Balances (result : SyncResult) : Prop :=
  result.trashed + result.quarantined + (result.skipped + result.retryLater) + result.remaining =
    result.listed

/-- Whatever a method of the session is answered, the rest of the run is as it was. -/
theorem onMailbox_adds {α : Type} {m : Mailbox α} {Q : Except Exc α → RunState → Unit → Prop}
    {s : RunState} (h : ∀ r mailbox, Q r { s with mailbox := mailbox } ()) :
    (onMailbox m).Safe Answers .free Q s () := by
  rw [safe_onMailbox]
  exact Program.safe_free _ (fun r => h r.1 r.2)

theorem session_adds {started : ℚ} {s : RunState} (hresult : s.result = {})
    (hrejected : s.rejected = []) :
    (session o started).Safe Answers .free (fun r s' _ => r = .ok () →
      s'.result.error = none → Balances s'.result) s () := by
  rw [session, Routine.safe_bind]
  refine onMailbox_adds (fun r mailbox => ?_)
  rcases r with e | _
  · simp
  rw [Routine.after_ok, Routine.safe_bind]
  refine Routine.safe_answer (fun r _ => ?_)
  rcases r with e | _
  · simp
  rw [Routine.after_ok]
  have hrest : ∀ extraLabels mailbox, Routine.Safe Answers .free (do
      let uids ← onMailbox (ICloudMailbox.listInboxUids (some o.keywords.quarantine))
      count (fun r => { r with listed := uids.length })
      processAll o extraLabels started uids
      let s ← getSelf
      if s.rejected = [] then pure () else settleRejections o)
      (fun r s' _ => r = .ok () → s'.result.error = none → Balances s'.result)
      { s with mailbox := mailbox } () := by
    intro extraLabels mailbox
    rw [Routine.safe_bind]
    refine onMailbox_adds (fun r mailbox' => ?_)
    rcases r with e | uids
    · simp
    rw [Routine.after_ok, Routine.safe_bind, safe_count, Routine.after_ok, Routine.safe_bind]
    have hstart : handled { s with
        mailbox := mailbox'
        result := { s.result with listed := uids.length } } + uids.length = uids.length := by
      simp [handled, taken, passed, hresult, hrejected]
    have hstamp : stamp { s with
        mailbox := mailbox'
        result := { s.result with listed := uids.length } } = (uids.length, 0, none) := by
      simp [stamp, hresult]
    refine (processAll_adds hstamp hstart).mono ?_
    rintro r s₁ _ hadds
    rcases r with e | _
    · simp
    rw [Routine.after_ok, Routine.safe_bind, Routine.safe_getSelf, Routine.after_ok]
    split
    · next hnone =>
      intro _ he
      obtain ⟨hl, hn⟩ := hadds rfl he
      rw [handled, hnone] at hn
      exact hn.trans hl.symm
    · refine (settleRejections_adds (hadds rfl)).mono ?_
      intro r s' _ h hr he
      obtain ⟨hl, hn⟩ := h hr he
      exact hn.trans hl.symm
  unfold extraLabelIds
  split
  · exact hrest [] mailbox
  · split
    · exact hrest [] mailbox
    · simp only [Routine.safe_bind]
      refine Routine.safe_answer (fun r _ => ?_)
      rcases r with e | label
      · simp
      · exact hrest [label] mailbox

/-- **A run that reports no error accounts for every message it has listed.** -/
theorem run_adds {s : RunState} (hresult : s.result = {}) (hrejected : s.rejected = []) :
    (run o).Safe Answers .free
      (fun r _ _ => ∀ result, r = .ok result → result.error = none → Balances result) s () := by
  rw [run, Routine.safe_bind]
  refine Routine.safe_answer (fun started _ => ?_)
  rcases started with e | started
  · simp
  rw [Routine.after_ok, Routine.safe_bind, Routine.safe_attempt, withMailbox, Routine.safe_bind]
  have hend : ∀ s' : RunState, (s'.result.error = none → Balances s'.result) →
      Routine.Safe Answers .free (do
        let ended ← call .clock
        count (fun r => { r with durationSeconds := round3 (ended - started) })
        let s ← getSelf
        pure s.result)
        (fun r _ _ => ∀ result, r = .ok result → result.error = none → Balances result) s' () := by
    intro s' hs'
    rw [Routine.safe_bind]
    refine Routine.safe_answer (fun ended _ => ?_)
    rcases ended with e | ended
    · simp
    · rintro _ ⟨⟩ he
      exact hs' he
  have hraised : ∀ (exc : Exc) (s' : RunState), Routine.Safe Answers .free (do
        if exc.isMailboxError || exc.isGmailError then
          count (fun r => { r with error := some exc.text })
        else raise exc
        let ended ← call .clock
        count (fun r => { r with durationSeconds := round3 (ended - started) })
        let s ← getSelf
        pure s.result)
        (fun r _ _ => ∀ result, r = .ok result → result.error = none → Balances result) s' () := by
    intro exc s'
    split
    · rw [Routine.safe_bind, safe_count]
      exact hend _ (by simp)
    · simp
  refine onMailbox_adds (fun r mailbox => ?_)
  rcases r with e | _
  · exact hraised e _
  rw [Routine.after_ok, Routine.safe_bind, Routine.safe_attempt]
  refine (session_adds (s := { s with mailbox := mailbox }) hresult hrejected).mono ?_
  intro outcome s₁ _ hsession
  rw [Routine.after_ok, Routine.safe_bind]
  refine onMailbox_adds (fun r mailbox' => ?_)
  rcases r with e | _
  · exact hraised e _
  rw [Routine.after_ok, Routine.safe_settle]
  rcases outcome with e | _
  · exact hraised e _
  · exact hend _ (hsession rfl)

end counters

/-! ## The queue and the listing -/

/-- The others keep the marks, and no call is refused. -/
def discipline (k : Keywords) : Discipline Op Gauge := ⟨Others k, fun _ _ => True⟩

/-- Nothing has been searched, and messages have only left the queue. -/
structure Worn (k : Keywords) (d d' : Gauge) : Prop where
  listed : d'.listed = d.listed
  wellFormed : WellFormed d.world → WellFormed d'.world
  wears : WellFormed d.world → Wears k d.world d'.world

theorem Worn.refl (d : Gauge) : Worn k d d := ⟨rfl, id, fun _ => .refl _⟩

theorem Worn.trans {a b c : Gauge} (h : Worn k a b) (h' : Worn k b c) : Worn k a c where
  listed := h'.listed.trans h.listed
  wellFormed := fun ha => h'.wellFormed (h.wellFormed ha)
  wears := fun ha => (h.wears ha).trans (h'.wears (h.wellFormed ha))

theorem Others.worn {d d' : Gauge} (h : Others k d d') : Worn k d d' := by
  induction h with
  | refl => exact .refl d
  | tail _ hlast ih =>
      obtain ⟨e, he, hk, rfl⟩ := hlast
      exact ih.trans ⟨rfl, fun hw => hw.apply he, fun hw => wears_apply hw he hk⟩

/-- Calls that search nothing and take no flag off a message. -/
def Steady (op : Op) : Prop :=
  (∀ criteria, op ≠ .search criteria) ∧ ∀ uid flag, op ≠ .removeFlags uid flag

theorem steady_of_isSurvey {op : Op} (h : op.isSurvey = true) : Steady op := by
  refine ⟨fun criteria hop => ?_, fun uid flag hop => ?_⟩
  · rw [hop] at h
    exact absurd h nofun
  · rw [hop] at h
    exact absurd h nofun

theorem steady_of_isOn {uid : ℕ} {op : Op} (h : op.isOn uid = true) : Steady op := by
  refine ⟨fun criteria hop => ?_, fun u flag hop => ?_⟩
  · rw [hop] at h
    exact absurd h nofun
  · rw [hop] at h
    exact absurd h nofun

theorem Gauge.searched_of_steady {op : Op} (hop : Steady op) (d : Gauge) (w' : World) :
    d.searched op w' = d.listed := by
  cases op
  case search criteria => exact absurd rfl (hop.1 criteria)
  all_goals rfl

/-- What others and steady calls follow. -/
def worn (k : Keywords) : Growth Gauges (discipline k) Steady where
  grow := Worn k
  refl := .refl
  trans := .trans
  rely := Others.worn
  step := by
    rintro d op r d' hop - ⟨hE, -, hlisted⟩
    refine ⟨hlisted.trans (Gauge.searched_of_steady hop d _), hE.wellFormed, fun _ => ?_⟩
    exact wears_serves hE hop.2

/-- The mailbox is well formed, and messages have only left the queue, since the account was `w₀` and
    since the listing. -/
structure Watched (k : Keywords) (w₀ : World) (d : Gauge) : Prop where
  world : WellFormed d.world
  listed : WellFormed d.listed
  wears : Wears k d.listed d.world
  since : Wears k w₀ d.listed

theorem Watched.later {d d' : Gauge} (h : Watched k w₀ d) (hd : Worn k d d') : Watched k w₀ d' where
  world := hd.wellFormed h.world
  listed := hd.listed ▸ h.listed
  wears := hd.listed ▸ h.wears.trans (hd.wears h.world)
  since := hd.listed ▸ h.since

/-- Whatever is called, `removeFlags` apart. -/
theorem Watched.step {d d' : Gauge} {op : Op} {r : Reply op} (h : Watched k w₀ d)
    (hop : ∀ uid flag, op ≠ .removeFlags uid flag) (hE : Gauges d op r d') : Watched k w₀ d' := by
  obtain ⟨hserves, -, hlisted⟩ := hE
  have hw := hserves.wellFormed h.world
  by_cases hs : Steady op
  · rw [Gauge.searched_of_steady hs] at hlisted
    exact ⟨hw, hlisted ▸ h.listed, hlisted ▸ h.wears.trans (wears_serves hserves hop),
      hlisted ▸ h.since⟩
  · cases op
    case search criteria =>
      have hlisted : d'.listed = d'.world := hlisted
      exact ⟨hw, hlisted ▸ hw, hlisted ▸ .refl _,
        hlisted ▸ h.since.trans (h.wears.trans (wears_serves hserves hop))⟩
    case removeFlags uid flag => exact absurd rfl (hop uid flag)
    all_goals exact absurd ⟨nofun, nofun⟩ hs

/-- The message at `uid` was in the INBOX when it was listed, and was not `\Deleted`. -/
def Waiting (uid : ℕ) (w : World) : Prop :=
  ∃ m ∈ w.messages, m.isAt uid = true ∧ m.has deletedFlag = false

theorem waiting_of_search {d d' : Gauge} {rest : List String} {uids : List ℕ}
    (hE : Gauges d (.search ("NOT" :: "DELETED" :: rest)) (.ok uids) d') :
    ∀ uid ∈ uids, Waiting uid d'.listed := by
  obtain ⟨hserves, hsearch, hlisted⟩ := hE
  have hw : d'.world = d.world := by
    rcases hserves.cases with h | h
    · exact h
    · exact h
  intro uid hin
  obtain ⟨m, hm, hat, hmatch⟩ := hsearch.2 uid hin
  rw [matchesCriteria, Bool.and_eq_true, Bool.not_eq_true'] at hmatch
  refine ⟨m, ?_, hat, hmatch.1⟩
  have hlisted : d'.listed = d'.world := hlisted
  rw [hlisted, hw]
  exact hm

theorem namesOnce_of_gauges {d d' : Gauge} {op : Op} {r : Reply op} (h : Gauges d op r d') :
    Vanishing.NamesOnce op r := by
  have hsearch := h.2.1
  cases op
  case search criteria =>
    cases r with
    | ok uids => exact hsearch.1
    | error e => trivial
  all_goals trivial

/-- **The listing.** What `list_inbox_uids` names was waiting in the INBOX at its last `SEARCH`. -/
theorem listInboxUids_waiting {skipKeywords : Option (List String)} {s : ICloudMailbox} {d : Gauge}
    (hd : Watched k w₀ d) :
    (ICloudMailbox.listInboxUids skipKeywords).Safe Gauges (discipline k)
      (fun r _ d' => Watched k w₀ d' ∧ ∀ uids, r = .ok uids → ∀ uid ∈ uids, Waiting uid d'.listed)
      s d := by
  refine ICloudMailbox.listInboxUids_named (P := fun uid d => Waiting uid d.listed) ?_ ?_ ?_ hd
  · intro op d d₁ hd hothers hop
    refine ⟨trivial, fun r d₂ hE => (hd.later (Others.worn hothers)).step ?_ hE⟩
    rintro uid flag rfl
    exact absurd hop nofun
  · exact fun _ _ hE => waiting_of_search hE
  · intro d d₁ uids r d₂ uid _ hothers hE hwaiting
    have hlisted : d₂.listed = d.listed := hE.2.2.trans (Others.worn hothers).listed
    rw [hlisted]
    exact hwaiting

/-! ## The loop and the settlement -/

section loop

variable {o : ForwarderOptions} {d d' : Gauge} {s : RunState} {uid : ℕ}

/-- The message at `uid` was in the queue when it was listed and is out of it for good. -/
def Left (k : Keywords) (uid : ℕ) (d : Gauge) : Prop :=
  Spent k uid d.world ∧ uid ∈ queued k d.listed

theorem Left.later (h : Left k uid d) (hw : WellFormed d.world) (hd : Worn k d d') :
    Left k uid d' := ⟨h.1.later (hd.wears hw), hd.listed ▸ h.2⟩

theorem given_of_queued {w : World} (hw : WellFormed w) (h : uid ∈ queued k w) :
    uid < w.uidNext := by
  obtain ⟨m, hm, hat, -⟩ := mem_queued.mp h
  exact (Message.isAt_iff.mp hat).2 ▸ hw.given m hm

/-- The growth of the calls about one message, in a well-formed mailbox. -/
def fading (k : Keywords) (w₀ : World) : Growth (Gauges.only Steady) (discipline k) (fun _ => True) where
  grow := fun d d' => Watched k w₀ d → Worn k d d' ∧ Watched k w₀ d'
  refl := fun d hd => ⟨.refl d, hd⟩
  trans := fun h h' hd => ⟨(h hd).1.trans (h' (h hd).2).1, (h' (h hd).2).2⟩
  rely := fun h hd => ⟨Others.worn h, hd.later (Others.worn h)⟩
  step := fun _ hg hE hd =>
    have hworn := (worn k).step hE.1 hg hE.2
    ⟨hworn, hd.later hworn⟩

/-- What a call that takes the message out establishes. -/
def Parted (k : Keywords) (w₀ : World) (uid : ℕ) (d : Gauge) : Prop := Watched k w₀ d ∧ Left k uid d

theorem Parted.later (hd : (fading k w₀).grow d d') (h : Parted k w₀ uid d) : Parted k w₀ uid d' := by
  obtain ⟨hworn, hwatched⟩ := hd h.1
  exact ⟨hwatched, h.2.later h.1.world hworn⟩

theorem taking_of_queued (hd : Watched k w₀ d) (hu : uid ∈ queued k d.listed) :
    Taking (Gauges.only Steady) (fading k w₀).grow k.quarantine uid (Parted k w₀ uid) d := by
  have hlt : ∀ v, (fading k w₀).grow d v → uid < v.world.uidNext := by
    intro v hv
    obtain ⟨hworn, hwatched⟩ := hv hd
    rw [← hworn.listed] at hu
    exact Nat.lt_of_lt_of_le (given_of_queued hwatched.listed hu) hwatched.wears.uidNext
  -- the state after a call, given that of the message
  have hparted : ∀ {v v' op r}, (fading k w₀).grow d v → (Gauges.only Steady) v op r v' →
      (Watched k w₀ v' → Spent k uid v'.world) → Parted k w₀ uid v' := by
    intro v v' op r hv hE hspent
    obtain ⟨hworn, hwatched⟩ := hv hd
    have hlast := (worn k).step hE.1 trivial hE.2
    have hwatched' := hwatched.later hlast
    refine ⟨hwatched', hspent hwatched', ?_⟩
    rw [hlast.listed, hworn.listed]
    exact hu
  refine ⟨fun folder v v' hv hE => ?_, fun v stored v' hv hE => ?_,
    fun keyword hkw v v' hv hc => ?_⟩
  · exact hparted hv hE (fun _ => spent_of_move (hlt v hv) hE.2.1)
  · refine hparted hv hE (fun _ => ?_)
    have hstore : Op.isKeywordStore (.addFlags uid deletedFlag) = false := by
      simp [Op.isKeywordStore]
    rw [Serves.effect_of_ok hstore hE.2.1]
    exact spent_of_store (hlt v hv) List.mem_cons_self
  · have hspent : Watched k w₀ v' → Spent k uid v'.world := fun hv' =>
      spent_of_confirms hv'.world (List.mem_cons_of_mem _ hkw) (hc.map Gauge.world (fun h => h.2.1))
    rcases hc with ⟨response, hE, -⟩ | ⟨fetched, hE, -⟩
    · exact hparted hv hE hspent
    · exact hparted hv hE hspent

/-- A waiting message that is fetched without a quarantine keyword was in the queue. -/
theorem queued_of_delivers {message : FetchedMessage} (hd : Watched k w₀ d)
    (hwaiting : Waiting message.uid d.listed)
    (hdeliver : ICloudMailbox.Delivers Serves d.world message d'.world)
    (hclear : matchesAny message.flags k.quarantine = false) :
    message.uid ∈ queued k d.listed := by
  obtain ⟨-, m, hm, hat, -, hsame⟩ := Serves.delivers hdeliver
  obtain ⟨m₀, hm₀, hat₀, hdeleted⟩ := hwaiting
  obtain ⟨hfolder, hu⟩ := Message.isAt_iff.mp hat
  have hold : m.uid < d.listed.uidNext := by
    rw [hu, ← (Message.isAt_iff.mp hat₀).2]
    exact hd.listed.given m₀ hm₀
  obtain ⟨m₁, hm₁, hu₁, hf₁, hkeep⟩ := hd.wears.old m hm hold
  have heq : m₁ = m₀ := hd.listed.unique hm₁ hm₀
    ((hu₁.trans hu).trans (Message.isAt_iff.mp hat₀).2.symm)
  refine mem_queued.mpr ⟨m₀, hm₀, hat₀, fun flag hflag => Bool.eq_false_iff.mpr (fun hhas => ?_)⟩
  rcases List.mem_cons.mp hflag with rfl | hkw
  · rw [hdeleted] at hhas
    exact absurd hhas nofun
  · have hnow := hkeep flag hflag (heq ▸ hhas)
    have hreported : hasFlag message.flags flag = true := (hsame flag).trans hnow
    have hany : matchesAny message.flags k.quarantine = true :=
      List.any_eq_true.mpr ⟨flag, hkw, hreported⟩
    rw [hclear] at hany
    exact absurd hany nofun

/-- What one message comes to for the queue. -/
theorem process_leaves (hk : o.keywords = k) {extraLabels : List String} (hd : Watched k w₀ d)
    (hwaiting : Waiting uid d.listed) :
    (process o extraLabels uid).Safe Gauges (discipline k) (fun r s' d' =>
      Processed (Parted k w₀ uid) (fun d => uid ∈ queued k d.listed) uid r s s' d' ∧ Worn k d d' ∧
        Watched k w₀ d') s d := by
  refine Routine.Safe.of_only (process_uses (fun _ _ => steady_of_isOn) (fun _ => ⟨nofun, nofun⟩)
    (fun _ _ => ⟨nofun, nofun⟩) extraLabels uid) ?_
  refine ((process_takes (P := Parted k w₀ uid) (N := fun d => uid ∈ queued k d.listed) (fading k w₀)
    (fun _ _ => trivial) Parted.later ?_).and (Routine.Safe.follows (fading k w₀) (fun _ _ => trivial)
    (process o extraLabels uid) s d)).mono ?_
  · intro message v v' hv hdeliver hu hclear hv'
    obtain ⟨hworn, hwatched⟩ := hv hd
    obtain ⟨hworn', hwatched'⟩ := hv' hd
    rw [← hu, ← hworn.listed] at hwaiting
    rw [hk] at hclear
    have hqueued := queued_of_delivers hwatched hwaiting
      (hdeliver.map Gauge.world (fun h => h.2.1)) hclear
    rw [hworn.listed, ← hworn'.listed, hu] at hqueued
    rw [hk]
    refine ⟨taking_of_queued hwatched' hqueued, fun v'' hv'' => ?_⟩
    rw [(hv'' hwatched').1.listed]
    exact hqueued
  · rintro r s' d' ⟨h, hgrow⟩
    exact ⟨h, hgrow hd⟩

theorem quarantine_leaves (hk : o.keywords = k) {keyword folder : String} (hd : Watched k w₀ d)
    (hkw : keyword ∈ k.quarantine) (hqueued : uid ∈ queued k d.listed) :
    (quarantine o uid keyword folder).Safe Gauges (discipline k) (fun r s' d' =>
      Took (Parted k w₀ uid) r s s' d' ∧ Worn k d d' ∧ Watched k w₀ d') s d := by
  subst hk
  refine Routine.Safe.of_only (quarantine_uses.mono (fun _ => steady_of_isOn)) ?_
  refine ((quarantine_takes (fading o.keywords w₀) (fun _ _ => trivial) Parted.later hkw
    (taking_of_queued hd hqueued)).and (Routine.Safe.follows (fading o.keywords w₀)
      (fun _ _ => trivial) (quarantine o uid keyword folder) s d)).mono ?_
  rintro r s' d' ⟨h, hgrow⟩
  exact ⟨h, hgrow hd⟩

/-! ### The books -/

/-- The `n` messages counted as taken have left the queue, and none of the pending ones has. -/
structure Books (k : Keywords) (w₀ : World) (n : ℕ) (pending : List ℕ) (d : Gauge) : Prop where
  watched : Watched k w₀ d
  done : ∃ done : Finset ℕ, done.card = n ∧ (∀ uid ∈ done, Left k uid d) ∧
    ∀ uid ∈ pending, uid ∉ done

theorem Books.later {n : ℕ} {pending : List ℕ} (h : Books k w₀ n pending d) (hd : Worn k d d') :
    Books k w₀ n pending d' := by
  obtain ⟨done, hcard, hleft, hpending⟩ := h.done
  exact ⟨h.watched.later hd, done, hcard, fun u hu => (hleft u hu).later h.watched.world hd,
    hpending⟩

theorem Books.subset {n : ℕ} {pending pending' : List ℕ} (h : Books k w₀ n pending d)
    (hsub : ∀ u ∈ pending', u ∈ pending) : Books k w₀ n pending' d := by
  obtain ⟨done, hcard, hleft, hpending⟩ := h.done
  exact ⟨h.watched, done, hcard, hleft, fun u hu => hpending u (hsub u hu)⟩

/-- One more message has left the queue. -/
theorem Books.take {n : ℕ} {pending pending' : List ℕ} (h : Books k w₀ n pending d)
    (hu : uid ∈ pending) (hleft : Left k uid d)
    (hsub : ∀ u ∈ pending', u ∈ pending ∧ u ≠ uid) : Books k w₀ (n + 1) pending' d := by
  obtain ⟨done, hcard, hall, hpending⟩ := h.done
  refine ⟨h.watched, insert uid done, ?_, fun u hin => ?_, fun u hin hmem => ?_⟩
  · rw [Finset.card_insert_of_notMem (hpending uid hu), hcard]
  · rcases Finset.mem_insert.mp hin with rfl | hin
    · exact hleft
    · exact hall u hin
  · obtain ⟨hin, hne⟩ := hsub u hin
    rcases Finset.mem_insert.mp hmem with he | hmem
    · exact hne he
    · exact hpending u hin hmem

/-- The books of a run with these messages left. -/
structure Going (k : Keywords) (w₀ : World) (left : List ℕ) (s : RunState) (d : Gauge) : Prop where
  books : Books k w₀ (taken s) (s.rejected.map Rejection.uid ++ left) d
  rejected : ∀ r ∈ s.rejected, r.uid ∈ queued k d.listed
  waiting : ∀ u ∈ left, Waiting u d.listed
  distinct : (s.rejected.map Rejection.uid ++ left).Nodup

theorem taken_of_level {s' : RunState} (hs : s.Level s') : taken s' = taken s := by
  rw [taken, taken, hs.trashed, hs.quarantined]

theorem Going.later {left : List ℕ} {s' : RunState} (h : Going k w₀ left s d) (hs : s.Level s')
    (hd : Worn k d d') : Going k w₀ left s' d' where
  books := by
    rw [taken_of_level hs, hs.rejected]
    exact h.books.later hd
  rejected := by
    rw [hs.rejected, hd.listed]
    exact h.rejected
  waiting := by
    rw [hd.listed]
    exact h.waiting
  distinct := by
    rw [hs.rejected]
    exact h.distinct

/-- Nothing need be known of the messages that are left. -/
theorem Going.settling {left : List ℕ} (h : Going k w₀ left s d) : Going k w₀ [] s d where
  books := by
    refine h.books.subset (fun u hu => ?_)
    rw [List.append_nil] at hu
    exact List.mem_append_left _ hu
  rejected := h.rejected
  waiting := nofun
  distinct := by
    rw [List.append_nil]
    exact h.distinct.of_append_left

/-- The next message has been handled. -/
theorem Going.next {rest : List ℕ} {s' : RunState} (h : Going k w₀ (uid :: rest) s d)
    (hd : Worn k d d')
    (hhandled : Handled (Parted k w₀ uid) (fun d => uid ∈ queued k d.listed) uid s s' d') :
    Going k w₀ rest s' d' := by
  have hperm : (s.rejected.map Rejection.uid ++ uid :: rest).Perm
      (uid :: (s.rejected.map Rejection.uid ++ rest)) := List.perm_middle
  obtain ⟨hout, hnodup⟩ := List.nodup_cons.mp (hperm.nodup_iff.mp h.distinct)
  have hsub : ∀ u ∈ s.rejected.map Rejection.uid ++ rest,
      u ∈ s.rejected.map Rejection.uid ++ uid :: rest ∧ u ≠ uid := by
    intro u hu
    refine ⟨hperm.mem_iff.mpr (List.mem_cons_of_mem _ hu), fun he => hout (he ▸ hu)⟩
  have hbooks := h.books.later hd
  have hrejected : ∀ r ∈ s.rejected, r.uid ∈ queued k d'.listed := hd.listed ▸ h.rejected
  have hleft : ∀ u ∈ rest, Waiting u d'.listed :=
    fun u hu => hd.listed ▸ h.waiting u (List.mem_cons_of_mem _ hu)
  rcases hhandled with ⟨hr, -, ht, hparted⟩ | ⟨hr, -, ht⟩ | ⟨text, b, hr, -, ht, hqueued⟩
  · refine ⟨?_, hr ▸ hrejected, hleft, hr ▸ hnodup⟩
    rw [ht, hr]
    exact hbooks.take (hperm.mem_iff.mpr List.mem_cons_self) hparted.2 hsub
  · refine ⟨?_, hr ▸ hrejected, hleft, hr ▸ hnodup⟩
    rw [ht, hr]
    exact hbooks.subset (fun u hu => (hsub u hu).1)
  · have hmap : s'.rejected.map Rejection.uid ++ rest =
        s.rejected.map Rejection.uid ++ uid :: rest := by simp [hr]
    refine ⟨?_, fun r hin => ?_, hleft, hmap ▸ h.distinct⟩
    · rw [ht, hmap]
      exact hbooks
    · rw [hr] at hin
      rcases List.mem_append.mp hin with hin | hin
      · exact hrejected r hin
      · rw [List.mem_singleton.mp hin]
        exact hqueued

/-- **One step of the loop.** -/
theorem process_going (hk : o.keywords = k) {extraLabels : List String} {rest : List ℕ}
    (h : Going k w₀ (uid :: rest) s d) :
    (process o extraLabels uid).Safe Gauges (discipline k) (fun r s' d' =>
      (r = .ok () → Going k w₀ rest s' d') ∧ ∀ e, r = .error e → Going k w₀ [] s' d') s d := by
  refine (process_leaves hk h.books.watched (h.waiting uid List.mem_cons_self)).mono ?_
  rintro r s' d' ⟨hprocessed, hd, -⟩
  refine ⟨fun hr => h.next hd (hprocessed.ok hr), fun e hr => ?_⟩
  obtain ⟨hrejected, htaken⟩ := hprocessed.error e hr
  have hlater := h.settling.later (.refl s) hd
  obtain ⟨hbooks, hqueued, -, hdistinct⟩ := hlater
  rw [← htaken, ← hrejected] at hbooks
  rw [← hrejected] at hqueued hdistinct
  exact ⟨hbooks, hqueued, nofun, hdistinct⟩

theorem quarantineAll_books (hk : o.keywords = k) {rejected : List Rejection}
    (h : Books k w₀ (taken s) (rejected.map Rejection.uid) d)
    (hqueued : ∀ r ∈ rejected, r.uid ∈ queued k d.listed)
    (hnodup : (rejected.map Rejection.uid).Nodup) :
    (quarantineAll o rejected).Safe Gauges (discipline k)
      (fun _ s' d' => Books k w₀ (taken s') [] d') s d := by
  induction rejected generalizing s d with
  | nil => exact h
  | cons rejection rest ih =>
      rw [quarantineAll, Routine.safe_bind, Routine.safe_attempt]
      have hkw : o.keywords.failed ∈ k.quarantine := hk ▸ List.mem_cons_self
      refine (quarantine_leaves hk h.watched hkw (hqueued _ List.mem_cons_self)).mono ?_
      rintro r s' d' ⟨htook, hd, -⟩
      obtain ⟨hout, hrest⟩ := List.nodup_cons.mp hnodup
      have hlater := h.later hd
      rw [Routine.after_ok]
      split
      · obtain ⟨htaken, hparted⟩ := htook.ok rfl
        refine ih ?_ (fun r hr => ?_) hrest
        · rw [htaken]
          refine hlater.take List.mem_cons_self hparted.2 (fun u hu => ?_)
          exact ⟨List.mem_cons_of_mem _ hu, fun he => hout (he ▸ hu)⟩
        · rw [hd.listed]
          exact hqueued r (List.mem_cons_of_mem _ hr)
      · have htaken : taken s' = taken s := htook.error _ rfl
        show Books k w₀ (taken s') [] d'
        rw [htaken]
        exact hlater.subset (by simp)
      · next e _ =>
        have htaken : taken s' = taken s := htook.error e rfl
        rw [Routine.safe_raise, htaken]
        exact hlater.subset (by simp)

theorem settleRejections_books (hk : o.keywords = k) (h : Going k w₀ [] s d) :
    (settleRejections o).Safe Gauges (discipline k)
      (fun _ s' d' => Books k w₀ (taken s') [] d') s d := by
  have hall : ∀ p : Rejection → Bool, Books k w₀ (taken s) ((s.rejected.filter p).map Rejection.uid) d ∧
      (∀ r ∈ s.rejected.filter p, r.uid ∈ queued k d.listed) ∧
      ((s.rejected.filter p).map Rejection.uid).Nodup := by
    intro p
    have hdistinct := h.distinct
    rw [List.append_nil] at hdistinct
    have hsub : ((s.rejected.filter p).map Rejection.uid).Sublist (s.rejected.map Rejection.uid) :=
      List.filter_sublist.map _
    refine ⟨h.books.subset (fun u hu => List.mem_append_left _ (hsub.subset hu)), ?_,
      hdistinct.sublist hsub⟩
    exact fun r hr => h.rejected r (List.mem_filter.mp hr).1
  simp only [settleRejections, Routine.safe_bind, Routine.safe_getSelf, Routine.after_ok]
  split
  · rw [Routine.safe_bind]
    unfold breakerMessage
    split
    · exact h.books.subset (by simp)
    · rw [Routine.safe_pure, Routine.after_ok, Routine.safe_bind, safe_count, Routine.after_ok]
      obtain ⟨hbooks, hqueued, hnodup⟩ := hall Rejection.perMessage
      exact quarantineAll_books hk hbooks hqueued hnodup
  · obtain ⟨hbooks, hqueued, hnodup⟩ := hall (fun _ => true)
    rw [List.filter_eq_self.mpr (fun _ _ => rfl)] at hbooks hqueued hnodup
    exact quarantineAll_books hk hbooks hqueued hnodup

/-- **The books of a run, however it ends.** -/
theorem run_books (hk : o.keywords = k) (hd : Watched k w₀ d) (hrejected : s.rejected = [])
    (htaken : taken s = 0) :
    (run o).Safe Gauges (discipline k) (fun r s' d' => Books k w₀ (taken s') [] d' ∧
      ∀ result, r = .ok result → result = s'.result) s d := by
  have hempty : ∀ {s d}, Watched k w₀ d → taken s = 0 → Books k w₀ (taken s) [] d := by
    intro s d hd ht
    rw [ht]
    exact ⟨hd, ∅, rfl, nofun, nofun⟩
  refine run_always (I := fun s d => Watched k w₀ d ∧ s.rejected = [] ∧ taken s = 0)
    (K := Going k w₀ []) (J := Going k w₀) (Q := fun s d => Books k w₀ (taken s) [] d)
    (fun _ _ _ => trivial) ((worn k).restrict (fun _ => steady_of_isSurvey))
    (fun hK => hK.books.subset nofun) (fun hs hd hJ => hJ.later hs.toLevel hd)
    (fun hs hd hK => hK.later hs.toLevel hd) (fun hJ => hJ.settling) ?_ ?_
    (fun hI => hempty hI.1 hI.2.2) ?_ ?_ ?_ ⟨hd, hrejected, htaken⟩
  · intro extraLabels uid rest s d hJ
    refine (process_going hk hJ).mono (fun r s' d' h => ⟨h.1, fun text hr => h.2 _ hr, ?_⟩)
    exact fun e hr => (h.2 e hr).books.subset nofun
  · rintro s s' d d' hs hd ⟨hw, hr, ht⟩
    exact ⟨hw.later hd, hs.rejected.trans hr, (taken_of_level hs.toLevel).trans ht⟩
  · rintro s d ⟨hw, hr, ht⟩
    rw [safe_onMailbox]
    refine ((listInboxUids_waiting hw).also namesOnce_of_gauges
      (Settlement.listInboxUids_nodup (fun _ _ h => h) _ s.mailbox)).mono ?_
    rintro r mailbox d' ⟨⟨hw', hwaiting⟩, hnodup⟩
    refine ⟨fun uids hok => ?_, fun _ _ => hempty hw' ht⟩
    have hmap : s.rejected.map Rejection.uid ++ uids = uids := by rw [hr]; rfl
    refine ⟨?_, ?_, hwaiting uids hok, ?_⟩
    · show Books k w₀ (taken s) (s.rejected.map Rejection.uid ++ uids) d'
      rw [ht]
      exact ⟨hw', ∅, rfl, nofun, fun _ _ => Finset.notMem_empty _⟩
    · show ∀ r ∈ s.rejected, _
      rw [hr]
      exact nofun
    · show (s.rejected.map Rejection.uid ++ uids).Nodup
      rw [hmap]
      exact hnodup uids hok
  · intro s d hK _
    exact settleRejections_books hk hK
  · intro s s' d d' hs hd hQ
    rw [taken_of_level hs.toLevel]
    exact hQ.later hd

end loop

/-! ## The theorem -/

/-- A run over the account `w` returns `result`. -/
def Runs (o : ForwarderOptions) (w : World) (result : SyncResult) (d : Gauge) : Prop :=
  ∃ s, Program.Steps (Gauges.under (Others o.keywords)) (opened w, run o (initial o))
    (d, .pure (.ok result, s))

/-- What is still in the queue, new arrivals apart. -/
def leftover (k : Keywords) (d : Gauge) : List ℕ :=
  (queued k d.world).filter (fun uid => decide (uid < d.listed.uidNext))

/-- Something has been done to a message of the listing: not all that the run got to were skipped or
    left for later. -/
def Works (result : SyncResult) : Prop :=
  result.skipped + result.retryLater + result.remaining < result.listed

/-- A chain of `n` runs that report messages that remain and no error, and that each do something.
    No queue among them holds a message that arrived later, with a UID from `bound` on. -/
inductive Retriggers (o : ForwarderOptions) (bound : ℕ) : World → ℕ → Prop
  | nil (w : World) : Retriggers o bound w 0
  | cons {w : World} {result : SyncResult} {d : Gauge} {n : ℕ} (hrun : Runs o w result d)
      (herror : result.error = none) (hremaining : 0 < result.remaining) (hworks : Works result)
      (hold : ∀ uid ∈ queued o.keywords d.listed, uid < bound)
      (h : Retriggers o bound d.world n) : Retriggers o bound w (n + 1)

section theorems

variable {o : ForwarderOptions} {w : World} {result : SyncResult} {d : Gauge}

/-- The books and the counters of a run. -/
theorem Runs.tallied (hw : WellFormed w) (h : Runs o w result d) :
    Books o.keywords w (result.trashed + result.quarantined) [] d ∧
      (result.error = none → Balances result) := by
  obtain ⟨s, hsteps⟩ := h
  have hopened : Watched o.keywords w (opened w) := ⟨hw, hw, .refl w, .refl w⟩
  have hsafe := (run_books (o := o) (s := initial o) rfl hopened rfl rfl).also
    (A := fun _ _ => True) (fun _ => trivial) (run_adds rfl rfl)
  obtain ⟨-, ⟨hbooks, hresult⟩, hadds⟩ := Program.Safe.steps (I := fun _ => True) (fun _ h => h)
    (fun _ _ h => h) hsafe trivial hsteps
  refine ⟨?_, hadds result rfl⟩
  rw [hresult result rfl]
  exact hbooks

/-- What is left of the queue, and what was taken out, was in the queue that was listed. -/
theorem Books.length_le {n : ℕ} (h : Books k w n [] d) :
    (leftover k d).length + n ≤ (queued k d.listed).length := by
  obtain ⟨done, hcard, hleft, -⟩ := h.done
  have hnodup : (leftover k d).Nodup := (queued_nodup h.watched.world).sublist List.filter_sublist
  have hdisjoint : Disjoint (leftover k d).toFinset done := by
    rw [Finset.disjoint_left]
    intro uid hin hdone
    have hqueued := (List.mem_filter.mp (List.mem_toFinset.mp hin)).1
    exact (hleft uid hdone).1.not_queued hqueued
  have hsub : (leftover k d).toFinset ∪ done ⊆ (queued k d.listed).toFinset := by
    intro uid hin
    rw [List.mem_toFinset]
    rcases Finset.mem_union.mp hin with hin | hdone
    · obtain ⟨hqueued, hold⟩ := List.mem_filter.mp (List.mem_toFinset.mp hin)
      exact h.watched.wears.queued hqueued (of_decide_eq_true hold)
    · exact (hleft uid hdone).2
  have hle := Finset.card_le_card hsub
  rw [Finset.card_union_of_disjoint hdisjoint, hcard, List.toFinset_card_of_nodup hnodup,
    List.toFinset_card_of_nodup (queued_nodup h.watched.listed)] at hle
  exact hle

/-- The queue of a run that does something and reports no error is shorter than it was. -/
theorem Runs.length_lt (hw : WellFormed w) (h : Runs o w result d) (herror : result.error = none)
    (hworks : Works result) :
    (leftover o.keywords d).length < (queued o.keywords d.listed).length := by
  obtain ⟨hbooks, hadds⟩ := h.tallied hw
  have hle := hbooks.length_le
  have hbalances := hadds herror
  unfold Balances at hbalances
  unfold Works at hworks
  omega

/-- What was in the queue before is listed again unless it has left the queue. -/
theorem length_filter_le {w w' : World} {bound : ℕ} (hw' : WellFormed w') (hbound : bound ≤ w.uidNext)
    (h : Wears k w w') : ((queued k w').filter (fun uid => decide (uid < bound))).length ≤
      ((queued k w).filter (fun uid => decide (uid < bound))).length := by
  refine ((queued_nodup hw').filter _).subperm (fun uid hin => ?_) |>.length_le
  obtain ⟨hqueued, hold⟩ := List.mem_filter.mp hin
  have hlt : uid < bound := of_decide_eq_true hold
  exact List.mem_filter.mpr ⟨h.queued hqueued (Nat.lt_of_lt_of_le hlt hbound), hold⟩

theorem Retriggers.length_le {bound n : ℕ} (h : Retriggers o bound w n) (hw : WellFormed w)
    (hbound : bound ≤ w.uidNext) :
    n ≤ ((queued o.keywords w).filter (fun uid => decide (uid < bound))).length := by
  induction h with
  | nil w => exact Nat.zero_le _
  | @cons w result d n hrun herror hremaining hworks hold h ih =>
      obtain ⟨⟨hwatched, -⟩, -⟩ := hrun.tallied hw
      have hlisted : bound ≤ d.listed.uidNext := hbound.trans hwatched.since.uidNext
      have hnext := ih hwatched.world (hlisted.trans hwatched.wears.uidNext)
      have hlt := hrun.length_lt hw herror hworks
      -- all of the listing is old
      have hall : (queued o.keywords d.listed).filter (fun uid => decide (uid < bound)) =
          queued o.keywords d.listed :=
        List.filter_eq_self.mpr (fun uid hin => decide_eq_true (hold uid hin))
      have hfirst := length_filter_le hwatched.listed hbound hwatched.since
      rw [hall] at hfirst
      have hleftover : ((queued o.keywords d.world).filter (fun uid => decide (uid < bound))).length ≤
          (leftover o.keywords d).length := by
        refine (List.monotone_filter_right _ (fun uid hin => ?_)).length_le
        have hin : uid < bound := of_decide_eq_true hin
        exact decide_eq_true (Nat.lt_of_lt_of_le hin hlisted)
      omega

/-- **Progress from run to run.** A run takes as many messages out of its queue as it trashes and
    quarantines, and puts none back. If it reports no error, the queue is shorter than it was when it
    was listed unless every message the run got to was skipped or failed transiently; so a chain of
    runs that each do something is no longer than the queue at its start. -/
theorem progress (hw : WellFormed w) :
    (∀ result d, Runs o w result d →
      (leftover o.keywords d).length + (result.trashed + result.quarantined) ≤
        (queued o.keywords d.listed).length ∧
      (result.error = none → Works result →
        (leftover o.keywords d).length < (queued o.keywords d.listed).length)) ∧
    ∀ n, Retriggers o w.uidNext w n → n ≤ (queued o.keywords w).length := by
  refine ⟨fun result d h => ⟨(h.tallied hw).1.length_le, h.length_lt hw⟩, fun n h => ?_⟩
  exact (h.length_le hw (Nat.le_refl _)).trans (List.length_filter_le _ _)

end theorems

/-! ## A slow head of the queue -/

open Settlement (nameOnce nameOnce_serves twoMails)

/-- The provider, on whose clock 300 seconds pass from one reading to the next. -/
def timed (P : Provider) (x : Gauge × ℚ) : (op : Op) → Reply op × (Gauge × ℚ)
  | .clock => (.ok x.2, (x.1, x.2 + 300))
  | op =>
      let answer := nameOnce P x.1.world op
      (answer.1, (⟨answer.2, x.1.searched op answer.2⟩, x.2))

theorem nameOnce_searches (P : Provider) (w : World) (op : Op) :
    Searches w op (nameOnce P w op).1 := by
  cases op
  case search criteria =>
    refine ⟨List.nodup_dedup _, fun uid hin => ?_⟩
    obtain ⟨m, hm, rfl⟩ := List.mem_map.mp (List.mem_dedup.mp hin)
    obtain ⟨hm, hmatch⟩ := List.mem_filter.mp hm
    rw [Bool.and_eq_true, decide_eq_true_eq] at hmatch
    exact ⟨m, hm, Message.isAt_iff.mpr ⟨hmatch.1, rfl⟩, hmatch.2⟩
  all_goals trivial

theorem timed_gauges (P : Provider) (x : Gauge × ℚ) (op : Op) :
    (Gauges.under (Others Keywords.default)) x.1 op (timed P x op).1 (timed P x op).2.1 := by
  refine ⟨x.1, .refl, ?_⟩
  cases op
  case clock => exact ⟨⟨Or.inl rfl, trivial⟩, trivial, rfl⟩
  all_goals exact ⟨nameOnce_serves P _ _, nameOnce_searches P _ _, rfl⟩

/-- A handler that gauges what it does gives a run. -/
theorem runs_of_exec {o : ForwarderOptions} {w : World} {t : ℚ}
    {h : Gauge × ℚ → (op : Op) → Reply op × (Gauge × ℚ)}
    (hE : ∀ x op, (Gauges.under (Others o.keywords)) x.1 op (h x op).1 (h x op).2.1)
    {x : (Except Exc SyncResult × RunState) × (Gauge × ℚ)}
    (hx : (run o).exec h (initial o) (opened w, t) = x) {result : SyncResult}
    (hresult : x.1.1.toOption = some result) : Runs o w result x.2.1 := by
  have hsteps := (Program.exec_steps h hE (run o (initial o)) (opened w, t)).map Prod.fst id
  have hexec : (run o (initial o)).exec h (opened w, t) = x := hx
  rw [hexec] at hsteps
  obtain ⟨⟨r, s⟩, d⟩ := x
  have hr : r = .ok result := Vanishing.ok_of_toOption hresult
  rw [hr] at hsteps
  exact ⟨s, hsteps⟩

/-- Two mails at 300 seconds each, under the default budget of 480 seconds. -/
def slowRun (P : Provider) : (Except Exc SyncResult × RunState) × (Gauge × ℚ) :=
  (run .default).exec (timed P) (initial .default) (opened twoMails, 0)

theorem slowRun_runs (P : Provider) {result : SyncResult}
    (h : (slowRun P).1.1.toOption = some result) :
    Runs .default twoMails result (slowRun P).2.1 :=
  runs_of_exec (o := .default) (w := twoMails) (t := 0) (timed_gauges P) (Eq.refl (slowRun P)) h

theorem twoMails_wellFormed : WellFormed twoMails := ⟨by decide, by decide⟩

/-- Gmail is out of order for the first mail. -/
def outOfOrder : Provider where
  gmail := fun raw =>
    if raw.ident = 0 then .error (.gmailError .retryable "Backend Error" (some 503)) else .ok "id"

/-- **A run without progress.** The insert of the first mail fails transiently, the budget is spent
    before the second, and the run reports no error and one message that remains. The queue is as
    long as it was, and the next run begins with the first mail again. -/
theorem slow_head : WellFormed twoMails ∧ ∃ result d, Runs .default twoMails result d ∧
    result.error = none ∧ 0 < result.remaining ∧
    ¬(leftover Keywords.default d).length < (queued Keywords.default d.listed).length := by
  have hreport : (slowRun outOfOrder).1.1.toOption.map (fun r => (r.error, r.remaining)) =
      some (none, 1) := by decide +kernel
  obtain ⟨result, hresult, hcounts⟩ := Option.map_eq_some_iff.mp hreport
  obtain ⟨herror, hremaining⟩ := Prod.mk.inj hcounts
  refine ⟨twoMails_wellFormed, result, _, slowRun_runs outOfOrder hresult, herror, ?_, ?_⟩
  · rw [hremaining]
    exact Nat.one_pos
  · decide +kernel

/-- The first mail is too large for Gmail. -/
def largeFirst : Provider where
  gmail := fun raw =>
    if raw.ident = 0 then .error (.gmailError .permanent "Request Too Large" (some 413))
    else .ok "id"

/-- Where Gmail rejects the first mail for good, the queue gets shorter. -/
theorem progress_twoMails : ∃ result, Runs .default twoMails result (slowRun largeFirst).2.1 ∧
    0 < result.remaining ∧ (leftover Keywords.default (slowRun largeFirst).2.1).length <
      (queued Keywords.default (slowRun largeFirst).2.1.listed).length := by
  have hreport : (slowRun largeFirst).1.1.toOption.map
      (fun r => (r.error, r.remaining, r.skipped + r.retryLater + r.remaining, r.listed)) =
      some (none, 1, 1, 2) := by decide +kernel
  obtain ⟨result, hresult, hcounts⟩ := Option.map_eq_some_iff.mp hreport
  simp only [Prod.mk.injEq] at hcounts
  obtain ⟨herror, hremaining, hpassed, hlisted⟩ := hcounts
  have hruns := slowRun_runs largeFirst hresult
  have hworks : Works result := by
    unfold Works
    omega
  exact ⟨result, hruns, by omega, ((progress twoMails_wellFormed).1 result _ hruns).2 herror hworks⟩

end Progress

end MailTransporter
