import MailTransporter.CliRules
import MailTransporter.Diary

set_option autoImplicit false

/-! # Nothing is sent twice

Sequential histories of runs and commands, each of them killed anywhere, with other clients at work
all the time. `Running` is the invariant of the loop of a run: what this run has had accepted or
rejected is marked, is the mail in flight, or waits in the list of rejections, and in the last two
cases the only message of the mail in the INBOX is the one under the UID the run knows it by. -/

namespace MailTransporter

open Effect

namespace Diary

/-! ## Sessions and histories -/

/-- The diary before anything has happened. -/
def opened (w : World) : Diary := ⟨w, [], []⟩

/-- How a run ended. -/
def endingOf (o : Option (Except Exc SyncResult × RunState)) : Ending :=
  match o with
  | some (.ok result, _) => if result.error = none then .clean else .failed
  | _ => .broken

/-- A run, noted in the diary when it ends. -/
def runSession (o : ForwarderOptions) : Session Op Reply Diary where
  Result := Except Exc SyncResult × RunState
  program := Forwarder.run o (Forwarder.initial o)
  enter := id
  leave := fun r d => { d with log := .ended (endingOf r) :: d.log }

/-- A maintenance command. -/
def commandSession (m : Command ℕ) (s : CliState) : Session Op Reply Diary where
  Result := Except Exc ℕ × CliState
  program := m s
  enter := id
  leave := fun _ d => d

/-- The tool with the default folder names; every other option and every argument is free. -/
inductive Tool (k : Keywords) : Session Op Reply Diary → Prop
  | run (o : ForwarderOptions) (hk : o.keywords = k)
      (hfailed : o.failedFolder = ForwarderOptions.default.failedFolder)
      (hunverified : o.unverifiedFolder = ForwarderOptions.default.unverifiedFolder) :
      Tool k (runSession o)
  | retry (args : RetryArgs) :
      Tool k (commandSession (Cli.cmdRetry k args) (Cli.initial k false))
  | markFailed (uids : List ℕ) :
      Tool k (commandSession (Cli.cmdMarkFailed k uids) (Cli.initial k false))

/-- The diaries between the sessions of the histories that begin with the account `w`. -/
def Reachable (k : Keywords) (w : World) : Diary → Prop :=
  History (Keeps k) (Others k) (Tool k) (opened w)

/-! ## What a run knows -/

section

variable (k : Keywords)

/-- The only message of the mail in the INBOX is the one at `uid`. -/
def Held (d : Diary) (uid : ℕ) (raw : RawMail) : Prop :=
  ∀ m ∈ d.world.messages, m.folder = "INBOX" → m.raw = raw → m.uid = uid

/-- Whatever mail is held at `uid` is marked. -/
def Settled (d : Diary) (uid : ℕ) : Prop := ∀ raw, Held d uid raw → Marked k d raw

/-- The invariant of the loop, with the UIDs in flight and the rejections not yet settled. -/
structure Running (flight : List ℕ) (rejected : List Rejection) (d : Diary) : Prop where
  sound : d.Sound k
  sent : ∀ raw, ¬ Log.Doubled raw d.log → Log.Sent raw d.log →
    Marked k d raw ∨ ∃ uid ∈ flight, Held d uid raw
  opened : ∀ raw, ¬ Log.Doubled raw d.log → Log.Open raw d.log →
    Marked k d raw ∨ ∃ uid ∈ flight ++ rejected.map Rejection.uid, Held d uid raw

/-- All that has been noted is what others have put into the INBOX. -/
def Visited (d d' : Diary) : Prop :=
  ∃ new, d'.log = new ++ d.log ∧ ∀ n ∈ new, ∃ raw again, n = Note.entered raw again

/-- The discipline of a run. -/
def runDiscipline : Discipline Op Diary where
  rely := fun d d' => d.Sound k → d'.Sound k ∧ Grows k d d' ∧ Visited d d'
  guard := fun d op => Allowed k d op ∧ ∀ uid flag, op ≠ .removeFlags uid flag

def runGrowth : Growth (Keeps k) (runDiscipline k) (fun op => op.isInsert = false) where
  grow := fun d d' => d.Sound k → d'.Sound k ∧ Grows k d d'
  refl := fun d hs => ⟨hs, Grows.refl d⟩
  trans := fun h h' hs => by
    obtain ⟨hs', hg⟩ := h hs
    obtain ⟨hs'', hg'⟩ := h' hs'
    exact ⟨hs'', hg.trans hg'⟩
  rely := fun h hs => ⟨(h hs).1, (h hs).2.1⟩
  step := fun hop hg hE hs => ⟨keeps_sound hs hg.1 hE, keeps_grows hs hop hg.2 hE⟩

end

variable {k : Keywords}

theorem rely_refl (d : Diary) : (runDiscipline k).rely d d :=
  fun hs => ⟨hs, Grows.refl d, [], rfl, by simp⟩

theorem rely_trans {a b c : Diary} (h : (runDiscipline k).rely a b)
    (h' : (runDiscipline k).rely b c) : (runDiscipline k).rely a c := by
  intro hs
  obtain ⟨hs₁, hg₁, new, hlog, hnew⟩ := h hs
  obtain ⟨hs₂, hg₂, new', hlog', hnew'⟩ := h' hs₁
  refine ⟨hs₂, hg₁.trans hg₂, new' ++ new, by rw [hlog', hlog, List.append_assoc], fun n hn => ?_⟩
  rcases List.mem_append.mp hn with hn | hn
  · exact hnew' n hn
  · exact hnew n hn

theorem others_rely {d d' : Diary} (ho : Others k d d') : (runDiscipline k).rely d d' := by
  intro hs
  refine ⟨others_sound hs ho, others_grows hs ho, ?_⟩
  obtain ⟨e, -, -, rfl⟩ := ho
  refine ⟨noticed e d.world, rfl, fun n hn => ?_⟩
  obtain ⟨raw, -, rfl⟩ := List.mem_map.mp hn
  exact ⟨raw, _, rfl⟩

/-- Marks and held mail stay, but for the exceptions. -/
theorem Grows.keeps {d d' : Diary} (h : Grows k d d') : ∃ new, d'.log = new ++ d.log ∧
    (∀ n ∈ new, Log.Inner n) ∧ ∀ raw, (∀ n ∈ new, ¬ n.Excuses raw) →
      (Marked k d raw → Marked k d' raw) ∧ ∀ uid, Held d uid raw → Held d' uid raw := by
  obtain ⟨new, hlog, hnew, hstem⟩ := h.log
  refine ⟨new, hlog, fun n hn => (hnew n hn).1, fun raw hnot => ⟨?_, ?_⟩⟩
  · intro hm m' hm' hf hr
    rcases hstem m' hm' hf with ⟨n, hn, hex⟩ | ⟨m, hin, hf₀, _, hr₀, hmark⟩
    · exact absurd (hr ▸ hex) (hnot n hn)
    · exact hmark (hm m hin hf₀ (hr₀.trans hr))
  · intro uid hheld m' hm' hf hr
    rcases hstem m' hm' hf with ⟨n, hn, hex⟩ | ⟨m, hin, hf₀, hu₀, hr₀, -⟩
    · exact absurd (hr ▸ hex) (hnot n hn)
    · rw [← hu₀]
      exact hheld m hin hf₀ (hr₀.trans hr)

namespace Running

variable {flight : List ℕ} {rejected : List Rejection} {d d' : Diary}

theorem stable (h : Running k flight rejected d) (hg : (runGrowth k).grow d d') :
    Running k flight rejected d' := by
  obtain ⟨hs', hg⟩ := hg h.sound
  obtain ⟨new, hlog, hinner, hkeep⟩ := hg.keeps
  refine ⟨hs', fun raw hd hsent => ?_, fun raw hd hopen => ?_⟩
  · rw [hlog] at hd hsent
    obtain ⟨hsent, hnot⟩ := Log.sent_append hinner hsent
    obtain ⟨hm, hh⟩ := hkeep raw hnot
    exact (h.sent raw (Log.Doubled.append hd) hsent).imp hm
      (fun ⟨uid, hin, hheld⟩ => ⟨uid, hin, hh uid hheld⟩)
  · rw [hlog] at hd hopen
    obtain ⟨hopen, hnot⟩ := Log.open_append hinner hopen
    obtain ⟨hm, hh⟩ := hkeep raw hnot
    exact (h.opened raw (Log.Doubled.append hd) hopen).imp hm
      (fun ⟨uid, hin, hheld⟩ => ⟨uid, hin, hh uid hheld⟩)

/-- A marker for the mail in flight lands it. -/
theorem landed {uid : ℕ} (h : Running k [uid] rejected d) (hs : Settled k d uid) :
    Running k [] rejected d := by
  refine ⟨h.sound, fun raw hd hsent => Or.inl ?_, fun raw hd hopen => ?_⟩
  · rcases h.sent raw hd hsent with hm | ⟨u, hu, hheld⟩
    · exact hm
    · rw [List.mem_singleton.mp hu] at hheld
      exact hs raw hheld
  · rcases h.opened raw hd hopen with hm | ⟨u, hu, hheld⟩
    · exact Or.inl hm
    · rcases List.mem_cons.mp hu with rfl | hu
      · exact Or.inl (hs raw hheld)
      · exact Or.inr ⟨u, hu, hheld⟩

/-- A marker for a rejected mail settles its rejection. -/
theorem settled {rejection : Rejection} (h : Running k [] (rejection :: rejected) d)
    (hs : Settled k d rejection.uid) : Running k [] rejected d := by
  refine ⟨h.sound, h.sent, fun raw hd hopen => ?_⟩
  rcases h.opened raw hd hopen with hm | ⟨u, hu, hheld⟩
  · exact Or.inl hm
  · rcases List.mem_cons.mp hu with rfl | hu
    · exact Or.inl (hs raw hheld)
    · exact Or.inr ⟨u, hu, hheld⟩

end Running

/-! ## The evidence of a marker -/

theorem keeps_serves {d d' : Diary} {op : Op} {r : Reply op} (h : Keeps k d op r d') :
    Serves d.world op r d'.world := h.1

/-- A confirmed keyword settles a UID. -/
theorem settled_of_confirms {d d' : Diary} {uid : ℕ} {keyword : String} (hs : d.Sound k)
    (hk : keyword ∈ k.all) (h : ICloudMailbox.Confirms (Keeps k) d uid keyword d') :
    Settled k d' uid := by
  have hmark : ∀ {op : Op} {value : Value op}, Keeps k d op (.ok value) d' →
      ∀ item ∈ reported op value, item.1 = uid → hasFlag item.2 keyword = true →
      (∃ m ∈ d'.world.messages, m.isAt uid = true) → Settled k d' uid := by
    rintro op value hE item hitem rfl hflag ⟨m, hm, hat⟩ raw hheld m' hm' hf' hr'
    have hwf' := keeps_wellFormed hs.wellFormed hE
    have hu := (hheld m' hm' hf' hr').trans (Message.isAt_iff.mp hat).2.symm
    rw [hwf'.unique hm' hm hu]
    refine ⟨keyword, hk, reported_has hE.1.2 hwf' hitem hm hat hflag, ?_⟩
    rw [hE.2.2.1]
    refine List.mem_append_left _ ?_
    refine List.mem_flatMap.mpr ⟨item, hitem, List.mem_flatMap.mpr
      ⟨m, List.mem_filter.mpr ⟨hm, hat⟩, List.mem_map.mpr ⟨keyword, ?_, rfl⟩⟩⟩
    exact List.mem_filter.mpr ⟨hk, hflag⟩
  obtain ⟨m, hm, hat, -⟩ := Serves.confirms (h.map Diary.world keeps_serves)
  rcases h with ⟨response, hE, hin⟩ | ⟨fetched, hE, hin⟩
  · cases hl : response.lookup uid with
    | none =>
        rw [hl] at hin
        exact absurd hin nofun
    | some flags =>
        rw [hl, Option.getD_some] at hin
        exact hmark hE (uid, flags) (mem_of_lookup hl) rfl hin ⟨m, hm, hat⟩
  · unfold ICloudMailbox.reportedFlags at hin
    cases hl : fetched.lookup uid with
    | none =>
        rw [hl] at hin
        exact absurd hin nofun
    | some item =>
        rw [hl] at hin
        exact hmark hE (uid, item.flags.getD [])
          (List.mem_map.mpr ⟨_, mem_of_lookup hl, rfl⟩) rfl hin ⟨m, hm, hat⟩

/-- A completed move or expunge leaves nothing at its UID. -/
theorem gone_of_completes {d d' : Diary} {uid : ℕ} {folder : String} (hw : WellFormed d.world)
    (h : ICloudMailbox.Completes (Keeps k) d uid folder d') :
    ∀ m ∈ d'.world.messages, m.isAt uid = false := by
  rcases h with hE | hE
  · exact gone_of_move hw hE
  · exact hE.2.1

/-- So does a completed move. -/
theorem settled_of_completes {d d' : Diary} {uid : ℕ} {folder : String} (hs : d.Sound k)
    (h : ICloudMailbox.Completes (Keeps k) d uid folder d') : Settled k d' uid := by
  intro raw hheld m hm hf hr
  have hat : m.isAt uid = true := Message.isAt_iff.mpr ⟨hf, hheld m hm hf hr⟩
  rw [gone_of_completes hs.wellFormed h m hm] at hat
  exact absurd hat nofun

variable {o : ForwarderOptions}

theorem settled_of_quarantined {d d' : Diary} {uid : ℕ} {keyword folder : String}
    (hs : d.Sound k) (hk : keyword ∈ k.all)
    (h : Forwarder.Quarantined (Keeps k) o d uid keyword folder d') : Settled k d' uid := by
  rcases h with ⟨-, hc⟩ | hc
  · exact settled_of_confirms hs hk hc
  · exact settled_of_completes hs hc

theorem settled_of_recorded (hk : o.keywords = k) {d d' : Diary} {uid : ℕ} (hs : d.Sound k)
    (h : Forwarder.Recorded (Keeps k) o d uid d') : Settled k d' uid := by
  rcases h with hc | hq
  · exact settled_of_confirms hs (hk ▸ inserted_mem) hc
  · exact settled_of_quarantined hs (hk ▸ unverified_mem) hq

/-! ## One message -/

theorem allowed_of_isRoutine (d : Diary) (op : Op) (h : op.isRoutine = true) :
    (runDiscipline k).guard d op := by
  cases op
  all_goals first | exact ⟨trivial, nofun⟩ | exact absurd h nofun

/-- Nothing stands against a move. -/
theorem mayMove (d : Diary) (uid : ℕ) (folder : String) :
    Forwarder.MayMove (Keeps k) (runDiscipline k) (runGrowth k).grow uid folder d :=
  ⟨fun _ _ => ⟨trivial, nofun⟩, fun _ _ => ⟨trivial, nofun⟩,
    fun _ _ _ _ _ _ => ⟨⟨trivial, nofun⟩, ⟨trivial, nofun⟩⟩⟩

/-- A fetched message without a keyword of the tool stands for a mail that is not marked, under the
    only UID of that mail. -/
theorem unmarked_of_delivers {d d' : Diary} {message : FetchedMessage} (hs : d.Sound k)
    (h : ICloudMailbox.Delivers (Keeps k) d message d')
    (hinserted : message.hasKeyword k.inserted = false)
    (hquarantine : k.quarantine.any message.hasKeyword = false) :
    ¬ Marked k d' message.raw ∧
      (¬ Log.Doubled message.raw d'.log → Held d' message.uid message.raw) := by
  obtain ⟨hw, m, hm, hat, hraw, hsame⟩ := Serves.delivers (h.map Diary.world keeps_serves)
  obtain ⟨hfolder, hu⟩ := Message.isAt_iff.mp hat
  obtain ⟨data, item, hE, -⟩ := h
  have hs' := keeps_sound hs (show Allowed k d (.fetch [message.uid] .message) from trivial) hE
  rw [← hw] at hm
  refine ⟨fun hmarked => ?_, fun hd m' hm' hf' hr' => ?_⟩
  · obtain ⟨keyword, hk, hhas, -⟩ := hmarked m hm hfolder hraw
    have hhas : message.hasKeyword keyword = true := (hsame keyword).trans hhas
    simp only [Keywords.all, List.mem_cons, List.not_mem_nil, or_false] at hk
    simp only [Keywords.quarantine, List.any_cons, List.any_nil, Bool.or_false,
      Bool.or_eq_false_iff] at hquarantine
    rcases hk with rfl | rfl | rfl
    · rw [hinserted] at hhas
      exact absurd hhas (by simp)
    · rw [hquarantine.1] at hhas
      exact absurd hhas (by simp)
    · rw [hquarantine.2] at hhas
      exact absurd hhas (by simp)
  · rw [← hu]
    exact hs'.unique m' hm' m hm hf' hfolder (hr'.trans hraw.symm) (hr' ▸ hd)

/-- What an insert is about: a mail not marked and held at the UID it was fetched under. -/
def Inserting (k : Keywords) (rejected : List Rejection) (uid : ℕ) (raw : RawMail) (d : Diary) :
    Prop :=
  Running k [] rejected d ∧ (¬ Log.Doubled raw d.log → ¬ Log.Due raw d.log ∧ ¬ Log.Sent raw d.log) ∧
    (¬ Log.Doubled raw d.log → ¬ Log.Stirred raw d.log → Held d uid raw)

theorem Inserting.of_delivers {rejected : List Rejection} {d d' : Diary}
    {message : FetchedMessage} (hJ : Running k [] rejected d') (hs : d.Sound k)
    (h : ICloudMailbox.Delivers (Keeps k) d message d')
    (hinserted : message.hasKeyword k.inserted = false)
    (hquarantine : k.quarantine.any message.hasKeyword = false) :
    Inserting k rejected message.uid message.raw d' := by
  obtain ⟨hnot, hheld⟩ := unmarked_of_delivers hs h hinserted hquarantine
  refine ⟨hJ, fun hd => ⟨fun hdue => ?_, fun hsent => ?_⟩, fun hd _ => hheld hd⟩
  · exact hnot (hJ.sound.due _ hd hdue)
  · rcases hJ.sent _ hd hsent with hm | ⟨uid, hin, _⟩
    · exact hnot hm
    · exact absurd hin List.not_mem_nil

/-- It stays so until the insert is made, whatever the others do meanwhile. -/
theorem Inserting.stable {rejected : List Rejection} {d d' : Diary} {uid : ℕ} {raw : RawMail}
    (h : Inserting k rejected uid raw d) (hr : (runDiscipline k).rely d d') :
    Inserting k rejected uid raw d' := by
  obtain ⟨hJ, hguard, hheld⟩ := h
  obtain ⟨-, hgrow, new, hlog, hvisits⟩ := hr hJ.sound
  obtain ⟨new', hlog', hinner, hkeep⟩ := hgrow.keeps
  have he : new' = new := List.append_cancel_right (hlog'.symm.trans hlog)
  subst he
  refine ⟨hJ.stable ((runGrowth k).rely hr), fun hd => ?_, fun hd hst => ?_⟩
  · rw [hlog] at hd ⊢
    obtain ⟨hdue, hsent⟩ := hguard (Log.Doubled.append hd)
    exact ⟨fun h => hdue (Log.due_append (fun n hn => (hinner n hn).1) h).1,
      fun h => hsent (Log.sent_append hinner h).1⟩
  · rw [hlog] at hd hst
    rw [Log.stirred_visits hvisits, not_or] at hst
    obtain ⟨hnone, hold⟩ := hst
    exact (hkeep raw (fun n hn hex => hnone ⟨n, hn, hex⟩)).2 uid
      (hheld (Log.Doubled.append hd) hold)

/-! ## One insert -/

/-- What an insert leaves, by its verdict: an accepted mail is in flight, a rejected one is on the
    list, and after any other answer nothing has happened. -/
theorem running_answered {rejected : List Rejection} {d d' : Diary} {uid : ℕ} {raw : RawMail}
    {labels : List String} {r : Reply (.insertRaw raw labels)} (hi : Inserting k rejected uid raw d)
    (h : Keeps k d (.insertRaw raw labels) r d') :
    d'.Sound k ∧
    (answersOf (.insertRaw raw labels) r = [.answered raw .accepted] →
      Running k [uid] rejected d') ∧
    (answersOf (.insertRaw raw labels) r = [.answered raw .rejected] →
      ∀ text perMessage, Running k [] (rejected ++ [⟨uid, text, perMessage⟩]) d') ∧
    (answersOf (.insertRaw raw labels) r = [.answered raw .other] → Running k [] rejected d') := by
  obtain ⟨hJ, hguard, hheld⟩ := hi
  have hs' := keeps_sound hJ.sound (show Allowed k d (.insertRaw raw labels) from hguard) h
  obtain ⟨hmessages, hconfirmed, v, hlog⟩ := keeps_insert h
  have hv : answersOf (.insertRaw raw labels) r = [.answered raw v] := by
    have := h.2.2.2
    rw [notesOf_insert, hlog] at this
    exact (List.append_cancel_right (this.symm.trans (List.singleton_append).symm))
  have hmark : ∀ {raw'}, Marked k d raw' → Marked k d' raw' := by
    intro raw' hm
    unfold Marked HasMark
    rw [hmessages, hconfirmed]
    exact hm
  have hhold : ∀ {uid raw'}, Held d uid raw' → Held d' uid raw' := by
    intro uid raw' hm
    unfold Held
    rw [hmessages]
    exact hm
  have hsub : ∀ {raw'}, ¬ Log.Doubled raw' d'.log → ¬ Log.Doubled raw' d.log := by
    intro raw' hd
    rw [hlog] at hd
    exact fun h => hd (List.mem_cons_of_mem _ h)
  have hold : ∀ {raw'}, ¬ Log.Doubled raw' d'.log → Log.Sent raw' d.log → Marked k d' raw' := by
    intro raw' hd hsent
    rcases hJ.sent raw' (hsub hd) hsent with hm | ⟨u, hu, _⟩
    · exact hmark hm
    · exact absurd hu List.not_mem_nil
  have hopen : ∀ {raw'}, ¬ Log.Doubled raw' d'.log → Log.Open raw' d.log →
      Marked k d' raw' ∨ ∃ u ∈ rejected.map Rejection.uid, Held d' u raw' := by
    intro raw' hd ho
    exact (hJ.opened raw' (hsub hd) ho).imp hmark (fun ⟨u, hu, hh⟩ => ⟨u, hu, hhold hh⟩)
  refine ⟨hs', fun he => ?_, fun he text perMessage => ?_, fun he => ?_⟩
  · -- accepted: the mail is in flight under the UID it was fetched at
    rw [hv] at he
    cases he
    refine ⟨hs', fun raw' hd hsent => ?_, fun raw' hd ho => ?_⟩
    · rw [hlog] at hsent
      rcases hsent with ⟨rfl, -, hst⟩ | hsent
      · exact Or.inr ⟨uid, List.mem_singleton_self _, hhold (hheld (hsub hd) hst)⟩
      · exact Or.inl (hold hd hsent)
    · rw [hlog] at ho
      rcases ho with ⟨rfl, -, hst⟩ | ho
      · exact Or.inr ⟨uid, List.mem_cons_self, hhold (hheld (hsub hd) hst)⟩
      · exact (hopen hd ho).imp id (fun ⟨u, hu, hh⟩ => ⟨u, List.mem_cons_of_mem _ hu, hh⟩)
  · -- rejected: it is open until the settlement, but it does not count as sent
    rw [hv] at he
    cases he
    refine ⟨hs', fun raw' hd hsent => ?_, fun raw' hd ho => ?_⟩
    · rw [hlog] at hsent
      rcases hsent with ⟨_, he, _⟩ | hsent
      · exact absurd he nofun
      · exact Or.inl (hold hd hsent)
    · rw [hlog] at ho
      rw [List.nil_append, List.map_append]
      rcases ho with ⟨rfl, -, hst⟩ | ho
      · exact Or.inr ⟨uid, List.mem_append_right _ (List.mem_singleton_self _),
          hhold (hheld (hsub hd) hst)⟩
      · exact (hopen hd ho).imp id (fun ⟨u, hu, hh⟩ => ⟨u, List.mem_append_left _ hu, hh⟩)
  · -- any other answer opens nothing
    rw [hv] at he
    cases he
    refine ⟨hs', fun raw' hd hsent => ?_, fun raw' hd ho => ?_⟩
    · rw [hlog] at hsent
      rcases hsent with ⟨_, he, _⟩ | hsent
      · exact absurd he nofun
      · exact Or.inl (hold hd hsent)
    · rw [hlog] at ho
      rcases ho with ⟨_, he, _⟩ | ho
      · exact absurd rfl he
      · exact hopen hd ho

theorem guard_addFlags (d : Diary) (uid : ℕ) (flag : String) :
    (runDiscipline k).guard d (.addFlags uid flag) := ⟨trivial, nofun⟩

theorem process_safe (hk : o.keywords = k) {extraLabels : List String} {uid : ℕ} {s : RunState}
    {d : Diary} (hJ : Running k [] s.rejected d) :
    (Forwarder.process o extraLabels uid).Safe (Keeps k) (runDiscipline k)
      (fun r s' d' => (r = .ok () → Running k [] s'.rejected d') ∧
        ∀ text, r = .error (.abortRun text) → d'.Sound k) s d := by
  have hstay : ∀ {s' d'}, s.Same s' → (runGrowth k).grow d d' →
      Running k [] s'.rejected d' := by
    intro s' d' hsame hg
    rw [hsame.rejected]
    exact hJ.stable hg
  refine Forwarder.process_safe (runGrowth k) allowed_of_isRoutine
    (fun s' d' hsame hg => ⟨fun _ => hstay hsame.toSame hg, nofun⟩)
    (fun e s' d' hsame hg => ⟨nofun, fun _ _ => (hstay hsame.toSame hg).sound⟩) ?_ ?_
  · intro message s₁ d₁ d₂ hsame _ _ h₂ _ _ _
    refine (Forwarder.trash_safe (runGrowth k) allowed_of_isRoutine
      (fun _ _ => ⟨trivial, nofun⟩) (fun folder => mayMove d₂ _ folder)).mono ?_
    rintro r s' d' ⟨hsame', hg⟩
    have hJ' := hstay (hsame.toSame.trans hsame') ((runGrowth k).trans h₂ hg)
    exact ⟨fun _ => hJ', fun _ _ => hJ'.sound⟩
  · intro message s₁ d₁ d₂ hsame h₁ hd h₂ _ hinserted hquarantine
    have hi : Inserting k s₁.rejected message.uid message.raw d₂ :=
      .of_delivers (hstay hsame.toSame h₂) (h₁ hJ.sound).1 hd (hk ▸ hinserted) (hk ▸ hquarantine)
    refine Forwarder.insert_at (fun d₃ h₃ => ⟨(hi.stable h₃).2.1, nofun⟩) ?_ ?_ ?_ ?_
    · intro id d₃ d₄ h₃ hE
      have hJ₄ := (running_answered (hi.stable h₃) hE).2.1 rfl
      refine (Forwarder.recordInsert_safe (runGrowth k) allowed_of_isRoutine
        (fun v _ => guard_addFlags v _ _) (fun v _ => guard_addFlags v _ _) (mayMove d₄ _ _)
        (fun _ _ _ _ _ _ _ => ⟨trivial, nofun⟩) (fun _ v _ _ _ folder => mayMove v _ folder)).mono ?_
      rintro r s' d' ⟨hrej, hg, hrec⟩
      have hJ' := hJ₄.stable hg
      refine ⟨fun hr => ?_, fun _ _ => hJ'.sound⟩
      obtain ⟨v₁, v₂, hv₁, hrecorded, hv, hv₂⟩ := hrec hr
      have hsettled := settled_of_recorded hk (hv₁ hJ₄.sound).1 hrecorded
      rw [hrej]
      exact ((hJ₄.stable hv).landed hsettled).stable hv₂
    · intro e e' d₃ d₄ h₃ hE
      exact ⟨nofun, fun _ _ => (running_answered (hi.stable h₃) hE).1⟩
    · intro text status d₃ d₄ h₃ hE s' hsame'
      refine ⟨fun _ => ?_, nofun⟩
      rw [hsame'.rejected]
      exact (running_answered (hi.stable h₃) hE).2.2.2 rfl
    · intro text status d₃ d₄ h₃ hE
      exact ⟨fun _ => (running_answered (hi.stable h₃) hE).2.2.1 rfl _ _, nofun⟩

/-! ## A whole run -/

/-- A quarantined rejection leaves the list with its UID settled. -/
theorem rejection_next (hk : o.keywords = k) {P : Diary → Prop} {rejection : Rejection}
    {s : RunState} {d : Diary} (hs : d.Sound k)
    (hP : ∀ {d'}, (runGrowth k).grow d d' → Settled k d' rejection.uid → P d') :
    (Forwarder.quarantine o rejection.uid o.keywords.failed o.failedFolder).Safe (Keeps k)
      (runDiscipline k) (fun r s' d' => (r = .ok () → P d') ∧
        (s'.result.error = none → s.result.error = none)) s d := by
  refine Forwarder.quarantine_next (runGrowth k) allowed_of_isRoutine
    (fun v _ => guard_addFlags v _ _) (mayMove d _ _) ?_
  intro v₁ v₂ hv₁ hq hv₂
  exact hP hv₂ (settled_of_quarantined (hv₁ hs).1 (hk ▸ failed_mem) hq)

theorem run_safe (hk : o.keywords = k) {d : Diary} (hJ : Running k [] [] d) :
    (Forwarder.run o).Safe (Keeps k) (runDiscipline k)
      (fun r _ d' => ∀ result, r = .ok result → result.error = none → Running k [] [] d')
      (Forwarder.initial o) d := by
  refine Forwarder.run_safe (J := fun s d => Running k [] s.rejected d) (A := fun _ d => d.Sound k)
    allowed_of_isRoutine (Forwarder.routineGrowth (runGrowth k)) ?_ (fun _ hg hs => (hg hs).1)
    (fun _ _ _ _ hJ => process_safe hk hJ) (fun s d hJ hnil => hnil ▸ hJ) ?_
    (fun hg h => h.stable hg) hJ
  · intro s s' d d' hsame hg hJ
    rw [hsame.rejected]
    exact hJ.stable hg
  · rintro s d (hJ | ⟨hs, herr⟩) _
    · -- a breaker that trips leaves an error, so the rejections it passes over need not be settled
      let tripped := Forwarder.breakerTrips o.rejectionThreshold
        (s.rejected.filter (fun r => !r.perMessage)) s.result.forwarded
      refine (Forwarder.settleRejections_safe (P := fun rejected d => d.Sound k ∧
        (tripped = false → Running k [] rejected d)) ?_ ?_ ?_).mono ?_
      · rintro rejection rest s₁ d₁ ⟨hs₁, hr₁⟩
        refine rejection_next hk hs₁ (fun {d₂} hg hset => ⟨(hg hs₁).1, fun ht => ?_⟩)
        exact ((hr₁ ht).stable hg).settled hset
      · exact fun ht => ⟨hJ.sound, fun hf => absurd (ht.symm.trans hf) nofun⟩
      · exact fun _ => ⟨hJ.sound, fun _ => hJ⟩
      · intro r s' d' h hr he
        obtain ⟨ht, ⟨_, hrun⟩, _⟩ := h hr he
        exact hrun ht
    · refine (Forwarder.settleRejections_safe (P := fun _ d => d.Sound k) ?_ (fun _ => hs)
        (fun _ => hs)).mono ?_
      · exact fun rejection rest s₁ d₁ hs₁ => rejection_next hk hs₁ (fun hg _ => (hg hs₁).1)
      · exact fun r s' d' h hr he => absurd (h hr he).2.2 herr

/-! ## Histories -/

/-- What holds at every moment of a history, with Gmail's copies counted from the account `w₀`. -/
def Always (k : Keywords) (w₀ : World) (d : Diary) : Prop :=
  d.Sound k ∧ ∀ raw, copies d.world raw =
    copies w₀ raw + d.log.count (.answered raw .accepted)

/-- What holds between sessions: no run is under way. -/
def Between (k : Keywords) (w₀ : World) (d : Diary) : Prop :=
  Always k w₀ d ∧ ∀ raw, ¬ Log.Unrecorded raw d.log ∧ ¬ Log.Open raw d.log

theorem count_inner {new l : Log} (h : ∀ n ∈ new, Log.Inner n) (raw : RawMail) :
    (new ++ l).count (.answered raw .accepted) = l.count (.answered raw .accepted) := by
  rw [List.count_append, List.count_eq_zero.mpr, Nat.zero_add]
  exact fun hn => (h _ hn).2 _ _ rfl

variable {w₀ : World}

theorem Always.grows {d d' : Diary} (h : Always k w₀ d) (hs : d'.Sound k) (hg : Grows k d d') :
    Always k w₀ d' := by
  obtain ⟨new, hlog, hnew, -⟩ := hg.log
  refine ⟨hs, fun raw => ?_⟩
  rw [hg.gmail, h.2, hlog, count_inner (fun n hn => (hnew n hn).1)]

/-- Gmail gains a copy exactly with an accepted insert. -/
theorem copies_insert {d d' : Diary} {raw : RawMail} {labels : List String}
    {r : Reply (.insertRaw raw labels)} (h : Keeps k d (.insertRaw raw labels) r d')
    (raw' : RawMail) : copies d'.world raw' + d.log.count (.answered raw' .accepted) =
      copies d.world raw' + d'.log.count (.answered raw' .accepted) := by
  rw [h.2.2.2, notesOf_insert]
  cases r with
  | ok id =>
      have hw : d'.world = effect (.insertRaw raw labels) d.world := Serves.effect_of_ok rfl h.1
      rw [hw]
      simp only [answersOf, copies, effect, World.accept, List.map_append, List.map_singleton,
        List.count_append, List.count_singleton]
      have hb : (Note.answered raw .accepted == Note.answered raw' .accepted) = (raw == raw') := by
        rw [Bool.eq_iff_iff]
        simp
      rw [hb]
      omega
  | error e =>
      have hw : d'.world = d.world := h.2.1
      have hne : ∀ n ∈ answersOf (.insertRaw raw labels) (.error e),
          n ≠ .answered raw' .accepted := by
        intro n hn
        cases e with
        | gmailError cls text status =>
            cases cls <;> rw [List.mem_singleton.mp hn] <;> simp
        | _ => rw [List.mem_singleton.mp hn]; simp
      rw [hw, List.count_append, List.count_eq_zero.mpr (fun hn => hne _ hn rfl), Nat.zero_add]

theorem always_step {d d' : Diary} {op : Op} {r : Reply op} (h : Always k w₀ d)
    (hg : Allowed k d op) (hE : Keeps k d op r d') : Always k w₀ d' := by
  refine ⟨keeps_sound h.1 hg hE, fun raw => ?_⟩
  have hcount := h.2 raw
  by_cases hop : op.isInsert = true
  · cases op
    case insertRaw raw' labels =>
      have := copies_insert hE raw
      omega
    all_goals exact absurd hop nofun
  · have hop : op.isInsert = false := Bool.eq_false_iff.mpr hop
    rw [hE.2.2.2, count_inner (notesOf_inner hop), ← hcount]
    unfold copies
    rcases hE.1.cases with hw | hw
    · rw [hw]
    · rw [hw, effect_gmail]
      rintro raw labels rfl
      exact absurd hop nofun

/-- The discipline of a command. -/
def commandDiscipline (k : Keywords) (w₀ : World) : Discipline Op Diary where
  rely := fun d d' => Between k w₀ d → Between k w₀ d'
  guard := fun d op => Allowed k d op ∧ op.isInsert = false

theorem between_step {d d' : Diary} {op : Op} {r : Reply op} (h : Between k w₀ d)
    (hg : (commandDiscipline k w₀).guard d op) (hE : Keeps k d op r d') : Between k w₀ d' := by
  refine ⟨always_step h.1 hg.1 hE, fun raw => ?_⟩
  rw [hE.2.2.2]
  have hinner := notesOf_inner (k := k) (r := r) (w := d.world) (v := d'.world) hg.2
  exact ⟨Log.unrecorded_inv hinner (h.2 raw).1, fun ho => (h.2 raw).2 (Log.open_append hinner ho).1⟩

theorem between_others {d d' : Diary} (h : Between k w₀ d) (ho : Others k d d') :
    Between k w₀ d' := by
  have hg := others_grows h.1.1 ho
  obtain ⟨new, hlog, hnew, -⟩ := hg.log
  have hinner : ∀ n ∈ new, Log.Inner n := fun n hn => (hnew n hn).1
  refine ⟨h.1.grows (others_sound h.1.1 ho) hg, fun raw => ?_⟩
  rw [hlog]
  exact ⟨Log.unrecorded_inv hinner (h.2 raw).1, fun ho => (h.2 raw).2 (Log.open_append hinner ho).1⟩

def commandGrowth (k : Keywords) (w₀ : World) :
    Growth (Keeps k) (commandDiscipline k w₀) (fun op => op.isImap = true) where
  grow := fun d d' => Between k w₀ d → Between k w₀ d'
  refl := fun _ h => h
  trans := fun h h' hb => h' (h hb)
  rely := fun h => h
  step := fun _ hg hE hb => between_step hb hg hE

theorem command_allowed_of_isLook (d : Diary) (op : Op) (h : op.isLook = true) :
    (commandDiscipline k w₀).guard d op := by
  cases op
  all_goals first | exact ⟨trivial, rfl⟩ | exact absurd h nofun

/-- A command leaves things as they should be between sessions. -/
theorem command_between {m : Command ℕ} {s : CliState} {d d' : Diary}
    (hm : m.Safe (Keeps k) (commandDiscipline k w₀) (fun _ _ _ => True) s d)
    (h : Between k w₀ d) (hr : (commandSession m s).Runs (Keeps k) (Others k) d d') :
    Between k w₀ d' := by
  obtain ⟨v, o, rfl, hv, -⟩ := hr.safe (D := commandDiscipline k w₀) (M := Between k w₀)
    (fun _ h => h) (fun h h' hb => h' (h hb)) (fun ho hb => between_others hb ho)
    (fun h hb => h hb) (fun hg hE hb => between_step hb hg hE) h hm (fun _ _ _ _ h => h)
  exact hv

/-- A run does, too. -/
theorem run_between (hk : o.keywords = k) {d d' : Diary} (h : Between k w₀ d)
    (hr : (runSession o).Runs (Keeps k) (Others k) d d') : Between k w₀ d' := by
  have hJ : Running k [] [] d := by
    refine ⟨h.1.1, fun raw hd hsent => Or.inl ?_, fun raw _ ho => absurd ho (h.2 raw).2⟩
    exact (h.1.1.sent raw hd hsent).resolve_right (h.2 raw).1
  obtain ⟨v, r, rfl, ⟨hs, hcount⟩, hend⟩ := hr.safe (D := runDiscipline k) (M := Always k w₀)
    rely_refl rely_trans others_rely
    (fun h hb => hb.grows (h hb.1).1 (h hb.1).2.1) (fun hg hE hb => always_step hb hg.1 hE) h.1
    (run_safe hk hJ) (fun _ _ _ hr hq result hres herr =>
      (hq result hres herr).stable ((runGrowth k).rely hr))
  have hclean : endingOf r = .clean → Running k [] [] v := by
    rcases r with _ | ⟨e | result, s⟩
    · exact nofun
    · exact nofun
    · intro he
      by_cases herr : result.error = none
      · exact hend _ rfl result rfl herr
      · simp only [endingOf, if_neg herr] at he
        exact absurd he nofun
  refine ⟨⟨⟨hs.wellFormed, fun m hm m' hm' hf hf' hraw hd => ?_, fun raw hd hdue => ?_,
    fun raw hd hsent => Or.inl ?_, hs.kept⟩, fun raw => ?_⟩, fun raw => ⟨id, id⟩⟩
  · exact hs.unique m hm m' hm' hf hf' hraw (fun h => hd (List.mem_cons_of_mem _ h))
  · have hd : ¬ Log.Doubled raw v.log := fun h => hd (List.mem_cons_of_mem _ h)
    rcases hdue with hdue | ⟨he, ho⟩
    · exact hs.due raw hd hdue
    · rcases (hclean he).opened raw hd ho with hm | ⟨u, hu, _⟩
      · exact hm
      · exact absurd hu List.not_mem_nil
  · have hd : ¬ Log.Doubled raw v.log := fun h => hd (List.mem_cons_of_mem _ h)
    by_cases he : endingOf r = .clean
    · rcases (hclean he).sent raw hd hsent.1 with hm | ⟨u, hu, _⟩
      · exact hm
      · exact absurd hu List.not_mem_nil
    · exact (hs.sent raw hd hsent.1).resolve_right (fun hu => hsent.2 ⟨he, hu⟩)
  · have hne : Note.answered raw .accepted ≠ .ended (endingOf r) := nofun
    rw [show (runSession o).leave r v = { v with log := .ended (endingOf r) :: v.log } from rfl]
    rw [hcount, List.count_cons_of_ne hne.symm]

/-- No two messages of the INBOX are the same mail. -/
def Distinct (w : World) : Prop :=
  ∀ m ∈ w.messages, ∀ m' ∈ w.messages, m.folder = "INBOX" → m'.folder = "INBOX" →
    m.raw = m'.raw → m.uid = m'.uid

theorem between_of_reachable (hw : WellFormed w₀) (hdistinct : Distinct w₀) {d : Diary}
    (hd : Reachable k w₀ d) : Between k w₀ d := by
  have hopened : Between k w₀ (opened w₀) := by
    refine ⟨⟨⟨hw, fun m hm m' hm' hf hf' hr _ => hdistinct m hm m' hm' hf hf' hr, ?_, ?_,
      trivial⟩, fun raw => rfl⟩, fun raw => ⟨id, id⟩⟩
    · exact fun raw _ h => h.elim
    · exact fun raw _ h => h.elim
  induction hd with
  | refl => exact hopened
  | tail _ hs ih =>
      rcases hs with ho | ⟨σ, hσ, hr⟩
      · exact between_others ih ho
      · cases hσ with
        | run o hk _ _ => exact run_between hk ih hr
        | retry args =>
            refine command_between ((Cli.cmdRetry_safe (commandGrowth k w₀)
              command_allowed_of_isLook (fun uid _ _ => ⟨?_, rfl⟩)).mono
                (fun _ _ _ _ => trivial)) ih hr
            show Cli.retryKeyword k args ∈ k.quarantine
            unfold Cli.retryKeyword
            split <;> simp [Keywords.quarantine]
        | markFailed uids =>
            exact command_between ((Cli.cmdMarkFailed_safe (commandGrowth k w₀)
              command_allowed_of_isLook
              (fun _ _ _ _ _ _ _ _ _ _ => ⟨trivial, rfl⟩)).mono (fun _ _ _ _ => trivial)) ih hr

/-! ## One mail -/

/-- The calls this provider refuses: to move or copy into the INBOX, and to expunge a message that
    is not `\Deleted`. -/
def refuses (op : Op) (w : World) : Bool :=
  match op with
  | .move _ folder => decide (folderName folder = "INBOX")
  | .copy _ folder => decide (folderName folder = "INBOX")
  | .uidExpunge uid => w.messages.any (fun m => m.isAt uid && !m.has deletedFlag)
  | _ => false

/-- The answer of the provider, and the account after it. -/
def answer (P : Provider) (w : World) (op : Op) : Reply op × World :=
  if refuses op w then (.error (.other "IMAPClientError" "NO"), w)
  else (P.reply 0 w op, P.after 0 w op)

/-- A session against a conforming provider, noted in the diary. -/
def note (P : Provider) (k : Keywords) (d : Diary) (op : Op) : Reply op × Diary :=
  let r := answer P d.world op
  (r.1,
    { world := r.2
      confirmed := marksOf k op r.1 r.2 ++
        d.confirmed.filter (fun c => !decide (c ∈ clearedBy k op d.world r.2))
      log := notesOf k op r.1 d.world r.2 ++ d.log })

theorem answer_honest (P : Provider) (w : World) (op : Op) :
    Serves w op (answer P w op).1 (answer P w op).2 ∧
      Honest op (answer P w op).1 w (answer P w op).2 := by
  unfold answer
  by_cases hr : refuses op w = true
  · rw [if_pos hr]
    cases op
    case move uid folder => exact ⟨⟨rfl, Or.inl rfl⟩, fun _ => rfl⟩
    case copy uid folder => exact ⟨⟨rfl, Or.inl rfl⟩, fun _ => rfl⟩
    case uidExpunge uid => exact ⟨⟨rfl, Or.inl rfl⟩, trivial⟩
    all_goals exact absurd hr nofun
  · rw [if_neg hr]
    refine ⟨P.serves 0 w op, ?_⟩
    cases op
    case move uid folder => exact fun h => absurd (decide_eq_true h) hr
    case copy uid folder => exact fun h => absurd (decide_eq_true h) hr
    case uidExpunge uid =>
      intro m hm
      obtain ⟨hm, hkeep⟩ := List.mem_filter.mp hm
      refine Bool.eq_false_iff.mpr (fun hat => hr ?_)
      refine List.any_eq_true.mpr ⟨m, hm, ?_⟩
      simp only [hat, Bool.true_and, Bool.not_eq_true'] at hkeep ⊢
      exact hkeep
    case insertRaw raw labels =>
      simp only [Provider.after, Provider.reply]
      cases P.gmail raw with
      | ok id => trivial
      | error e => exact rfl
    all_goals trivial

theorem note_keeps (P : Provider) (k : Keywords) (d : Diary) (op : Op) :
    Keeps k d op (note P k d op).1 (note P k d op).2 := by
  obtain ⟨hserves, hhonest⟩ := answer_honest P d.world op
  exact ⟨hserves, hhonest, rfl, rfl⟩

/-- Gmail finds every mail too large. -/
def tooLarge : Provider where
  gmail := fun _ => .error (.gmailError .permanent "Request Too Large" (some 413))

/-- The diary after a run in which Gmail has rejected the one mail. -/
def refused : Diary :=
  { world := ⟨[⟨"INBOX", 1, ⟨0, [72, 105]⟩, ["$GmailFailed"]⟩], ["INBOX"], 2, []⟩
    confirmed := [(⟨0, [72, 105]⟩, "$GmailFailed")]
    log := [.ended .clean, .marked ⟨0, [72, 105]⟩, .answered ⟨0, [72, 105]⟩ .rejected,
      .fetched ⟨0, [72, 105]⟩] }

theorem refused_eq : (runSession ForwarderOptions.default).leave
    (some ((runSession ForwarderOptions.default).program.exec (note tooLarge Keywords.default)
      (opened oneMail)).1)
    ((runSession ForwarderOptions.default).program.exec (note tooLarge Keywords.default)
      (opened oneMail)).2 = refused := by
  decide +kernel

theorem refused_reachable : Reachable Keywords.default oneMail refused := by
  refine .single (Or.inr ⟨_, .run ForwarderOptions.default rfl rfl rfl, ?_⟩)
  rw [← refused_eq]
  exact Session.Runs.exec (note tooLarge Keywords.default)
    (note_keeps tooLarge Keywords.default) _

theorem oneMail_distinct : Distinct oneMail := by
  intro m hm m' hm' _ _ _
  rw [List.mem_singleton.mp hm, List.mem_singleton.mp hm']

/-! ## The theorem -/

/-- The exceptions: since then a command has cleared a quarantine keyword of the mail, or another
    client has put it back into the INBOX; or another client had put it back there while the insert
    was on its way, after the run had fetched it, or had ever put a second copy of it there beside
    the first. That a mail comes in for the first time is none of them. -/
def Excused (raw : RawMail) (since before : Log) : Prop :=
  (∃ n ∈ since, n.Excuses raw) ∨ Log.Stirred raw before ∨ Log.Doubled raw before

theorem doubled_cases {raw : RawMail} {since before : Log} {n : Note}
    (hn : ∀ again, n ≠ .entered raw again) (h : Log.Doubled raw (since ++ n :: before)) :
    (∃ m ∈ since, m.Excuses raw) ∨ Log.Doubled raw before := by
  rcases List.mem_append.mp h with h | h
  · exact Or.inl ⟨_, h, rfl⟩
  · rcases List.mem_cons.mp h with h | h
    · exact absurd h.symm (hn true)
    · exact Or.inr h

/-- An insert in a log that is kept was neither due nor sent, unless the mail was doubled. -/
theorem not_due_of_kept {raw : RawMail} {v : Verdict} {later earlier : Log}
    (h : Log.Kept (later ++ .answered raw v :: earlier)) (hd : ¬ Log.Doubled raw earlier) :
    ¬ Log.Due raw earlier ∧ ¬ Log.Sent raw earlier :=
  (Log.Kept.suffix h).2 hd

/-- **Nothing is sent twice.** In every sequential history of runs and commands, each of them
    killed anywhere, with other clients at work in between:
    once a run that ended clean has had a mail accepted or permanently rejected, the mail is not
    inserted again, but for the exceptions;
    a mail that is accepted again was last accepted in a run that crashed, raised or returned with
    an error before any marker of the mail was confirmed, but for the exceptions;
    and Gmail holds as many new copies of a mail as inserts of it were accepted. -/
theorem no_resend (hw : WellFormed w₀) (hdistinct : Distinct w₀) {d : Diary}
    (hd : Reachable k w₀ d) (raw : RawMail) :
    (∀ later v' between during v before,
      d.log = later ++ .answered raw v' ::
        (between ++ .ended .clean :: (during ++ .answered raw v :: before)) →
      v ≠ .other → (∀ n ∈ during, n.isEnd = false) →
      Excused raw (between ++ during) before) ∧
    (∀ later between before,
      d.log = later ++ .answered raw .accepted :: (between ++ .answered raw .accepted :: before) →
      Note.answered raw .accepted ∉ between →
      Excused raw between before ∨ ∃ after ending during,
        between = after ++ .ended ending :: during ∧ ending ≠ .clean ∧
        ∀ n ∈ during, n.isEnd = false ∧ n ≠ .marked raw) ∧
    copies d.world raw = copies w₀ raw + d.log.count (.answered raw .accepted) := by
  obtain ⟨⟨hs, hcount⟩, -⟩ := between_of_reachable hw hdistinct hd
  have hkept := hs.kept
  refine ⟨?_, ?_, hcount raw⟩
  · intro later v' between during v before hlog hv hduring
    rw [hlog] at hkept
    by_contra hex
    have hnot : ∀ n ∈ between ++ during, ¬ n.Excuses raw :=
      fun n hn h => hex (Or.inl ⟨n, hn, h⟩)
    have hdoubled : ¬ Log.Doubled raw
        (between ++ .ended .clean :: (during ++ .answered raw v :: before)) := by
      intro h
      rcases doubled_cases (n := .ended .clean) nofun h with ⟨n, hn, he⟩ | h
      · exact hnot n (List.mem_append_left _ hn) he
      · rcases doubled_cases (n := .answered raw v) nofun h with ⟨n, hn, he⟩ | h
        · exact hnot n (List.mem_append_right _ hn) he
        · exact hex (Or.inr (Or.inr h))
    -- the verdict left the mail open, and the clean end made it due
    refine (not_due_of_kept hkept hdoubled).1 (Log.due_of_open ?_ (Log.open_of_answered hv ?_ ?_))
    · exact fun n hn => hnot n (List.mem_append_left _ hn)
    · exact fun h => hex (Or.inr (Or.inl h))
    · exact fun n hn => ⟨hduring n hn, hnot n (List.mem_append_right _ hn)⟩
  · intro later between before hlog hlast
    rw [hlog] at hkept
    by_contra hex
    rw [not_or] at hex
    obtain ⟨hex, hbad⟩ := hex
    have hnot : ∀ n ∈ between, ¬ n.Excuses raw := fun n hn h => hex (Or.inl ⟨n, hn, h⟩)
    have hdoubled : ¬ Log.Doubled raw (between ++ .answered raw .accepted :: before) := by
      intro h
      rcases doubled_cases (n := .answered raw .accepted) nofun h with ⟨n, hn, he⟩ | h
      · exact hnot n hn he
      · exact hex (Or.inr (Or.inr h))
    -- the first insert left the mail sent, unless a run lost track of it
    rcases Log.sent_of_accepted (fun h => hex (Or.inr (Or.inl h))) hlast hnot with h | h
    · exact (not_due_of_kept hkept hdoubled).2 h
    · exact hbad h

/-- The rejected mail: no insert was accepted, and there is no copy. -/
theorem no_resend_refused :
    (∀ later v' between during v before,
      refused.log = later ++ .answered ⟨0, [72, 105]⟩ v' ::
        (between ++ .ended .clean :: (during ++ .answered ⟨0, [72, 105]⟩ v :: before)) →
      v ≠ .other → (∀ n ∈ during, n.isEnd = false) →
      Excused ⟨0, [72, 105]⟩ (between ++ during) before) ∧
    (∀ later between before,
      refused.log = later ++ .answered ⟨0, [72, 105]⟩ .accepted ::
        (between ++ .answered ⟨0, [72, 105]⟩ .accepted :: before) →
      Note.answered ⟨0, [72, 105]⟩ .accepted ∉ between →
      Excused ⟨0, [72, 105]⟩ between before ∨ ∃ after ending during,
        between = after ++ .ended ending :: during ∧ ending ≠ .clean ∧
        ∀ n ∈ during, n.isEnd = false ∧ n ≠ .marked ⟨0, [72, 105]⟩) ∧
    copies refused.world ⟨0, [72, 105]⟩ = copies oneMail ⟨0, [72, 105]⟩ +
      refused.log.count (.answered ⟨0, [72, 105]⟩ .accepted) :=
  no_resend oneMail_wellFormed oneMail_distinct refused_reachable ⟨0, [72, 105]⟩

end Diary

end MailTransporter
