import MailTransporter.GmailClient
import MailTransporter.ForwarderRules
import MailTransporter.Replies

set_option autoImplicit false

/-! # What Gmail has to have answered

A run over the requests of the Gmail API, against servers of which nothing is known. The `Record`
holds what the run has been told: the messages the mail server delivered, what Gmail answered to
their inserts, and the copies the mail server confirmed.

`Warranted` says which answers each command that changes the mailbox must rest on: an HTTP answer to
the insert of that very mail, a success or one of the `permanentStatuses`. A rate limit, a server
error, an authorization problem or a broken connection warrants nothing. -/

namespace MailTransporter

open Effect
open Effect.Routine (raise attempt getSelf modifySelf)

/-- The statuses `classify_http_error` takes for a rejection of the message. -/
def permanentStatuses : List ℤ := [400, 404, 409, 410, 412, 413, 422]

theorem classifyHttpError_permanent (status : ℤ) :
    classifyHttpError status = .permanent ↔ status ∈ permanentStatuses := by
  unfold classifyHttpError permanentStatuses
  constructor
  · intro h
    split at h
    · cases h
    split at h
    · cases h
    split at h
    · cases h
    split at h
    · next hmem => exact hmem
    · cases h
  · intro h
    have hone : ¬status = 401 ∧ ¬(status = 429 ∨ status ≥ 500) ∧ ¬status = 403 := by
      simp only [List.mem_cons, List.not_mem_nil, or_false] at h
      omega
    rw [if_neg hone.1, if_neg hone.2.1, if_neg hone.2.2, if_pos h]

/-! ## The record -/

/-- What a run has been told. -/
structure Record where
  fetched : List FetchedMessage := []
  accepted : List RawMail := []
  refused : List (RawMail × ℤ) := []
  copied : List (ℕ × String) := []

/-- The messages of a `FETCH` reply. -/
def delivered (data : Fetched) : List FetchedMessage :=
  data.filterMap (fun entry =>
    match entry.2.body with
    | some (some raw) => some ⟨entry.1, raw, entry.2.flags.getD []⟩
    | _ => none)

namespace Record

structure Extends (w w' : Record) : Prop where
  fetched : ∀ m ∈ w.fetched, m ∈ w'.fetched
  accepted : ∀ raw ∈ w.accepted, raw ∈ w'.accepted
  refused : ∀ entry ∈ w.refused, entry ∈ w'.refused
  copied : ∀ entry ∈ w.copied, entry ∈ w'.copied

theorem Extends.refl (w : Record) : w.Extends w :=
  ⟨fun _ h => h, fun _ h => h, fun _ h => h, fun _ h => h⟩

theorem Extends.trans {a b c : Record} (h : a.Extends b) (h' : b.Extends c) : a.Extends c where
  fetched := fun m hm => h'.fetched m (h.fetched m hm)
  accepted := fun raw hr => h'.accepted raw (h.accepted raw hr)
  refused := fun entry he => h'.refused entry (h.refused entry he)
  copied := fun entry he => h'.copied entry (h.copied entry he)

/-- The record with an answer entered. An insert that was answered with a success counts as
    accepted, whether or not the answer names the message it made. -/
def hear (w : Record) : (call : Wire) → Wire.Reply call → Record
  | .tool (.fetch _ .message), .ok data => { w with fetched := w.fetched ++ delivered data }
  | .tool (.copy uid folder), .ok _ => { w with copied := w.copied ++ [(uid, folder)] }
  | .execute (.insertMessage _ _ media), .ok (.ok _) =>
      { w with accepted := w.accepted ++ [media.raw] }
  | .execute (.insertMessage _ _ media), .ok (.error (.http status _ _)) =>
      { w with refused := w.refused ++ [(media.raw, status)] }
  | _, _ => w

/-- What the API library raises is none of the tool's exceptions. -/
def Foreign : (call : Wire) → Wire.Reply call → Prop
  | .execute _, .error e => e.isGmailError = false
  | _, _ => True

/-- Any servers: every call may be answered by anything, and the answer is entered. -/
def Heard : Env Wire Wire.Reply Record := fun w call r w' => Foreign call r ∧ w' = w.hear call r

/-! ## What a command rests on -/

/-- Gmail has answered the insert of the message delivered as `uid` with a success. -/
def Accepted (w : Record) (uid : ℕ) : Prop := ∃ m ∈ w.fetched, m.uid = uid ∧ m.raw ∈ w.accepted

/-- Gmail has answered it with a status that rejects the message. -/
def Refused (w : Record) (uid : ℕ) : Prop :=
  ∃ m ∈ w.fetched, m.uid = uid ∧ ∃ status ∈ permanentStatuses, (m.raw, status) ∈ w.refused

/-- The message was delivered with the keyword that says it has been inserted. -/
def Inserted (k : Keywords) (w : Record) (uid : ℕ) : Prop :=
  ∃ m ∈ w.fetched, m.uid = uid ∧ m.hasKeyword k.inserted = true

/-- The message may leave the INBOX for the folder: a rejected one only for the failed folder. -/
def MayLeave (o : ForwarderOptions) (w : Record) (uid : ℕ) (folder : String) : Prop :=
  w.Accepted uid ∨ w.Inserted o.keywords uid ∨ (w.Refused uid ∧ folder = o.failedFolder)

/-- It has a confirmed copy in a folder it may leave for. -/
def Copied (o : ForwarderOptions) (w : Record) (uid : ℕ) : Prop :=
  ∃ folder, (uid, folder) ∈ w.copied ∧ w.MayLeave o uid folder

/-- A flag the message may be given. -/
def MayFlag (o : ForwarderOptions) (w : Record) (uid : ℕ) (flag : String) : Prop :=
  (flag = o.keywords.inserted ∧ w.Accepted uid) ∨ (flag = o.keywords.unverified ∧ w.Accepted uid) ∨
    (flag = o.keywords.failed ∧ w.Refused uid) ∨ (flag = deletedFlag ∧ w.Copied o uid)

/-- What a command of a run must rest on. -/
def Warranted (o : ForwarderOptions) (w : Record) : Op → Prop
  | .addFlags uid flag => w.MayFlag o uid flag
  | .removeFlags _ _ => False
  | .move uid folder => w.MayLeave o uid folder
  | .copy uid folder => w.MayLeave o uid folder
  | .uidExpunge uid => w.Copied o uid
  | .issueTrash raw => raw ∈ w.accepted ∨
      ∃ m ∈ w.fetched, m.raw = raw ∧ m.hasKeyword o.keywords.inserted = true
  | _ => True

/-- Every command of every execution rests on what it must. -/
def Audited (o : ForwarderOptions) {α : Type} (p : Program Wire Wire.Reply α) : Prop :=
  ∀ w op next, Program.Steps Heard ({}, p) (w, .call (.tool op) next) → Warranted o w op

variable {o : ForwarderOptions} {w w' : Record} {uid : ℕ} {folder : String}

theorem Accepted.extends (h : w.Accepted uid) (hw : w.Extends w') : w'.Accepted uid := by
  obtain ⟨m, hm, hu, hr⟩ := h
  exact ⟨m, hw.fetched m hm, hu, hw.accepted _ hr⟩

theorem Refused.extends (h : w.Refused uid) (hw : w.Extends w') : w'.Refused uid := by
  obtain ⟨m, hm, hu, status, hs, hr⟩ := h
  exact ⟨m, hw.fetched m hm, hu, status, hs, hw.refused _ hr⟩

theorem Inserted.extends {k : Keywords} (h : w.Inserted k uid) (hw : w.Extends w') :
    w'.Inserted k uid := by
  obtain ⟨m, hm, hu, hk⟩ := h
  exact ⟨m, hw.fetched m hm, hu, hk⟩

theorem MayLeave.extends (h : w.MayLeave o uid folder) (hw : w.Extends w') :
    w'.MayLeave o uid folder := by
  rcases h with h | h | ⟨h, hf⟩
  · exact Or.inl (h.extends hw)
  · exact Or.inr (Or.inl (h.extends hw))
  · exact Or.inr (Or.inr ⟨h.extends hw, hf⟩)

/-! ## The calls of a run -/

/-- What the answer to a call of a run adds to the record. -/
def Learned : (op : Op) → Reply op → Record → Prop
  | .fetch _ .message, .ok data, w' => ∀ m ∈ delivered data, m ∈ w'.fetched
  | .copy uid folder, .ok _, w' => (uid, folder) ∈ w'.copied
  | .insertRaw raw _, .ok _, w' => raw ∈ w'.accepted
  | .insertRaw raw _, .error (.gmailError .permanent _ _), w' =>
      ∃ status ∈ permanentStatuses, (raw, status) ∈ w'.refused
  | _, _, _ => True

/-- The calls of a run, answered by anything. -/
def Told : Env Op Reply Record := fun w op r w' => w.Extends w' ∧ Learned op r w'

/-- Nobody else writes the record. -/
def warranting (o : ForwarderOptions) : Discipline Op Record where
  rely := fun w w' => w' = w
  guard := Warranted o

/-- The same over the requests. -/
def auditing (o : ForwarderOptions) : Discipline Wire Record where
  rely := fun w w' => w' = w
  guard := fun w call => ∀ op, call = .tool op → Warranted o w op

def growth (o : ForwarderOptions) : Growth Told (warranting o) (fun _ => True) where
  grow := Extends
  refl := Extends.refl
  trans := Extends.trans
  rely := by
    rintro w w' rfl
    exact Extends.refl _
  step := fun _ _ hE => hE.1

abbrev runGrowth (o : ForwarderOptions) :
    Growth Told (warranting o) (fun op => op.isInsert = false) :=
  (growth o).restrict (fun _ _ => trivial)

theorem warranted_of_isRoutine (w : Record) (op : Op) (h : op.isRoutine = true) :
    Warranted o w op := by
  cases op
  all_goals first | exact trivial | simp [Op.isRoutine, Op.isLook, Op.isQuiet] at h

/-- The delivered message is in the record. -/
theorem fetched_of_delivers {message : FetchedMessage}
    (h : ICloudMailbox.Delivers Told w message w') : message ∈ w'.fetched := by
  obtain ⟨data, item, ⟨-, hlearned⟩, hlookup, hbody, hflags⟩ := h
  refine hlearned message (List.mem_filterMap.mpr ⟨(message.uid, item), ?_, ?_⟩)
  · exact mem_of_lookup hlookup
  · rw [hbody, ← hflags]

/-- A message that may leave for a folder is moved or copied there, and deleted once copied. -/
theorem mayMove (h : w.MayLeave o uid folder) :
    Forwarder.MayMove Told (warranting o) (runGrowth o).grow uid folder w where
  move := fun _ hw => h.extends hw
  copy := fun _ hw => h.extends hw
  after := by
    intro w₁ w₂ w₃ h₁ hE h₃
    have hcopied : w₃.Copied o uid :=
      ⟨folder, h₃.copied _ hE.2, h.extends ((h₁.trans hE.1).trans h₃)⟩
    exact ⟨Or.inr (Or.inr (Or.inr ⟨rfl, hcopied⟩)), hcopied⟩

/-- The rejections a run has noted are refusals. -/
def Noted (s : RunState) (w : Record) : Prop := ∀ r ∈ s.rejected, w.Refused r.uid

theorem Noted.later {s s' : RunState} (h : Noted s w) (hs : s.Same s') (hw : w.Extends w') :
    Noted s' w' := by
  intro r hr
  rw [hs.rejected] at hr
  exact (h r hr).extends hw

theorem recordInsert_safe {message : FetchedMessage} {s : RunState} (hs : Noted s w)
    (hm : message ∈ w.fetched) (ha : message.raw ∈ w.accepted) :
    (Forwarder.recordInsert o message).Safe Told (warranting o) (fun _ s' w' => Noted s' w')
      s w := by
  have hacc : ∀ {w'}, w.Extends w' → w'.Accepted message.uid :=
    fun hw => ⟨message, hw.fetched _ hm, rfl, hw.accepted _ ha⟩
  refine (Forwarder.recordInsert_safe (runGrowth o) warranted_of_isRoutine ?_ ?_ ?_ ?_ ?_).mono ?_
  · exact fun w' hw => Or.inl ⟨rfl, hacc hw⟩
  · exact fun w' hw => Or.inr (Or.inl ⟨rfl, hacc hw⟩)
  · exact mayMove (Or.inl (hacc (Extends.refl w)))
  · exact fun _ w₂ _ _ h₂ w₃ h₃ => Or.inl ((h₂.trans h₃).accepted _ ha)
  · exact fun _ w₂ _ _ h₂ folder => mayMove (Or.inl (hacc h₂))
  · rintro r s' w' ⟨hsame, hw', -⟩ rejection hr
    rw [hsame] at hr
    exact (hs rejection hr).extends hw'

theorem process_safe {extraLabels : List String} {s : RunState} (hs : Noted s w) :
    (Forwarder.process o extraLabels uid).Safe Told (warranting o) (fun _ s' w' => Noted s' w')
      s w := by
  refine Forwarder.process_safe (runGrowth o) warranted_of_isRoutine
    (fun _ _ hsame hw => hs.later hsame.toSame hw)
    (fun _ _ _ hsame hw => hs.later hsame.toSame hw) ?_ ?_
  · intro message s₁ w₁ w₂ hsame _ hd h₂ _ hinserted _
    have hm := fetched_of_delivers hd
    refine (Forwarder.trash_safe (runGrowth o) warranted_of_isRoutine ?_ ?_).mono
      (fun _ _ _ h => (hs.later hsame.toSame h₂).later h.1 h.2)
    · exact fun w₃ h₃ => Or.inr ⟨message, h₃.fetched _ hm, rfl, hinserted⟩
    · exact fun folder => mayMove (Or.inr (Or.inl ⟨message, hm, rfl, hinserted⟩))
  · intro message s₁ w₁ w₂ hsame _ hd h₂ _ _ _
    have hm := fetched_of_delivers hd
    have hs₂ := hs.later hsame.toSame h₂
    refine Forwarder.insert_safe (runGrowth o) (fun _ _ => trivial) ?_
      (fun _ _ _ _ h₃ hE => hs₂.later (RunState.Same.refl s₁) (h₃.trans hE.1))
      (fun _ _ _ _ h₃ hE _ hsame => hs₂.later hsame.toSame (h₃.trans hE.1)) ?_
    · intro id w₃ w₄ h₃ hE
      have h₄ := h₃.trans hE.1
      exact recordInsert_safe (hs₂.later (RunState.Same.refl s₁) h₄) (h₄.fetched _ hm) hE.2
    · intro text status w₃ w₄ h₃ hE rejection hr
      have h₄ := h₃.trans hE.1
      rcases List.mem_append.mp hr with hr | hr
      · exact (hs₂ rejection hr).extends h₄
      · rw [List.mem_singleton.mp hr]
        exact ⟨message, h₄.fetched _ hm, rfl, hE.2⟩

theorem settleRejections_safe {s : RunState} (hs : Noted s w) :
    (Forwarder.settleRejections o).Safe Told (warranting o)
      (fun r s' _ => r = .ok () → s'.result.error = none → True) s w := by
  let P := fun (rejected : List Rejection) (w : Record) => ∀ r ∈ rejected, w.Refused r.uid
  have hnext : ∀ rejection rest s w, P (rejection :: rest) w →
      (Forwarder.quarantine o rejection.uid o.keywords.failed o.failedFolder).Safe Told
        (warranting o) (fun r s' w' => (r = .ok () → P rest w') ∧
          (s'.result.error = none → s.result.error = none)) s w := by
    intro rejection rest s₁ w₁ hP
    have hr := hP rejection List.mem_cons_self
    refine Forwarder.quarantine_next (runGrowth o) warranted_of_isRoutine ?_ ?_ ?_
    · exact fun w₂ h₂ => Or.inr (Or.inr (Or.inl ⟨rfl, hr.extends h₂⟩))
    · exact mayMove (Or.inr (Or.inr ⟨hr, rfl⟩))
    · exact fun _ w₂ _ _ h₂ r hr => (hP r (List.mem_cons_of_mem _ hr)).extends h₂
  refine (Forwarder.settleRejections_safe hnext ?_ (fun _ => hs)).mono (fun _ _ _ _ _ _ => trivial)
  exact fun _ r hr => hs r (List.mem_filter.mp hr).1

/-- Every command of a run rests on the record. -/
theorem run_safe : (Forwarder.run o).Safe Told (warranting o) (fun _ _ _ => True)
    (Forwarder.initial o) {} := by
  refine (Forwarder.run_safe (J := Noted) (A := Noted) warranted_of_isRoutine
    (Forwarder.routineGrowth (runGrowth o)) (fun hsame hw hs => hs.later hsame.toSame hw)
    (fun hsame hw hs => hs.later hsame.toSame hw) ?_ (fun _ _ _ _ => trivial)
    (fun s w h _ => settleRejections_safe (h.elim id And.left)) (fun _ _ => trivial) ?_).mono
    (fun _ _ _ _ => trivial)
  · exact fun _ _ _ _ hs => (process_safe hs).mono (fun _ _ _ h => ⟨fun _ => h, fun _ _ => h⟩)
  · intro r hr
    cases hr

/-! ## Over the requests -/

theorem hear_extends (w : Record) (call : Wire) (r : Wire.Reply call) :
    w.Extends (w.hear call r) := by
  unfold hear
  split
  · exact ⟨fun _ h => List.mem_append_left _ h, fun _ h => h, fun _ h => h, fun _ h => h⟩
  · exact ⟨fun _ h => h, fun _ h => h, fun _ h => h, fun _ h => List.mem_append_left _ h⟩
  · exact ⟨fun _ h => h, fun _ h => List.mem_append_left _ h, fun _ h => h, fun _ h => h⟩
  · exact ⟨fun _ h => h, fun _ h => h, fun _ h => List.mem_append_left _ h, fun _ h => h⟩
  · exact Extends.refl w

/-- A call that is not the Gmail client's is entered as it is above. -/
theorem learned_hear {op : Op} (h : op.isGmail = false) (w : Record) (r : Reply op) :
    Learned op r (w.hear (.tool op) r) := by
  cases op with
  | fetch uids items =>
      cases items with
      | message =>
          cases r with
          | ok data => exact fun m hm => List.mem_append_right _ hm
          | error e => trivial
      | flags => cases r <;> trivial
      | headers => cases r <;> trivial
  | copy uid folder =>
      cases r with
      | ok _ => exact List.mem_append_right _ (List.mem_singleton_self _)
      | error e => trivial
  | insertRaw raw labels => simp [Op.isGmail] at h
  | _ => trivial

/-- The calls of the client that are no inserts. -/
def isSetup : Wire → Bool
  | .build _ _ => true
  | .execute .listLabels => true
  | .execute (.createLabel _) => true
  | _ => false

theorem hear_setup {call : Wire} (h : isSetup call = true) (w : Record) (r : Wire.Reply call) :
    w.hear call r = w := by
  rcases call with op | ⟨service, version⟩ | request
  · simp [isSetup] at h
  · rfl
  · cases request with
    | listLabels => rfl
    | createLabel body => rfl
    | insertMessage source labelIds media => simp [isSetup] at h

theorem execute_setup {request : Request} (h : isSetup (.execute request) = true) :
    (GmailClient.execute request).Uses (fun call => isSetup call = true) := by
  refine Routine.uses_bind (Routine.uses_call h) (fun answer => ?_)
  cases answer with
  | ok found => exact Routine.uses_pure _
  | error failure => exact Routine.uses_raise _

theorem idOf_uses {S : Wire → Prop} (reply : Option String) : (GmailClient.idOf reply).Uses S := by
  cases reply with
  | none => exact Routine.uses_raise _
  | some id => exact Routine.uses_pure _

theorem ensureLabel_setup (strLower : String → String) (name : String) :
    (GmailClient.ensureLabel strLower name).Uses (fun call => isSetup call = true) := by
  refine Routine.uses_bind Routine.uses_getSelf (fun self => ?_)
  split
  · exact Routine.uses_pure _
  refine Routine.uses_bind (execute_setup rfl) (fun labels => ?_)
  split
  · refine Routine.uses_bind (idOf_uses _) (fun id => ?_)
    exact Routine.uses_bind (Routine.uses_modifySelf _) (fun _ => Routine.uses_pure _)
  · refine Routine.uses_bind (execute_setup rfl) (fun created => ?_)
    refine Routine.uses_bind (idOf_uses _) (fun id => ?_)
    exact Routine.uses_bind (Routine.uses_modifySelf _) (fun _ => Routine.uses_pure _)

/-- What leaves the record as it is. -/
def kept (o : ForwarderOptions) : Growth Heard (auditing o) (fun call => isSetup call = true) where
  grow := fun w w' => w' = w
  refl := fun _ => rfl
  trans := fun h h' => h'.trans h
  rely := fun h => h
  step := fun hop _ hE => hE.2.trans (hear_setup hop _ _)

theorem setup_safe {α : Type} {m : Client α} (hm : m.Uses (fun call => isSetup call = true))
    (client : GmailClient) (w : Record) :
    m.Safe Heard (auditing o) (fun _ _ w' => w' = w) client w := by
  refine Routine.Safe.of_uses (kept o) hm (fun _ h => h) ?_
  rintro w' call - hcall op rfl
  cases hcall

/-- An insert: what is returned or raised is what the record has been told. -/
theorem insertRaw_safe (raw : RawMail) (labels : List String) (client : GmailClient) (w : Record) :
    (GmailClient.insertRaw raw labels).Safe Heard (auditing o)
      (fun r _ w' => Told w (.insertRaw raw labels) r w') client w := by
  simp only [GmailClient.insertRaw, GmailClient.execute, Routine.safe_bind]
  rintro w₁ rfl
  refine ⟨fun op h => absurd h (by simp), ?_⟩
  rintro answer w₂ ⟨hforeign, rfl⟩
  have hextends := w₁.hear_extends _ answer
  rcases answer with e | ⟨failure | id⟩
  · refine ⟨hextends, ?_⟩
    cases e with
    | gmailError cls text status => simp [Foreign, Exc.isGmailError] at hforeign
    | _ => trivial
  · refine ⟨hextends, ?_⟩
    cases failure with
    | refresh text => trivial
    | transport text => trivial
    | http status text message =>
        rcases hclass : classifyHttpError status with _ | _ | _ | _
        case permanent =>
          have hin := (classifyHttpError_permanent status).mp hclass
          simp only [Failure.raised, hclass]
          exact ⟨status, hin, List.mem_append_right _ (List.mem_singleton_self _)⟩
        all_goals
          simp only [Failure.raised, hclass]
          trivial
  · cases id with
    | none => exact ⟨hextends, trivial⟩
    | some id => exact ⟨hextends, List.mem_append_right _ (List.mem_singleton_self _)⟩

/-- The client carries out the calls of a run as the record above answers them. -/
theorem carries (strLower : String → String) : Carries Told (warranting o) Heard (auditing o)
    (GmailClient.carry strLower) (fun w _ v => v = w) := by
  rintro op w client v rfl hguard
  by_cases hop : op.isGmail = true
  · cases op with
    | gmailClient =>
        have huses : GmailClient.init.Uses (fun call => isSetup call = true) :=
          Routine.uses_bind (Routine.uses_call rfl) (fun _ => Routine.uses_modifySelf _)
        refine Program.Safe.mono (setup_safe huses client v) ?_
        rintro ⟨r, client'⟩ v' rfl
        exact ⟨v', v', rfl, ⟨Extends.refl _, trivial⟩, rfl⟩
    | ensureLabel name =>
        refine Program.Safe.mono (setup_safe (ensureLabel_setup strLower name) client v) ?_
        rintro ⟨r, client'⟩ v' rfl
        exact ⟨v', v', rfl, ⟨Extends.refl _, trivial⟩, rfl⟩
    | insertRaw raw labels =>
        refine Program.Safe.mono (insertRaw_safe raw labels client v) ?_
        intro o v' h
        exact ⟨v, v', rfl, h, rfl⟩
    | _ => simp [Op.isGmail] at hop
  · have hop := Bool.eq_false_iff.mpr hop
    rw [GmailClient.carry_tool strLower hop]
    rintro v₁ rfl
    refine ⟨?_, ?_⟩
    · rintro op' h
      cases h
      exact hguard v₁ rfl
    · rintro r v₂ ⟨-, rfl⟩
      exact ⟨v₁, _, rfl, ⟨hear_extends _ _ _, learned_hear hop v₁ r⟩, rfl⟩

/-! ## Main result -/

/-- **A run changes the mailbox only on what Gmail has answered.** Whatever the servers answer, a
    message gets the inserted or the unverified keyword only after a success, the failed keyword
    only after a status that rejects it, and leaves the INBOX only after one of the two; a rejected
    message leaves it for no folder but the failed one. -/
theorem audited (strLower : String → String) (o : ForwarderOptions) :
    Audited o ((Forwarder.run o (Forwarder.initial o)).over (GmailClient.carry strLower) {}) := by
  intro w op next hs
  have hsafe := Program.Safe.over (s := ({} : GmailClient)) (carries strLower)
    (run_safe (o := o)) rfl
  have hunder := Program.Steps.under (auditing o).rely (fun _ => rfl) hs
  obtain ⟨-, hcall⟩ := hsafe.steps (I := fun _ => True) (fun _ h => h) (fun _ _ h => h) trivial
    hunder
  exact (hcall w rfl).1 op rfl

end Record

end MailTransporter
