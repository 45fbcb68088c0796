import MailTransporter.ImapClient
import MailTransporter.Effect.Discipline

set_option autoImplicit false

/-! # Rules for the mailbox methods

One rule per method of `ICloudMailbox`, for any environment and any discipline: what the method
needs of the guards of its calls, and what is known when it returns or raises. Callers use the rules
and never unfold a method. What is known between two calls is what the growth `G` keeps. -/

namespace MailTransporter

open Effect
open Effect.Routine (raise attempt getSelf modifySelf)

/-- Commands that look only, or set up the session. -/
def Op.isQuiet : Op → Bool
  | .openClient => true
  | .login => true
  | .selectFolder _ _ => true
  | .hasCapability _ => true
  | .search _ => true
  | .fetch _ .message => true
  | .fetch _ .headers => true
  | .trashConstant => true
  | .findTrash => true
  | .folderExists _ => true
  | .createFolder _ => true
  | .logout => true
  | .shutdown => true
  | _ => false

/-- Quiet calls and the `FETCH` of flags. -/
def Op.isLook : Op → Bool
  | .fetch _ .flags => true
  | op => op.isQuiet

/-- Looks that create nothing. -/
def Op.isGlance : Op → Bool
  | .createFolder _ => false
  | op => op.isLook

/-- Calls that open or close a session. -/
def Op.isSetup : Op → Bool
  | .openClient => true
  | .login => true
  | .selectFolder _ _ => true
  | .hasCapability _ => true
  | .logout => true
  | .shutdown => true
  | _ => false

/-- What the methods about the message at `uid` call. -/
def Op.isOn (uid : ℕ) : Op → Bool
  | .fetch uids .message => decide (uids = [uid])
  | .fetch uids .flags => decide (uids = [uid])
  | .addFlags u _ => decide (u = uid)
  | .hasCapability _ => true
  | .trashConstant => true
  | .findTrash => true
  | .folderExists _ => true
  | .createFolder _ => true
  | .move u _ => decide (u = uid)
  | .copy u _ => decide (u = uid)
  | .uidExpunge u => decide (u = uid)
  | _ => false

/-- The same without the one that reads the message. -/
def Op.isDone (uid : ℕ) : Op → Bool
  | .fetch _ .message => false
  | op => op.isOn uid

/-- Calls that look, and calls about the message at `uid`. -/
def Op.isAbout (uid : ℕ) : Op → Bool
  | .addFlags u _ => decide (u = uid)
  | .removeFlags u _ => decide (u = uid)
  | .move u _ => decide (u = uid)
  | .copy u _ => decide (u = uid)
  | .uidExpunge u => decide (u = uid)
  | op => op.isLook

theorem Op.isLook_of_isQuiet {op : Op} (h : op.isQuiet = true) : op.isLook = true := by
  unfold Op.isLook
  split
  · rfl
  · exact h

theorem Op.isOn_of_isDone {uid : ℕ} {op : Op} (h : op.isDone uid = true) : op.isOn uid = true := by
  unfold Op.isDone at h
  split at h
  · exact absurd h (by simp)
  · exact h

theorem Op.isLook_of_isGlance {op : Op} (h : op.isGlance = true) : op.isLook = true := by
  unfold Op.isGlance at h
  split at h
  · exact absurd h nofun
  · exact h

theorem Op.isGlance_of_isSetup {op : Op} (h : op.isSetup = true) : op.isGlance = true := by
  cases op
  all_goals first | rfl | simp [Op.isSetup] at h

theorem Op.isAbout_of_isOn {uid : ℕ} {op : Op} (h : op.isOn uid = true) :
    op.isAbout uid = true := by
  cases op
  case fetch uids items =>
    cases items with
    | headers => simp [Op.isOn] at h
    | _ => rfl
  all_goals first | exact h | simp [Op.isOn] at h

theorem Op.isImap_of_isLook {op : Op} (h : op.isLook = true) : op.isImap = true := by
  cases op <;> first | rfl | simp [Op.isLook, Op.isQuiet] at h

theorem Op.isImap_of_isQuiet {op : Op} (h : op.isQuiet = true) : op.isImap = true := by
  cases op <;> first | rfl | simp [Op.isQuiet] at h

/-! ## Which flags are quarantine keywords -/

theorem matchesAny_quarantine (k : Keywords) (flags : List String) :
    matchesAny flags k.quarantine = (hasFlag flags k.failed || hasFlag flags k.unverified) := by
  simp [matchesAny, Keywords.quarantine]

theorem matchesAny_singleton {k : Keywords} {flag kw : String} (h : lower kw = lower flag)
    (hk : kw = k.failed ∨ kw = k.unverified) : matchesAny [flag] k.quarantine = true := by
  have hflag : hasFlag [flag] kw = true := (hasFlag_singleton flag kw).mpr h.symm
  rw [matchesAny_quarantine, Bool.or_eq_true]
  rcases hk with rfl | rfl
  · exact Or.inl hflag
  · exact Or.inr hflag

theorem matchesAny_inserted (k : Keywords) : matchesAny [k.inserted] k.quarantine = false := by
  rw [matchesAny_quarantine, Bool.or_eq_false_iff]
  refine ⟨Bool.eq_false_iff.mpr (fun h => ?_), Bool.eq_false_iff.mpr (fun h => ?_)⟩
  · exact k.inserted_ne_failed ((hasFlag_singleton _ _).mp h)
  · exact k.inserted_ne_unverified ((hasFlag_singleton _ _).mp h)

variable {W : Type} {E : Env Op Reply W} {D : Discipline Op W}

@[simp] theorem safe_call' {σ : Type} {op : Op} {Q : Except Exc (Value op) → σ → W → Prop} {s : σ}
    {w : W} : (call op : Py σ (Value op)).Safe E D Q s w ↔
      ∀ w₁, D.rely w w₁ → D.guard w₁ op ∧ ∀ r w₂, E w₁ op r w₂ → Q r s w₂ := Iff.rfl

namespace ICloudMailbox

variable (G : Growth E D (fun op => op.isImap = true))
  (quiet : ∀ w op, op.isQuiet = true → D.guard w op)

include G quiet

/-- A call the guard has nothing against, in a symbolic run. -/
theorem safe_quiet_call {σ : Type} {op : Op} {Q : Except Exc (Value op) → σ → W → Prop} {s : σ}
    {w : W} (hop : op.isQuiet = true)
    (h : ∀ w₁ r w₂, G.grow w w₁ → E w₁ op r w₂ → G.grow w w₂ → Q r s w₂) :
    (call op : Py σ (Value op)).Safe E D Q s w := by
  intro w₁ hr
  have hg := quiet w₁ op hop
  refine ⟨hg, fun r w₂ hE => h w₁ r w₂ (G.rely hr) hE ?_⟩
  exact G.trans (G.rely hr) (G.step (Op.isImap_of_isQuiet hop) hg hE)

omit quiet in
/-- A guarded call, in a symbolic run. -/
theorem safe_guarded_call {σ : Type} {op : Op} {Q : Except Exc (Value op) → σ → W → Prop} {s : σ}
    {w : W} (hop : op.isImap = true) (hg : ∀ w', G.grow w w' → D.guard w' op)
    (h : ∀ w₁ r w₂, G.grow w w₁ → E w₁ op r w₂ → G.grow w w₂ → Q r s w₂) :
    (call op : Py σ (Value op)).Safe E D Q s w := by
  intro w₁ hr
  have hg₁ := hg w₁ (G.rely hr)
  refine ⟨hg₁, fun r w₂ hE => h w₁ r w₂ (G.rely hr) hE ?_⟩
  exact G.trans (G.rely hr) (G.step hop hg₁ hE)

omit G quiet in
theorem client_safe {Q : Except Exc Unit → ICloudMailbox → W → Prop} {s : ICloudMailbox} {w : W}
    (hok : Q (.ok ()) s w) (herr : ∀ text, Q (.error (.mailboxError text)) s w) :
    client.Safe E D Q s w := by
  simp only [client, Routine.safe_bind, Routine.safe_getSelf, Routine.after_ok]
  split
  · exact hok
  · exact herr _

/-! ## Keywords -/

/-- One of the two replies `add_keyword` reads reports `keyword` on `uid`. -/
def Confirms (E : Env Op Reply W) (w : W) (uid : ℕ) (keyword : String) (w' : W) : Prop :=
  (∃ response, E w (.addFlags uid keyword) (.ok response) w' ∧
    hasFlag ((response.lookup uid).getD []) keyword = true) ∨
  (∃ fetched, E w (.fetch [uid] .flags) (.ok fetched) w' ∧
    hasFlag (reportedFlags fetched uid) keyword = true)

omit quiet in
theorem refetchFlags_safe {uid : ℕ} {s : ICloudMailbox} {w : W}
    (hfetch : ∀ w', G.grow w w' → D.guard w' (.fetch [uid] .flags)) :
    (refetchFlags uid).Safe E D (fun o s' w' => s' = s ∧ G.grow w w' ∧
      ∀ flags, o = .ok flags → ∃ w₁ fetched, G.grow w w₁ ∧
        E w₁ (.fetch [uid] .flags) (.ok fetched) w' ∧ flags = reportedFlags fetched uid) s w := by
  simp only [refetchFlags, Routine.safe_bind]
  refine client_safe ?_ (fun text => ⟨rfl, G.refl w, by simp⟩)
  simp only [Routine.after_ok, Routine.safe_bind]
  refine safe_guarded_call G rfl hfetch ?_
  intro w₁ r w₂ h₁ hE h₂
  cases r with
  | ok fetched =>
      refine ⟨rfl, h₂, ?_⟩
      rintro flags ⟨⟩
      exact ⟨w₁, fetched, h₁, hE, rfl⟩
  | error e => exact ⟨rfl, h₂, by simp⟩

omit quiet in
theorem storeKeyword_safe {uid : ℕ} {keyword : String} {s : ICloudMailbox} {w : W}
    (hstore : ∀ w', G.grow w w' → D.guard w' (.addFlags uid keyword))
    (hfetch : ∀ w', G.grow w w' → D.guard w' (.fetch [uid] .flags)) :
    (storeKeyword uid keyword).Safe E D (fun o s' w' => s' = s ∧ G.grow w w' ∧
      ∀ flags, o = .ok flags → hasFlag flags keyword = true →
        ∃ w₁, G.grow w w₁ ∧ Confirms E w₁ uid keyword w') s w := by
  simp only [storeKeyword, encodeAscii, Routine.safe_bind]
  refine client_safe ?_ (fun text => ⟨rfl, G.refl w, by simp⟩)
  simp only [Routine.after_ok, Routine.safe_bind]
  split
  swap
  · exact ⟨rfl, G.refl w, by simp⟩
  simp only [Routine.safe_pure, Routine.after_ok, Routine.safe_bind]
  refine safe_guarded_call G rfl hstore ?_
  intro w₁ r w₂ h₁ hE h₂
  cases r with
  | error e => exact ⟨rfl, h₂, by simp⟩
  | ok response =>
      simp only [Routine.after_ok]
      split
      · next hin =>
        refine ⟨rfl, h₂, ?_⟩
        rintro flags ⟨⟩ -
        exact ⟨w₁, h₁, Or.inl ⟨response, hE, hin⟩⟩
      · refine (refetchFlags_safe G (fun w' h' => hfetch w' (G.trans h₂ h'))).mono ?_
        rintro o s' w' ⟨rfl, hw', hf⟩
        refine ⟨rfl, G.trans h₂ hw', ?_⟩
        intro flags ho hin
        obtain ⟨w₃, fetched, h₃, hE₃, rfl⟩ := hf flags ho
        exact ⟨w₃, G.trans h₂ h₃, Or.inr ⟨fetched, hE₃, hin⟩⟩

omit quiet in
/-- `add_keyword` returns only on a confirmation and raises nothing but a `MailboxError`. -/
theorem addKeyword_safe {uid : ℕ} {keyword : String} {s : ICloudMailbox} {w : W}
    (hstore : ∀ w', G.grow w w' → D.guard w' (.addFlags uid keyword))
    (hfetch : ∀ w', G.grow w w' → D.guard w' (.fetch [uid] .flags)) :
    (addKeyword uid keyword).Safe E D (fun o s' w' => s' = s ∧ G.grow w w' ∧
      ((o = .ok () ∧ ∃ w₁, G.grow w w₁ ∧ Confirms E w₁ uid keyword w') ∨
        ∃ text, o = .error (.mailboxError text))) s w := by
  simp only [addKeyword, Routine.safe_bind, Routine.safe_attempt, Routine.after_ok]
  refine (storeKeyword_safe G hstore hfetch).mono ?_
  rintro o s' w' ⟨rfl, hw', hconfirm⟩
  cases o with
  | error e => exact ⟨rfl, hw', Or.inr ⟨_, rfl⟩⟩
  | ok flags =>
      simp only
      split
      · next hin => exact ⟨rfl, hw', Or.inl ⟨rfl, hconfirm flags rfl hin⟩⟩
      · exact ⟨rfl, hw', Or.inr ⟨_, rfl⟩⟩

omit quiet in
theorem unstoreKeyword_safe {uid : ℕ} {keyword : String} {s : ICloudMailbox} {w : W}
    (hstore : ∀ w', G.grow w w' → D.guard w' (.removeFlags uid keyword))
    (hfetch : ∀ w', G.grow w w' → D.guard w' (.fetch [uid] .flags)) :
    (unstoreKeyword uid keyword).Safe E D (fun o s' w' => s' = s ∧ G.grow w w' ∧
      ∀ flags, o = .ok flags → hasFlag flags keyword = false → ∃ w₁, G.grow w w₁ ∧
        ((∃ response, E w₁ (.removeFlags uid keyword) (.ok response) w' ∧
            response.lookup uid = some flags) ∨
          (∃ fetched, E w₁ (.fetch [uid] .flags) (.ok fetched) w' ∧
            flags = reportedFlags fetched uid))) s w := by
  have hre : ∀ w₂, G.grow w w₂ → (refetchFlags uid).Safe E D (fun o s' w' => s' = s ∧
      G.grow w w' ∧ ∀ flags, o = .ok flags → hasFlag flags keyword = false → ∃ w₁, G.grow w w₁ ∧
        ((∃ response, E w₁ (.removeFlags uid keyword) (.ok response) w' ∧
            response.lookup uid = some flags) ∨
          (∃ fetched, E w₁ (.fetch [uid] .flags) (.ok fetched) w' ∧
            flags = reportedFlags fetched uid))) s w₂ := by
    intro w₂ h₂
    refine (refetchFlags_safe G (fun w' h' => hfetch w' (G.trans h₂ h'))).mono ?_
    rintro o s' w' ⟨rfl, hw', hf⟩
    refine ⟨rfl, G.trans h₂ hw', ?_⟩
    intro flags ho _
    obtain ⟨w₃, fetched, h₃, hE₃, rfl⟩ := hf flags ho
    exact ⟨w₃, G.trans h₂ h₃, Or.inr ⟨fetched, hE₃, rfl⟩⟩
  simp only [unstoreKeyword, encodeAscii, Routine.safe_bind]
  refine client_safe ?_ (fun text => ⟨rfl, G.refl w, by simp⟩)
  simp only [Routine.after_ok, Routine.safe_bind]
  split
  swap
  · exact ⟨rfl, G.refl w, by simp⟩
  simp only [Routine.safe_pure, Routine.after_ok, Routine.safe_bind]
  refine safe_guarded_call G rfl hstore ?_
  intro w₁ r w₂ h₁ hE h₂
  cases r with
  | error e => exact ⟨rfl, h₂, by simp⟩
  | ok response =>
      simp only [Routine.after_ok]
      cases hl : response.lookup uid with
      | none => exact hre w₂ h₂
      | some flags =>
          simp only
          split
          · exact hre w₂ h₂
          · refine ⟨rfl, h₂, ?_⟩
            rintro flags' ⟨⟩ -
            exact ⟨w₁, h₁, Or.inl ⟨response, hE, hl⟩⟩

/-- One of the two replies `remove_keyword` reads shows `uid` without `keyword`, or does not show
    `uid` at all. -/
def ShowsCleared (E : Env Op Reply W) (w : W) (uid : ℕ) (keyword : String) (w' : W) : Prop :=
  (∃ response flags, E w (.removeFlags uid keyword) (.ok response) w' ∧
    response.lookup uid = some flags ∧ hasFlag flags keyword = false) ∨
  (∃ fetched, E w (.fetch [uid] .flags) (.ok fetched) w' ∧
    hasFlag (reportedFlags fetched uid) keyword = false)

omit quiet in
theorem removeKeyword_safe {uid : ℕ} {keyword : String} {s : ICloudMailbox} {w : W}
    (hstore : ∀ w', G.grow w w' → D.guard w' (.removeFlags uid keyword))
    (hfetch : ∀ w', G.grow w w' → D.guard w' (.fetch [uid] .flags)) :
    (removeKeyword uid keyword).Safe E D (fun o s' w' => s' = s ∧ G.grow w w' ∧
      ((o = .ok () ∧ ∃ w₁, G.grow w w₁ ∧ ShowsCleared E w₁ uid keyword w') ∨
        ∃ text, o = .error (.mailboxError text))) s w := by
  simp only [removeKeyword, Routine.safe_bind, Routine.safe_attempt, Routine.after_ok]
  refine (unstoreKeyword_safe G hstore hfetch).mono ?_
  rintro o s' w' ⟨rfl, hw', hcleared⟩
  cases o with
  | error e => exact ⟨rfl, hw', Or.inr ⟨_, rfl⟩⟩
  | ok flags =>
      simp only
      split
      · exact ⟨rfl, hw', Or.inr ⟨_, rfl⟩⟩
      · next hout =>
        have hout : hasFlag flags keyword = false := by simpa using hout
        obtain ⟨w₁, h₁, ⟨response, hE, hl⟩ | ⟨fetched, hE, rfl⟩⟩ := hcleared flags rfl hout
        · exact ⟨rfl, hw', Or.inl ⟨rfl, w₁, h₁, Or.inl ⟨response, flags, hE, hl, hout⟩⟩⟩
        · exact ⟨rfl, hw', Or.inl ⟨rfl, w₁, h₁, Or.inr ⟨fetched, hE, hout⟩⟩⟩

/-! ## Fetching a message -/

/-- The `FETCH` of `fetch_message` reports `message`. -/
def Delivers (E : Env Op Reply W) (w : W) (message : FetchedMessage) (w' : W) : Prop :=
  ∃ data item, E w (.fetch [message.uid] .message) (.ok data) w' ∧
    data.lookup message.uid = some item ∧ item.body = some (some message.raw) ∧
    message.flags = item.flags.getD []

theorem fetchMessage_safe (uid : ℕ) {s : ICloudMailbox} {w : W} :
    (fetchMessage uid).Safe E D (fun o s' w' => s' = s ∧ G.grow w w' ∧
      ∀ message, o = .ok message → message.uid = uid ∧
        ∃ w₁, G.grow w w₁ ∧ Delivers E w₁ message w') s w := by
  simp only [fetchMessage, Routine.safe_bind, Routine.safe_attempt]
  refine client_safe ?_ (fun text => ⟨rfl, G.refl w, by simp⟩)
  simp only [Routine.after_ok]
  refine safe_quiet_call G quiet rfl ?_
  intro w₁ r w₂ h₁ hE h₂
  cases r with
  | error e => exact ⟨rfl, h₂, by simp⟩
  | ok data =>
      rcases hb : (data.lookup uid).bind FetchItem.body with _ | _ | raw
      · simp only [hb]
        exact ⟨rfl, h₂, by simp⟩
      · simp only [hb]
        exact ⟨rfl, h₂, by simp⟩
      · simp only [hb]
        obtain ⟨item, hl, hbody⟩ := Option.bind_eq_some_iff.mp hb
        refine ⟨rfl, h₂, ?_⟩
        rintro message ⟨⟩
        refine ⟨rfl, w₁, h₁, data, item, hE, hl, hbody, ?_⟩
        simp only [reportedFlags, hl]

/-! ## Moving a message -/

/-- The call that completes a move. -/
def Completes (E : Env Op Reply W) (w : W) (uid : ℕ) (folder : String) (w' : W) : Prop :=
  E w (.move uid folder) (.ok ()) w' ∨ E w (.uidExpunge uid) (.ok ()) w'

theorem createOnDemand_safe (folder : String) {s : ICloudMailbox} {w : W} :
    (createOnDemand folder).Safe E D (fun _ s' w' => s' = s ∧ G.grow w w') s w := by
  simp only [createOnDemand, Routine.safe_bind]
  refine safe_quiet_call G quiet rfl ?_
  intro w₁ r w₂ h₁ hE h₂
  cases r with
  | error e => exact ⟨rfl, h₂⟩
  | ok found =>
      simp only [Routine.after_ok]
      split
      · exact ⟨rfl, h₂⟩
      · refine safe_quiet_call G quiet rfl ?_
        intro w₃ r w₄ h₃ hE₃ h₄
        exact ⟨rfl, G.trans h₂ h₄⟩

omit quiet in
theorem copyAndExpunge_safe {uid : ℕ} {folder : String} {s : ICloudMailbox} {w : W}
    (hcopy : ∀ w', G.grow w w' → D.guard w' (.copy uid folder))
    (hafter : ∀ w₁ w₂ w₃, G.grow w w₁ → E w₁ (.copy uid folder) (.ok ()) w₂ → G.grow w₂ w₃ →
      D.guard w₃ (.addFlags uid deletedFlag) ∧ D.guard w₃ (.uidExpunge uid)) :
    (copyAndExpunge uid folder).Safe E D (fun o s' w' => s' = s ∧ G.grow w w' ∧
      (o = .ok () → ∃ w₁, G.grow w w₁ ∧ Completes E w₁ uid folder w')) s w := by
  simp only [copyAndExpunge, Routine.safe_bind]
  refine safe_guarded_call G rfl hcopy ?_
  intro w₁ r w₂ h₁ hE h₂
  cases r with
  | error e => exact ⟨rfl, h₂, by simp⟩
  | ok _ =>
      simp only [Routine.after_ok, Routine.safe_bind]
      refine safe_guarded_call G rfl (fun w' h' => (hafter w₁ w₂ w' h₁ hE h').1) ?_
      intro w₃ r w₄ h₃ hE₃ h₄
      cases r with
      | error e => exact ⟨rfl, G.trans h₂ h₄, by simp⟩
      | ok _ =>
          simp only [Routine.after_ok]
          refine safe_guarded_call G rfl
            (fun w' h' => (hafter w₁ w₂ w' h₁ hE (G.trans h₄ h')).2) ?_
          intro w₅ r w₆ h₅ hE₅ h₆
          refine ⟨rfl, G.trans h₂ (G.trans h₄ h₆), ?_⟩
          rintro rfl
          exact ⟨w₅, G.trans h₂ (G.trans h₄ h₅), Or.inr hE₅⟩

theorem transfer_safe {uid : ℕ} {folder : String} {s : ICloudMailbox} {w : W}
    (hmove : ∀ w', G.grow w w' → D.guard w' (.move uid folder))
    (hcopy : ∀ w', G.grow w w' → D.guard w' (.copy uid folder))
    (hafter : ∀ w₁ w₂ w₃, G.grow w w₁ → E w₁ (.copy uid folder) (.ok ()) w₂ → G.grow w₂ w₃ →
      D.guard w₃ (.addFlags uid deletedFlag) ∧ D.guard w₃ (.uidExpunge uid)) :
    (transfer uid folder).Safe E D (fun o s' w' => s' = s ∧ G.grow w w' ∧
      (o = .ok () → ∃ w₁, G.grow w w₁ ∧ Completes E w₁ uid folder w')) s w := by
  simp only [transfer, Routine.safe_bind]
  refine (createOnDemand_safe G quiet folder).mono ?_
  rintro o s' w' ⟨rfl, hw'⟩
  cases o with
  | error e => exact ⟨rfl, hw', by simp⟩
  | ok _ =>
      simp only [Routine.after_ok, Routine.safe_bind]
      refine safe_quiet_call G quiet rfl ?_
      intro w₁ r w₂ h₁ hE h₂
      have hw₂ := G.trans hw' h₂
      cases r with
      | error e => exact ⟨rfl, hw₂, by simp⟩
      | ok canMove =>
          simp only [Routine.after_ok]
          split
          · refine safe_guarded_call G rfl (fun v hv => hmove v (G.trans hw₂ hv)) ?_
            intro w₃ r w₄ h₃ hE₃ h₄
            refine ⟨rfl, G.trans hw₂ h₄, ?_⟩
            rintro rfl
            exact ⟨w₃, G.trans hw₂ h₃, Or.inl hE₃⟩
          · simp only [Routine.safe_bind]
            refine safe_quiet_call G quiet rfl ?_
            intro w₃ r w₄ h₃ hE₃ h₄
            have hw₄ := G.trans hw₂ h₄
            cases r with
            | error e => exact ⟨rfl, hw₄, by simp⟩
            | ok uidPlus =>
                simp only [Routine.after_ok]
                split
                · refine (copyAndExpunge_safe G (fun v hv => hcopy v (G.trans hw₄ hv))
                    (fun v₁ v₂ v₃ hv => hafter v₁ v₂ v₃ (G.trans hw₄ hv))).mono ?_
                  rintro o s'' v ⟨rfl, hv, hok⟩
                  refine ⟨rfl, G.trans hw₄ hv, fun ho => ?_⟩
                  obtain ⟨v₁, hv₁, hc⟩ := hok ho
                  exact ⟨v₁, G.trans hw₄ hv₁, hc⟩
                · exact ⟨rfl, hw₄, by simp⟩

/-- `move_to_folder` returns only after the completing call did and raises nothing but a
    `MailboxError`. -/
theorem moveToFolder_safe {uid : ℕ} {folder : String} {s : ICloudMailbox} {w : W}
    (hmove : ∀ w', G.grow w w' → D.guard w' (.move uid folder))
    (hcopy : ∀ w', G.grow w w' → D.guard w' (.copy uid folder))
    (hafter : ∀ w₁ w₂ w₃, G.grow w w₁ → E w₁ (.copy uid folder) (.ok ()) w₂ → G.grow w₂ w₃ →
      D.guard w₃ (.addFlags uid deletedFlag) ∧ D.guard w₃ (.uidExpunge uid)) :
    (moveToFolder uid folder).Safe E D (fun o s' w' => s' = s ∧ G.grow w w' ∧
      ((o = .ok () ∧ ∃ w₁, G.grow w w₁ ∧ Completes E w₁ uid folder w') ∨
        ∃ e, o = .error e ∧ e.isMailboxError = true)) s w := by
  simp only [moveToFolder, Routine.safe_bind]
  refine client_safe ?_ (fun text => ⟨rfl, G.refl w, Or.inr ⟨_, rfl, rfl⟩⟩)
  simp only [Routine.after_ok, Routine.safe_bind, Routine.safe_attempt]
  refine (transfer_safe G quiet hmove hcopy hafter).mono ?_
  rintro o s' w' ⟨rfl, hw', hok⟩
  cases o with
  | ok _ => exact ⟨rfl, hw', Or.inl ⟨rfl, hok rfl⟩⟩
  | error e =>
      simp only
      split
      · next he => exact ⟨rfl, hw', Or.inr ⟨e, rfl, he⟩⟩
      · exact ⟨rfl, hw', Or.inr ⟨_, rfl, rfl⟩⟩

/-! ## Methods that only look

The methods that list or set up a session make no call that could change the mailbox. -/

/-- The routine only looks. -/
abbrev Looks {σ α : Type} (m : Py σ α) : Prop := m.Uses (fun op => op.isLook = true)

/-- The routine only looks and creates nothing. -/
abbrev Glances {σ α : Type} (m : Py σ α) : Prop := m.Uses (fun op => op.isGlance = true)

section looks

omit G quiet

theorem Glances.looks {σ α : Type} {m : Py σ α} (h : Glances m) : Looks m :=
  Routine.Uses.mono h (fun _ => Op.isLook_of_isGlance)

theorem client_uses {S : Op → Prop} : client.Uses S := by
  refine Routine.uses_bind Routine.uses_getSelf (fun self => ?_)
  split
  · exact Routine.uses_pure _
  · exact Routine.uses_raise _

theorem openSession_setup : openSession.Uses (fun op => op.isSetup = true) := by
  refine Routine.uses_bind Routine.uses_getSelf (fun self => ?_)
  refine Routine.uses_bind (Routine.uses_call rfl) (fun _ => ?_)
  refine Routine.uses_bind (Routine.uses_call rfl) (fun _ => ?_)
  exact Routine.uses_call rfl

theorem connect_setup : connect.Uses (fun op => op.isSetup = true) := by
  refine Routine.uses_bind (Routine.uses_attempt openSession_setup) (fun o => ?_)
  cases o with
  | error e => exact Routine.uses_raise _
  | ok info =>
      refine Routine.uses_bind (Routine.uses_modifySelf _) (fun _ => ?_)
      exact Routine.uses_bind (Routine.uses_call rfl) (fun _ => Routine.uses_modifySelf _)

theorem requireKeywords_uses {S : Op → Prop} : requireKeywords.Uses S := by
  refine Routine.uses_bind Routine.uses_getSelf (fun self => ?_)
  split
  · exact Routine.uses_pure _
  · exact Routine.uses_raise _

theorem requireKeywords_setup : requireKeywords.Uses (fun op => op.isSetup = true) :=
  requireKeywords_uses

theorem close_setup : close.Uses (fun op => op.isSetup = true) := by
  refine Routine.uses_bind Routine.uses_getSelf (fun self => ?_)
  refine Routine.uses_bind (Routine.uses_modifySelf _) (fun _ => ?_)
  split
  swap
  · exact Routine.uses_pure _
  refine Routine.uses_bind (Routine.uses_attempt (Routine.uses_call rfl)) (fun o => ?_)
  cases o with
  | ok _ => exact Routine.uses_pure _
  | error e =>
      exact Routine.uses_bind (Routine.uses_attempt (Routine.uses_call rfl))
        (fun _ => Routine.uses_pure _)

theorem connect_glances : Glances connect := connect_setup.mono (fun _ => Op.isGlance_of_isSetup)

theorem requireKeywords_glances : Glances requireKeywords := requireKeywords_uses

theorem close_glances : Glances close := close_setup.mono (fun _ => Op.isGlance_of_isSetup)

section

variable {S : Op → Prop} (hsearch : ∀ criteria, S (.search criteria))
  (hfetch : ∀ uids, S (.fetch uids .flags))

include hsearch hfetch

theorem searchAndFetchFlags_uses : searchAndFetchFlags.Uses S := by
  refine Routine.uses_bind client_uses (fun _ => ?_)
  refine Routine.uses_bind (Routine.uses_call (hsearch _)) (fun uids => ?_)
  split
  · exact Routine.uses_pure _
  · refine Routine.uses_bind client_uses (fun _ => ?_)
    exact Routine.uses_bind (Routine.uses_call (hfetch _)) (fun _ => Routine.uses_pure _)

theorem inboxFlags_uses : inboxFlags.Uses S := by
  refine Routine.uses_bind (Routine.uses_attempt (searchAndFetchFlags_uses hsearch hfetch))
    (fun o => ?_)
  cases o with
  | error e => exact Routine.uses_raise _
  | ok p => exact Routine.uses_pure _

theorem searchKeyword_uses (keyword : String) : (searchKeyword keyword).Uses S :=
  Routine.uses_bind (inboxFlags_uses hsearch hfetch) (fun _ => Routine.uses_pure _)

theorem listInboxUids_uses (skipKeywords : Option (List String)) :
    (listInboxUids skipKeywords).Uses S := by
  refine Routine.uses_bind Routine.uses_getSelf (fun self => ?_)
  refine Routine.uses_bind (Routine.uses_attempt ?_) (fun o => ?_)
  · refine Routine.uses_bind client_uses (fun _ => ?_)
    exact Routine.uses_bind (Routine.uses_call (hsearch _)) (fun _ => Routine.uses_pure _)
  · cases o with
    | ok uids => exact Routine.uses_pure _
    | error e =>
        show Routine.Uses (if _ then _ else _) _
        split
        · exact Routine.uses_raise _
        · exact Routine.uses_bind (inboxFlags_uses hsearch hfetch) (fun _ => Routine.uses_pure _)

end

theorem listInboxUids_glances (skipKeywords : Option (List String)) :
    Glances (listInboxUids skipKeywords) :=
  listInboxUids_uses (fun _ => rfl) (fun _ => rfl) skipKeywords

section

variable {S : Op → Prop} (hexists : ∀ folder, S (.folderExists folder))

include hexists

theorem firstExisting_uses (candidates : List String) : (firstExisting candidates).Uses S := by
  induction candidates with
  | nil => exact Routine.uses_pure _
  | cons candidate rest ih =>
      refine Routine.uses_bind client_uses (fun _ => ?_)
      refine Routine.uses_bind (Routine.uses_call (hexists _)) (fun found => ?_)
      split
      · exact Routine.uses_pure _
      · exact ih

variable (hconstant : S .trashConstant) (hfind : S .findTrash)

include hconstant hfind

theorem findTrashFolder_uses : findTrashFolder.Uses S := by
  refine Routine.uses_bind client_uses (fun _ => ?_)
  refine Routine.uses_bind (Routine.uses_call hconstant) (fun _ => ?_)
  refine Routine.uses_bind (Routine.uses_call hfind) (fun found => ?_)
  cases found with
  | none => exact firstExisting_uses hexists _
  | some name =>
      show Routine.Uses (if _ then _ else _) _
      split
      · exact firstExisting_uses hexists _
      · exact Routine.uses_pure _

theorem trashFolderName_uses : trashFolderName.Uses S := by
  refine Routine.uses_bind Routine.uses_getSelf (fun self => ?_)
  cases self.trashFolder with
  | some name => exact Routine.uses_pure _
  | none =>
      refine Routine.uses_bind
        (Routine.uses_attempt (findTrashFolder_uses hexists hconstant hfind)) (fun o => ?_)
      rcases o with e | name
      · exact Routine.uses_raise _
      · cases name with
        | none => exact Routine.uses_raise _
        | some name =>
            exact Routine.uses_bind (Routine.uses_modifySelf _) (fun _ => Routine.uses_pure _)

end

theorem trashFolderName_glances : Glances trashFolderName :=
  trashFolderName_uses (fun _ => rfl) rfl rfl

theorem idleWait_uses {S : Op → Prop} {timeout : ℚ} (hidle : S .idle)
    (hcheck : S (.idleCheck timeout)) (hdone : S .idleDone) : (idleWait timeout).Uses S := by
  refine Routine.uses_bind client_uses (fun _ => ?_)
  refine Routine.uses_bind (Routine.uses_attempt ?_) (fun o => ?_)
  · refine Routine.uses_bind (Routine.uses_call hidle) (fun _ => ?_)
    refine Routine.uses_bind (Routine.uses_attempt (Routine.uses_call hcheck)) (fun o => ?_)
    exact Routine.uses_bind (Routine.uses_call hdone) (fun _ => Routine.uses_settle o)
  · cases o with
    | ok pushed => exact Routine.uses_pure _
    | error e => exact Routine.uses_raise _

theorem fetchMessage_uses {S : Op → Prop} {uid : ℕ} (h : S (.fetch [uid] .message)) :
    (fetchMessage uid).Uses S := by
  refine Routine.uses_bind (Routine.uses_attempt ?_) (fun o => ?_)
  · exact Routine.uses_bind client_uses (fun _ => Routine.uses_call h)
  · cases o with
    | error e => exact Routine.uses_raise _
    | ok data =>
        rcases hb : (data.lookup uid).bind FetchItem.body with _ | _ | raw
        all_goals
          dsimp only
          rw [hb]
        · exact Routine.uses_raise _
        · exact Routine.uses_raise _
        · exact Routine.uses_pure _

theorem fetchMessage_glances (uid : ℕ) : Glances (fetchMessage uid) := fetchMessage_uses rfl

theorem fetchHeaders_uses {S : Op → Prop} (h : ∀ uids, S (.fetch uids .headers))
    (parse : Option (List UInt8) → Headers) (uids : List ℕ) : (fetchHeaders parse uids).Uses S := by
  unfold fetchHeaders
  split
  · exact Routine.uses_pure _
  · refine Routine.uses_bind (Routine.uses_attempt ?_) (fun o => ?_)
    · exact Routine.uses_bind client_uses (fun _ => Routine.uses_call (h uids))
    · cases o with
      | error e => exact Routine.uses_raise _
      | ok fetched => exact Routine.uses_pure _

theorem fetchHeaders_glances (parse : Option (List UInt8) → Headers) (uids : List ℕ) :
    Glances (fetchHeaders parse uids) := fetchHeaders_uses (fun _ => rfl) parse uids

/-! ### What the methods write

`connect` and `close` write whether the session is open, `trash_folder` writes the name of the Trash
it has found, and the other methods write nothing. -/

section keeps

variable {τ : Type} {f : ICloudMailbox → τ}

theorem client_keeps : client.Keeps f := by
  refine Routine.keeps_bind Routine.keeps_getSelf (fun self => ?_)
  split
  · exact Routine.keeps_pure _
  · exact Routine.keeps_raise _

theorem requireKeywords_keeps : requireKeywords.Keeps f := by
  refine Routine.keeps_bind Routine.keeps_getSelf (fun self => ?_)
  split
  · exact Routine.keeps_pure _
  · exact Routine.keeps_raise _

theorem inboxFlags_keeps : inboxFlags.Keeps f := by
  refine Routine.keeps_bind (Routine.keeps_attempt ?_) (fun o => ?_)
  · refine Routine.keeps_bind client_keeps (fun _ => ?_)
    refine Routine.keeps_bind (Routine.keeps_call _) (fun uids => ?_)
    split
    · exact Routine.keeps_pure _
    · refine Routine.keeps_bind client_keeps (fun _ => ?_)
      exact Routine.keeps_bind (Routine.keeps_call _) (fun _ => Routine.keeps_pure _)
  · cases o with
    | error e => exact Routine.keeps_raise _
    | ok p => exact Routine.keeps_pure _

theorem listInboxUids_keeps (skipKeywords : Option (List String)) :
    (listInboxUids skipKeywords).Keeps f := by
  refine Routine.keeps_bind Routine.keeps_getSelf (fun self => ?_)
  refine Routine.keeps_bind (Routine.keeps_attempt ?_) (fun o => ?_)
  · refine Routine.keeps_bind client_keeps (fun _ => ?_)
    exact Routine.keeps_bind (Routine.keeps_call _) (fun _ => Routine.keeps_pure _)
  · cases o with
    | ok uids => exact Routine.keeps_pure _
    | error e =>
        show Routine.Keeps (if _ then _ else _) _
        split
        · exact Routine.keeps_raise _
        · exact Routine.keeps_bind inboxFlags_keeps (fun _ => Routine.keeps_pure _)

theorem fetchMessage_keeps (uid : ℕ) : (fetchMessage uid).Keeps f := by
  refine Routine.keeps_bind (Routine.keeps_attempt ?_) (fun o => ?_)
  · exact Routine.keeps_bind client_keeps (fun _ => Routine.keeps_call _)
  · cases o with
    | error e => exact Routine.keeps_raise _
    | ok data =>
        rcases hb : (data.lookup uid).bind FetchItem.body with _ | _ | raw
        all_goals
          dsimp only
          rw [hb]
        · exact Routine.keeps_raise _
        · exact Routine.keeps_raise _
        · exact Routine.keeps_pure _

theorem addKeyword_keeps (uid : ℕ) (keyword : String) : (addKeyword uid keyword).Keeps f := by
  refine Routine.keeps_bind (Routine.keeps_attempt ?_) (fun o => ?_)
  · refine Routine.keeps_bind client_keeps (fun _ => ?_)
    refine Routine.keeps_bind ?_ (fun _ => ?_)
    · unfold encodeAscii
      split
      · exact Routine.keeps_pure _
      · exact Routine.keeps_raise _
    refine Routine.keeps_bind (Routine.keeps_call _) (fun response => ?_)
    split
    · exact Routine.keeps_pure _
    · refine Routine.keeps_bind client_keeps (fun _ => ?_)
      exact Routine.keeps_bind (Routine.keeps_call _) (fun _ => Routine.keeps_pure _)
  · cases o with
    | error e => exact Routine.keeps_raise _
    | ok flags =>
        show Routine.Keeps (if _ then _ else _) _
        split
        · exact Routine.keeps_pure _
        · exact Routine.keeps_raise _

theorem moveToFolder_keeps (uid : ℕ) (folder : String) : (moveToFolder uid folder).Keeps f := by
  refine Routine.keeps_bind client_keeps (fun _ => ?_)
  refine Routine.keeps_bind (Routine.keeps_attempt ?_) (fun o => ?_)
  · refine Routine.keeps_bind (Routine.keeps_bind (Routine.keeps_call _) (fun found => ?_))
      (fun _ => ?_)
    · split
      · exact Routine.keeps_pure _
      · exact Routine.keeps_call _
    refine Routine.keeps_bind (Routine.keeps_call _) (fun canMove => ?_)
    split
    · exact Routine.keeps_call _
    refine Routine.keeps_bind (Routine.keeps_call _) (fun uidPlus => ?_)
    split
    · refine Routine.keeps_bind (Routine.keeps_call _) (fun _ => ?_)
      exact Routine.keeps_bind (Routine.keeps_call _) (fun _ => Routine.keeps_call _)
    · exact Routine.keeps_raise _
  · cases o with
    | ok _ => exact Routine.keeps_pure _
    | error e =>
        show Routine.Keeps (if _ then _ else _) _
        split
        · exact Routine.keeps_raise _
        · exact Routine.keeps_raise _

theorem firstExisting_keeps (candidates : List String) : (firstExisting candidates).Keeps f := by
  induction candidates with
  | nil => exact Routine.keeps_pure _
  | cons candidate rest ih =>
      refine Routine.keeps_bind client_keeps (fun _ => ?_)
      refine Routine.keeps_bind (Routine.keeps_call _) (fun found => ?_)
      split
      · exact Routine.keeps_pure _
      · exact ih

end keeps

/-- The method leaves the name of the Trash it may have found before. -/
abbrev KeepsTrash {α : Type} (m : Mailbox α) : Prop := m.Keeps ICloudMailbox.trashFolder

theorem connect_keepsTrash : KeepsTrash connect := by
  refine Routine.keeps_bind (Routine.keeps_attempt ?_) (fun o => ?_)
  · refine Routine.keeps_bind Routine.keeps_getSelf (fun self => ?_)
    refine Routine.keeps_bind (Routine.keeps_call _) (fun _ => ?_)
    exact Routine.keeps_bind (Routine.keeps_call _) (fun _ => Routine.keeps_call _)
  · cases o with
    | error e => exact Routine.keeps_raise _
    | ok info =>
        refine Routine.keeps_bind (Routine.keeps_modifySelf (fun _ => rfl)) (fun _ => ?_)
        exact Routine.keeps_bind (Routine.keeps_call _)
          (fun _ => Routine.keeps_modifySelf (fun _ => rfl))

theorem close_keepsTrash : KeepsTrash close := by
  refine Routine.keeps_bind Routine.keeps_getSelf (fun self => ?_)
  refine Routine.keeps_bind (Routine.keeps_modifySelf (fun _ => rfl)) (fun _ => ?_)
  split
  swap
  · exact Routine.keeps_pure _
  refine Routine.keeps_bind (Routine.keeps_attempt (Routine.keeps_call _)) (fun o => ?_)
  cases o with
  | ok _ => exact Routine.keeps_pure _
  | error e =>
      exact Routine.keeps_bind (Routine.keeps_attempt (Routine.keeps_call _))
        (fun _ => Routine.keeps_pure _)

/-- `move_to_trash` leaves the session open. -/
theorem moveToTrash_keepsConnected (uid : ℕ) : (moveToTrash uid).Keeps ICloudMailbox.connected := by
  refine Routine.keeps_bind (Routine.keeps_bind Routine.keeps_getSelf (fun self => ?_))
    (fun folder => moveToFolder_keeps uid folder)
  cases self.trashFolder with
  | some name => exact Routine.keeps_pure _
  | none =>
      refine Routine.keeps_bind (Routine.keeps_attempt ?_) (fun o => ?_)
      · refine Routine.keeps_bind client_keeps (fun _ => ?_)
        refine Routine.keeps_bind (Routine.keeps_call _) (fun _ => ?_)
        refine Routine.keeps_bind (Routine.keeps_call _) (fun found => ?_)
        cases found with
        | none => exact firstExisting_keeps _
        | some name =>
            show Routine.Keeps (if _ then _ else _) _
            split
            · exact firstExisting_keeps _
            · exact Routine.keeps_pure _
      · rcases o with e | _ | name
        · exact Routine.keeps_raise _
        · exact Routine.keeps_raise _
        · exact Routine.keeps_bind (Routine.keeps_modifySelf (fun _ => rfl))
            (fun _ => Routine.keeps_pure _)

end looks

/-! ## Methods about one message -/

section about

omit G quiet

variable {uid : ℕ} {keyword folder : String}

theorem encodeAscii_uses {S : Op → Prop} : (encodeAscii keyword).Uses S := by
  unfold encodeAscii
  split
  · exact Routine.uses_pure _
  · exact Routine.uses_raise _

theorem refetchFlags_done : (refetchFlags uid).Uses (fun op => op.isDone uid = true) :=
  Routine.uses_bind client_uses (fun _ =>
    Routine.uses_bind (Routine.uses_call (decide_eq_true rfl)) (fun _ => Routine.uses_pure _))

theorem addKeyword_done : (addKeyword uid keyword).Uses (fun op => op.isDone uid = true) := by
  refine Routine.uses_bind (Routine.uses_attempt ?_) (fun o => ?_)
  · refine Routine.uses_bind client_uses (fun _ => ?_)
    refine Routine.uses_bind encodeAscii_uses (fun _ => ?_)
    refine Routine.uses_bind (Routine.uses_call (decide_eq_true rfl)) (fun response => ?_)
    split
    · exact Routine.uses_pure _
    · exact refetchFlags_done
  · cases o with
    | error e => exact Routine.uses_raise _
    | ok flags =>
        show Routine.Uses (if _ then _ else _) _
        split
        · exact Routine.uses_pure _
        · exact Routine.uses_raise _

theorem addKeyword_on : (addKeyword uid keyword).Uses (fun op => op.isOn uid = true) :=
  addKeyword_done.mono (fun _ => Op.isOn_of_isDone)

theorem moveToFolder_done : (moveToFolder uid folder).Uses (fun op => op.isDone uid = true) := by
  refine Routine.uses_bind client_uses (fun _ => ?_)
  refine Routine.uses_bind (Routine.uses_attempt ?_) (fun o => ?_)
  · refine Routine.uses_bind (Routine.uses_bind (Routine.uses_call rfl) (fun found => ?_))
      (fun _ => ?_)
    · split
      · exact Routine.uses_pure _
      · exact Routine.uses_call rfl
    refine Routine.uses_bind (Routine.uses_call rfl) (fun canMove => ?_)
    split
    · exact Routine.uses_call (decide_eq_true rfl)
    refine Routine.uses_bind (Routine.uses_call rfl) (fun uidPlus => ?_)
    split
    · refine Routine.uses_bind (Routine.uses_call (decide_eq_true rfl)) (fun _ => ?_)
      exact Routine.uses_bind (Routine.uses_call (decide_eq_true rfl))
        (fun _ => Routine.uses_call (decide_eq_true rfl))
    · exact Routine.uses_raise _
  · cases o with
    | ok _ => exact Routine.uses_pure _
    | error e =>
        show Routine.Uses (if _ then _ else _) _
        split
        · exact Routine.uses_raise _
        · exact Routine.uses_raise _

theorem moveToFolder_on : (moveToFolder uid folder).Uses (fun op => op.isOn uid = true) :=
  moveToFolder_done.mono (fun _ => Op.isOn_of_isDone)

theorem moveToTrash_done : (moveToTrash uid).Uses (fun op => op.isDone uid = true) :=
  Routine.uses_bind (trashFolderName_uses (fun _ => rfl) rfl rfl) (fun _ => moveToFolder_done)

theorem moveToTrash_on : (moveToTrash uid).Uses (fun op => op.isOn uid = true) :=
  moveToTrash_done.mono (fun _ => Op.isOn_of_isDone)

theorem fetchMessage_on : (fetchMessage uid).Uses (fun op => op.isOn uid = true) :=
  fetchMessage_uses (decide_eq_true rfl)

/-- The message that is fetched is the one asked for. -/
theorem fetchMessage_uid (s : ICloudMailbox) :
    (fetchMessage uid).Safe (Env.answering fun _ _ => True) .free
      (fun r _ _ => ∀ message, r = .ok message → message.uid = uid) s () := by
  rw [fetchMessage, Routine.safe_bind, Routine.safe_attempt]
  refine Program.safe_free _ (fun r => ?_)
  rcases r with ⟨e | data, s'⟩
  · exact nofun
  · rw [Routine.after_ok]
    rcases hb : (data.lookup uid).bind FetchItem.body with _ | _ | raw
    all_goals
      dsimp only
      rw [hb]
    · exact nofun
    · exact nofun
    · rintro message ⟨⟩
      rfl

end about

/-- The listing `inbox_flags` makes of a `SEARCH` and of one `FETCH` of what it names. -/
def Lists (E : Env Op Reply W) (grow : W → W → Prop) (w : W) (flags : List (ℕ × List String))
    (w' : W) : Prop :=
  ∃ uids w₁, E w (.search ["NOT", "DELETED"]) (.ok uids) w₁ ∧
    ((sortUids uids = [] ∧ flags = [] ∧ w' = w₁) ∨
      ∃ fetched w₂, grow w₁ w₂ ∧ E w₂ (.fetch (sortUids uids) .flags) (.ok fetched) w' ∧
        flags = (sortUids uids).dedup.map (fun uid => (uid, reportedFlags fetched uid)))

omit quiet in
theorem inboxFlags_safe {s : ICloudMailbox} {w : W}
    (hlook : ∀ w op, op.isLook = true → D.guard w op) :
    inboxFlags.Safe E D (fun o _ w' => G.grow w w' ∧ ∀ flags, o = .ok flags →
      ∃ w₁, G.grow w w₁ ∧ Lists E G.grow w₁ flags w') s w := by
  simp only [inboxFlags, searchAndFetchFlags, Routine.safe_bind, Routine.safe_attempt]
  refine client_safe ?_ (fun text => ⟨G.refl w, by simp⟩)
  simp only [Routine.after_ok, Routine.safe_bind]
  refine safe_guarded_call G rfl (fun w' _ => hlook w' _ rfl) ?_
  intro w₁ r w₂ hw₁ hE hw₂
  cases r with
  | error e => exact ⟨hw₂, by simp⟩
  | ok uids =>
      simp only [Routine.after_ok]
      split
      · next hnil =>
        refine ⟨hw₂, ?_⟩
        rintro flags ⟨⟩
        exact ⟨w₁, hw₁, uids, w₂, hE, Or.inl ⟨hnil, rfl, rfl⟩⟩
      · simp only [Routine.safe_bind]
        refine client_safe ?_ (fun text => ⟨hw₂, by simp⟩)
        simp only [Routine.after_ok, Routine.safe_bind]
        refine safe_guarded_call G rfl (fun w' _ => hlook w' _ rfl) ?_
        intro w₃ r w₄ hw₃ hE₃ hw₄
        cases r with
        | error e => exact ⟨G.trans hw₂ hw₄, by simp⟩
        | ok fetched =>
            refine ⟨G.trans hw₂ hw₄, ?_⟩
            rintro flags ⟨⟩
            exact ⟨w₁, hw₁, uids, w₂, hE, Or.inr ⟨fetched, w₃, hw₃, hE₃, rfl⟩⟩

omit quiet in
/-- `search_keyword` names what a listing shows with the keyword. -/
theorem searchKeyword_safe {keyword : String} {s : ICloudMailbox} {w : W}
    (hlook : ∀ w op, op.isLook = true → D.guard w op) :
    (searchKeyword keyword).Safe E D (fun o _ w' => G.grow w w' ∧ ∀ uids, o = .ok uids →
      ∃ flags w₁, G.grow w w₁ ∧ Lists E G.grow w₁ flags w' ∧ ∀ uid ∈ uids,
        ∃ item ∈ flags, item.1 = uid ∧ hasFlag item.2 keyword = true) s w := by
  simp only [searchKeyword, Routine.safe_bind]
  refine (inboxFlags_safe G hlook).mono ?_
  rintro o s' w' ⟨hw', hlists⟩
  cases o with
  | error e => exact ⟨hw', by simp⟩
  | ok flags =>
      refine ⟨hw', ?_⟩
      rintro uids ⟨⟩
      obtain ⟨w₁, hw₁, hl⟩ := hlists flags rfl
      refine ⟨flags, w₁, hw₁, hl, fun uid huid => ?_⟩
      obtain ⟨item, hitem, rfl⟩ := List.mem_map.mp huid
      obtain ⟨hitem, hhas⟩ := List.mem_filter.mp hitem
      have hhas : hasFlag item.2 keyword = true := by simpa [matchesAny] using hhas
      exact ⟨item, hitem, rfl, hhas⟩

omit G quiet in
theorem mem_sortUids {uids : List ℕ} {uid : ℕ} : uid ∈ sortUids uids ↔ uid ∈ uids :=
  (List.perm_insertionSort (· ≤ ·) uids).mem_iff

/-! ## The listing of the INBOX

What `list_inbox_uids` returns was named by a `SEARCH NOT DELETED`, its own or that of the fallback. -/

section listing

omit G quiet

variable {I : W → Prop} {P : ℕ → W → Prop}
  (hcall : ∀ {op w w₁}, I w → D.rely w w₁ → op.isGlance = true →
    D.guard w₁ op ∧ ∀ r w₂, E w₁ op r w₂ → I w₂)
  (hsearch : ∀ {w w₁ rest uids w₂}, I w → D.rely w w₁ →
    E w₁ (.search ("NOT" :: "DELETED" :: rest)) (.ok uids) w₂ → ∀ uid ∈ uids, P uid w₂)
  (hfetch : ∀ {w w₁ uids r w₂ uid}, I w → D.rely w w₁ → E w₁ (.fetch uids .flags) r w₂ →
    P uid w → P uid w₂)

include hcall

theorem safe_listing_call {σ : Type} {op : Op} {Q : Except Exc (Value op) → σ → W → Prop} {s : σ}
    {w : W} (hI : I w) (hop : op.isGlance = true)
    (h : ∀ w₁ r w₂, D.rely w w₁ → E w₁ op r w₂ → I w₂ → Q r s w₂) :
    (call op : Py σ (Value op)).Safe E D Q s w := by
  intro w₁ hw₁
  obtain ⟨hguard, hnext⟩ := hcall hI hw₁ hop
  exact ⟨hguard, fun r w₂ hE => h w₁ r w₂ hw₁ hE (hnext r w₂ hE)⟩

include hsearch hfetch

theorem inboxFlags_named {s : ICloudMailbox} {w : W} (hI : I w) :
    inboxFlags.Safe E D (fun r _ w' => I w' ∧ ∀ flags, r = .ok flags → ∀ item ∈ flags, P item.1 w')
      s w := by
  simp only [inboxFlags, searchAndFetchFlags, Routine.safe_bind, Routine.safe_attempt]
  refine client_safe ?_ (fun text => ⟨hI, by simp⟩)
  rw [Routine.after_ok, Routine.safe_bind]
  refine safe_listing_call hcall hI rfl (fun w₁ r w₂ hw₁ hE hI₂ => ?_)
  rcases r with e | uids
  · exact ⟨hI₂, by simp⟩
  have hnamed := hsearch hI hw₁ hE
  rw [Routine.after_ok]
  split
  · refine ⟨hI₂, ?_⟩
    rintro flags ⟨⟩ item hitem
    exact absurd hitem List.not_mem_nil
  rw [Routine.safe_bind]
  refine client_safe ?_ (fun text => ⟨hI₂, by simp⟩)
  rw [Routine.after_ok, Routine.safe_bind]
  refine safe_listing_call hcall hI₂ rfl (fun w₃ r w₄ hw₃ hE₄ hI₄ => ?_)
  rcases r with e | fetched
  · exact ⟨hI₄, by simp⟩
  refine ⟨hI₄, ?_⟩
  rintro flags ⟨⟩ item hitem
  obtain ⟨uid, huid, rfl⟩ := List.mem_map.mp hitem
  exact hfetch hI₂ hw₃ hE₄ (hnamed uid (mem_sortUids.mp (List.mem_dedup.mp huid)))

theorem listInboxUids_named {skipKeywords : Option (List String)} {s : ICloudMailbox} {w : W}
    (hI : I w) : (listInboxUids skipKeywords).Safe E D
      (fun r _ w' => I w' ∧ ∀ uids, r = .ok uids → ∀ uid ∈ uids, P uid w') s w := by
  simp only [listInboxUids, searchQueue, Routine.safe_bind, Routine.safe_attempt,
    Routine.safe_getSelf, Routine.after_ok]
  have hfallback : ∀ (e : Exc) (w₁ : W), I w₁ →
      (if skipKeywords.getD s.skipKeywords = [] then
        raise (.mailboxError s!"IMAP search failed: {e}")
      else do
        let flags ← inboxFlags
        pure ((flags.filter (fun item =>
          !matchesAny item.2 (skipKeywords.getD s.skipKeywords))).map Prod.fst) :
        Mailbox (List ℕ)).Safe E D
        (fun r _ w' => I w' ∧ ∀ uids, r = .ok uids → ∀ uid ∈ uids, P uid w') s w₁ := by
    intro e w₁ hI₁
    split
    · exact ⟨hI₁, by simp⟩
    rw [Routine.safe_bind]
    refine (inboxFlags_named hcall hsearch hfetch hI₁).mono ?_
    rintro (e | flags) s' w₂ ⟨hI₂, hflags⟩
    · exact ⟨hI₂, by simp⟩
    refine ⟨hI₂, ?_⟩
    rintro uids ⟨⟩ uid huid
    obtain ⟨item, hitem, rfl⟩ := List.mem_map.mp huid
    exact hflags flags rfl item (List.mem_filter.mp hitem).1
  refine client_safe ?_ (fun text => hfallback _ w hI)
  rw [Routine.after_ok, Routine.safe_bind]
  refine safe_listing_call hcall hI rfl (fun w₁ r w₂ hw₁ hE hI₂ => ?_)
  rcases r with e | uids
  · exact hfallback e w₂ hI₂
  refine ⟨hI₂, ?_⟩
  rintro _ ⟨⟩ uid huid
  exact hsearch hI hw₁ hE uid (mem_sortUids.mp huid)

end listing

/-! And a message no `SEARCH` may leave out is named, unless its flags are seen to keep it out. -/

section names

omit G quiet

variable {I : W → Prop} {uid : ℕ} {keywords : List String}
  (hcall : ∀ {op w w₁}, I w → D.rely w w₁ → op.isGlance = true →
    D.guard w₁ op ∧ ∀ r w₂, E w₁ op r w₂ → I w₂)
  (hqueue : ∀ {w w₁ uids w₂}, I w → D.rely w w₁ →
    E w₁ (.search (searchCriteria keywords)) (.ok uids) w₂ → uid ∈ uids)
  (hlive : ∀ {w w₁ uids w₂}, I w → D.rely w w₁ →
    E w₁ (.search ["NOT", "DELETED"]) (.ok uids) w₂ → uid ∈ uids)
  (hflags : ∀ {w w₁ uids fetched w₂}, I w → D.rely w w₁ → uid ∈ uids →
    E w₁ (.fetch uids .flags) (.ok fetched) w₂ →
    matchesAny (reportedFlags fetched uid) keywords = false)

include hcall hqueue hlive hflags

theorem listInboxUids_names {s : ICloudMailbox} {w : W} (hI : I w) :
    (listInboxUids (some keywords)).Safe E D
      (fun r _ _ => ∀ uids, r = .ok uids → uid ∈ uids) s w := by
  simp only [listInboxUids, searchQueue, Routine.safe_bind, Routine.safe_attempt,
    Routine.safe_getSelf, Routine.after_ok, Option.getD_some]
  have hfallback : ∀ (e : Exc) (w₁ : W), I w₁ →
      (if keywords = [] then raise (.mailboxError s!"IMAP search failed: {e}")
      else do
        let flags ← inboxFlags
        pure ((flags.filter (fun item => !matchesAny item.2 keywords)).map Prod.fst) :
        Mailbox (List ℕ)).Safe E D (fun r _ _ => ∀ uids, r = .ok uids → uid ∈ uids) s w₁ := by
    intro e w₁ hI₁
    split
    · simp
    simp only [inboxFlags, searchAndFetchFlags, Routine.safe_bind, Routine.safe_attempt]
    refine client_safe ?_ (fun text => (by simp))
    rw [Routine.after_ok, Routine.safe_bind]
    refine safe_listing_call hcall hI₁ rfl (fun w₂ r w₃ hw₂ hE hI₃ => ?_)
    rcases r with e | uids
    · simp
    have hin := mem_sortUids.mpr (hlive hI₁ hw₂ hE)
    rw [Routine.after_ok]
    split
    · next hnil =>
      rw [hnil] at hin
      exact absurd hin List.not_mem_nil
    rw [Routine.safe_bind]
    refine client_safe ?_ (fun text => (by simp))
    rw [Routine.after_ok, Routine.safe_bind]
    refine safe_listing_call hcall hI₃ rfl (fun w₄ r w₅ hw₄ hE₅ _ => ?_)
    rcases r with e | fetched
    · simp
    rintro _ ⟨⟩
    refine List.mem_map.mpr ⟨(uid, reportedFlags fetched uid), List.mem_filter.mpr ⟨?_, ?_⟩, rfl⟩
    · exact List.mem_map.mpr ⟨uid, List.mem_dedup.mpr hin, rfl⟩
    · rw [Bool.not_eq_true']
      exact hflags hI₃ hw₄ hin hE₅
  refine client_safe ?_ (fun text => hfallback _ w hI)
  rw [Routine.after_ok, Routine.safe_bind]
  refine safe_listing_call hcall hI rfl (fun w₁ r w₂ hw₁ hE hI₂ => ?_)
  rcases r with e | uids
  · exact hfallback e w₂ hI₂
  rintro _ ⟨⟩
  exact mem_sortUids.mpr (hqueue hI hw₁ hE)

end names

omit quiet in
/-- A routine that only looks follows the growth. -/
theorem looks_safe {σ α : Type} {m : Py σ α} (hm : Looks m) {s : σ} {w : W}
    (hg : ∀ w' op, G.grow w w' → op.isLook = true → D.guard w' op) :
    m.Safe E D (fun _ _ w' => G.grow w w') s w :=
  Routine.Safe.of_uses G hm (fun _ h => Op.isImap_of_isLook h) hg

/-- `move_to_trash` for whatever folder the server names as its Trash. -/
theorem moveToTrash_safe {uid : ℕ} {s : ICloudMailbox} {w : W}
    (hmove : ∀ folder w', G.grow w w' → D.guard w' (.move uid folder))
    (hcopy : ∀ folder w', G.grow w w' → D.guard w' (.copy uid folder))
    (hafter : ∀ folder w₁ w₂ w₃, G.grow w w₁ → E w₁ (.copy uid folder) (.ok ()) w₂ →
      G.grow w₂ w₃ → D.guard w₃ (.addFlags uid deletedFlag) ∧ D.guard w₃ (.uidExpunge uid))
    (hlook : ∀ w' op, G.grow w w' → op.isLook = true → D.guard w' op) :
    (moveToTrash uid).Safe E D (fun o _ w' => G.grow w w' ∧
      ((o = .ok () ∧ ∃ folder w₁, G.grow w w₁ ∧ Completes E w₁ uid folder w') ∨
        ∃ e, o = .error e)) s w := by
  simp only [moveToTrash, Routine.safe_bind]
  refine (looks_safe G trashFolderName_glances.looks hlook).mono ?_
  intro o s₁ w₁ h₁
  cases o with
  | error e => exact ⟨h₁, Or.inr ⟨e, rfl⟩⟩
  | ok folder =>
      simp only [Routine.after_ok]
      refine (moveToFolder_safe G quiet (fun v hv => hmove folder v (G.trans h₁ hv))
        (fun v hv => hcopy folder v (G.trans h₁ hv))
        (fun v₁ v₂ v₃ hv => hafter folder v₁ v₂ v₃ (G.trans h₁ hv))).mono ?_
      rintro o s₂ w₂ ⟨-, h₂, ⟨rfl, w₃, h₃, hc⟩ | ⟨e, rfl, -⟩⟩
      · exact ⟨G.trans h₁ h₂, Or.inl ⟨rfl, folder, w₃, G.trans h₁ h₃, hc⟩⟩
      · exact ⟨G.trans h₁ h₂, Or.inr ⟨e, rfl⟩⟩

/-! ## What a move establishes

Where nothing is guarded, a fact that stays true is established by a move if the `MOVE` establishes
it, or the `STORE` of `\Deleted` that replaces it. -/

section establish

omit G quiet

variable (F : Growth E D (fun _ => True)) (allowed : ∀ w op, D.guard w op) {P : W → Prop}
  (stable : ∀ {w w'}, F.grow w w' → P w → P w')

include F allowed

theorem safe_any_call {σ : Type} {op : Op} {Q : Except Exc (Value op) → σ → W → Prop} {s : σ} {w : W}
    (h : ∀ w₁ r w₂, F.grow w w₁ → E w₁ op r w₂ → F.grow w w₂ → Q r s w₂) :
    (call op : Py σ (Value op)).Safe E D Q s w := by
  intro w₁ hr
  have hw₁ := F.rely hr
  have hg := allowed w₁ op
  exact ⟨hg, fun r w₂ hE => h w₁ r w₂ hw₁ hE (F.trans hw₁ (F.step trivial hg hE))⟩

include stable

theorem transfer_establishes {uid : ℕ} {folder : String} {s : ICloudMailbox} {w : W}
    (hmove : ∀ v v', F.grow w v → E v (.move uid folder) (.ok ()) v' → P v')
    (hdeleted : ∀ v stored v', F.grow w v → E v (.addFlags uid deletedFlag) (.ok stored) v' → P v') :
    (transfer uid folder).Safe E D (fun r s' w' => s' = s ∧ F.grow w w' ∧ (r = .ok () → P w')) s
      w := by
  rw [transfer, Routine.safe_bind]
  have hready : (createOnDemand folder).Safe E D (fun _ s' w' => s' = s ∧ F.grow w w') s w := by
    rw [createOnDemand, Routine.safe_bind]
    refine safe_any_call F allowed (fun _ r w₂ _ _ hw₂ => ?_)
    rcases r with e | found
    · exact ⟨rfl, hw₂⟩
    · rw [Routine.after_ok]
      split
      · exact ⟨rfl, hw₂⟩
      · exact safe_any_call F allowed (fun _ _ _ _ _ hw₄ => ⟨rfl, F.trans hw₂ hw₄⟩)
  refine hready.mono ?_
  rintro r s' w₁ ⟨rfl, hw₁⟩
  rcases r with e | _
  · exact ⟨rfl, hw₁, nofun⟩
  rw [Routine.after_ok, Routine.safe_bind]
  refine safe_any_call F allowed (fun _ r w₂ _ _ hw₂ => ?_)
  have hw₂ := F.trans hw₁ hw₂
  rcases r with e | canMove
  · exact ⟨rfl, hw₂, nofun⟩
  rw [Routine.after_ok]
  split
  · refine safe_any_call F allowed (fun w₃ r w₄ hw₃ hE hw₄ => ⟨rfl, F.trans hw₂ hw₄, ?_⟩)
    rintro rfl
    exact hmove w₃ w₄ (F.trans hw₂ hw₃) hE
  · rw [Routine.safe_bind]
    refine safe_any_call F allowed (fun _ r w₃ _ _ hw₃ => ?_)
    have hw₃ := F.trans hw₂ hw₃
    rcases r with e | uidPlus
    · exact ⟨rfl, hw₃, nofun⟩
    rw [Routine.after_ok]
    split
    swap
    · exact ⟨rfl, hw₃, nofun⟩
    rw [copyAndExpunge, Routine.safe_bind]
    refine safe_any_call F allowed (fun _ r w₄ _ _ hw₄ => ?_)
    have hw₄ := F.trans hw₃ hw₄
    rcases r with e | _
    · exact ⟨rfl, hw₄, nofun⟩
    rw [Routine.after_ok, Routine.safe_bind]
    refine safe_any_call F allowed (fun w₅ r w₆ hw₅ hE hw₆ => ?_)
    rcases r with e | stored
    · exact ⟨rfl, F.trans hw₄ hw₆, nofun⟩
    -- the message is `\Deleted` from here on
    have hP := hdeleted w₅ stored w₆ (F.trans hw₄ hw₅) hE
    rw [Routine.after_ok]
    exact safe_any_call F allowed (fun _ _ _ _ _ hw₈ =>
      ⟨rfl, F.trans (F.trans hw₄ hw₆) hw₈, fun _ => stable hw₈ hP⟩)

theorem moveToFolder_establishes {uid : ℕ} {folder : String} {s : ICloudMailbox} {w : W}
    (hmove : ∀ v v', F.grow w v → E v (.move uid folder) (.ok ()) v' → P v')
    (hdeleted : ∀ v stored v', F.grow w v → E v (.addFlags uid deletedFlag) (.ok stored) v' → P v') :
    (moveToFolder uid folder).Safe E D (fun r s' w' => s' = s ∧ F.grow w w' ∧ (r = .ok () → P w') ∧
      ∀ e, r = .error e → e.isMailboxError = true) s w := by
  rw [moveToFolder, Routine.safe_bind]
  refine client_safe ?_ (fun text => ⟨rfl, F.refl w, nofun, ?_⟩)
  swap
  · rintro e ⟨⟩
    rfl
  rw [Routine.after_ok, Routine.safe_bind, Routine.safe_attempt]
  refine (transfer_establishes F allowed stable hmove hdeleted).mono ?_
  rintro r s' w' ⟨rfl, hw', hok⟩
  rw [Routine.after_ok]
  rcases r with e | ⟨⟩
  · dsimp only
    split
    · next he =>
      refine ⟨rfl, hw', nofun, ?_⟩
      rintro _ ⟨⟩
      exact he
    · refine ⟨rfl, hw', nofun, ?_⟩
      rintro _ ⟨⟩
      rfl
  · exact ⟨rfl, hw', fun _ => hok rfl, nofun⟩

theorem moveToTrash_establishes {uid : ℕ} {s : ICloudMailbox} {w : W}
    (hmove : ∀ folder v v', F.grow w v → E v (.move uid folder) (.ok ()) v' → P v')
    (hdeleted : ∀ v stored v', F.grow w v → E v (.addFlags uid deletedFlag) (.ok stored) v' → P v') :
    (moveToTrash uid).Safe E D (fun r _ w' => F.grow w w' ∧ (r = .ok () → P w')) s w := by
  rw [moveToTrash, Routine.safe_bind]
  refine (Routine.Safe.follows F allowed trashFolderName s w).mono ?_
  intro r s₁ w₁ hw₁
  rcases r with e | folder
  · exact ⟨hw₁, nofun⟩
  rw [Routine.after_ok]
  refine (moveToFolder_establishes F allowed stable
    (fun v v' hv => hmove folder v v' (F.trans hw₁ hv))
    (fun v stored v' hv => hdeleted v stored v' (F.trans hw₁ hv))).mono ?_
  rintro r s₂ w₂ ⟨-, hw₂, hok, -⟩
  exact ⟨F.trans hw₁ hw₂, hok⟩

end establish

end ICloudMailbox

end MailTransporter
