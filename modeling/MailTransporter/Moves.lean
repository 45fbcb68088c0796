import MailTransporter.Provider

set_option autoImplicit false

/-! # Moving one message

`move_to_folder` against any server that carries out each command atomically and may answer it with
an exception before or after that. `Kept` is what holds at every call and at the end: the other
messages are as they were, and the message itself is still at its UID or has arrived. -/

namespace MailTransporter

open Effect
open Effect.Routine (raise attempt)

namespace ICloudMailbox

/-- A server with the extensions `caps`. -/
def Offers (caps : String → Bool) : Env Op Reply World := fun w op r w' =>
  Serves w op r w' ∧
    match op, r with
    | .hasCapability name, .ok found => found = caps name
    | _, _ => True

/-- A message that has arrived in `folder` since `w`. -/
def Arrived (folder : String) (w : World) (raw : RawMail) (m' : Message) : Prop :=
  m'.folder = folderName folder ∧ m'.raw = raw ∧ w.uidNext ≤ m'.uid

/-- What a move of `uid` into `folder` keeps: every other message is where it was with its flags,
    the INBOX has no new one, and the message at `uid` is there or has arrived in `folder`. -/
structure Kept (uid : ℕ) (folder : String) (w w' : World) : Prop where
  others : ∀ m ∈ w.messages, m.isAt uid = false → m ∈ w'.messages
  inbox : ∀ m' ∈ w'.messages, m'.folder = "INBOX" → m'.uid ≠ uid → m' ∈ w.messages
  named : ∀ m ∈ w.messages, m.isAt uid = true → ∃ m' ∈ w'.messages,
    (m'.isAt uid = true ∧ m'.raw = m.raw) ∨ Arrived folder w m.raw m'

/-- The message at `uid` has arrived in `folder`. -/
def Copied (uid : ℕ) (folder : String) (w w' : World) : Prop :=
  ∀ m ∈ w.messages, m.isAt uid = true → ∃ m' ∈ w'.messages, Arrived folder w m.raw m'

/-- The move is complete: the message has arrived and is no longer in the INBOX. -/
def Moved (uid : ℕ) (folder : String) (w w' : World) : Prop :=
  Copied uid folder w w' ∧ ∀ m' ∈ w'.messages, m'.isAt uid = false

variable {caps : String → Bool} {uid : ℕ} {folder : String} {w w' : World}

theorem Kept.refl (uid : ℕ) (folder : String) (w : World) : Kept uid folder w w where
  others := fun _ hm _ => hm
  inbox := fun _ hm _ _ => hm
  named := fun m hm hat => ⟨m, hm, Or.inl ⟨hat, rfl⟩⟩

/-- Nothing but the messages counts. -/
theorem Kept.congr (h : Kept uid folder w w') {w'' : World} (he : w''.messages = w'.messages) :
    Kept uid folder w w'' :=
  ⟨he ▸ h.others, he ▸ h.inbox, he ▸ h.named⟩

/-! ## The effects -/

/-- `MOVE` moves the message. -/
theorem moved_of_move (uid : ℕ) (hfolder : folderName folder ≠ "INBOX") (hw : WellFormed w) :
    Kept uid folder w (effect (.move uid folder) w) ∧
      Moved uid folder w (effect (.move uid folder) w) := by
  simp only [effect, World.moveTo]
  cases hf : w.find uid with
  | none =>
      have hnone : ∀ m ∈ w.messages, m.isAt uid = false := fun m hm => World.find_none hf hm
      refine ⟨.refl uid folder w, fun m hm hat => ?_, hnone⟩
      rw [hnone m hm] at hat
      exact absurd hat (by simp)
  | some m₀ =>
      obtain ⟨hm₀, hat₀⟩ := World.find_some hf
      have harrived : Copied uid folder w { w with
          messages := w.messages.filter (fun m => !m.isAt uid) ++ [m₀.placed folder w.uidNext]
          uidNext := w.uidNext + 1 } := by
        intro m hm hat
        have hu := (Message.isAt_iff.mp hat).2.trans (Message.isAt_iff.mp hat₀).2.symm
        rw [hw.unique hm hm₀ hu]
        exact ⟨_, List.mem_append_right _ (List.mem_singleton_self _), rfl, rfl, Nat.le_refl _⟩
      refine ⟨⟨fun m hm hat => ?_, fun m' hm' hin _ => ?_, fun m hm hat => ?_⟩, harrived,
        fun m' hm' => ?_⟩
      · refine List.mem_append_left _ (List.mem_filter.mpr ⟨hm, ?_⟩)
        rw [hat]
        rfl
      · rcases List.mem_append.mp hm' with hm' | hm'
        · exact (List.mem_filter.mp hm').1
        · rw [List.mem_singleton.mp hm'] at hin
          exact absurd hin hfolder
      · obtain ⟨m', hm', ha⟩ := harrived m hm hat
        exact ⟨m', hm', Or.inr ha⟩
      · rcases List.mem_append.mp hm' with hm' | hm'
        · simpa using (List.mem_filter.mp hm').2
        · rw [List.mem_singleton.mp hm']
          exact Message.not_isAt_placed hfolder m₀ _ uid

/-- `COPY` puts a copy into the folder. -/
theorem copied_of_copy (uid : ℕ) (hfolder : folderName folder ≠ "INBOX") (hw : WellFormed w) :
    Kept uid folder w (effect (.copy uid folder) w) ∧
      Copied uid folder w (effect (.copy uid folder) w) := by
  simp only [effect, World.copyTo]
  cases hf : w.find uid with
  | none =>
      refine ⟨.refl uid folder w, fun m hm hat => ?_⟩
      rw [World.find_none hf hm] at hat
      exact absurd hat (by simp)
  | some m₀ =>
      obtain ⟨hm₀, hat₀⟩ := World.find_some hf
      refine ⟨⟨fun m hm _ => List.mem_append_left _ hm, fun m' hm' hin _ => ?_, fun m hm hat => ?_⟩,
        fun m hm hat => ?_⟩
      · rcases List.mem_append.mp hm' with hm' | hm'
        · exact hm'
        · rw [List.mem_singleton.mp hm'] at hin
          exact absurd hin hfolder
      · exact ⟨m, List.mem_append_left _ hm, Or.inl ⟨hat, rfl⟩⟩
      · have hu := (Message.isAt_iff.mp hat).2.trans (Message.isAt_iff.mp hat₀).2.symm
        rw [hw.unique hm hm₀ hu]
        exact ⟨_, List.mem_append_right _ (List.mem_singleton_self _), rfl, rfl, Nat.le_refl _⟩

/-- A `STORE` on `uid` keeps what is kept, and arrived copies. -/
theorem Kept.store (h : Kept uid folder w w') (f : List String → List String) :
    Kept uid folder w (World.store uid f w') := by
  have hout : ∀ m ∈ w'.messages, m.isAt uid = false → m ∈ (World.store uid f w').messages := by
    intro m hm hat
    refine mem_store.mpr ⟨m, hm, ?_⟩
    rw [hat]
    rfl
  refine ⟨fun m hm hat => hout m (h.others m hm hat) hat, fun m' hm' hin hne => ?_,
    fun m hm hat => ?_⟩
  · obtain ⟨m, hm, rfl⟩ := mem_store.mp hm'
    have hat : m.isAt uid = false := by
      refine Bool.eq_false_iff.mpr (fun hat => ?_)
      exact hne (Message.isAt_iff.mp hat).2
    rw [hat]
    exact h.inbox m hm hin hne
  · obtain ⟨m', hm', hcase⟩ := h.named m hm hat
    refine ⟨m'.withFlags (if m'.isAt uid then f m'.flags else m'.flags),
      mem_store.mpr ⟨m', hm', rfl⟩, ?_⟩
    exact hcase

theorem Copied.store (h : Copied uid folder w w') (f : List String → List String) :
    Copied uid folder w (World.store uid f w') := by
  intro m hm hat
  obtain ⟨m', hm', ha⟩ := h m hm hat
  exact ⟨m'.withFlags (if m'.isAt uid then f m'.flags else m'.flags),
    mem_store.mpr ⟨m', hm', rfl⟩, ha⟩

/-- `UID EXPUNGE` of a message that has arrived. -/
theorem Copied.expunge (hfolder : folderName folder ≠ "INBOX") (hk : Kept uid folder w w')
    (h : Copied uid folder w w') :
    Kept uid folder w (effect (.uidExpunge uid) w') ∧
      Copied uid folder w (effect (.uidExpunge uid) w') := by
  have hkeep : ∀ m ∈ w'.messages, m.isAt uid = false →
      m ∈ (effect (.uidExpunge uid) w').messages := by
    intro m hm hat
    refine List.mem_filter.mpr ⟨hm, ?_⟩
    simp only [hat, Bool.false_and, Bool.not_false]
  have hcopied : Copied uid folder w (effect (.uidExpunge uid) w') := by
    intro m hm hat
    obtain ⟨m', hm', ha⟩ := h m hm hat
    refine ⟨m', hkeep m' hm' ?_, ha⟩
    refine Bool.eq_false_iff.mpr (fun hat' => ?_)
    exact hfolder (ha.1.symm.trans (Message.isAt_iff.mp hat').1)
  refine ⟨⟨fun m hm hat => hkeep m (hk.others m hm hat) hat, fun m' hm' hin hne => ?_,
    fun m hm hat => ?_⟩, hcopied⟩
  · exact hk.inbox m' (List.mem_filter.mp hm').1 hin hne
  · obtain ⟨m', hm', ha⟩ := hcopied m hm hat
    exact ⟨m', hm', Or.inr ha⟩

/-- After `STORE \Deleted` the expunge takes the message out of the INBOX. -/
theorem expunged (h : ∀ m ∈ w'.messages, m.isAt uid = true → m.has deletedFlag = true) :
    ∀ m ∈ (effect (.uidExpunge uid) w').messages, m.isAt uid = false := by
  intro m hm
  obtain ⟨hm, hkeep⟩ := List.mem_filter.mp hm
  refine Bool.eq_false_iff.mpr (fun hat => ?_)
  simp only [hat, h m hm hat, Bool.and_self, Bool.not_true] at hkeep
  exact absurd hkeep nofun

theorem deleted_of_store (w : World) :
    ∀ m ∈ (effect (.addFlags uid deletedFlag) w).messages, m.isAt uid = true →
      m.has deletedFlag = true := by
  intro m' hm' hat
  obtain ⟨m, hm, rfl⟩ := mem_store.mp hm'
  have hat : m.isAt uid = true := hat
  rw [hat]
  simp [Message.has]

/-! ## The method

Until the call that moves or copies, the messages are `Still` those of the start. -/

def Still (w w' : World) : Prop := w'.messages = w.messages ∧ w'.uidNext = w.uidNext

theorem Still.kept (h : Still w w') : Kept uid folder w w' := (Kept.refl uid folder w).congr h.1

theorem Still.wellFormed (h : Still w w') (hw : WellFormed w) : WellFormed w' :=
  ⟨h.1 ▸ hw.distinct, h.1 ▸ h.2 ▸ hw.given⟩

theorem Still.copied {v : World} (h : Still w v) (hc : Copied uid folder v w') :
    Copied uid folder w w' := by
  unfold Copied Arrived at hc ⊢
  rw [h.1, h.2] at hc
  exact hc

theorem Still.keep {v : World} (h : Still w v) (hk : Kept uid folder v w') :
    Kept uid folder w w' := by
  obtain ⟨hothers, hinbox, hnamed⟩ := hk
  unfold Arrived at hnamed
  rw [h.1] at hothers hinbox
  rw [h.1, h.2] at hnamed
  exact ⟨hothers, hinbox, hnamed⟩

/-- A quiet call leaves the messages still. -/
theorem Still.quiet {v : World} (h : Still w v) {op : Op} {r : Reply op} (hop : op.isQuiet = true)
    (hE : Offers caps v op r w') : Still w w' := by
  have heffect : Still v (effect op v) := by
    cases op
    all_goals first | exact ⟨rfl, rfl⟩ | exact absurd hop nofun
  rcases hE.1.cases with hw' | hw'
  · rw [hw']
    exact h
  · rw [hw']
    exact ⟨heffect.1.trans h.1, heffect.2.trans h.2⟩

theorem safe_still_call {op : Op} {Q : Except Exc (Value op) → ICloudMailbox → World → Prop}
    {s : ICloudMailbox} {v : World} (hop : op.isQuiet = true) (hv : Still w v)
    (h : ∀ r w', Offers caps v op r w' → Still w w' → Q r s w') :
    (call op : Mailbox (Value op)).Safe (Offers caps) (.keeping (Kept uid folder w)) Q s v := by
  refine Routine.safe_call_keeping.mpr ⟨hv.kept, fun r w' hE => ?_⟩
  exact h r w' hE (hv.quiet hop hE)

/-- What the method leaves: what is kept, on a return a complete move, and without `MOVE` and
    `UIDPLUS` an exception and nothing moved. -/
structure Leaves (caps : String → Bool) (uid : ℕ) (folder : String) (w : World)
    (r : Except Exc Unit) (w' : World) : Prop where
  kept : Kept uid folder w w'
  moved : r = .ok () → Moved uid folder w w'
  refused : caps "MOVE" = false → caps "UIDPLUS" = false →
    (∃ e, r = .error e) ∧ w'.messages = w.messages

/-- An exception before anything was moved. -/
theorem Still.leaves (h : Still w w') (e : Exc) : Leaves caps uid folder w (.error e) w' :=
  ⟨h.kept, nofun, fun _ _ => ⟨⟨e, rfl⟩, h.1⟩⟩

theorem createOnDemand_still {s : ICloudMailbox} {v : World} (hv : Still w v) :
    (createOnDemand folder).Safe (Offers caps) (.keeping (Kept uid folder w))
      (fun _ _ w' => Still w w') s v := by
  simp only [createOnDemand, Routine.safe_bind]
  refine safe_still_call rfl hv ?_
  intro r w₁ _ hw₁
  cases r with
  | error e => exact hw₁
  | ok found =>
      simp only [Routine.after_ok]
      split
      · exact hw₁
      · exact safe_still_call rfl hw₁ (fun _ _ _ hw₂ => hw₂)

/-- The `COPY` route: from the copy on there is a copy in the folder. -/
theorem copyAndExpunge_leaves (hw : WellFormed w) (hfolder : folderName folder ≠ "INBOX")
    (hcaps : caps "UIDPLUS" = true) {s : ICloudMailbox} {v : World} (hv : Still w v) :
    (copyAndExpunge uid folder).Safe (Offers caps) (.keeping (Kept uid folder w))
      (fun r _ w' => Leaves caps uid folder w r w') s v := by
  have hnot : ∀ {P : Prop}, caps "UIDPLUS" = false → P := by
    intro P h
    rw [hcaps] at h
    exact absurd h (by simp)
  have hcopy := copied_of_copy uid hfolder (hv.wellFormed hw)
  simp only [copyAndExpunge, Routine.safe_bind]
  refine Routine.safe_call_keeping.mpr ⟨hv.kept, fun r w₁ hE₁ => ?_⟩
  -- a refused copy may still have been made, and the message is where it was either way
  have hk₁ : Kept uid folder w w₁ := by
    rcases hE₁.1.cases with he | he
    · rw [he]
      exact hv.kept
    · rw [he]
      exact hv.keep hcopy.1
  cases r with
  | error e => exact ⟨hk₁, by simp, fun _ => hnot⟩
  | ok _ =>
  have he₁ : w₁ = effect (.copy uid folder) v := Serves.effect_of_ok rfl hE₁.1
  have hc₁ : Copied uid folder w w₁ := he₁ ▸ hv.copied hcopy.2
  simp only [Routine.after_ok, Routine.safe_bind]
  refine Routine.safe_call_keeping.mpr ⟨hk₁, fun r w₂ hE₂ => ?_⟩
  have hk₂ : Kept uid folder w w₂ := by
    rcases hE₂.1.cases with he | he
    · rw [he]
      exact hk₁
    · rw [he]
      exact hk₁.store _
  cases r with
  | error e => exact ⟨hk₂, by simp, fun _ => hnot⟩
  | ok _ =>
  have hop : Op.isKeywordStore (.addFlags uid deletedFlag) = false := by simp [Op.isKeywordStore]
  have he₂ : w₂ = effect (.addFlags uid deletedFlag) w₁ := Serves.effect_of_ok hop hE₂.1
  have hc₂ : Copied uid folder w w₂ := he₂ ▸ hc₁.store _
  have hdeleted : ∀ m ∈ w₂.messages, m.isAt uid = true → m.has deletedFlag = true := by
    rw [he₂]
    exact deleted_of_store w₁
  simp only [Routine.after_ok]
  -- the message is expunged only now that there is a copy of it
  refine Routine.safe_call_keeping.mpr ⟨hk₂, fun r w₃ hE₃ => ?_⟩
  obtain ⟨hk, hc⟩ := hc₂.expunge hfolder hk₂
  cases r with
  | error e =>
      refine ⟨?_, by simp, fun _ => hnot⟩
      rcases hE₃.1.cases with he | he
      · rw [he]
        exact hk₂
      · rw [he]
        exact hk
  | ok _ =>
      have he₃ : w₃ = effect (.uidExpunge uid) w₂ := Serves.effect_of_ok rfl hE₃.1
      rw [he₃]
      exact ⟨hk, fun _ => ⟨hc, expunged hdeleted⟩, fun _ => hnot⟩

theorem transfer_leaves (hw : WellFormed w) (hfolder : folderName folder ≠ "INBOX")
    {s : ICloudMailbox} {v : World} (hv : Still w v) :
    (transfer uid folder).Safe (Offers caps) (.keeping (Kept uid folder w))
      (fun r _ w' => Leaves caps uid folder w r w') s v := by
  simp only [transfer, Routine.safe_bind]
  refine (createOnDemand_still hv).mono ?_
  intro r s₁ w₁ hw₁
  cases r with
  | error e => exact hw₁.leaves e
  | ok _ =>
  simp only [Routine.after_ok, Routine.safe_bind]
  refine safe_still_call rfl hw₁ ?_
  intro r w₂ hE₂ hw₂
  cases r with
  | error e => exact hw₂.leaves e
  | ok canMove =>
  simp only [Routine.after_ok]
  split
  · next hmove =>
    have hcaps : canMove = caps "MOVE" := hE₂.2
    have hmoved := moved_of_move uid hfolder (hw₂.wellFormed hw)
    refine Routine.safe_call_keeping.mpr ⟨hw₂.kept, fun r w₃ hE₃ => ?_⟩
    refine ⟨?_, ?_, fun h => ?_⟩
    · rcases hE₃.1.cases with he | he
      · rw [he]
        exact hw₂.kept
      · rw [he]
        exact hw₂.keep hmoved.1
    · rintro rfl
      have he₃ : w₃ = effect (.move uid folder) w₂ := Serves.effect_of_ok rfl hE₃.1
      rw [he₃]
      exact ⟨hw₂.copied hmoved.2.1, hmoved.2.2⟩
    · rw [← hcaps, hmove] at h
      exact absurd h (by simp)
  · simp only [Routine.safe_bind]
    refine safe_still_call rfl hw₂ ?_
    intro r w₃ hE₃ hw₃
    cases r with
    | error e => exact hw₃.leaves e
    | ok uidPlus =>
        simp only [Routine.after_ok]
        split
        · next huidPlus =>
          have hcaps : uidPlus = caps "UIDPLUS" := hE₃.2
          exact copyAndExpunge_leaves hw hfolder (hcaps ▸ huidPlus) hw₃
        · exact hw₃.leaves _

theorem moveToFolder_leaves (caps : String → Bool) (hw : WellFormed w)
    (hfolder : folderName folder ≠ "INBOX") (s : ICloudMailbox) :
    (moveToFolder uid folder).Safe (Offers caps) (.keeping (Kept uid folder w))
      (fun r _ w' => Leaves caps uid folder w r w') s w := by
  have hstill : Still w w := ⟨rfl, rfl⟩
  simp only [moveToFolder, Routine.safe_bind]
  refine client_safe ?_ (fun text => hstill.leaves _)
  simp only [Routine.after_ok, Routine.safe_bind, Routine.safe_attempt]
  refine (transfer_leaves hw hfolder hstill).mono ?_
  intro r s' w' h
  cases r with
  | ok _ => exact h
  | error e =>
      have herror : ∀ e', Leaves caps uid folder w (.error e') w' :=
        fun e' => ⟨h.kept, by simp, fun hm hu => ⟨⟨e', rfl⟩, (h.refused hm hu).2⟩⟩
      dsimp only
      split
      · exact herror _
      · exact herror _

/-- **Moving one message.** At every point of every execution of `move_to_folder`, whichever command
    fails before or after its effect, the other messages of the INBOX are unchanged and the message
    itself is in the INBOX or in the folder; on a return it is in the folder only; and without `MOVE`
    and `UIDPLUS` the method raises with every message unchanged. -/
theorem moveToFolder_frame (caps : String → Bool) {w : World} (hw : WellFormed w) (uid : ℕ)
    {folder : String} (hfolder : folderName folder ≠ "INBOX") (s : ICloudMailbox) {w' : World}
    {p : Program Op Reply (Except Exc Unit × ICloudMailbox)}
    (h : Program.Steps (Offers caps) (w, moveToFolder uid folder s) (w', p)) :
    Kept uid folder w w' ∧ ∀ r s', p = .pure (r, s') →
      (r = .ok () → Moved uid folder w w') ∧
      (caps "MOVE" = false → caps "UIDPLUS" = false →
        (∃ e, r = .error e) ∧ w'.messages = w.messages) := by
  obtain ⟨hkept, hp⟩ := Program.Safe.always (moveToFolder_leaves caps hw hfolder s)
    (fun a w' (h : Leaves caps uid folder w a.1 w') => h.kept) h
  refine ⟨hkept, ?_⟩
  rintro r s' rfl
  exact ⟨hp.moved, hp.refused⟩

/-- Two mails, of which another client has flagged one `\Deleted`. -/
def mailAndDeleted : World :=
  ⟨[⟨"INBOX", 1, ⟨0, [72, 105]⟩, []⟩, ⟨"INBOX", 2, ⟨1, [72, 111]⟩, ["\\Deleted"]⟩], ["INBOX"], 3,
    []⟩

/-- The extensions of a provider without `MOVE`. -/
def uidPlusOnly (name : String) : Bool := decide (name = "UIDPLUS")

/-- That provider is one of the servers. -/
theorem offers_handle (w : World) (op : Op) :
    Offers uidPlusOnly w op (Provider.handle { move := false } 0 w op).1
      (Provider.handle { move := false } 0 w op).2 := by
  refine ⟨Provider.serves { move := false } 0 w op, ?_⟩
  cases op
  case hasCapability name => simp [Provider.handle, Provider.reply, uidPlusOnly]
  all_goals trivial

/-- The first mail moved by `COPY` and `UID EXPUNGE`: the other one is still there. -/
def archived : World :=
  ⟨[⟨"INBOX", 2, ⟨1, [72, 111]⟩, ["\\Deleted"]⟩, ⟨"Archive", 3, ⟨0, [72, 105]⟩, []⟩],
    ["INBOX", "Archive"], 4, []⟩

/-- A session open for writing. -/
def writable : ICloudMailbox := { readonly := false, skipKeywords := [], connected := true }

theorem archived_steps : Program.Steps (Offers uidPlusOnly)
    (mailAndDeleted, moveToFolder 1 "Archive" writable)
    (archived, .pure (.ok (), writable)) :=
  Program.exec_steps _ offers_handle (moveToFolder 1 "Archive" writable) mailAndDeleted

theorem moveToFolder_frame_archived : Kept 1 "Archive" mailAndDeleted archived ∧
    ∀ r s', (Program.pure (.ok (), writable) : Program Op Reply
        (Except Exc Unit × ICloudMailbox)) = .pure (r, s') →
      (r = .ok () → Moved 1 "Archive" mailAndDeleted archived) ∧
      (uidPlusOnly "MOVE" = false → uidPlusOnly "UIDPLUS" = false →
        (∃ e, r = .error e) ∧ archived.messages = mailAndDeleted.messages) :=
  moveToFolder_frame uidPlusOnly ⟨by decide, by decide⟩ 1 (by decide) writable archived_steps

end ICloudMailbox

end MailTransporter
