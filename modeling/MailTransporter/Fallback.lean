import MailTransporter.GoodPath

set_option autoImplicit false

/-! # The folder fallback

In keyword mode `_quarantine` moves a message into a folder when the keyword could not be confirmed.
`Record` notes, beside the account, on which messages a `STORE` of a quarantine keyword has taken
effect during the run, and what every `MOVE` and `COPY` put where. A message the tool takes aside
carries a quarantine keyword exactly if such a `STORE` had taken effect on it before, confirmed or
not; and back in the INBOX it is listed again exactly if it carries none. -/

namespace MailTransporter

open Effect
open Effect.Routine (raise attempt)

namespace Fallback

/-- The message carries a quarantine keyword. -/
def carries (k : Keywords) (m : Message) : Bool := matchesAny m.flags k.quarantine

theorem carries_iff {k : Keywords} {m : Message} :
    carries k m = true ↔ m.has k.failed = true ∨ m.has k.unverified = true := by
  rw [carries, matchesAny_quarantine, Bool.or_eq_true]
  rfl

/-- A message put into `folder`, and whether a `STORE` had tagged it before. -/
structure Relocation where
  uid : ℕ
  folder : String
  message : Message
  tagged : Bool
deriving DecidableEq

/-- The account, and the record of a run. -/
structure Record where
  world : World
  tagged : List ℕ
  relocated : List Relocation

/-- The record before the run. -/
def opened (w : World) : Record := ⟨w, [], []⟩

/-- The UID on which a `STORE` of a quarantine keyword has taken effect. -/
def tagsOf (k : Keywords) (op : Op) (w' : World) : List ℕ :=
  match op with
  | .addFlags uid flag =>
      if matchesAny [flag] k.quarantine ∧ ∃ m ∈ w'.messages, m.isAt uid ∧ m.has flag then [uid]
      else []
  | _ => []

/-- The messages that have just been put into `folder`. -/
def Record.placedFrom (d : Record) (uid : ℕ) (folder : String) (w' : World) : List Relocation :=
  (w'.messages.filter (fun m => decide (d.world.uidNext ≤ m.uid))).map
    (fun m => ⟨uid, folder, m, decide (uid ∈ d.tagged)⟩)

def Record.relocations (d : Record) (op : Op) (w' : World) : List Relocation :=
  match op with
  | .move uid folder => d.placedFrom uid folder w'
  | .copy uid folder => d.placedFrom uid folder w'
  | _ => []

/-- The server, with the record kept. -/
def Watches (k : Keywords) : Env Op Reply Record := fun d op r d' =>
  Serves d.world op r d'.world ∧
  d'.tagged = d.tagged ++ tagsOf k op d'.world ∧
  d'.relocated = d.relocated ++ d.relocations op d'.world

variable {k : Keywords}

/-! ## The invariant -/

structure Sound (k : Keywords) (d : Record) : Prop where
  wellFormed : WellFormed d.world
  tagged : ∀ uid ∈ d.tagged, uid < d.world.uidNext ∧
    ∀ m ∈ d.world.messages, m.uid = uid → carries k m = true
  relocated : ∀ e ∈ d.relocated, carries k e.message = e.tagged

/-- Whatever quarantine keyword is on the message at `uid`, this run has put it there. -/
def Clean (k : Keywords) (d : Record) (uid : ℕ) : Prop :=
  uid < d.world.uidNext ∧
    ∀ m ∈ d.world.messages, m.isAt uid = true → carries k m = true → uid ∈ d.tagged

/-- Only clean messages are moved, and no keyword is taken off. -/
def Allowed (k : Keywords) (d : Record) : Op → Prop
  | .move uid _ => Clean k d uid
  | .copy uid _ => Clean k d uid
  | .removeFlags _ _ => False
  | _ => True

/-- The discipline of a run nobody interferes with. -/
def discipline (k : Keywords) : Discipline Op Record where
  rely := fun d d' => d' = d
  guard := Allowed k

/-! ## One call -/

/-- A message under a UID given out before a call was there before it. -/
theorem stem {w w' : World} {op : Op} {r : Reply op} (hE : Serves w op r w') {m' : Message}
    (hm' : m' ∈ w'.messages) (hu : m'.uid < w.uidNext) :
    ∃ m ∈ w.messages, m.uid = m'.uid ∧ m.folder = m'.folder ∧
      (m'.flags = m.flags ∨ m'.flags = flagsAfter op m) := by
  rcases hE.origin hm' with ⟨m, hm, rfl | rfl⟩ | ⟨m, hm, uid, folder, -, -, rfl⟩
  · exact ⟨m', hm, rfl, rfl, Or.inl rfl⟩
  · exact ⟨m, hm, rfl, rfl, Or.inr rfl⟩
  · rw [Message.placed_uid] at hu
    exact absurd hu (Nat.lt_irrefl _)

/-- A tag that appears on a message is recorded. -/
theorem mem_tagsOf {op : Op} {w' : World} {m m' : Message} (hm' : m' ∈ w'.messages)
    (hu : m.uid = m'.uid) (hfolder : m.folder = m'.folder)
    (hflags : m'.flags = m.flags ∨ m'.flags = flagsAfter op m)
    (hout : carries k m = false) (hin : carries k m' = true) : m'.uid ∈ tagsOf k op w' := by
  have hchanged : ∀ kw, kw = k.failed ∨ kw = k.unverified → m'.has kw = true →
      m'.uid ∈ tagsOf k op w' := by
    intro kw hkw hhas
    have hno : hasFlag m.flags kw = false := by
      refine Bool.eq_false_iff.mpr (fun h => ?_)
      have hcarries : carries k m = true := by
        rcases hkw with rfl | rfl
        · exact carries_iff.mpr (Or.inl h)
        · exact carries_iff.mpr (Or.inr h)
      rw [hout] at hcarries
      exact absurd hcarries nofun
    have hyes : hasFlag (flagsAfter op m) kw = true := by
      have hhas : hasFlag m'.flags kw = true := hhas
      rcases hflags with he | he
      · rw [he, hno] at hhas
        exact absurd hhas nofun
      · exact he ▸ hhas
    obtain ⟨uid, f, rfl, hat, hlower⟩ := of_has_flagsAfter hno hyes
    obtain ⟨hinbox, huid⟩ := Message.isAt_iff.mp hat
    have hat' : m'.isAt uid = true :=
      Message.isAt_iff.mpr ⟨hfolder.symm.trans hinbox, hu.symm.trans huid⟩
    have hf : m'.has f = true := (hasFlag_congr m'.flags hlower).symm.trans hhas
    simp only [tagsOf]
    rw [if_pos ⟨matchesAny_singleton hlower hkw, m', hm', hat', hf⟩, List.mem_singleton]
    exact hu.symm.trans huid
  rcases carries_iff.mp hin with h | h
  · exact hchanged k.failed (Or.inl rfl) h
  · exact hchanged k.unverified (Or.inr rfl) h

/-- A recorded tag is on the message. -/
theorem carries_of_mem_tagsOf {op : Op} {w' : World} (hw' : WellFormed w') {uid : ℕ}
    (h : uid ∈ tagsOf k op w') : uid < w'.uidNext ∧
      ∀ m ∈ w'.messages, m.uid = uid → carries k m = true := by
  unfold tagsOf at h
  split at h
  swap
  · exact absurd h List.not_mem_nil
  · next u flag =>
    split at h
    swap
    · exact absurd h List.not_mem_nil
    · next hcond =>
      rw [List.mem_singleton] at h
      subst h
      obtain ⟨hmatches, m, hm, hat, hhas⟩ := hcond
      have hu := (Message.isAt_iff.mp hat).2
      refine ⟨hu ▸ hw'.given m hm, fun m' hm' hu' => ?_⟩
      rw [hw'.unique hm' hm (hu'.trans hu.symm)]
      rw [matchesAny_quarantine, Bool.or_eq_true, hasFlag_singleton, hasFlag_singleton] at hmatches
      refine carries_iff.mpr (hmatches.imp (fun he => ?_) (fun he => ?_))
      · exact (hasFlag_congr m.flags he).symm.trans hhas
      · exact (hasFlag_congr m.flags he).symm.trans hhas

/-- What has just been put into a folder is what was at `uid`. -/
theorem placed_of_move {w w' : World} {op : Op} {r : Reply op} (hw : WellFormed w)
    (hE : Serves w op r w') {uid : ℕ} {folder : String} (hop : op.puts uid folder) {m' : Message}
    (hm' : m' ∈ w'.messages) (hu : w.uidNext ≤ m'.uid) :
    ∃ m ∈ w.messages, m.isAt uid = true ∧ m'.flags = m.flags := by
  have hold : ∀ m ∈ w.messages, m.uid ≠ m'.uid := by
    intro m hm he
    have := hw.given m hm
    omega
  rcases hE.cases with he | he
  · rw [he] at hm'
    exact absurd rfl (hold m' hm')
  · rw [he] at hm'
    rcases mem_effect hm' with ⟨m, hm, rfl⟩ | ⟨m, hm, uid', folder', hop', hat, rfl⟩
    · exact absurd rfl (hold m hm)
    · have huid : uid' = uid := by
        rcases hop with rfl | rfl
        · rcases hop' with he | he
          · injection he with h _
            exact h.symm
          · cases he
        · rcases hop' with he | he
          · cases he
          · injection he with h _
            exact h.symm
      exact ⟨m, hm, huid ▸ hat, rfl⟩

/-- **One guarded call.** -/
theorem watches_step {d d' : Record} {op : Op} {r : Reply op} (hs : Sound k d)
    (hg : Allowed k d op) (h : Watches k d op r d') :
    Sound k d' ∧ ∀ uid, Clean k d uid → Clean k d' uid := by
  obtain ⟨hE, htagged, hrelocated⟩ := h
  have hop : ∀ uid flag, op ≠ .removeFlags uid flag := by
    rintro uid flag rfl
    exact hg
  have hwf : WellFormed d'.world := by
    rcases hE.cases with he | he
    · exact he ▸ hs.wellFormed
    · exact he ▸ hs.wellFormed.effect op
  have hnext : d.world.uidNext ≤ d'.world.uidNext := by
    rcases hE.cases with he | he
    · rw [he]
    · rw [he]
      exact uidNext_le_effect op _
  refine ⟨⟨hwf, ?_, ?_⟩, ?_⟩
  · intro uid hin
    rw [htagged] at hin
    rcases List.mem_append.mp hin with hin | hin
    · obtain ⟨hlt, hall⟩ := hs.tagged uid hin
      refine ⟨Nat.lt_of_lt_of_le hlt hnext, fun m' hm' hu => ?_⟩
      obtain ⟨m, hm, hu', -, hflags⟩ := stem hE hm' (hu ▸ hlt)
      have hcarries := hall m hm (hu'.trans hu)
      have hkeep : ∀ kw, m.has kw = true → m'.has kw = true := by
        intro kw hkw
        show hasFlag m'.flags kw = true
        rcases hflags with he | he
        · exact he ▸ hkw
        · exact he ▸ has_flagsAfter hop hkw
      exact carries_iff.mpr ((carries_iff.mp hcarries).imp (hkeep _) (hkeep _))
    · exact carries_of_mem_tagsOf hwf hin
  · intro e he
    rw [hrelocated] at he
    rcases List.mem_append.mp he with he | he
    · exact hs.relocated e he
    -- what a move of a clean message leaves shows a keyword exactly if the message was tagged
    have hmoved : ∀ uid folder, op.puts uid folder → Clean k d uid →
        e ∈ d.placedFrom uid folder d'.world → carries k e.message = e.tagged := by
      intro uid folder hputs hclean hin
      obtain ⟨m', hm', rfl⟩ := List.mem_map.mp hin
      obtain ⟨hm', hge⟩ := List.mem_filter.mp hm'
      obtain ⟨m, hm, hat, hflags⟩ := placed_of_move hs.wellFormed hE hputs hm'
        (of_decide_eq_true hge)
      have hsame : carries k m' = carries k m := by rw [carries, carries, hflags]
      show carries k m' = decide (uid ∈ d.tagged)
      rw [hsame, Bool.eq_iff_iff, decide_eq_true_eq]
      exact ⟨hclean.2 m hm hat, fun hin => (hs.tagged uid hin).2 m hm (Message.isAt_iff.mp hat).2⟩
    cases op with
    | move uid folder => exact hmoved uid folder (Or.inl rfl) hg he
    | copy uid folder => exact hmoved uid folder (Or.inr rfl) hg he
    | _ => exact absurd he List.not_mem_nil
  · rintro uid ⟨hlt, hclean⟩
    refine ⟨Nat.lt_of_lt_of_le hlt hnext, fun m' hm' hat' hcarries => ?_⟩
    obtain ⟨hinbox, hu⟩ := Message.isAt_iff.mp hat'
    obtain ⟨m, hm, hu', hfolder, hflags⟩ := stem hE hm' (hu ▸ hlt)
    have hat : m.isAt uid = true := Message.isAt_iff.mpr ⟨hfolder.trans hinbox, hu'.trans hu⟩
    rw [htagged, List.mem_append]
    by_cases hbefore : carries k m = true
    · exact Or.inl (hclean m hm hat hbefore)
    · refine Or.inr (hu ▸ ?_)
      exact mem_tagsOf hm' hu' hfolder hflags (Bool.eq_false_iff.mpr hbefore) hcarries

/-! ## A run -/

/-- The record stays sound, and clean messages stay clean. -/
def growth (k : Keywords) : Growth (Watches k) (discipline k) (fun _ => True) where
  grow := fun d d' => Sound k d → Sound k d' ∧ ∀ uid, Clean k d uid → Clean k d' uid
  refl := fun _ hs => ⟨hs, fun _ h => h⟩
  trans := fun h h' hs => by
    obtain ⟨hs', hg⟩ := h hs
    obtain ⟨hs'', hg'⟩ := h' hs'
    exact ⟨hs'', fun uid hc => hg' uid (hg uid hc)⟩
  rely := by
    rintro d _ rfl hs
    exact ⟨hs, fun _ h => h⟩
  step := fun _ hg hE hs => watches_step hs hg hE

/-- The growth, as the rules of the sync loop need it. -/
abbrev runGrowth (k : Keywords) : Growth (Watches k) (discipline k) (fun op => op.isInsert = false) :=
  (growth k).restrict (fun _ _ => trivial)

theorem allowed_of_isRoutine (d : Record) (op : Op) (h : op.isRoutine = true) : Allowed k d op := by
  cases op
  all_goals first | exact trivial | exact absurd h nofun

/-- The session of a run, with the messages it has been refused. -/
def Running (k : Keywords) (s : RunState) (d : Record) : Prop :=
  Sound k d ∧ ∀ rejection ∈ s.rejected, Clean k d rejection.uid

theorem Running.stable {s s' : RunState} {d d' : Record} (hrej : s'.rejected = s.rejected)
    (hg : (growth k).grow d d') (h : Running k s d) : Running k s' d' := by
  obtain ⟨hs', hclean⟩ := hg h.1
  refine ⟨hs', fun rejection hin => ?_⟩
  rw [hrej] at hin
  exact hclean _ (h.2 rejection hin)

theorem mayMove {d : Record} {uid : ℕ} (hs : Sound k d) (hc : Clean k d uid) (folder : String) :
    Forwarder.MayMove (Watches k) (discipline k) (growth k).grow uid folder d where
  move := fun _ hg => (hg hs).2 uid hc
  copy := fun _ hg => (hg hs).2 uid hc
  after := fun _ _ _ _ _ _ => ⟨trivial, trivial⟩

theorem watches_serves {d d' : Record} {op : Op} {r : Reply op} (h : Watches k d op r d') :
    Serves d.world op r d'.world := h.1

/-- A message fetched without a quarantine keyword is clean. -/
theorem clean_of_delivers {d d' : Record} {message : FetchedMessage} (hs : Sound k d)
    (h : ICloudMailbox.Delivers (Watches k) d message d')
    (hnot : k.quarantine.any message.hasKeyword = false) : Clean k d' message.uid := by
  obtain ⟨hw, m, hm, hat, -, hsame⟩ := Serves.delivers (h.map Record.world watches_serves)
  have hu := (Message.isAt_iff.mp hat).2
  have hflags : message.hasKeyword = m.has := funext hsame
  have hout : carries k m = false := by
    rw [hflags] at hnot
    exact hnot
  unfold Clean
  rw [hw]
  refine ⟨hu ▸ hs.wellFormed.given m hm, fun m' hm' hat' hcarries => ?_⟩
  rw [hs.wellFormed.unique hm' hm ((Message.isAt_iff.mp hat').2.trans hu.symm), hout] at hcarries
  exact absurd hcarries nofun

variable {o : ForwarderOptions}

theorem process_safe (hk : o.keywords = k) {extraLabels : List String} {uid : ℕ} {s : RunState}
    {d : Record} (hJ : Running k s d) :
    (Forwarder.process o extraLabels uid).Safe (Watches k) (discipline k)
      (fun _ s' d' => Running k s' d') s d := by
  refine Forwarder.process_safe (runGrowth k) allowed_of_isRoutine
    (fun _ _ hsame hg => hJ.stable hsame.rejected hg)
    (fun _ _ _ hsame hg => hJ.stable hsame.rejected hg) ?_ ?_
  · intro message s₁ d₁ d₂ hsame h₁ hd h₂ _ _ hnot
    have hJ₂ := hJ.stable hsame.rejected h₂
    have hclean := clean_of_delivers (h₁ hJ.1).1 hd (hk ▸ hnot)
    exact (Forwarder.trash_safe (runGrowth k) allowed_of_isRoutine (fun _ _ => trivial)
      (mayMove hJ₂.1 hclean)).mono (fun _ _ _ h => hJ₂.stable h.1.rejected h.2)
  · intro message s₁ d₁ d₂ hsame h₁ hd h₂ _ _ hnot
    have hJ₂ := hJ.stable hsame.rejected h₂
    have hclean := clean_of_delivers (h₁ hJ.1).1 hd (hk ▸ hnot)
    have hcall : ∀ {labels r d₃ d₄}, (growth k).grow d₂ d₃ →
        Watches k d₃ (.insertRaw message.raw labels) r d₄ → (growth k).grow d₂ d₄ := by
      intro labels r d₃ d₄ h₃ hE
      refine (growth k).trans h₃ (fun hs₃ => ?_)
      have hallowed : Allowed k d₃ (.insertRaw message.raw labels) := trivial
      exact watches_step hs₃ hallowed hE
    refine Forwarder.insert_safe (runGrowth k) (fun _ _ => trivial) ?_
      (fun _ _ _ _ h₃ hE => hJ₂.stable rfl (hcall h₃ hE))
      (fun _ _ _ _ h₃ hE _ hsame => hJ₂.stable hsame.rejected (hcall h₃ hE)) ?_
    · intro id d₃ d₄ h₃ hE
      have h₄ := hcall h₃ hE
      have hJ₄ := hJ₂.stable rfl h₄
      have hclean₄ := (h₄ hJ₂.1).2 _ hclean
      refine (Forwarder.recordInsert_safe (runGrowth k) allowed_of_isRoutine (fun _ _ => trivial)
        (fun _ _ => trivial) (mayMove hJ₄.1 hclean₄ _) (fun _ _ _ _ _ _ _ => trivial) ?_).mono ?_
      · intro _ d₅ _ _ h₅ folder
        obtain ⟨hs₅, hclean₅⟩ := h₅ hJ₄.1
        exact mayMove hs₅ (hclean₅ _ hclean₄) folder
      · rintro r s' d' ⟨hrej, hg, -⟩
        exact hJ₄.stable hrej hg
    · intro text status d₃ d₄ h₃ hE
      have h₄ := hcall h₃ hE
      have hJ₄ := hJ₂.stable rfl h₄
      refine ⟨hJ₄.1, fun rejection hin => ?_⟩
      rcases List.mem_append.mp hin with hin | hin
      · exact hJ₄.2 rejection hin
      · rw [List.mem_singleton.mp hin]
        exact (h₄ hJ₂.1).2 _ hclean

theorem settleRejections_safe {s : RunState} {d : Record} (hJ : Running k s d) :
    (Forwarder.settleRejections o).Safe (Watches k) (discipline k)
      (fun r s' _ => r = .ok () → s'.result.error = none → True) s d := by
  let P := fun (rejected : List Rejection) (d : Record) =>
    Sound k d ∧ ∀ rejection ∈ rejected, Clean k d rejection.uid
  have hnext : ∀ rejection rest s d, P (rejection :: rest) d →
      (Forwarder.quarantine o rejection.uid o.keywords.failed o.failedFolder).Safe (Watches k)
        (discipline k) (fun r s' d' => (r = .ok () → P rest d') ∧
          (s'.result.error = none → s.result.error = none)) s d := by
    rintro rejection rest s₁ d₁ ⟨hs₁, hall⟩
    refine Forwarder.quarantine_next (runGrowth k) allowed_of_isRoutine (fun _ _ => trivial)
      (mayMove hs₁ (hall rejection List.mem_cons_self) _) ?_
    intro _ d₂ _ _ hg
    obtain ⟨hs₂, hclean⟩ := hg hs₁
    exact ⟨hs₂, fun r hr => hclean _ (hall r (List.mem_cons_of_mem _ hr))⟩
  refine (Forwarder.settleRejections_safe hnext ?_ (fun _ => hJ)).mono (fun _ _ _ _ _ _ => trivial)
  exact fun _ => ⟨hJ.1, fun r hr => hJ.2 r (List.mem_filter.mp hr).1⟩

theorem run_safe (hk : o.keywords = k) {d : Record} (hs : Sound k d) :
    (Forwarder.run o).Safe (Watches k) (discipline k) (fun _ _ _ => True) (Forwarder.initial o)
      d := by
  refine (Forwarder.run_safe (J := Running k) (A := Running k) allowed_of_isRoutine
    (Forwarder.routineGrowth (runGrowth k)) (fun hsame hg hJ => hJ.stable hsame.rejected hg)
    (fun hsame hg hJ => hJ.stable hsame.rejected hg) ?_ (fun _ _ _ _ => trivial)
    (fun s d h _ => settleRejections_safe (h.elim id And.left)) (fun _ _ => trivial)
    ⟨hs, fun _ h => absurd h List.not_mem_nil⟩).mono (fun _ _ _ _ => trivial)
  exact fun _ _ _ _ hJ => (process_safe hk hJ).mono (fun _ _ _ h => ⟨fun _ => h, fun _ _ => h⟩)

/-- The record of a run is sound wherever it is. -/
theorem sound_of_steps {w : World} (hw : WellFormed w) {d : Record}
    {p : Program Op Reply (Except Exc SyncResult × RunState)}
    (h : Program.Steps (Watches o.keywords)
      (opened w, Forwarder.run o (Forwarder.initial o)) (d, p)) : Sound o.keywords d := by
  have hs : Sound o.keywords (opened w) := ⟨hw, nofun, nofun⟩
  have hunder := Program.Steps.under (discipline o.keywords).rely (fun _ => rfl) h
  refine (Program.Safe.steps (I := Sound o.keywords) ?_ ?_ (run_safe rfl hs) hs hunder).1
  · rintro d _ rfl hs
    exact hs
  · exact fun hg hE hs => (watches_step hs hg hE).1

/-! ## Back in the INBOX -/

/-- The relocated message has been moved back, and is `m` under `uid`. -/
structure Relocation.Back (e : Relocation) (v : World) (uid : ℕ) (m : Message) : Prop where
  mem : m ∈ v.messages
  isAt : m.isAt uid = true
  raw : m.raw = e.message.raw
  flags : m.flags = e.message.flags

/-- What `_process` does with a message it can fetch. -/
def disposal (o : ForwarderOptions) (extraLabels : List String) (uid : ℕ) (m : Message) : Run Unit :=
  if carries o.keywords m then count (fun r => { r with skipped := r.skipped + 1 })
  else if m.has o.keywords.inserted then Forwarder.trash ⟨uid, m.raw, m.flags⟩
  else Forwarder.insert o extraLabels ⟨uid, m.raw, m.flags⟩

theorem process_exec {P : Provider} {now : ℚ} {s : RunState} {v : World} {uid : ℕ} {m : Message}
    (hc : s.mailbox.connected = true) (hf : v.find uid = some m) (extraLabels : List String) :
    (Forwarder.process o extraLabels uid).exec (P.handle now) s v =
      (disposal o extraLabels uid m).exec (P.handle now) s v := by
  have hfetch : (ICloudMailbox.fetchMessage uid).exec (P.handle now) s.mailbox v =
      ((.ok ⟨uid, m.raw, m.flags⟩, s.mailbox), v) :=
    exec_of_returns (ICloudMailbox.fetchMessage_returns hc hf)
  have hattempt : (attempt (onMailbox (ICloudMailbox.fetchMessage uid))).exec (P.handle now) s v =
      ((.ok (.ok ⟨uid, m.raw, m.flags⟩), s), v) := by
    rw [Routine.exec_attempt, onMailbox, Routine.exec_on, hfetch]
  rw [Forwarder.process, Routine.exec_bind_ok _ _ _ hattempt]
  rfl

/-- **What a move aside leaves.** A message that a run has put into a folder carries a quarantine
    keyword exactly if a `STORE` of one had taken effect on it during the run. Moved back into the
    INBOX with its flags, it is listed by the next run, and offered to Gmail unless Gmail has it,
    exactly if none had. -/
theorem relocated_returns (o : ForwarderOptions) {w : World} (hw : WellFormed w) {d : Record}
    {p : Program Op Reply (Except Exc SyncResult × RunState)}
    (h : Program.Steps (Watches o.keywords)
      (opened w, Forwarder.run o (Forwarder.initial o)) (d, p)) {e : Relocation}
    (he : e ∈ d.relocated) :
    carries o.keywords e.message = e.tagged ∧
    ∀ (P : Provider) (now : ℚ) (s : RunState) (v : World) (uid : ℕ) (m : Message),
      s.mailbox.connected = true → v.InboxDistinct → e.Back v uid m →
      (∃ queue, (ICloudMailbox.listInboxUids (some o.keywords.quarantine)).exec (P.handle now)
          s.mailbox v = ((.ok queue, s.mailbox), v) ∧
        (uid ∈ queue ↔ m.has deletedFlag = false ∧ e.tagged = false)) ∧
      ∀ extraLabels, (Forwarder.process o extraLabels uid).exec (P.handle now) s v =
        (if e.tagged then count (fun r => { r with skipped := r.skipped + 1 })
          else if m.has o.keywords.inserted then Forwarder.trash ⟨uid, m.raw, m.flags⟩
          else Forwarder.insert o extraLabels ⟨uid, m.raw, m.flags⟩ : Run Unit).exec
          (P.handle now) s v := by
  have htagged := (sound_of_steps hw h).relocated e he
  refine ⟨htagged, fun P now s v uid m hc hv hback => ?_⟩
  have hm : carries o.keywords m = e.tagged := by
    rw [← htagged, carries, carries, hback.flags]
  refine ⟨⟨_, exec_of_returns (ICloudMailbox.listInboxUids_returns hv hc rfl), ?_⟩, fun labels => ?_⟩
  · rw [World.mem_live]
    constructor
    · rintro ⟨m', hm', hat', hlive, hnot⟩
      rw [hv.unique hm' hat' hback.mem hback.isAt] at hlive hnot
      rw [Option.getD_some, Bool.not_eq_true'] at hnot
      exact ⟨hlive, hm.symm.trans hnot⟩
    · rintro ⟨hlive, hnot⟩
      refine ⟨m, hback.mem, hback.isAt, hlive, ?_⟩
      have hcarries : matchesAny m.flags o.keywords.quarantine = false := hm.trans hnot
      rw [Option.getD_some, hcarries]
      rfl
  · rw [process_exec hc (hv.find_eq hback.mem hback.isAt), disposal, hm]

/-! ## A keyword that was stored but not confirmed -/

/-- A server that stores keywords and reports nothing, and cannot be asked for flags. -/
def unconfirmed (w : World) : (op : Op) → Reply op × World
  | .addFlags uid flag => (.ok [], effect (.addFlags uid flag) w)
  | .fetch _ .flags => (.error (.other "IMAP4.error" "NO FETCH failed"), w)
  | op => refused.handle 0 w op
where
  refused : Provider := { gmail := fun _ => .error (.gmailError .permanent "bad mail" (some 400)) }

/-- That server, with the record kept. -/
def watch (d : Record) (op : Op) : Reply op × Record :=
  let answer := unconfirmed d.world op
  (answer.1, ⟨answer.2, d.tagged ++ tagsOf .default op answer.2,
    d.relocated ++ d.relocations op answer.2⟩)

theorem watch_watches (d : Record) (op : Op) :
    Watches .default d op (watch d op).1 (watch d op).2 := by
  refine ⟨?_, rfl, rfl⟩
  cases op
  case addFlags uid flag => exact ⟨Or.inl rfl, fun _ h => absurd h List.not_mem_nil⟩
  case fetch uids items =>
    cases items
    case flags => exact ⟨rfl, Or.inl rfl⟩
    all_goals exact Provider.serves unconfirmed.refused 0 d.world _
  all_goals exact Provider.serves unconfirmed.refused 0 d.world _

/-- What that run does to one mail. -/
def watched : Record :=
  ((Forwarder.run .default).exec watch (Forwarder.initial .default) (opened oneMail)).2

theorem watched_steps : ∃ p, Program.Steps (Watches Keywords.default)
    (opened oneMail, Forwarder.run .default (Forwarder.initial .default)) (watched, p) :=
  ⟨_, Program.exec_steps watch watch_watches (Forwarder.run .default (Forwarder.initial .default))
    (opened oneMail)⟩

/-- The rejected mail, in the failed folder. -/
def tagged : Relocation :=
  ⟨1, "Forward-Failed", ⟨"Forward-Failed", 2, ⟨0, [72, 105]⟩, ["$GmailFailed"]⟩, true⟩

theorem watched_eq : watched.relocated = [tagged] ∧ watched.world.messages = [tagged.message] := by
  decide +kernel

/-- The mail has been moved back. -/
def movedBack : World := Event.apply watched.world (.refile tagged.message "INBOX")

/-- **The keyword goes with the message.** The `STORE` took effect without being confirmed, so the
    rejected mail was moved into the failed folder with the keyword on it; moved back into the
    INBOX it is not listed. -/
theorem carried_into_failed : ∃ d p,
    Program.Steps (Watches Keywords.default)
      (opened oneMail, Forwarder.run .default (Forwarder.initial .default)) (d, p) ∧
    ∃ e ∈ d.relocated, e.folder = ForwarderOptions.default.failedFolder ∧
      e.message ∈ d.world.messages ∧ carries Keywords.default e.message = true ∧
      ((Event.apply d.world (.refile e.message "INBOX")).find 3).map Message.raw =
        some e.message.raw ∧
      ((ICloudMailbox.listInboxUids (some Keywords.default.quarantine)).exec (Provider.handle {} 0)
        openMailbox (Event.apply d.world (.refile e.message "INBOX"))).1.1 = .ok [] := by
  obtain ⟨p, hp⟩ := watched_steps
  refine ⟨watched, p, hp, tagged, ?_, rfl, ?_, by decide, ?_, ?_⟩
  · rw [watched_eq.1]
    exact List.mem_singleton_self _
  · rw [watched_eq.2]
    exact List.mem_singleton_self _
  · decide +kernel
  · decide +kernel

theorem relocated_returns_tagged : carries Keywords.default tagged.message = tagged.tagged ∧
    ((Forwarder.process .default [] 3).exec (Provider.handle {} 0)
      ⟨openMailbox, {}, []⟩ movedBack).1.2.result.skipped = 1 := by
  obtain ⟨p, hp⟩ := watched_steps
  have hin : tagged ∈ watched.relocated := by
    rw [watched_eq.1]
    exact List.mem_singleton_self _
  obtain ⟨hcarries, hnext⟩ := relocated_returns .default oneMail_wellFormed hp hin
  refine ⟨hcarries, ?_⟩
  have hback : tagged.Back movedBack 3 ⟨"INBOX", 3, ⟨0, [72, 105]⟩, ["$GmailFailed"]⟩ :=
    ⟨by decide +kernel, by decide, rfl, rfl⟩
  have hdistinct : movedBack.InboxDistinct := by
    unfold World.InboxDistinct
    decide +kernel
  obtain ⟨-, hprocess⟩ := hnext {} 0 ⟨openMailbox, {}, []⟩ movedBack 3 _ rfl hdistinct hback
  rw [hprocess []]
  rfl

end Fallback

end MailTransporter
