import MailTransporter.ForwarderRules
import MailTransporter.Provider
import Mathlib.Data.Finset.Card
import Mathlib.Tactic.Linarith

set_option autoImplicit false

/-! # The circuit breaker

While Gmail rejects everything for a reason that has nothing to do with the mail, a run that gets to
settle its rejections either trips the breaker or has fewer of them than the threshold. The
environment only keeps the UIDs that have ever been marked as failed or been put into the failed
folder; servers, clocks and other clients may do anything.

The breaker counts the rejections of one run. What it guarantees is a bound for every run, and
nothing over several: two runs together may reach the threshold. -/

namespace MailTransporter

open Effect
open Effect.Routine (raise attempt getSelf modifySelf)

namespace Breaker

/-! ## The environment -/

/-- The UIDs the call marks as failed, or puts into the failed folder. -/
def failedBy (o : ForwarderOptions) : Op → Finset ℕ
  | .addFlags uid keyword => if lower keyword = lower o.keywords.failed then {uid} else ∅
  | .move uid folder => if folderName folder = folderName o.failedFolder then {uid} else ∅
  | .copy uid folder => if folderName folder = folderName o.failedFolder then {uid} else ∅
  | _ => ∅

/-- Gmail rejects every mail, but not because of the mail, and the failed folder is not the Trash.
    Everything else may be answered in any way. -/
def Answers (o : ForwarderOptions) : (op : Op) → Reply op → Prop
  | .insertRaw _ _, r =>
      ∃ text status, r = .error (.gmailError .permanent text status) ∧ perMessage status = false
  | .findTrash, r => ∀ name, r = .ok (some name) → folderName name ≠ folderName o.failedFolder
  | _, _ => True

/-- The state is the set of UIDs that have ever failed. -/
def Rejecting (o : ForwarderOptions) : Env Op Reply (Finset ℕ) := fun w op r w' =>
  Answers o op r ∧ w' = w ∪ failedBy o op

/-- The folders the tool takes for the Trash by their name are not the failed folder. -/
abbrev TrashElsewhere (o : ForwarderOptions) : Prop :=
  ∀ candidate ∈ trashFolderCandidates, folderName candidate ≠ folderName o.failedFolder

variable {o : ForwarderOptions}

theorem failedBy_of_isRoutine {op : Op} (h : op.isRoutine = true) : failedBy o op = ∅ := by
  cases op
  case addFlags uid keyword => exact absurd h Bool.false_ne_true
  case move uid folder => exact absurd h Bool.false_ne_true
  case copy uid folder => exact absurd h Bool.false_ne_true
  all_goals rfl

theorem failedBy_subset {uid : ℕ} {op : Op} (h : op.isAbout uid = true) :
    failedBy o op ⊆ {uid} := by
  cases op
  case addFlags u keyword =>
    have hu := of_decide_eq_true h
    simp only [failedBy, hu]
    split <;> simp
  case move u folder =>
    have hu := of_decide_eq_true h
    simp only [failedBy, hu]
    split <;> simp
  case copy u folder =>
    have hu := of_decide_eq_true h
    simp only [failedBy, hu]
    split <;> simp
  all_goals exact Finset.empty_subset _

theorem failedBy_deleted (uid : ℕ) : failedBy o (.addFlags uid deletedFlag) = ∅ :=
  if_neg (fun h => o.keywords.failedOk.ne_deleted h.symm)

/-! ## Before the settlement nothing fails -/

/-- Nothing is marked as failed. -/
def untouched (o : ForwarderOptions) : Discipline Op (Finset ℕ) where
  rely := (· = ·)
  guard := fun _ op => failedBy o op = ∅

theorem rejecting_step {w w' : Finset ℕ} {op : Op} {r : Reply op} (hop : failedBy o op = ∅)
    (hE : Rejecting o w op r w') : w = w' := by
  rw [hE.2, hop, Finset.union_empty]

/-- As long as nothing fails the state stays. -/
def still (o : ForwarderOptions) : Growth (Rejecting o) (untouched o) (fun _ => True) where
  grow := (· = ·)
  refl := fun _ => rfl
  trans := Eq.trans
  rely := id
  step := fun _ hg hE => rejecting_step hg hE

theorem quiet (w : Finset ℕ) (op : Op) (h : op.isRoutine = true) :
    (untouched o).guard w op := failedBy_of_isRoutine h

/-- The name is not that of the failed folder. -/
abbrev Elsewhere (o : ForwarderOptions) (name : String) : Prop :=
  folderName name ≠ folderName o.failedFolder

theorem firstExisting_mem {candidates : List String} {s : ICloudMailbox} :
    (ICloudMailbox.firstExisting candidates).Safe (Env.answering (Answers o)) .free
      (fun r s' _ => s' = s ∧ ∀ name, r = .ok (some name) → name ∈ candidates) s () := by
  induction candidates with
  | nil => exact ⟨rfl, nofun⟩
  | cons candidate rest ih =>
      rw [ICloudMailbox.firstExisting, Routine.safe_bind]
      refine ICloudMailbox.client_safe ?_ (fun _ => ⟨rfl, nofun⟩)
      rw [Routine.after_ok, Routine.safe_bind]
      refine Routine.safe_answer ?_
      intro r _
      cases r with
      | error e => exact ⟨rfl, nofun⟩
      | ok found =>
          rw [Routine.after_ok]
          split
          · refine ⟨rfl, fun name h => ?_⟩
            cases h
            exact List.mem_cons_self
          · refine ih.mono ?_
            rintro r s' _ ⟨hs, hmem⟩
            exact ⟨hs, fun name h => List.mem_cons_of_mem _ (hmem name h)⟩

/-- The Trash that `trash_folder` finds is elsewhere. -/
theorem trashFolderName_elsewhere (ht : TrashElsewhere o) {s : ICloudMailbox}
    (hs : ∀ name, s.trashFolder = some name → Elsewhere o name) :
    ICloudMailbox.trashFolderName.Safe (Env.answering (Answers o)) .free
      (fun r s' _ => (∀ name, s'.trashFolder = some name → Elsewhere o name) ∧
        ∀ name, r = .ok name → Elsewhere o name) s () := by
  have hcandidates : (ICloudMailbox.firstExisting trashFolderCandidates).Safe
      (Env.answering (Answers o)) .free
      (fun r s' _ => s' = s ∧ ∀ name, r = .ok (some name) → Elsewhere o name) s () := by
    refine firstExisting_mem.mono ?_
    rintro r s' _ ⟨hs', hmem⟩
    exact ⟨hs', fun name h => ht name (hmem name h)⟩
  have hfind : ICloudMailbox.findTrashFolder.Safe (Env.answering (Answers o)) .free
      (fun r s' _ => s' = s ∧ ∀ name, r = .ok (some name) → Elsewhere o name) s () := by
    rw [ICloudMailbox.findTrashFolder, Routine.safe_bind]
    refine ICloudMailbox.client_safe ?_ (fun _ => ⟨rfl, nofun⟩)
    rw [Routine.after_ok, Routine.safe_bind]
    refine Routine.safe_answer ?_
    rintro (e | _) -
    · exact ⟨rfl, nofun⟩
    rw [Routine.after_ok, Routine.safe_bind]
    refine Routine.safe_answer ?_
    intro r hr
    rcases r with e | name
    · exact ⟨rfl, nofun⟩
    · cases name with
      | none => exact hcandidates
      | some name =>
          rw [Routine.after_ok]
          dsimp only
          split
          · exact hcandidates
          · refine ⟨rfl, fun name' h => ?_⟩
            cases h
            exact hr name rfl
  unfold ICloudMailbox.trashFolderName
  rw [Routine.safe_bind, Routine.safe_getSelf, Routine.after_ok]
  cases hself : s.trashFolder with
  | some name =>
      refine ⟨hs, fun name' h => ?_⟩
      cases h
      exact hs name hself
  | none =>
      dsimp only
      rw [Routine.safe_bind, Routine.safe_attempt]
      refine hfind.mono ?_
      rintro r s' _ ⟨rfl, hfound⟩
      rw [Routine.after_ok]
      rcases r with e | name
      · exact ⟨hs, nofun⟩
      · cases name with
        | none => exact ⟨hs, nofun⟩
        | some name =>
            have helsewhere := hfound name rfl
            dsimp only
            rw [Routine.safe_bind, Routine.safe_modifySelf, Routine.after_ok]
            refine ⟨fun name' h => ?_, fun name' h => ?_⟩
            · cases h
              exact helsewhere
            · cases h
              exact helsewhere

/-- What holds of a run that has not settled yet. -/
structure Pending (o : ForwarderOptions) (w₀ : Finset ℕ) (s : RunState) (w : Finset ℕ) : Prop where
  untouched : w = w₀
  forwarded : s.result.forwarded = 0
  rejected : ∀ rejection ∈ s.rejected, rejection.perMessage = false
  trash : ∀ name, s.mailbox.trashFolder = some name → Elsewhere o name

variable {w₀ : Finset ℕ}

theorem Pending.calm {s s' : RunState} {w w' : Finset ℕ} (h : Pending o w₀ s w)
    (hs : s.Calm s') (hw : w = w') : Pending o w₀ s' w' := by
  subst hw
  refine ⟨h.untouched, hs.forwarded.trans h.forwarded, ?_, ?_⟩
  · rw [hs.rejected]
    exact h.rejected
  · rw [hs.trash]
    exact h.trash

theorem mayMove {folder : String} (h : Elsewhere o folder) (uid : ℕ) (w : Finset ℕ) :
    Forwarder.MayMove (Rejecting o) (untouched o) (· = ·) uid folder w where
  move := fun _ _ => if_neg h
  copy := fun _ _ => if_neg h
  after := fun _ _ _ _ _ _ => ⟨failedBy_deleted uid, rfl⟩

theorem trash_pending (ht : TrashElsewhere o) {message : FetchedMessage} {s : RunState}
    {w : Finset ℕ} (h : Pending o w₀ s w) :
    (Forwarder.trash message).Safe (Rejecting o) (untouched o)
      (fun _ s' w' => Pending o w₀ s' w') s w := by
  refine (Forwarder.trash_named ((still o).restrict (fun _ _ => trivial)) quiet
    (N := fun mailbox _ => ∀ name, mailbox.trashFolder = some name → Elsewhere o name)
    (fun _ hN => hN) h.trash (fun _ _ => rfl) ?_).mono ?_
  · intro w₁ _ hN₁
    have hlook : ICloudMailbox.trashFolderName.Safe (Rejecting o) (untouched o)
        (fun _ _ w' => w₁ = w') s.mailbox w₁ :=
      Routine.Safe.of_uses (still o) ICloudMailbox.trashFolderName_glances.looks
        (fun _ _ => trivial) (fun w' op _ hop => quiet w' op (Op.isRoutine_of_isLook hop))
    refine (hlook.also (fun hE => hE.1) (trashFolderName_elsewhere ht hN₁)).mono ?_
    rintro r mailbox w₂ ⟨hw₂, htrash, hname⟩
    exact ⟨hw₂, htrash, fun name hr => mayMove (hname name hr) message.uid w₂⟩
  · rintro r s' w' ⟨hs, hw, htrash⟩
    subst hw
    refine ⟨h.untouched, hs.forwarded.trans h.forwarded, ?_, htrash⟩
    rw [hs.rejected]
    exact h.rejected

/-- No insert succeeds, and every rejection is one the breaker counts. -/
theorem process_pending (ht : TrashElsewhere o) {extraLabels : List String} {uid : ℕ}
    {s : RunState} {w : Finset ℕ} (h : Pending o w₀ s w) :
    (Forwarder.process o extraLabels uid).Safe (Rejecting o) (untouched o)
      (fun _ s' w' => Pending o w₀ s' w') s w := by
  refine Forwarder.process_safe ((still o).restrict (fun _ _ => trivial)) quiet
    (fun s' w' hs hw => h.calm hs hw) (fun e s' w' hs hw => h.calm hs hw) ?_ ?_
  · intro message s₁ w₁ w₂ hs _ _ hw _ _ _
    exact trash_pending ht (h.calm hs hw)
  · intro message s₁ w₁ w₂ hs _ _ hw _ _ _
    have h₂ := h.calm hs hw
    refine Forwarder.insert_safe ((still o).restrict (fun _ _ => trivial)) (fun _ _ => rfl)
      ?_ ?_ ?_ ?_
    · intro id w₃ w₄ _ hE
      obtain ⟨text, status, hr, -⟩ := hE.1
      cases hr
    · intro e e' w₃ w₄ hw₃ hE
      exact h₂.calm (RunState.Calm.refl s₁) (hw₃.trans (rejecting_step rfl hE))
    · intro text status w₃ w₄ _ hE
      obtain ⟨text', status', hr, -⟩ := hE.1
      cases hr
    · intro text status w₃ w₄ hw₃ hE
      obtain ⟨text', status', hr, hstatus⟩ := hE.1
      cases hr
      refine ⟨?_, h₂.forwarded, fun rejection hin => ?_, h₂.trash⟩
      · rw [← rejecting_step rfl hE, ← hw₃]
        exact h₂.untouched
      · rcases List.mem_append.mp hin with hin | hin
        · exact h₂.rejected rejection hin
        · rw [List.mem_singleton.mp hin]
          exact hstatus

/-! ## The settlement -/

/-- At most `most` UIDs have ever failed. -/
def bounded (o : ForwarderOptions) (most : ℕ) : Discipline Op (Finset ℕ) where
  rely := (· = ·)
  guard := fun w op => failedBy o op = ∅ ∨ (w ∪ failedBy o op).card ≤ most

variable {most : ℕ}

/-- Quarantining one message adds its UID at most. -/
def onlyAdds (o : ForwarderOptions) (most uid : ℕ) :
    Growth (Rejecting o) (bounded o most) (fun op => op.isAbout uid = true) where
  grow := fun w w' => w ⊆ w' ∧ w' ⊆ insert uid w
  refl := fun w => ⟨Finset.Subset.refl w, Finset.subset_insert uid w⟩
  trans := by
    rintro a b c ⟨hab, hba⟩ ⟨hbc, hcb⟩
    refine ⟨hab.trans hbc, hcb.trans ?_⟩
    exact Finset.insert_subset (Finset.mem_insert_self uid a) hba
  rely := by
    rintro w _ rfl
    exact ⟨Finset.Subset.refl w, Finset.subset_insert uid w⟩
  step := by
    rintro w op r w' hop - ⟨-, rfl⟩
    refine ⟨Finset.subset_union_left, Finset.union_subset (Finset.subset_insert uid w) ?_⟩
    exact (failedBy_subset hop).trans
      (Finset.singleton_subset_iff.mpr (Finset.mem_insert_self uid w))

/-- As many rejections may be settled as there is room for. -/
theorem quarantineAll_bounded {rejected : List Rejection} {s : RunState} {w : Finset ℕ}
    (h : w.card + rejected.length ≤ most) :
    (Forwarder.quarantineAll o rejected).Safe (Rejecting o) (bounded o most)
      (fun _ _ _ => True) s w := by
  induction rejected generalizing s w with
  | nil => exact trivial
  | cons rejection rest ih =>
      rw [List.length_cons] at h
      have hinsert := Finset.card_insert_le rejection.uid w
      rw [Forwarder.quarantineAll, Routine.safe_bind, Routine.safe_attempt]
      refine (Routine.Safe.of_uses (onlyAdds o most rejection.uid)
        (Forwarder.quarantine_uses.mono (fun _ => Op.isAbout_of_isOn))
        (fun _ hop => hop) ?_).mono ?_
      · rintro w' op ⟨-, hw'⟩ hop
        have hroom : (insert rejection.uid w).card ≤ most := by omega
        refine Or.inr (le_trans (Finset.card_le_card ?_) hroom)
        exact Finset.union_subset hw' ((failedBy_subset hop).trans
          (Finset.singleton_subset_iff.mpr (Finset.mem_insert_self _ w)))
      · rintro r s' w' ⟨-, hw'⟩
        have hcard := Finset.card_le_card hw'
        rw [Routine.after_ok]
        split
        · exact ih (by omega)
        · exact trivial
        · exact trivial

/-- **The breaker.** Fewer rejections than the threshold are settled. -/
theorem settleRejections_bounded (hT : 1 ≤ o.rejectionThreshold) {s : RunState} {w : Finset ℕ}
    (h : Pending o w₀ s w) (hmost : (w₀.card : ℤ) + o.rejectionThreshold ≤ most + 1) :
    (Forwarder.settleRejections o).Safe (Rejecting o) (bounded o most)
      (fun _ _ _ => True) s w := by
  have hall : s.rejected.filter (fun r => !r.perMessage) = s.rejected :=
    List.filter_eq_self.mpr (fun r hr => by rw [h.rejected r hr]; rfl)
  have hnone : s.rejected.filter Rejection.perMessage = [] :=
    List.filter_eq_nil_iff.mpr (fun r hr => by rw [h.rejected r hr]; exact Bool.false_ne_true)
  rw [Forwarder.settleRejections, Routine.safe_bind, Routine.safe_getSelf, Routine.after_ok]
  dsimp only
  rw [hall, hnone]
  split
  · rw [Routine.safe_bind]
    unfold Forwarder.breakerMessage
    split
    · exact trivial
    · exact trivial
  · next htrip =>
    refine quarantineAll_bounded ?_
    have hforwarded := h.forwarded
    have hlt : ¬ o.rejectionThreshold ≤ s.rejected.length := by
      intro hle
      refine htrip ?_
      have hne : o.rejectionThreshold ≠ 0 := by omega
      simp [Forwarder.breakerTrips, hne, hle, hforwarded]
    have huntouched := h.untouched
    subst huntouched
    omega

/-! ## The run -/

theorem run_bounded (hT : 1 ≤ o.rejectionThreshold) (ht : TrashElsewhere o)
    (hmost : (w₀.card : ℤ) + o.rejectionThreshold ≤ most + 1) :
    (Forwarder.run o).Safe (Rejecting o) (bounded o most) (fun _ _ _ => True)
      (Forwarder.initial o) w₀ := by
  have hquiet : ∀ w op, op.isRoutine = true → (bounded o most).guard w op :=
    fun w op hop => Or.inl (failedBy_of_isRoutine hop)
  let R : Growth (Rejecting o) (bounded o most) (fun op => op.isRoutine = true) := {
    grow := (· = ·)
    refl := fun _ => rfl
    trans := Eq.trans
    rely := id
    step := fun hop _ hE => rejecting_step (failedBy_of_isRoutine hop) hE }
  have hinitial : Pending o w₀ (Forwarder.initial o) w₀ := ⟨rfl, rfl, nofun, nofun⟩
  refine (Forwarder.run_safe hquiet R (J := Pending o w₀) (A := Pending o w₀)
    (fun hs hw h => h.calm hs hw) (fun hs hw h => h.calm hs hw) ?_ (fun _ _ _ _ => trivial) ?_
    (fun _ _ => trivial) hinitial).mono (fun _ _ _ _ => trivial)
  · intro extraLabels uid s w h
    have hprocess : (Forwarder.process o extraLabels uid).Safe (Rejecting o) (bounded o most)
        (fun _ s' w' => Pending o w₀ s' w') s w :=
      (process_pending ht h).guard_mono (fun hr => hr) (fun hg => Or.inl hg)
    exact hprocess.mono (fun r s' w' h' => ⟨fun _ => h', fun _ _ => h'⟩)
  · intro s w h _
    have h : Pending o w₀ s w := h.elim id And.left
    exact (settleRejections_bounded hT h hmost).mono (fun _ _ _ _ _ _ => trivial)

/-- In a run that may stop anywhere, fewer UIDs fail than the threshold says. -/
theorem failed_lt_threshold (hT : 1 ≤ o.rejectionThreshold) (ht : TrashElsewhere o)
    {w : Finset ℕ} {p : Program Op Reply (Except Exc SyncResult × RunState)}
    (h : Program.Steps (Rejecting o) (w₀, Forwarder.run o (Forwarder.initial o)) (w, p)) :
    w₀ ⊆ w ∧ ((w \ w₀).card : ℤ) < o.rejectionThreshold := by
  let most := w₀.card + (o.rejectionThreshold - 1).toNat
  have hmost : (w₀.card : ℤ) + o.rejectionThreshold ≤ most + 1 := by
    have := Int.self_le_toNat (o.rejectionThreshold - 1)
    push_cast [most]
    omega
  have hsteps : Program.Steps ((Rejecting o).under (bounded o most).rely)
      (w₀, Forwarder.run o (Forwarder.initial o)) (w, p) := h.mono (fun hE => ⟨_, rfl, hE⟩)
  have hkept : ∀ {v op r v'}, (bounded o most).guard v op → Rejecting o v op r v' →
      w₀ ⊆ v ∧ v.card ≤ most → w₀ ⊆ v' ∧ v'.card ≤ most := by
    rintro v op r v' hg hE ⟨hsub, hcard⟩
    rcases hg with hg | hg
    · rw [← rejecting_step hg hE]
      exact ⟨hsub, hcard⟩
    · rw [hE.2]
      exact ⟨hsub.trans Finset.subset_union_left, hg⟩
  have hinitial : w₀ ⊆ w₀ ∧ w₀.card ≤ most := ⟨Finset.Subset.refl w₀, by omega⟩
  have hrely : ∀ {v v' : Finset ℕ}, v = v' → w₀ ⊆ v ∧ v.card ≤ most → w₀ ⊆ v' ∧ v'.card ≤ most := by
    rintro v _ rfl hv
    exact hv
  obtain ⟨⟨hsub, hcard⟩, -⟩ := Program.Safe.steps (I := fun v => w₀ ⊆ v ∧ v.card ≤ most) hrely hkept
    (run_bounded hT ht hmost) hinitial hsteps
  refine ⟨hsub, ?_⟩
  have hdiff := Finset.card_sdiff_add_card_eq_card hsub
  have htoNat : ((o.rejectionThreshold - 1).toNat : ℤ) = o.rejectionThreshold - 1 :=
    Int.toNat_of_nonneg (by omega)
  have hbound : w.card ≤ w₀.card + (o.rejectionThreshold - 1).toNat := hcard
  omega

/-! ## Main results -/

/-- The states after `n` runs one after another, each of which may have been killed. -/
inductive Runs (o : ForwarderOptions) : ℕ → Finset ℕ → Prop
  | none : Runs o 0 ∅
  | run {n : ℕ} {w w' : Finset ℕ} {p : Program Op Reply (Except Exc SyncResult × RunState)}
      (h : Runs o n w)
      (hs : Program.Steps (Rejecting o) (w, Forwarder.run o (Forwarder.initial o)) (w', p)) :
      Runs o (n + 1) w'

/-- **What the breaker guarantees.** In every single run fewer messages than the threshold are
    marked as failed or put into the failed folder, so `n` runs reach at most `n` times one less. -/
theorem breaker_bounds (o : ForwarderOptions) (hT : 1 ≤ o.rejectionThreshold)
    (ht : TrashElsewhere o) :
    (∀ (w₀ w : Finset ℕ) (p : Program Op Reply (Except Exc SyncResult × RunState)),
      Program.Steps (Rejecting o) (w₀, Forwarder.run o (Forwarder.initial o)) (w, p) →
        ((w \ w₀).card : ℤ) < o.rejectionThreshold) ∧
    (∀ n w, Runs o n w → (w.card : ℤ) ≤ n * (o.rejectionThreshold - 1)) := by
  refine ⟨fun w₀ w p h => (failed_lt_threshold hT ht h).2, fun n w h => ?_⟩
  induction h with
  | none => simp
  | @run n w w' p _ hs ih =>
      obtain ⟨hsub, hlt⟩ := failed_lt_threshold hT ht hs
      have hdiff := Finset.card_sdiff_add_card_eq_card hsub
      push_cast
      linarith

/-! ## Two runs reach the threshold -/

/-- A Gmail account that rejects everything. -/
def refusing : Provider where
  gmail := fun _ => .error (.gmailError .permanent "Precondition check failed" (some 400))

/-- One run with the default options, undisturbed. -/
def runOnce (P : Provider) (w : World) : World :=
  ((Forwarder.run ForwarderOptions.default).exec (P.handle 0)
    (Forwarder.initial ForwarderOptions.default) w).2

/-- Two mails arrive. -/
def twoArrive (w : World) : World :=
  let w₁ := Event.apply w (.arrive ⟨0, [72]⟩ w.uidNext [])
  Event.apply w₁ (.arrive ⟨1, [105]⟩ w₁.uidNext [])

def noMail : World := ⟨[], ["INBOX"], 1, []⟩

/-- The messages that carry the failed keyword. -/
def failedIn (w : World) : List ℕ :=
  (w.messages.filter (fun m => m.has Keywords.default.failed)).map Message.uid

/-- An account whose Trash is the failed folder, with three mails that Gmail accepted before. -/
def threeAccepted : World :=
  let inserted := [Keywords.default.inserted]
  ⟨[⟨"INBOX", 1, ⟨0, [72]⟩, inserted⟩, ⟨"INBOX", 2, ⟨1, [105]⟩, inserted⟩,
    ⟨"INBOX", 3, ⟨2, [33]⟩, inserted⟩], ["INBOX", "Forward-Failed"], 4, []⟩

/-- With the threshold 3, two runs after two arrivals each mark four messages as failed while Gmail
    rejects everything. And where the Trash is the failed folder and can be looked up, one run puts
    three messages there. -/
theorem two_runs_reach_threshold :
    ForwarderOptions.default.rejectionThreshold = 3 ∧
    failedIn (runOnce refusing (twoArrive (runOnce refusing (twoArrive noMail)))) = [1, 2, 3, 4] ∧
    ((runOnce { refusing with trash := some "Forward-Failed", exportsTrash := true }
      threeAccepted).messages.filter
        (fun m => decide (m.folder = ForwarderOptions.default.failedFolder))).length = 3 := by
  decide +kernel

/-- The refusing account, with the UIDs that failed. -/
def refuse (w : World × Finset ℕ) (op : Op) : Reply op × (World × Finset ℕ) :=
  (refusing.reply 0 w.1 op, (refusing.after 0 w.1 op, w.2 ∪ failedBy ForwarderOptions.default op))

theorem refuse_rejecting (w : World × Finset ℕ) (op : Op) :
    Rejecting ForwarderOptions.default w.2 op (refuse w op).1 (refuse w op).2.2 := by
  refine ⟨?_, rfl⟩
  cases op
  case insertRaw raw labels => exact ⟨_, _, rfl, rfl⟩
  case findTrash =>
    intro name h
    cases h
    decide
  all_goals exact trivial

/-- A run in which two mails are marked as failed. -/
theorem breaker_bounds_two : ∃ w p,
    Program.Steps (Rejecting ForwarderOptions.default)
      (∅, Forwarder.run ForwarderOptions.default (Forwarder.initial ForwarderOptions.default))
      (w, p) ∧
    w = {1, 2} ∧ ((w \ ∅).card : ℤ) < ForwarderOptions.default.rejectionThreshold ∧
    (w.card : ℤ) ≤ (1 : ℕ) * (ForwarderOptions.default.rejectionThreshold - 1) := by
  have hsteps := (Program.exec_steps refuse (E := fun w op r w' => Rejecting _ w.2 op r w'.2)
    refuse_rejecting (Forwarder.run ForwarderOptions.default
      (Forwarder.initial ForwarderOptions.default)) (twoArrive noMail, ∅)).map Prod.snd id
  have hbounds := breaker_bounds ForwarderOptions.default (by decide) (by decide)
  have hfailed : ((Forwarder.run ForwarderOptions.default
      (Forwarder.initial ForwarderOptions.default)).exec refuse (twoArrive noMail, ∅)).2.2
        = {1, 2} := by decide +kernel
  exact ⟨_, _, hsteps, hfailed, hbounds.1 _ _ _ hsteps, hbounds.2 1 _ (.run .none hsteps)⟩

end Breaker

end MailTransporter
