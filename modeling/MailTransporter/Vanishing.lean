import MailTransporter.Settlement
import Mathlib.Data.Finset.Card

set_option autoImplicit false

/-! # Mail that vanishes during a run

Another client may take mail out of the INBOX between any two calls of a run, and a UID command that
names an absent message succeeds without an effect. `Sheet` notes beside the account what the run
has really done: which messages it has moved to the Trash, which it has tagged or moved aside, and
the folders it has created to move them to. The counters of the result are the sizes of these sets
as long as every `STORE` and `MOVE` of the run finds its message. -/

namespace MailTransporter

open Effect
open Effect.Routine (raise attempt getSelf modifySelf settle)

/-- There is a message at `uid` in the INBOX. -/
def World.holds (w : World) (uid : ℕ) : Bool := w.messages.any (fun m => m.isAt uid)

theorem World.holds_iff {w : World} {uid : ℕ} :
    w.holds uid = true ↔ ∃ m ∈ w.messages, m.isAt uid = true := by
  simp [World.holds]

namespace Vanishing

/-- The account, and what a run has done to it. -/
structure Sheet where
  world : World
  trashing : Bool
  trashed : Finset ℕ
  aside : Finset ℕ
  made : List String
  missed : Bool

/-- The sheet before the run. -/
def opened (w : World) : Sheet := ⟨w, false, ∅, ∅, [], false⟩

namespace Sheet

/-- `STORE` of a keyword: a message that is there is tagged if it is a quarantine keyword. -/
def stored (k : Keywords) (uid : ℕ) (flag : String) (found : Bool) (l : Sheet) : Sheet :=
  { l with
    trashing := false
    aside := if found && matchesAny [flag] k.quarantine then insert uid l.aside else l.aside
    missed := l.missed || !found }

/-- `MOVE`: a message that is there goes to the Trash if that has been announced, aside otherwise. -/
def moved (uid : ℕ) (found : Bool) (l : Sheet) : Sheet :=
  { l with
    trashing := false
    trashed := if found && l.trashing then insert uid l.trashed else l.trashed
    aside := if found && !l.trashing then insert uid l.aside else l.aside
    missed := l.missed || !found }

/-- What a call adds to the sheet. A folder that a move to the Trash finds missing is not one that
    mail is set aside in. -/
def note (k : Keywords) (op : Op) (w' : World) (l : Sheet) : Sheet :=
  match op with
  | .issueTrash _ => { l with world := w', trashing := true }
  | .addFlags uid flag => { l.stored k uid flag (l.world.holds uid) with world := w' }
  | .move uid _ => { l.moved uid (l.world.holds uid) with world := w' }
  | .createFolder folder =>
      { l with world := w', made := if l.trashing then l.made else l.made ++ [folder] }
  | _ => { l with world := w' }

@[simp] theorem note_world (k : Keywords) (op : Op) (w' : World) (l : Sheet) :
    (l.note k op w').world = w' := by
  cases op <;> rfl

end Sheet

/-- A server that accepts every keyword and supports `MOVE`. What it is told about one message, a
    folder or its capabilities it answers; a `FETCH` of flags reports every message there is and
    `SEARCH` names none twice. `prompt` is for a `STORE` whose reply reports the flags at once. -/
def Obliges (prompt : Prop) (w : World) (op : Op) (r : Reply op) (w' : World) : Prop :=
  match op, r with
  | .addFlags uid flag, .ok response =>
      w' = effect (.addFlags uid flag) w ∧
        (prompt → w.holds uid = true → hasFlag ((response.lookup uid).getD []) flag = true)
  | .fetch uids .flags, .ok fetched =>
      ∀ uid ∈ uids, w'.holds uid = true → (fetched.lookup uid).isSome = true
  | .hasCapability name, .ok found => name = "MOVE" → found = true
  | .search _, .ok uids => uids.Nodup
  | .addFlags _ _, .error _ => False
  | .fetch _ .flags, .error _ => False
  | .hasCapability _, .error _ => False
  | .move _ _, .error _ => False
  | .folderExists _, .error _ => False
  | .createFolder _, .error _ => False
  | _, _ => True

/-- The server, with the sheet filled in. -/
def Notes (k : Keywords) (prompt : Prop) : Env Op Reply Sheet := fun l op r l' =>
  Serves l.world op r l'.world ∧ Obliges prompt l.world op r l'.world ∧
    l' = l.note k op l'.world

/-- The other clients deliver, remove, move and copy mail; they leave flags alone. -/
def LeavesFlags : Event → Prop
  | .reflag _ _ => False
  | _ => True

/-- One move of the other clients. -/
def Other (l l' : Sheet) : Prop :=
  ∃ e : Event, e.Enabled l.world ∧ LeavesFlags e ∧ l' = { l with world := e.apply l.world }

/-- Any number of moves of the other clients. -/
def Others : Sheet → Sheet → Prop := Relation.ReflTransGen Other

/-- The counters are what the run has done, and no folder was created to set mail aside. -/
structure Faithful (result : SyncResult) (l : Sheet) : Prop where
  trashed : result.trashed = l.trashed.card
  quarantined : result.quarantined = l.aside.card
  made : l.made = []

variable {k : Keywords} {prompt : Prop}

/-! ## What the others and the looks of a run leave -/

/-- The messages under the UIDs given out so far become fewer and stay as they are. -/
structure Wanes (w w' : World) : Prop where
  uidNext : w.uidNext ≤ w'.uidNext
  old : ∀ m ∈ w'.messages, m.uid < w.uidNext → m ∈ w.messages

theorem Wanes.refl (w : World) : Wanes w w := ⟨Nat.le_refl _, fun _ hm _ => hm⟩

theorem Wanes.trans {a b c : World} (h : Wanes a b) (h' : Wanes b c) : Wanes a c where
  uidNext := h.uidNext.trans h'.uidNext
  old := by
    intro m hm hu
    have hb := h'.old m hm (Nat.lt_of_lt_of_le hu h.uidNext)
    exact h.old m hb hu

theorem wanes_apply {w : World} (hw : WellFormed w) {e : Event} (he : e.Enabled w)
    (hl : LeavesFlags e) : Wanes w (e.apply w) := by
  refine ⟨uidNext_le_apply he, fun m' hm' hu => ?_⟩
  rcases mem_apply hw he hm' with hm | ⟨m, -, flags, rfl, -⟩ | ⟨raw, uid, flags, rfl, rfl⟩ |
    ⟨m, -, folder, -, rfl⟩
  · exact hm
  · exact absurd hl not_false
  · have hle : w.uidNext ≤ uid := he
    have hlt : uid < w.uidNext := hu
    omega
  · rw [Message.placed_uid] at hu
    exact absurd hu (Nat.lt_irrefl _)

/-- No message is at `uid`, and none will be. -/
def Gone (w : World) (uid : ℕ) : Prop := uid < w.uidNext ∧ w.holds uid = false

theorem Gone.later {w w' : World} {uid : ℕ} (h : Gone w uid) (hw : Wanes w w') : Gone w' uid := by
  refine ⟨Nat.lt_of_lt_of_le h.1 hw.uidNext, Bool.eq_false_iff.mpr (fun hholds => ?_)⟩
  obtain ⟨m, hm, hat⟩ := World.holds_iff.mp hholds
  have hlt : m.uid < w.uidNext := (Message.isAt_iff.mp hat).2 ▸ h.1
  have hbefore := World.holds_iff.mpr ⟨m, hw.old m hm hlt, hat⟩
  rw [h.2] at hbefore
  exact absurd hbefore nofun

/-- Nothing is entered into the sheet. -/
structure Still (l l' : Sheet) : Prop where
  same : l' = { l with world := l'.world }
  wellFormed : WellFormed l.world → WellFormed l'.world
  wanes : WellFormed l.world → Wanes l.world l'.world

theorem Still.refl (l : Sheet) : Still l l := ⟨rfl, id, fun _ => .refl _⟩

theorem Still.trans {a b c : Sheet} (h : Still a b) (h' : Still b c) : Still a c where
  same := by
    rw [h'.same, h.same]
  wellFormed := fun ha => h'.wellFormed (h.wellFormed ha)
  wanes := fun ha => (h.wanes ha).trans (h'.wanes (h.wellFormed ha))

theorem Others.still {l l' : Sheet} (h : Others l l') : Still l l' := by
  induction h with
  | refl => exact .refl l
  | tail _ hlast ih =>
      obtain ⟨e, he, hl, rfl⟩ := hlast
      exact ih.trans ⟨rfl, fun hw => hw.apply he, fun hw => wanes_apply hw he hl⟩

/-- The others move at will and no call is refused. -/
def discipline : Discipline Op Sheet := ⟨Others, fun _ _ => True⟩

/-- Calls around the work of a run, calls that look, and the insert. -/
def Idle (op : Op) : Prop := op.isSurvey = true ∨ op.isGlance = true ∨ op.isInsert = true

theorem note_of_idle {op : Op} (hop : Idle op) (w' : World) (l : Sheet) :
    l.note k op w' = { l with world := w' } := by
  cases op
  all_goals first | rfl | exact absurd hop (by simp [Idle, Op.isSurvey, Op.isSetup,
    Op.isGlance, Op.isLook, Op.isQuiet, Op.isInsert])

theorem messages_of_idle {op : Op} (hop : Idle op) (w : World) :
    (effect op w).messages = w.messages ∧ (effect op w).uidNext = w.uidNext := by
  cases op
  all_goals first | exact ⟨rfl, rfl⟩ | exact absurd hop (by simp [Idle, Op.isSurvey,
    Op.isSetup, Op.isGlance, Op.isLook, Op.isQuiet, Op.isInsert])

/-- What others and idle calls follow. -/
def still (k : Keywords) (prompt : Prop) : Growth (Notes k prompt) discipline Idle where
  grow := Still
  refl := .refl
  trans := .trans
  rely := Others.still
  step := by
    rintro l op r l' hop - ⟨hE, -, hnote⟩
    refine ⟨hnote.trans (note_of_idle hop _ _), hE.wellFormed, fun _ => ?_⟩
    obtain ⟨hm, hn⟩ := messages_of_idle hop l.world
    rcases hE.cases with hw | hw
    · rw [hw]
      exact .refl _
    · rw [hw]
      exact ⟨Nat.le_of_eq hn.symm, fun m hin _ => hm ▸ hin⟩

/-- A routine of idle calls. -/
theorem idle_safe {σ α : Type} {m : Py σ α} (hm : m.Uses Idle) (s : σ) (l : Sheet) :
    m.Safe (Notes k prompt) discipline (fun _ _ l' => Still l l') s l :=
  Routine.Safe.of_uses (still k prompt) hm (fun _ h => h) (fun _ _ _ _ => trivial)

/-! ## The keyword and the move -/

section methods

variable {σ : Type} {Q : Except Exc Unit → ICloudMailbox → Sheet → Prop} {s : ICloudMailbox}
  {l : Sheet} {uid : ℕ}

theorem client_open (hc : s.connected = true) (h : Q (.ok ()) s l) :
    ICloudMailbox.client.Safe (Notes k prompt) discipline Q s l := by
  simp only [ICloudMailbox.client, Routine.safe_bind, Routine.safe_getSelf, Routine.after_ok, hc,
    if_true]
  exact h

theorem client_closed (hc : s.connected = false)
    (h : ∀ text, Q (.error (.mailboxError text)) s l) :
    ICloudMailbox.client.Safe (Notes k prompt) discipline Q s l := by
  simp only [ICloudMailbox.client, Routine.safe_bind, Routine.safe_getSelf, Routine.after_ok, hc]
  exact h _

/-- A call made after the others have moved. -/
theorem safe_noted {op : Op} {P : Except Exc (Value op) → σ → Sheet → Prop} {t : σ}
    (h : ∀ l₁ r w', Still l l₁ → Serves l₁.world op r w' → Obliges prompt l₁.world op r w' →
      P r t (l₁.note k op w')) : (call op : Py σ (Value op)).Safe (Notes k prompt) discipline P t l := by
  intro l₁ hothers
  refine ⟨trivial, fun r l₂ hE => ?_⟩
  obtain ⟨hserves, hobliges, hnote⟩ := hE
  rw [hnote]
  exact h l₁ r l₂.world (Others.still hothers) hserves hobliges

/-- A message that carries a flag after a `STORE`, or did before, was there. -/
theorem holds_of_stored {w : World} {flag : String} {m : Message}
    (hm : m ∈ (effect (.addFlags uid flag) w).messages) (hat : m.isAt uid = true) :
    w.holds uid = true ∧ m.has flag = true := by
  obtain ⟨m₀, hm₀, rfl⟩ := mem_store.mp hm
  have hat₀ : m₀.isAt uid = true := hat
  refine ⟨World.holds_iff.mpr ⟨m₀, hm₀, hat₀⟩, ?_⟩
  simp [Message.has, hat₀]

/-- What a `STORE` comes to: `found` is whether the message was there, `shown` whether one of the two
    replies shows the keyword on it. -/
structure Tagging (k : Keywords) (prompt : Prop) (uid : ℕ) (keyword : String) (shown found : Bool)
    (l l' : Sheet) : Prop where
  same : l' = { l.stored k uid keyword found with world := l'.world }
  wellFormed : WellFormed l'.world
  given : uid < l'.world.uidNext
  absent : Gone l.world uid → found = false
  there : shown = true → found = true
  gone : shown = false → Gone l'.world uid
  prompt : shown = false → prompt → found = false

/-- A flag that `FETCH` reports is on the message, and what it reports of a message is complete. -/
theorem refetched {w : World} {flag : String} {fetched : Fetched}
    (ht : Truthful w (.fetch [uid] .flags) fetched)
    (hcomplete : ∀ u ∈ [uid], w.holds u = true → (fetched.lookup u).isSome = true)
    (hall : ∀ m ∈ w.messages, m.isAt uid = true → m.has flag = true) :
    hasFlag (ICloudMailbox.reportedFlags fetched uid) flag = w.holds uid := by
  rw [Bool.eq_iff_iff]
  constructor
  · intro h
    obtain ⟨m, hm, hat, -⟩ := reportedFlags_has ht h
    exact World.holds_iff.mpr ⟨m, hm, hat⟩
  · intro h
    obtain ⟨item, hl⟩ := Option.isSome_iff_exists.mp (hcomplete uid List.mem_cons_self h)
    obtain ⟨m, hm, hat, -, flags, hflags, hsame⟩ := ht _ (mem_of_lookup hl)
    have hflags : item.flags = some flags := hflags
    have hitem : ICloudMailbox.reportedFlags fetched uid = flags := by
      simp [ICloudMailbox.reportedFlags, hl, hflags]
    rw [hitem, hsame flag]
    exact hall m hm hat

theorem storeKeyword_safe {keyword : String} (hascii : isAscii keyword = true)
    (hc : s.connected = true) (hw : WellFormed l.world) (hu : uid < l.world.uidNext) :
    (ICloudMailbox.storeKeyword uid keyword).Safe (Notes k prompt) discipline
      (fun r s' l' => s' = s ∧ ∃ flags, r = .ok flags ∧
        ∃ found, Tagging k prompt uid keyword (hasFlag flags keyword) found l l') s l := by
  simp only [ICloudMailbox.storeKeyword, ICloudMailbox.encodeAscii, ICloudMailbox.refetchFlags,
    Routine.safe_bind]
  refine client_open hc ?_
  simp only [Routine.after_ok, Routine.safe_bind, hascii, if_true, Routine.safe_pure]
  refine safe_noted (fun l₁ r w₂ hl₁ hserves hobliges => ?_)
  rcases r with e | response
  · exact absurd hobliges not_false
  obtain ⟨rfl, hprompt⟩ := hobliges
  have hgone : Gone l.world uid → l₁.world.holds uid = false :=
    fun h => (h.later (hl₁.wanes hw)).2
  have hw₂ : WellFormed (effect (.addFlags uid keyword) l₁.world) := (hl₁.wellFormed hw).effect _
  have hlt : uid < (effect (.addFlags uid keyword) l₁.world).uidNext :=
    Nat.lt_of_lt_of_le hu ((hl₁.wanes hw).uidNext.trans (uidNext_le_effect _ _))
  have hstored : l₁.note k (.addFlags uid keyword) (effect (.addFlags uid keyword) l₁.world) =
      { l.stored k uid keyword (l₁.world.holds uid) with
        world := effect (.addFlags uid keyword) l₁.world } := by
    rw [hl₁.same]
    rfl
  simp only [Routine.after_ok]
  split
  · next hin =>
    rw [Routine.safe_pure]
    refine ⟨rfl, _, rfl, l₁.world.holds uid, hstored, hw₂, hlt, hgone, fun _ => ?_, ?_, ?_⟩
    · -- the reply is about a message that is there
      cases hl : response.lookup uid with
      | none =>
          rw [hl] at hin
          exact absurd hin nofun
      | some flags =>
          obtain ⟨m, hm, hat, -⟩ := hserves.2 _ (mem_of_lookup hl)
          exact (holds_of_stored hm hat).1
    · rw [hin]
      exact nofun
    · rw [hin]
      exact nofun
  · next hout =>
    -- the confirming re-fetch, after the others have moved again
    simp only [Routine.safe_bind]
    refine client_open hc ?_
    simp only [Routine.after_ok, Routine.safe_bind]
    refine safe_noted (fun l₃ r w₄ hl₃ hserves₄ hobliges₄ => ?_)
    rcases r with e | fetched
    · exact absurd hobliges₄ not_false
    have hw₄ : w₄ = l₃.world := by
      rcases hserves₄.cases with h | h
      · exact h
      · exact h
    subst hw₄
    have hwane := hl₃.wanes hw₂
    have hback : ∀ m ∈ l₃.world.messages, m.isAt uid = true →
        l₁.world.holds uid = true ∧ m.has keyword = true := by
      intro m hm hat
      have hmu : m.uid < (effect (.addFlags uid keyword) l₁.world).uidNext :=
        (Message.isAt_iff.mp hat).2 ▸ hlt
      exact holds_of_stored (hwane.old m hm hmu) hat
    have hshown := refetched hserves₄.2 hobliges₄ (fun m hm hat => (hback m hm hat).2)
    rw [Routine.after_ok, Routine.safe_pure]
    have hlt₃ := Nat.lt_of_lt_of_le hlt hwane.uidNext
    refine ⟨rfl, _, rfl, l₁.world.holds uid, ?_, hl₃.wellFormed hw₂, hlt₃, hgone, fun h => ?_,
      fun h => ⟨hlt₃, hshown.symm.trans h⟩, fun h hp => ?_⟩
    · rw [hl₃.same, hstored]
      rfl
    · obtain ⟨m, hm, hat⟩ := World.holds_iff.mp (hshown.symm.trans h)
      exact (hback m hm hat).1
    · refine Bool.eq_false_iff.mpr (fun hheld => hout ?_)
      exact hprompt hp hheld

/-- `add_keyword` fails only on a message that is gone. -/
theorem addKeyword_safe {keyword : String} (hascii : isAscii keyword = true)
    (hw : WellFormed l.world) (hu : uid < l.world.uidNext) :
    (ICloudMailbox.addKeyword uid keyword).Safe (Notes k prompt) discipline
      (fun r s' l' => s' = s ∧ ((s.connected = false ∧ l' = l ∧
          ∃ text, r = .error (.mailboxError text)) ∨
        (s.connected = true ∧ ∃ found, (r = .ok () ∧ Tagging k prompt uid keyword true found l l') ∨
          (∃ text, r = .error (.mailboxError text)) ∧
            Tagging k prompt uid keyword false found l l'))) s l := by
  simp only [ICloudMailbox.addKeyword, Routine.safe_bind, Routine.safe_attempt]
  by_cases hc : s.connected = true
  · refine (storeKeyword_safe hascii hc hw hu).mono ?_
    rintro r s' l' ⟨rfl, flags, rfl, found, htag⟩
    rw [Routine.after_ok]
    dsimp only
    split
    · next hin =>
      rw [hin] at htag
      exact ⟨rfl, Or.inr ⟨hc, found, Or.inl ⟨rfl, htag⟩⟩⟩
    · next hout =>
      rw [Bool.eq_false_iff.mpr hout] at htag
      exact ⟨rfl, Or.inr ⟨hc, found, Or.inr ⟨⟨_, rfl⟩, htag⟩⟩⟩
  · have hc := Bool.eq_false_iff.mpr hc
    rw [ICloudMailbox.storeKeyword, Routine.safe_bind]
    refine client_closed hc (fun text => ?_)
    exact ⟨rfl, Or.inl ⟨hc, rfl, _, rfl⟩⟩

/-- The folder of a move is made ready: it may have been created. -/
structure Ready (l l' : Sheet) : Prop where
  same : ∃ made, l' = { l with world := l'.world, made := made } ∧ (l.trashing = true → made = l.made)
  wellFormed : WellFormed l.world → WellFormed l'.world
  wanes : WellFormed l.world → Wanes l.world l'.world

theorem Still.ready {l l' : Sheet} (h : Still l l') : Ready l l' :=
  ⟨⟨l.made, h.same, fun _ => rfl⟩, h.wellFormed, h.wanes⟩

theorem Ready.trans {a b c : Sheet} (h : Ready a b) (h' : Ready b c) : Ready a c where
  same := by
    obtain ⟨made, hb, hmade⟩ := h.same
    obtain ⟨made', hc, hmade'⟩ := h'.same
    refine ⟨made', ?_, fun ht => ?_⟩
    · rw [hc, hb]
    · rw [hb] at hmade'
      exact (hmade' ht).trans (hmade ht)
  wellFormed := fun ha => h'.wellFormed (h.wellFormed ha)
  wanes := fun ha => (h.wanes ha).trans (h'.wanes (h.wellFormed ha))

theorem ready_note {op : Op} (hop : op.isLook = true) {r : Reply op} {w' : World}
    (hE : Serves l.world op r w') : Ready l (l.note k op w') := by
  have hworld : (WellFormed l.world → WellFormed w') ∧ Wanes l.world w' := by
    refine ⟨hE.wellFormed, ?_⟩
    have heffect : (effect op l.world).messages = l.world.messages ∧
        (effect op l.world).uidNext = l.world.uidNext := by
      cases op
      all_goals first | exact ⟨rfl, rfl⟩ | exact absurd hop (by simp [Op.isLook, Op.isQuiet])
    rcases hE.cases with h | h
    · rw [h]
      exact .refl _
    · rw [h]
      exact ⟨Nat.le_of_eq heffect.2.symm, fun m hm _ => heffect.1 ▸ hm⟩
  cases op
  case createFolder folder =>
    refine ⟨⟨_, rfl, fun ht => ?_⟩, hworld.1, fun _ => hworld.2⟩
    simp [ht]
  all_goals first
    | exact ⟨⟨l.made, rfl, fun _ => rfl⟩, hworld.1, fun _ => hworld.2⟩
    | exact absurd hop (by simp [Op.isLook, Op.isQuiet])

/-- What a `MOVE` comes to: `found` is whether the message was there. -/
structure Moving (uid : ℕ) (found : Bool) (l l' : Sheet) : Prop where
  same : ∃ made, l' = { l.moved uid found with world := l'.world, made := made } ∧
    (l.trashing = true → made = l.made)
  absent : Gone l.world uid → found = false

/-- A server with `MOVE` moves whatever it is told to, whether it is there or not. -/
theorem moveToFolder_safe {folder : String} (hw : WellFormed l.world) :
    (ICloudMailbox.moveToFolder uid folder).Safe (Notes k prompt) discipline
      (fun r s' l' => s' = s ∧ ((s.connected = false ∧ l' = l ∧
          ∃ text, r = .error (.mailboxError text)) ∨
        (s.connected = true ∧ r = .ok () ∧ ∃ found, Moving uid found l l'))) s l := by
  rw [ICloudMailbox.moveToFolder, Routine.safe_bind]
  by_cases hc : s.connected = true
  swap
  · have hc := Bool.eq_false_iff.mpr hc
    exact client_closed hc (fun text => ⟨rfl, Or.inl ⟨hc, rfl, _, rfl⟩⟩)
  refine client_open hc ?_
  rw [Routine.after_ok, Routine.safe_bind, Routine.safe_attempt, ICloudMailbox.transfer,
    Routine.safe_bind]
  have hmove : ∀ l₁, Ready l l₁ → (do
      if ← call (.hasCapability "MOVE") then call (.move uid folder)
      else if ← call (.hasCapability "UIDPLUS") then ICloudMailbox.copyAndExpunge uid folder
      else raise (.mailboxError ("IMAP server supports neither MOVE nor UIDPLUS; refusing to move "
        ++ s!"uid={uid} because the fallback could expunge unrelated mail")) : Mailbox Unit).Safe
      (Notes k prompt) discipline
      (fun r s' l' => s' = s ∧ r = .ok () ∧ ∃ found, Moving uid found l l') s l₁ := by
    intro l₁ h₁
    rw [Routine.safe_bind]
    refine safe_noted (fun l₂ r w₃ h₂ hserves hobliges => ?_)
    have h₃ := h₁.trans (h₂.ready.trans (ready_note (k := k) rfl hserves))
    rcases r with e | canMove
    · exact absurd hobliges not_false
    rw [Routine.after_ok, if_pos (hobliges rfl)]
    -- the message may have gone since the folder was looked up
    refine safe_noted (fun l₄ r w₅ h₄ _ hobliges₅ => ?_)
    rcases r with e | ⟨⟩
    · exact absurd hobliges₅ not_false
    have h₄ := h₃.trans h₄.ready
    obtain ⟨made, hsame, hmade⟩ := h₄.same
    refine ⟨rfl, rfl, l₄.world.holds uid, ⟨made, ?_, hmade⟩, fun hgone => ?_⟩
    · show { l₄.moved uid (l₄.world.holds uid) with world := w₅ } = _
      rw [hsame]
      rfl
    · exact (hgone.later (h₄.wanes hw)).2
  rw [ICloudMailbox.createOnDemand, Routine.safe_bind]
  refine safe_noted (fun l₁ r w₂ h₁ hserves hobliges => ?_)
  have h₂ := h₁.ready.trans (ready_note (k := k) rfl hserves)
  rcases r with e | found
  · exact absurd hobliges not_false
  rw [Routine.after_ok]
  split
  · rw [Routine.safe_pure, Routine.after_ok]
    refine (hmove _ h₂).mono ?_
    rintro r s' l' ⟨rfl, rfl, hmoving⟩
    exact ⟨rfl, Or.inr ⟨hc, rfl, hmoving⟩⟩
  · refine safe_noted (fun l₃ r w₄ h₃ hserves₄ hobliges₄ => ?_)
    rcases r with e | ⟨⟩
    · exact absurd hobliges₄ not_false
    rw [Routine.after_ok]
    refine (hmove _ (h₂.trans (h₃.ready.trans (ready_note (k := k) rfl hserves₄)))).mono ?_
    rintro r s' l' ⟨rfl, rfl, hmoving⟩
    exact ⟨rfl, Or.inr ⟨hc, rfl, hmoving⟩⟩

end methods

/-! ## The counters and the sheet -/

/-- The counters are at least what the sheet says, and just that if nothing was missed. -/
structure Counted (result : SyncResult) (l : Sheet) : Prop where
  trashed : l.trashed.card ≤ result.trashed
  aside : l.aside.card ≤ result.quarantined
  exact : l.missed = false → Faithful result l

/-- A counter is too high. -/
def Over (result : SyncResult) (l : Sheet) : Prop :=
  l.trashed.card < result.trashed ∨ l.aside.card < result.quarantined

/-- The counters account for what was missed, too: where a `STORE` is reported at once, a miss shows
    in one of them. -/
structure Balanced (prompt : Prop) (result : SyncResult) (l : Sheet) : Prop
    extends Counted result l where
  tooHigh : prompt → l.missed = true → Over result l

variable {uid : ℕ} {l l' l'' : Sheet} {result : SyncResult} {keyword : String} {found : Bool}

theorem Counted.still (h : Counted result l) (hl : Still l l') : Counted result l' := by
  rw [hl.same]
  exact ⟨h.trashed, h.aside, fun hm => ⟨(h.exact hm).trashed, (h.exact hm).quarantined,
    (h.exact hm).made⟩⟩

theorem Balanced.still (h : Balanced prompt result l) (hl : Still l l') :
    Balanced prompt result l' := by
  refine ⟨h.toCounted.still hl, ?_⟩
  rw [hl.same]
  exact h.tooHigh

/-- A move to the Trash is announced. -/
theorem Balanced.announced (h : Balanced prompt result l) (w : World) :
    Balanced prompt result { l with world := w, trashing := true } :=
  ⟨⟨h.trashed, h.aside, fun hm => ⟨(h.exact hm).trashed, (h.exact hm).quarantined,
    (h.exact hm).made⟩⟩, h.tooHigh⟩

/-- Only these two counters matter. -/
theorem Balanced.report (h : Balanced prompt result l) {result' : SyncResult}
    (ht : result'.trashed = result.trashed) (hq : result'.quarantined = result.quarantined) :
    Balanced prompt result' l := by
  obtain ⟨⟨htrashed, haside, hexact⟩, hover⟩ := h
  refine ⟨⟨ht ▸ htrashed, hq ▸ haside, fun hm => ?_⟩, fun hp hm => ?_⟩
  · obtain ⟨h₁, h₂, h₃⟩ := hexact hm
    exact ⟨ht.trans h₁, hq.trans h₂, h₃⟩
  · unfold Over
    rw [ht, hq]
    exact hover hp hm

theorem card_insert_if (b : Bool) (uid : ℕ) {s : Finset ℕ} (hnew : uid ∉ s) :
    (if b then insert uid s else s).card = s.card + if b then 1 else 0 := by
  cases b with
  | false => rfl
  | true => exact Finset.card_insert_of_notMem hnew

/-- The message has been tagged with a quarantine keyword. -/
theorem Balanced.tagged (h : Balanced prompt result l)
    (ht : Tagging k prompt uid keyword true found l l')
    (hkw : matchesAny [keyword] k.quarantine = true) (hnew : uid ∉ l.aside) :
    Balanced prompt { result with quarantined := result.quarantined + 1 } l' := by
  have hfound := ht.there rfl
  have hcard := Finset.card_insert_of_notMem hnew
  have haside := h.aside
  rw [ht.same]
  simp only [Sheet.stored, hfound, hkw, Bool.and_self, if_true, Bool.not_true, Bool.or_false]
  refine ⟨⟨h.trashed, ?_, fun hm => ?_⟩, fun hp hm => ?_⟩
  · simp only [hcard]
    omega
  · obtain ⟨h₁, h₂, h₃⟩ := h.exact hm
    refine ⟨h₁, ?_, h₃⟩
    simp only [hcard]
    omega
  · have hover := h.tooHigh hp hm
    unfold Over at hover ⊢
    simp only [hcard]
    omega

/-- The message has been tagged with another keyword. -/
theorem Balanced.noted (h : Balanced prompt result l)
    (ht : Tagging k prompt uid keyword true found l l')
    (hkw : matchesAny [keyword] k.quarantine = false) : Balanced prompt result l' := by
  have hfound := ht.there rfl
  rw [ht.same]
  simp only [Sheet.stored, hfound, hkw, Bool.and_false, Bool.not_true, Bool.or_false]
  exact ⟨⟨h.trashed, h.aside, fun hm => ⟨(h.exact hm).trashed, (h.exact hm).quarantined,
    (h.exact hm).made⟩⟩, h.tooHigh⟩

/-- The message was gone before the server could confirm another keyword. -/
theorem Counted.unconfirmed (h : Counted result l)
    (ht : Tagging k prompt uid keyword false found l l')
    (hkw : matchesAny [keyword] k.quarantine = false) : Counted result l' := by
  rw [ht.same]
  simp only [Sheet.stored, hkw, Bool.and_false]
  refine ⟨h.trashed, h.aside, fun hm => ?_⟩
  obtain ⟨h₁, h₂, h₃⟩ := h.exact (Bool.or_eq_false_iff.mp hm).1
  exact ⟨h₁, h₂, h₃⟩

/-- The message was gone before the server could confirm a quarantine keyword, and is moved aside
    nevertheless: nothing is moved, and the counter goes up. -/
theorem Counted.vanished (h : Counted result l)
    (ht : Tagging k prompt uid keyword false found l l') (hnew : uid ∉ l.aside) {found' : Bool}
    (hm : Moving uid found' l' l'') :
    Balanced prompt { result with quarantined := result.quarantined + 1 } l'' := by
  have hfound' := hm.absent (ht.gone rfl)
  obtain ⟨made, hsame, -⟩ := hm.same
  have hcard := card_insert_if (found && matchesAny [keyword] k.quarantine) uid hnew
  have haside := h.aside
  rw [hsame, ht.same]
  simp only [Sheet.stored, Sheet.moved, hfound', Bool.false_and, Bool.not_false, Bool.or_true]
  refine ⟨⟨h.trashed, ?_, nofun⟩, fun hp _ => Or.inr ?_⟩
  · simp only [Bool.false_eq_true, if_false, hcard]
    split <;> omega
  · have hnot := ht.prompt rfl hp
    simp only [Bool.false_eq_true, if_false, hnot, Bool.false_and]
    omega

/-- A message is moved to the Trash, or is not there to be moved. -/
theorem Balanced.moved (h : Balanced prompt result l) (htrashing : l.trashing = true)
    (hm : Moving uid found l l') (hnew : uid ∉ l.trashed) :
    Balanced prompt { result with trashed := result.trashed + 1 } l' := by
  obtain ⟨made, hsame, hmade⟩ := hm.same
  have hcard := card_insert_if found uid hnew
  have htrashed := h.trashed
  rw [hsame, hmade htrashing]
  simp only [Sheet.moved, htrashing, Bool.and_true, Bool.not_true, Bool.and_false]
  refine ⟨⟨?_, h.aside, fun hmissed => ?_⟩, fun hp hmissed => ?_⟩
  · simp only [hcard]
    split <;> omega
  · obtain ⟨hbefore, hfound⟩ := Bool.or_eq_false_iff.mp hmissed
    obtain ⟨h₁, h₂, h₃⟩ := h.exact hbefore
    refine ⟨?_, h₂, h₃⟩
    have hfound : found = true := by simpa using hfound
    have hinsert := Finset.card_insert_of_notMem hnew
    simp only [hfound, if_true, hinsert]
    omega
  · unfold Over
    simp only [hcard]
    cases hfound : found with
    | false => exact Or.inl (Nat.lt_succ_of_le htrashed)
    | true =>
        rw [hfound, Bool.not_true, Bool.or_false] at hmissed
        have hover := h.tooHigh hp hmissed
        unfold Over at hover
        simp only [Bool.false_eq_true, if_true, if_false]
        omega

/-! ## One message -/

open Forwarder

variable {o : ForwarderOptions} {s : RunState}

/-- The counters are balanced, and these are the rejections. -/
def Keeps (prompt : Prop) (rejected : List Rejection) (s : RunState) (l : Sheet) : Prop :=
  Balanced prompt s.result l ∧ s.rejected = rejected

/-- `_quarantine`, of a message that is there or of one that is known to be gone. -/
theorem quarantine_safe (hmode : o.quarantineMode = .keyword) (hascii : isAscii keyword = true)
    (hkw : matchesAny [keyword] k.quarantine = true) {folder : String} (hw : WellFormed l.world)
    (hu : uid < l.world.uidNext) (hnew : uid ∉ l.aside) (hcounted : Counted s.result l)
    (hcase : Balanced prompt s.result l ∨ Gone l.world uid ∧ s.mailbox.connected = true) :
    (quarantine o uid keyword folder).Safe (Notes k prompt) discipline
      (fun _ s' l' => Keeps prompt s.rejected s' l') s l := by
  rw [quarantine, if_pos hmode, Routine.safe_bind, Routine.safe_attempt, safe_onMailbox]
  refine (addKeyword_safe hascii hw hu).mono ?_
  rintro r mailbox l₁ ⟨rfl, ⟨hc, rfl, text, rfl⟩ | ⟨hc, found, ⟨rfl, ht⟩ | ⟨⟨text, rfl⟩, ht⟩⟩⟩
  · -- without a session neither the keyword nor the move is tried
    have hb : Balanced prompt s.result l₁ := by
      rcases hcase with hb | ⟨-, ho⟩
      · exact hb
      · rw [hc] at ho
        exact absurd ho (by simp)
    simp only [Routine.after_ok, Exc.isMailboxError, if_true, moveAside, Routine.safe_bind,
      Routine.safe_attempt, safe_onMailbox]
    refine (moveToFolder_safe hw).mono ?_
    rintro r mailbox l₂ ⟨rfl, ⟨-, rfl, text', rfl⟩ | ⟨ho, -⟩⟩
    · exact ⟨hb, rfl⟩
    · rw [hc] at ho
      exact absurd ho (by simp)
  · rcases hcase with hb | ⟨hgone, -⟩
    · exact ⟨hb.tagged ht hkw hnew, rfl⟩
    · have hnot := ht.absent hgone
      rw [ht.there rfl] at hnot
      exact absurd hnot (by simp)
  · simp only [Routine.after_ok, Exc.isMailboxError, if_true, moveAside, Routine.safe_bind,
      Routine.safe_attempt, safe_onMailbox]
    refine (moveToFolder_safe ht.wellFormed).mono ?_
    rintro r mailbox l₂ ⟨rfl, ⟨hclosed, -⟩ | ⟨-, rfl, found', hm⟩⟩
    · rw [hc] at hclosed
      exact absurd hclosed (by simp)
    · exact ⟨hcounted.vanished ht hnew hm, rfl⟩

theorem trash_safe {message : FetchedMessage} (hw : WellFormed l.world)
    (hnew : message.uid ∉ l.trashed) (hb : Balanced prompt s.result l) :
    (trash message).Safe (Notes k prompt) discipline
      (fun _ s' l' => Keeps prompt s.rejected s' l') s l := by
  rw [trash, Routine.safe_bind]
  refine safe_noted (fun l₁ r w₂ h₁ hserves _ => ?_)
  rcases r with e | ⟨⟩
  · exact absurd hserves.1 (by rintro ⟨⟩)
  have hb₂ := (hb.still h₁).announced w₂
  rw [Routine.after_ok, Routine.safe_bind, Routine.safe_attempt, safe_onMailbox,
    ICloudMailbox.moveToTrash, Routine.safe_bind]
  have hidle : ICloudMailbox.trashFolderName.Uses Idle :=
    ICloudMailbox.trashFolderName_glances.mono (fun _ h => Or.inr (Or.inl h))
  refine (idle_safe hidle s.mailbox _).mono ?_
  intro r mailbox l₃ h₃
  have hb₃ := hb₂.still h₃
  have htrashing : l₃.trashing = true := by rw [h₃.same]; rfl
  have hnew₃ : message.uid ∉ l₃.trashed := by
    rw [h₃.same, h₁.same]
    exact hnew
  have hfail : ∀ (e : Exc) mailbox' l', Balanced prompt s.result l' →
      (if e.isMailboxError then
          raise (.abortRun s!"IMAP failure while trashing uid={message.uid}: {e}")
        else raise e : Run Unit).Safe (Notes k prompt) discipline
        (fun _ s' l' => Keeps prompt s.rejected s' l') { s with mailbox := mailbox' } l' := by
    intro e mailbox' l' hb'
    split
    · exact ⟨hb', rfl⟩
    · exact ⟨hb', rfl⟩
  rcases r with e | folder
  · exact hfail e mailbox l₃ hb₃
  rw [Routine.after_ok]
  have hw₂ : WellFormed w₂ := hserves.wellFormed (h₁.wellFormed hw)
  refine (moveToFolder_safe (h₃.wellFormed hw₂)).mono ?_
  rintro r mailbox' l₄ ⟨rfl, ⟨-, rfl, text, rfl⟩ | ⟨-, rfl, found, hm⟩⟩
  · exact hfail _ _ _ hb₃
  · exact ⟨hb₃.moved htrashing hm hnew₃, rfl⟩

theorem recordInsert_safe (hk : o.keywords = k) (hmode : o.quarantineMode = .keyword)
    {message : FetchedMessage} (hw : WellFormed l.world) (hu : message.uid < l.world.uidNext)
    (hnew : message.uid ∉ l.trashed ∧ message.uid ∉ l.aside) (hb : Balanced prompt s.result l) :
    (recordInsert o message).Safe (Notes k prompt) discipline
      (fun _ s' l' => Keeps prompt s.rejected s' l') s l := by
  rw [recordInsert, Routine.safe_bind, safe_count, Routine.after_ok]
  have hb' : Balanced prompt
      (RunState.result { s with result := { s.result with forwarded := s.result.forwarded + 1 } })
      l := hb.report rfl rfl
  show Routine.Safe _ _ _ (fun _ s' l' => Keeps prompt
    (RunState.rejected { s with result := { s.result with forwarded := s.result.forwarded + 1 } })
    s' l') _ l
  generalize ({ s with result := { s.result with forwarded := s.result.forwarded + 1 } } :
    RunState) = s₁ at hb' ⊢
  rw [Routine.safe_bind, Routine.safe_attempt, safe_onMailbox, hk]
  have hunverified : matchesAny [k.unverified] k.quarantine = true :=
    matchesAny_singleton rfl (Or.inr rfl)
  refine (addKeyword_safe k.insertedOk.ascii hw hu).mono ?_
  rintro r mailbox l₁ ⟨rfl, ⟨hc, rfl, text, rfl⟩ | ⟨hc, found, ⟨rfl, ht⟩ | ⟨⟨text, rfl⟩, ht⟩⟩⟩
  · simp only [Routine.after_ok, Exc.isMailboxError, if_true]
    exact quarantine_safe hmode k.unverifiedOk.ascii hunverified hw hu hnew.2 hb'.toCounted
      (Or.inl hb')
  · have hnew₁ : message.uid ∉ l₁.trashed := by
      rw [ht.same]
      exact hnew.1
    exact trash_safe ht.wellFormed hnew₁ (hb'.noted ht (matchesAny_inserted k))
  · simp only [Routine.after_ok, Exc.isMailboxError, if_true]
    have hnew₁ : message.uid ∉ l₁.aside := by
      rw [ht.same]
      simp only [Sheet.stored, matchesAny_inserted, Bool.and_false]
      exact hnew.2
    exact quarantine_safe hmode k.unverifiedOk.ascii hunverified ht.wellFormed ht.given hnew₁
      (hb'.toCounted.unconfirmed ht (matchesAny_inserted k)) (Or.inr ⟨ht.gone rfl, hc⟩)

/-- Either nothing was rejected, or the message was, and nothing was done to it. -/
def Handled (prompt : Prop) (uid : ℕ) (rejected : List Rejection) (s : RunState) (l : Sheet) : Prop :=
  Balanced prompt s.result l ∧ (s.rejected = rejected ∨ ∃ text perMessage,
    s.rejected = rejected ++ [⟨uid, text, perMessage⟩] ∧ uid ∉ l.trashed ∧ uid ∉ l.aside ∧
      uid < l.world.uidNext)

theorem Keeps.handled {rejected : List Rejection} {s : RunState} (h : Keeps prompt rejected s l) :
    Handled prompt uid rejected s l := ⟨h.1, Or.inl h.2⟩

theorem insert_safe (hk : o.keywords = k) (hmode : o.quarantineMode = .keyword)
    {extraLabels : List String} {message : FetchedMessage} (hw : WellFormed l.world)
    (hu : message.uid < l.world.uidNext) (hnew : message.uid ∉ l.trashed ∧ message.uid ∉ l.aside)
    (hb : Balanced prompt s.result l) :
    (Forwarder.insert o extraLabels message).Safe (Notes k prompt) discipline
      (fun _ s' l' => Handled prompt message.uid s.rejected s' l') s l := by
  rw [Forwarder.insert, Routine.safe_bind, Routine.safe_attempt]
  refine safe_grown_call (still k prompt) (fun _ _ _ => trivial) (Or.inr (Or.inr rfl)) ?_
  intro r l₁ h₁
  have hb₁ : Balanced prompt s.result l₁ := hb.still h₁
  have hu₁ : message.uid < l₁.world.uidNext := Nat.lt_of_lt_of_le hu (h₁.wanes hw).uidNext
  have hnew₁ : message.uid ∉ l₁.trashed ∧ message.uid ∉ l₁.aside := by
    rw [h₁.same]
    exact hnew
  rw [Routine.after_ok]
  rcases r with e | id
  · rcases e with _ | _ | _ | ⟨_ | _ | _ | _, text, status⟩ | _
    case gmailError.retryable => exact ⟨hb₁.report rfl rfl, Or.inl rfl⟩
    case gmailError.permanent =>
      exact ⟨hb₁, Or.inr ⟨_, _, rfl, hnew₁.1, hnew₁.2, hu₁⟩⟩
    all_goals exact ⟨hb₁, Or.inl rfl⟩
  · exact (recordInsert_safe hk hmode (h₁.wellFormed hw) hu₁ hnew₁ hb₁).mono
      (fun _ _ _ h => h.handled)

/-- Whatever is done, the mailbox stays well formed and UIDs are not given out twice. -/
def alive (k : Keywords) (prompt : Prop) : Growth (Notes k prompt) discipline (fun _ => True) where
  grow := fun l l' => (WellFormed l.world → WellFormed l'.world) ∧ l.world.uidNext ≤ l'.world.uidNext
  refl := fun _ => ⟨id, Nat.le_refl _⟩
  trans := fun h h' => ⟨fun ha => h'.1 (h.1 ha), h.2.trans h'.2⟩
  rely := by
    intro l l' h
    refine ⟨h.still.wellFormed, ?_⟩
    induction h with
    | refl => exact Nat.le_refl _
    | tail _ hlast ih =>
        obtain ⟨e, he, -, rfl⟩ := hlast
        exact ih.trans (uidNext_le_apply he)
  step := fun _ _ hE => ⟨hE.1.wellFormed, hE.1.uidNext_le⟩

/-- What is fetched is a message of the INBOX. -/
theorem fetchMessage_safe (uid : ℕ) (s : ICloudMailbox) (hw : WellFormed l.world) :
    (ICloudMailbox.fetchMessage uid).Safe (Notes k prompt) discipline
      (fun r s' l' => s' = s ∧ Still l l' ∧ ∀ message, r = .ok message → message.uid = uid ∧
        uid < l'.world.uidNext) s l := by
  have hidle : (ICloudMailbox.fetchMessage uid).Uses Idle :=
    (ICloudMailbox.fetchMessage_glances uid).mono (fun _ h => Or.inr (Or.inl h))
  refine ((ICloudMailbox.fetchMessage_safe ((alive k prompt).restrict (fun _ _ => trivial))
    (fun _ _ _ => trivial) uid).and (idle_safe hidle s l)).mono ?_
  rintro r s' l' ⟨⟨rfl, -, hok⟩, hstill⟩
  refine ⟨rfl, hstill, fun message hr => ?_⟩
  obtain ⟨hu, l₁, hl₁, hd⟩ := hok message hr
  obtain ⟨hworld, m, hm, hat, -⟩ := Serves.delivers (hd.map Sheet.world (fun h => h.1))
  refine ⟨hu, ?_⟩
  rw [hworld, ← hu, ← (Message.isAt_iff.mp hat).2]
  exact (hl₁.1 hw).given m hm

/-- **One message.** -/
theorem process_safe (hk : o.keywords = k) (hmode : o.quarantineMode = .keyword)
    {extraLabels : List String} (hw : WellFormed l.world) (hnew : uid ∉ l.trashed ∧ uid ∉ l.aside)
    (hb : Balanced prompt s.result l) :
    (process o extraLabels uid).Safe (Notes k prompt) discipline
      (fun _ s' l' => Handled prompt uid s.rejected s' l') s l := by
  rw [process, Routine.safe_bind, Routine.safe_attempt, safe_onMailbox]
  refine (fetchMessage_safe uid s.mailbox hw).mono ?_
  rintro r mailbox l₁ ⟨rfl, h₁, hok⟩
  have hb₁ : Balanced prompt s.result l₁ := hb.still h₁
  rw [Routine.after_ok]
  rcases r with e | message
  · cases e with
    | messageGone text => exact ⟨hb₁.report rfl rfl, Or.inl rfl⟩
    | mailboxError text => exact ⟨hb₁, Or.inl rfl⟩
    | abortRun text => exact ⟨hb₁, Or.inl rfl⟩
    | gmailError cls text status => exact ⟨hb₁, Or.inl rfl⟩
    | other name text => exact ⟨hb₁, Or.inl rfl⟩
  · obtain ⟨rfl, hu⟩ := hok message rfl
    have hnew₁ : message.uid ∉ l₁.trashed ∧ message.uid ∉ l₁.aside := by
      rw [h₁.same]
      exact hnew
    dsimp only
    split
    · exact ⟨hb₁.report rfl rfl, Or.inl rfl⟩
    · split
      · exact (trash_safe (h₁.wellFormed hw) hnew₁.1 hb₁).mono (fun _ _ _ h => h.handled)
      · exact insert_safe hk hmode (h₁.wellFormed hw) hu hnew₁ hb₁

/-! ## What one message leaves of the others -/

/-- The calls about the message at `uid`. -/
def Concerns (uid : ℕ) (op : Op) : Prop :=
  op.isOn uid = true ∨ op.isInsert = true ∨ ∃ raw, op = .issueTrash raw

/-- What is entered into the sheet is entered for `uid`. -/
structure Only (uid : ℕ) (l l' : Sheet) : Prop where
  trashed : l'.trashed ⊆ insert uid l.trashed
  aside : l'.aside ⊆ insert uid l.aside

theorem subset_insert_if (b : Bool) (uid : ℕ) (s : Finset ℕ) :
    (if b then insert uid s else s) ⊆ insert uid s := by
  cases b with
  | false => exact Finset.subset_insert uid s
  | true => exact Finset.Subset.refl _

theorem Only.refl (uid : ℕ) (l : Sheet) : Only uid l l :=
  ⟨Finset.subset_insert _ _, Finset.subset_insert _ _⟩

theorem Only.trans {a b c : Sheet} (h : Only uid a b) (h' : Only uid b c) : Only uid a c where
  trashed := h'.trashed.trans (Finset.insert_subset (Finset.mem_insert_self _ _) h.trashed)
  aside := h'.aside.trans (Finset.insert_subset (Finset.mem_insert_self _ _) h.aside)

theorem only_note {op : Op} (hop : Concerns uid op) (w' : World) : Only uid l (l.note k op w') := by
  have hu : ∀ u, decide (u = uid) = true → u = uid := fun _ => of_decide_eq_true
  cases op
  case addFlags u flag =>
    obtain rfl : u = uid := hop.elim (hu u) (fun h => h.elim nofun (fun ⟨_, h⟩ => by cases h))
    exact ⟨Finset.subset_insert _ _, subset_insert_if _ _ _⟩
  case move u folder =>
    obtain rfl : u = uid := hop.elim (hu u) (fun h => h.elim nofun (fun ⟨_, h⟩ => by cases h))
    exact ⟨subset_insert_if _ _ _, subset_insert_if _ _ _⟩
  all_goals exact ⟨Finset.subset_insert _ _, Finset.subset_insert _ _⟩

/-- Calls about the message at `uid` only. -/
def concerning (uid : ℕ) : Discipline Op Sheet := ⟨Others, fun _ op => Concerns uid op⟩

def only (k : Keywords) (prompt : Prop) (uid : ℕ) :
    Growth (Notes k prompt) (concerning uid) (fun _ => True) where
  grow := Only uid
  refl := .refl uid
  trans := .trans
  rely := by
    intro l l' h
    rw [(Others.still h).same]
    exact ⟨Finset.subset_insert _ _, Finset.subset_insert _ _⟩
  step := by
    rintro l op r l' - hop ⟨-, -, hnote⟩
    rw [hnote]
    exact only_note hop _

theorem process_only {extraLabels : List String} (s : RunState) (l : Sheet) :
    (process o extraLabels uid).Safe (Notes k prompt) discipline (fun _ _ l' => Only uid l l')
      s l := by
  have hsafe : (process o extraLabels uid).Safe (Notes k prompt) (concerning uid)
      (fun _ _ l' => Only uid l l') s l :=
    process_follows (S := Concerns uid) (fun _ h => Or.inl h)
      (fun raw => Or.inr (Or.inr ⟨raw, rfl⟩)) (only k prompt uid) (fun _ _ => Or.inr (Or.inl rfl))
      (fun _ _ h => h)
  exact hsafe.guard_mono id (fun _ => trivial)

theorem quarantine_only {folder : String} (s : RunState) (l : Sheet) :
    (quarantine o uid keyword folder).Safe (Notes k prompt) discipline
      (fun _ _ l' => Only uid l l') s l := by
  have hsafe : (quarantine o uid keyword folder).Safe (Notes k prompt) (concerning uid)
      (fun _ _ l' => Only uid l l') s l :=
    Routine.Safe.of_uses (only k prompt uid) quarantine_uses (fun _ _ => trivial)
      (fun _ _ _ h => Or.inl h)
  exact hsafe.guard_mono id (fun _ => trivial)

/-! ## The loop and the settlement -/

/-- The books of a run with these messages left: nothing has been done to them or to those that were
    rejected. -/
structure Going (prompt : Prop) (left : List ℕ) (s : RunState) (l : Sheet) : Prop where
  balanced : Balanced prompt s.result l
  wellFormed : WellFormed l.world
  given : ∀ r ∈ s.rejected, r.uid < l.world.uidNext
  distinct : (s.rejected.map Rejection.uid ++ left).Nodup
  fresh : ∀ u ∈ s.rejected.map Rejection.uid ++ left, u ∉ l.trashed ∧ u ∉ l.aside

theorem Going.later {left : List ℕ} {s s' : RunState} (h : Going prompt left s l) (hs : s.Level s')
    (hl : Still l l') : Going prompt left s' l' where
  balanced := (h.balanced.still hl).report hs.trashed hs.quarantined
  wellFormed := hl.wellFormed h.wellFormed
  given := by
    rw [hs.rejected]
    exact fun r hr => Nat.lt_of_lt_of_le (h.given r hr) (hl.wanes h.wellFormed).uidNext
  distinct := by
    rw [hs.rejected]
    exact h.distinct
  fresh := by
    rw [hs.rejected, hl.same]
    exact h.fresh

/-- Nothing need be known of the messages that are left. -/
theorem Going.rejected {left : List ℕ} {s : RunState} (h : Going prompt left s l) :
    Going prompt [] s l where
  balanced := h.balanced
  wellFormed := h.wellFormed
  given := h.given
  distinct := by
    rw [List.append_nil]
    exact h.distinct.of_append_left
  fresh := by
    rw [List.append_nil]
    exact fun u hu => h.fresh u (List.mem_append_left _ hu)

/-- The next message has been handled. -/
theorem Going.next {rest : List ℕ} {s s' : RunState} (h : Going prompt (uid :: rest) s l)
    (hhandled : Handled prompt uid s.rejected s' l') (honly : Only uid l l')
    (halive : (WellFormed l.world → WellFormed l'.world) ∧ l.world.uidNext ≤ l'.world.uidNext) :
    Going prompt rest s' l' := by
  obtain ⟨hb, hrejected⟩ := hhandled
  have hgiven : ∀ r ∈ s.rejected, r.uid < l'.world.uidNext :=
    fun r hr => Nat.lt_of_lt_of_le (h.given r hr) halive.2
  have hperm : (s.rejected.map Rejection.uid ++ uid :: rest).Perm
      (uid :: (s.rejected.map Rejection.uid ++ rest)) := List.perm_middle
  obtain ⟨hout, hnodup⟩ := List.nodup_cons.mp (hperm.nodup_iff.mp h.distinct)
  -- the others are as fresh as they were
  have hfresh : ∀ u ∈ s.rejected.map Rejection.uid ++ rest, u ∉ l'.trashed ∧ u ∉ l'.aside := by
    intro u hu
    have hne : u ≠ uid := fun he => hout (he ▸ hu)
    obtain ⟨ht, ha⟩ := h.fresh u (hperm.mem_iff.mpr (List.mem_cons_of_mem _ hu))
    refine ⟨fun hin => ?_, fun hin => ?_⟩
    · rcases Finset.mem_insert.mp (honly.trashed hin) with he | hin
      · exact hne he
      · exact ht hin
    · rcases Finset.mem_insert.mp (honly.aside hin) with he | hin
      · exact hne he
      · exact ha hin
  rcases hrejected with he | ⟨text, b, he, ht, ha, hu⟩
  · rw [← he] at hgiven hnodup hfresh
    exact ⟨hb, halive.1 h.wellFormed, hgiven, hnodup, hfresh⟩
  · have hmap : s'.rejected.map Rejection.uid ++ rest =
        s.rejected.map Rejection.uid ++ uid :: rest := by simp [he]
    refine ⟨hb, halive.1 h.wellFormed, fun r hr => ?_, hmap ▸ h.distinct, fun u hin => ?_⟩
    · rw [he] at hr
      rcases List.mem_append.mp hr with hr | hr
      · exact hgiven r hr
      · rw [List.mem_singleton.mp hr]
        exact hu
    · rw [hmap] at hin
      rcases List.mem_cons.mp (hperm.mem_iff.mp hin) with rfl | hin
      · exact ⟨ht, ha⟩
      · exact hfresh u hin

/-- **One step of the loop.** -/
theorem process_going (hk : o.keywords = k) (hmode : o.quarantineMode = .keyword)
    {extraLabels : List String} {rest : List ℕ} (h : Going prompt (uid :: rest) s l) :
    (process o extraLabels uid).Safe (Notes k prompt) discipline
      (fun _ s' l' => Going prompt rest s' l') s l := by
  have hnew := h.fresh uid (List.mem_append_right _ List.mem_cons_self)
  have halive := Routine.Safe.follows (alive k prompt) (fun _ _ => trivial)
    (process o extraLabels uid) s l
  refine (((process_safe hk hmode h.wellFormed hnew h.balanced).and
    (process_only s l)).and halive).mono ?_
  rintro r s' l' ⟨⟨hhandled, honly⟩, halive⟩
  exact h.next hhandled honly halive

/-- What settling a list needs. -/
structure Settling (prompt : Prop) (rejected : List Rejection) (s : RunState) (l : Sheet) :
    Prop where
  balanced : Balanced prompt s.result l
  wellFormed : WellFormed l.world
  given : ∀ r ∈ rejected, r.uid < l.world.uidNext
  distinct : (rejected.map Rejection.uid).Nodup
  fresh : ∀ r ∈ rejected, r.uid ∉ l.aside

theorem quarantineAll_safe (hk : o.keywords = k) (hmode : o.quarantineMode = .keyword)
    {rejected : List Rejection} (h : Settling prompt rejected s l) :
    (quarantineAll o rejected).Safe (Notes k prompt) discipline
      (fun _ s' l' => Balanced prompt s'.result l') s l := by
  induction rejected generalizing s l with
  | nil => exact h.balanced
  | cons rejection rest ih =>
      rw [quarantineAll, Routine.safe_bind, Routine.safe_attempt]
      have hfailed : matchesAny [o.keywords.failed] k.quarantine = true :=
        hk ▸ matchesAny_singleton rfl (Or.inl rfl)
      have halive := Routine.Safe.follows (alive k prompt) (fun _ _ => trivial)
        (quarantine o rejection.uid o.keywords.failed o.failedFolder) s l
      refine (((quarantine_safe hmode o.keywords.failedOk.ascii hfailed h.wellFormed
        (h.given _ List.mem_cons_self) (h.fresh _ List.mem_cons_self) h.balanced.toCounted
        (Or.inl h.balanced)).and (quarantine_only s l)).and halive).mono ?_
      rintro r s' l' ⟨⟨⟨hb, -⟩, honly⟩, halive⟩
      obtain ⟨hout, hnodup⟩ := List.nodup_cons.mp h.distinct
      rw [Routine.after_ok]
      split
      · refine ih ⟨hb, halive.1 h.wellFormed, fun r hr => ?_, hnodup, fun r hr hin => ?_⟩
        · exact Nat.lt_of_lt_of_le (h.given r (List.mem_cons_of_mem _ hr)) halive.2
        · rcases Finset.mem_insert.mp (honly.aside hin) with he | hin
          · exact hout (he ▸ List.mem_map_of_mem hr)
          · exact h.fresh r (List.mem_cons_of_mem _ hr) hin
      · exact hb.report rfl rfl
      · exact hb

theorem settleRejections_safe (hk : o.keywords = k) (hmode : o.quarantineMode = .keyword)
    (h : Going prompt [] s l) :
    (settleRejections o).Safe (Notes k prompt) discipline
      (fun _ s' l' => Balanced prompt s'.result l') s l := by
  have hdistinct := h.distinct
  have hfresh := h.fresh
  rw [List.append_nil] at hdistinct hfresh
  have hall : ∀ (p : Rejection → Bool) result, result.trashed = s.result.trashed →
      result.quarantined = s.result.quarantined →
      Settling prompt (s.rejected.filter p) { s with result := result } l := by
    intro p result ht hq
    refine ⟨h.balanced.report ht hq, h.wellFormed, fun r hr => ?_, ?_, fun r hr => ?_⟩
    · exact h.given r (List.mem_filter.mp hr).1
    · exact hdistinct.sublist (List.filter_sublist.map _)
    · exact (hfresh _ (List.mem_map_of_mem (List.mem_filter.mp hr).1)).2
  simp only [settleRejections, Routine.safe_bind, Routine.safe_getSelf, Routine.after_ok]
  split
  · rw [Routine.safe_bind]
    unfold breakerMessage
    split
    · exact h.balanced
    · rw [Routine.safe_pure, Routine.after_ok, Routine.safe_bind, safe_count, Routine.after_ok]
      exact quarantineAll_safe hk hmode (hall _ _ rfl rfl)
  · have htrue := hall (fun _ => true) s.result rfl rfl
    rw [List.filter_eq_self.mpr (fun _ _ => rfl)] at htrue
    exact quarantineAll_safe hk hmode htrue

/-- `SEARCH` names no message twice. -/
def NamesOnce (op : Op) (r : Reply op) : Prop :=
  match op, r with
  | .search _, .ok uids => uids.Nodup
  | _, _ => True

theorem namesOnce_of_notes {op : Op} {r : Reply op} (h : Notes k prompt l op r l') :
    NamesOnce op r := by
  have hobliges := h.2.1
  cases op
  case search criteria =>
    cases r with
    | ok uids => exact hobliges
    | error e => trivial
  all_goals trivial

/-- The growth, as the rule of a run needs it. -/
abbrev surveyed (k : Keywords) (prompt : Prop) :
    Growth (Notes k prompt) discipline (fun op => op.isSurvey = true) :=
  (still k prompt).restrict (fun _ => Or.inl)

/-- **A run, however it ends.** -/
theorem run_safe (hk : o.keywords = k) (hmode : o.quarantineMode = .keyword)
    (h : Going prompt [] s l) (hnone : s.rejected = []) (htrashed : l.trashed = ∅)
    (haside : l.aside = ∅) :
    (run o).Safe (Notes k prompt) discipline (fun r s' l' => Balanced prompt s'.result l' ∧
      ∀ result, r = .ok result → result = s'.result) s l := by
  refine run_always (I := fun s l => Going prompt [] s l ∧ s.rejected = [] ∧ l.trashed = ∅ ∧
      l.aside = ∅) (K := Going prompt []) (J := Going prompt)
    (Q := fun s l => Balanced prompt s.result l) (fun _ _ _ => trivial) (surveyed k prompt)
    (fun hK => hK.balanced) (fun hs hl hJ => hJ.later hs.toLevel hl)
    (fun hs hl hK => hK.later hs.toLevel hl)
    (fun hJ => hJ.rejected) ?_ ?_ (fun hI => hI.1.balanced) ?_ ?_ ?_
    ⟨h, hnone, htrashed, haside⟩
  · intro extraLabels uid rest s l hJ
    refine (process_going hk hmode hJ).mono (fun r s' l' hJ' => ?_)
    exact ⟨fun _ => hJ', fun _ _ => hJ'.rejected, fun _ _ => hJ'.balanced⟩
  · rintro s s' l l' hs hl ⟨hI, hn, ht, ha⟩
    refine ⟨hI.later hs.toLevel hl, hs.rejected.trans hn, ?_, ?_⟩
    · rw [hl.same]
      exact ht
    · rw [hl.same]
      exact ha
  · rintro s l ⟨hI, hn, ht, ha⟩
    have hidle : (ICloudMailbox.listInboxUids (some o.keywords.quarantine)).Uses Idle :=
      (ICloudMailbox.listInboxUids_glances _).mono (fun _ h => Or.inr (Or.inl h))
    rw [safe_onMailbox]
    refine ((idle_safe hidle s.mailbox l).also (fun hE => namesOnce_of_notes hE)
      (Settlement.listInboxUids_nodup (fun _ _ h => h) _ s.mailbox)).mono ?_
    rintro r mailbox l' ⟨hstill, hnodup⟩
    have hI' : Going prompt [] { s with mailbox := mailbox } l' :=
      hI.later ⟨rfl, rfl, rfl, rfl, rfl, rfl⟩ hstill
    refine ⟨fun uids hr => ?_, fun _ _ => hI'.balanced⟩
    refine ⟨hI'.balanced, hI'.wellFormed, hI'.given, ?_, fun u _ => ?_⟩
    · rw [hn]
      exact hnodup uids hr
    · rw [hstill.same, ht, ha]
      exact ⟨Finset.notMem_empty u, Finset.notMem_empty u⟩
  · intro s l hK _
    exact settleRejections_safe hk hmode hK
  · intro s s' l l' hs hl hQ
    exact (hQ.still hl).report hs.trashed hs.quarantined

/-! ## The theorem -/

/-- **Counts stay truthful as long as nothing is missed.** Whatever the other clients take out of the
    INBOX during a run: if every `STORE` and `MOVE` of the run finds its message, the counters are
    what the run has done and no folder is created to set mail aside; if one does not find it, and
    `STORE` reports at once what it has stored, one of the counters is too high. -/
theorem truthful_iff {o : ForwarderOptions} (hmode : o.quarantineMode = .keyword) (prompt : Prop)
    {w : World} (hw : WellFormed w) {l : Sheet} {result : SyncResult} {s : RunState}
    (hrun : Program.Steps ((Notes o.keywords prompt).under Others)
      (opened w, run o (initial o)) (l, .pure (.ok result, s))) :
    (l.missed = false → Faithful result l) ∧
    (prompt → Faithful result l → l.missed = false) := by
  have hbalanced : Balanced prompt {} (opened w) :=
    ⟨⟨Nat.le_refl _, Nat.le_refl _, fun _ => ⟨rfl, rfl, rfl⟩⟩, fun _ => nofun⟩
  have hgoing : Going prompt [] (initial o) (opened w) :=
    ⟨hbalanced, hw, nofun, List.nodup_nil, nofun⟩
  have hsafe := run_safe (k := o.keywords) rfl hmode hgoing rfl rfl rfl
  obtain ⟨hb, hresult⟩ := (Program.Safe.steps (I := fun _ => True) (fun _ h => h)
    (fun _ _ h => h) hsafe trivial hrun).2
  rw [← hresult result rfl] at hb
  refine ⟨hb.exact, fun hp hfaithful => Bool.eq_false_iff.mpr (fun hmissed => ?_)⟩
  have htrashed := hfaithful.trashed
  have hquarantined := hfaithful.quarantined
  rcases hb.tooHigh hp hmissed with hover | hover
  · omega
  · omega

/-! ## Mail that is removed before it is marked -/

theorem find_isSome {w : World} (h : w.holds uid = true) : (w.find uid).isSome = true := by
  obtain ⟨m, hm, hat⟩ := World.holds_iff.mp h
  exact List.find?_isSome.mpr ⟨m, hm, hat⟩

open Settlement (nameOnce nameOnce_serves)

/-- A provider with `MOVE` is such a server, and reports at once. -/
theorem nameOnce_obliges (P : Provider) (hP : P.move = true) (w : World) (op : Op) :
    Obliges True w op (nameOnce P w op).1 (nameOnce P w op).2 := by
  cases op
  case search criteria => exact List.nodup_dedup _
  case fetch uids items =>
    cases items with
    | flags =>
        intro uid hin hholds
        obtain ⟨m, hf⟩ := Option.isSome_iff_exists.mp (find_isSome hholds)
        have hf : w.find uid = some m := hf
        show ((w.fetchInbox uids .flags).lookup uid).isSome = true
        rw [lookup_fetchInbox, if_pos hin, hf]
        rfl
    | _ => trivial
  case addFlags uid flag =>
    refine ⟨rfl, fun _ hholds => ?_⟩
    obtain ⟨m, hf⟩ := Option.isSome_iff_exists.mp (find_isSome hholds)
    have hat := (World.find_some hf).2
    show hasFlag ((((effect (.addFlags uid flag) w).storedFlags uid).lookup uid).getD []) flag = true
    simp [World.storedFlags, effect, World.find_store, hf, World.stored_of_isAt _ hat]
  case hasCapability name =>
    rintro rfl
    show (decide ("MOVE" = "MOVE") && P.move || decide ("MOVE" = "UIDPLUS") && P.uidPlus) = true
    rw [hP]
    rfl
  all_goals trivial

/-- What the other client has done before the call: it removes the mail with UID 1 right before the
    first `STORE` on it. -/
def meddled (w : World) (op : Op) : World :=
  match op, w.find 1 with
  | .addFlags _ _, some m => (Event.remove m).apply w
  | _, _ => w

/-- The provider, with such a client. -/
def beside (P : Provider) (l : Sheet) (op : Op) : Reply op × Sheet :=
  let answer := nameOnce P (meddled l.world op) op
  (answer.1, ({ l with world := meddled l.world op } : Sheet).note Keywords.default op answer.2)

theorem beside_notes (P : Provider) (hP : P.move = true) (l : Sheet) (op : Op) :
    ((Notes Keywords.default True).under Others) l op (beside P l op).1 (beside P l op).2 := by
  have hworld : (beside P l op).2.world = (nameOnce P (meddled l.world op) op).2 :=
    Sheet.note_world _ _ _ _
  refine ⟨{ l with world := meddled l.world op }, ?_, ?_, ?_, ?_⟩
  · unfold meddled
    split
    · next m hf => exact .single ⟨.remove m, (World.find_some hf).1, trivial, rfl⟩
    · exact .refl
  · rw [hworld]
    exact nameOnce_serves P _ op
  · rw [hworld]
    exact nameOnce_obliges P hP _ op
  · rw [hworld]
    rfl

theorem ok_of_toOption {ε α : Type} {r : Except ε α} {a : α} (h : r.toOption = some a) :
    r = .ok a := by
  cases r with
  | error e => cases h
  | ok b =>
      cases h
      rfl

/-- The run during which the mail is removed. -/
def bereft : (Except Exc SyncResult × RunState) × Sheet :=
  (run .default).exec (beside {}) (initial .default) (opened oneMail)

/-- **A counter that is too high.** The mail is removed after it was inserted and before the inserted
    keyword is stored on it. The run counts one quarantined message and has created the folder
    `Forward-Unverified`, and it has tagged and moved nothing. -/
theorem removed_mail_counted : WellFormed oneMail ∧ ∃ result,
    Program.Steps ((Notes Keywords.default True).under Others)
      (opened oneMail, run .default (initial .default))
      (bereft.2, .pure (.ok result, bereft.1.2)) ∧
    ¬Faithful result bereft.2 ∧
    result.quarantined = 1 ∧ bereft.2.aside = ∅ ∧ bereft.2.made = ["Forward-Unverified"] := by
  have hquarantined : bereft.1.1.toOption.map SyncResult.quarantined = some 1 := by decide +kernel
  obtain ⟨result, hok, hcount⟩ := Option.map_eq_some_iff.mp hquarantined
  have hresult : bereft.1.1 = .ok result := ok_of_toOption hok
  have hmade : bereft.2.made = ["Forward-Unverified"] := by decide +kernel
  refine ⟨oneMail_wellFormed, result, ?_, fun hf => ?_, hcount, by decide +kernel, hmade⟩
  swap
  · rw [hf.made] at hmade
    exact absurd hmade nofun
  have h := Program.exec_steps (beside {}) (fun l op => beside_notes {} rfl l op)
    (run .default (initial .default)) (opened oneMail)
  rw [← hresult]
  exact h

/-- The provider, with nobody else there. -/
def observed (P : Provider) (l : Sheet) (op : Op) : Reply op × Sheet :=
  ((nameOnce P l.world op).1, l.note Keywords.default op (nameOnce P l.world op).2)

theorem observed_notes (P : Provider) (hP : P.move = true) (l : Sheet) (op : Op) :
    ((Notes Keywords.default True).under Others) l op (observed P l op).1 (observed P l op).2 := by
  have hworld : (observed P l op).2.world = (nameOnce P l.world op).2 := Sheet.note_world _ _ _ _
  refine ⟨l, .refl, ?_, ?_, ?_⟩
  · rw [hworld]
    exact nameOnce_serves P _ op
  · rw [hworld]
    exact nameOnce_obliges P hP _ op
  · rw [hworld]
    rfl

/-- Nobody interferes: Gmail has the mail, and it is counted. -/
def undisturbed : (Except Exc SyncResult × RunState) × Sheet :=
  (run .default).exec (observed {}) (initial .default) (opened oneMail)

theorem truthful_iff_oneMail : ∃ result,
    (undisturbed.2.missed = false → Faithful result undisturbed.2) ∧
      (True → Faithful result undisturbed.2 → undisturbed.2.missed = false) := by
  have hforwarded : undisturbed.1.1.toOption.map SyncResult.forwarded = some 1 := by decide +kernel
  obtain ⟨result, hok, -⟩ := Option.map_eq_some_iff.mp hforwarded
  have hresult : undisturbed.1.1 = .ok result := ok_of_toOption hok
  have h := Program.exec_steps (observed {}) (fun l op => observed_notes {} rfl l op)
    (run .default (initial .default)) (opened oneMail)
  refine ⟨result, truthful_iff (o := .default) rfl True oneMail_wellFormed (s := undisturbed.1.2) ?_⟩
  rw [← hresult]
  exact h

end Vanishing

end MailTransporter
