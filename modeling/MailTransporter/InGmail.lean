import MailTransporter.NoResend
import MailTransporter.Requeue

set_option autoImplicit false

/-! # What `list-quarantined` says about Gmail

`_collect` reads off the keywords of a message whether Gmail has it. `Books` says that they tell:
whatever carries the inserted or the unverified keyword has been accepted, and whatever has been
accepted carries one of the two, but for the mail a run has had accepted and not recorded yet. A
failed keyword hides the unverified one from `_collect`, so a message with both needs the inserted
one, too. -/

namespace MailTransporter

open Effect

namespace InGmail

/-! ## The server and the other clients -/

/-- `SEARCH` names no message twice. -/
def NamesOnce (op : Op) (r : Reply op) : Prop :=
  match op, r with
  | .search _, .ok uids => uids.Nodup
  | _, _ => True

def Server (k : Keywords) : Env Op Reply Diary := fun d op r d' =>
  Diary.Keeps k d op r d' ∧ NamesOnce op r

/-- The message is in the INBOX. -/
def Inbox (w : World) (m : Message) : Prop := m ∈ w.messages ∧ m.folder = "INBOX"

/-- The mail was in the INBOX at the beginning, or has come in since. -/
def Seen (w₀ : World) (d : Diary) (raw : RawMail) : Prop :=
  (∃ m, Inbox w₀ m ∧ m.raw = raw) ∨ ∃ again, Note.entered raw again ∈ d.log

/-- None of the keywords of the tool is on the message. -/
def Blank (k : Keywords) (m : Message) : Prop := ∀ keyword ∈ k.all, m.has keyword = false

/-- What another client moves or copies into the INBOX carries no keyword of the tool. -/
def PutsBlank (k : Keywords) : Event → Prop
  | .refile m folder => folderName folder = "INBOX" → Blank k m
  | .duplicate m folder => folderName folder = "INBOX" → Blank k m
  | _ => True

/-- The event leaves the keywords of the tool alone, and what it puts into the INBOX is mail that
    neither the INBOX nor Gmail has had. -/
structure Polite (k : Keywords) (w₀ : World) (d : Diary) (e : Event) : Prop where
  keeps : Requeue.KeepsKeywords k e
  fresh : ∀ raw ∈ Diary.enters e, ¬ Seen w₀ d raw ∧ ¬ d.world.Accepted raw
  blank : PutsBlank k e

/-- A move of the other clients, noted in the diary. -/
def Others (k : Keywords) (w₀ : World) (d d' : Diary) : Prop :=
  ∃ e : Event, e.Enabled d.world ∧ Polite k w₀ d e ∧
    d' = { d with world := e.apply d.world, log := Diary.noticed e d.world ++ d.log }

variable {k : Keywords} {w₀ : World} {d d' : Diary} {uid : ℕ} {raw : RawMail}

theorem inbox_of_isAt {w : World} {m : Message} (hm : m ∈ w.messages) (hat : m.isAt uid = true) :
    Inbox w m ∧ m.uid = uid := by
  obtain ⟨hfolder, hu⟩ := Message.isAt_iff.mp hat
  exact ⟨⟨hm, hfolder⟩, hu⟩

theorem Inbox.isAt {w : World} {m : Message} (h : Inbox w m) : m.isAt m.uid = true :=
  Message.isAt_iff.mpr ⟨h.2, rfl⟩

/-! ## What the keywords tell -/

/-- The message says that Gmail has it. -/
def Told (k : Keywords) (m : Message) : Prop :=
  m.has k.inserted = true ∨ m.has k.unverified = true

/-- If the message carries the unverified keyword, it carries the inserted one. -/
def Backed (k : Keywords) (m : Message) : Prop :=
  m.has k.unverified = true → m.has k.inserted = true

structure Books (k : Keywords) (w₀ : World) (d : Diary) : Prop where
  wellFormed : WellFormed d.world
  seen : ∀ m, Inbox d.world m → Seen w₀ d m.raw
  distinct : ∀ m m', Inbox d.world m → Inbox d.world m' → m.raw = m'.raw → m.uid = m'.uid
  backed : ∀ m, Inbox d.world m → m.has k.failed = true → Backed k m
  told : ∀ m, Inbox d.world m → Told k m → d.world.Accepted m.raw
  known : ∀ m, Inbox d.world m → d.world.Accepted m.raw →
    Told k m ∨ Log.Unrecorded m.raw d.log
  spared : ∀ m, Inbox d.world m → Log.Unrecorded m.raw d.log → m.has k.failed = false
  accepted : ∀ raw, Log.Unrecorded raw d.log → d.world.Accepted raw

theorem Books.one (h : Books k w₀ d) {m m' : Message} (hm : Inbox d.world m)
    (hm' : Inbox d.world m') (hraw : m.raw = m'.raw) : m = m' :=
  h.wellFormed.unique hm.1 hm'.1 (h.distinct m m' hm hm' hraw)

/-- What a call must respect: the keywords of the tool are stored only where they tell the truth,
    and `retry` clears none but the failed one. -/
def Allowed (k : Keywords) (d : Diary) : Op → Prop
  | .insertRaw raw _ => ∀ m, Inbox d.world m → m.raw = raw → m.has k.failed = false
  | .addFlags uid flag => ∀ m, Inbox d.world m → m.uid = uid →
      (lower flag = lower k.inserted → d.world.Accepted m.raw) ∧
      (lower flag = lower k.unverified →
        d.world.Accepted m.raw ∧ (m.has k.failed = true → m.has k.inserted = true)) ∧
      (lower flag = lower k.failed → Backed k m ∧ ¬ Log.Unrecorded m.raw d.log)
  | .removeFlags _ flag => flag = k.failed
  | _ => True

/-! ## One call -/

variable {op : Op} {r : Reply op}

/-- What is in the INBOX after a call was there before; a keyword it has gained is one the call has
    stored on it, and it has lost at most the failed keyword. -/
theorem stem (hg : Allowed k d op) (h : Diary.Keeps k d op r d') {m' : Message}
    (hm' : Inbox d'.world m') :
    ∃ m, Inbox d.world m ∧ m.uid = m'.uid ∧ m.raw = m'.raw ∧
      (∀ flag, m'.has flag = true → m.has flag = true ∨
        ∃ f, op = .addFlags m.uid f ∧ lower flag = lower f) ∧
      ∀ flag, lower flag ≠ lower k.failed → m.has flag = true → m'.has flag = true := by
  obtain ⟨m, hm, hfolder, hu, hraw, hcase⟩ := Diary.stems h hm'.1 hm'.2
  refine ⟨m, ⟨hm, hfolder⟩, hu, hraw, ?_⟩
  rcases hcase with rfl | ⟨-, rfl⟩
  · exact ⟨fun _ hhas => Or.inl hhas, fun _ _ hhas => hhas⟩
  refine ⟨fun flag hhas => ?_, fun flag hne hhas => ?_⟩
  · by_cases hold : m.has flag = true
    · exact Or.inl hold
    · obtain ⟨uid, f, rfl, hat, he⟩ := of_has_flagsAfter (Bool.eq_false_iff.mpr hold) hhas
      obtain rfl := (Message.isAt_iff.mp hat).2
      exact Or.inr ⟨f, rfl, he⟩
  · by_cases hremove : ∃ uid f, op = .removeFlags uid f
    · obtain ⟨uid, f, rfl⟩ := hremove
      obtain rfl : f = k.failed := hg
      have hhas : hasFlag m.flags flag = true := hhas
      show hasFlag (flagsAfter (.removeFlags uid k.failed) m) flag = true
      simp only [flagsAfter]
      split
      · rw [hasFlag_removeFlag, hhas, Bool.true_and]
        exact decide_eq_true hne
      · exact hhas
    · exact has_flagsAfter (fun uid f he => hremove ⟨uid, f, he⟩) hhas

/-- Only an insert that is answered makes Gmail accept a mail, and it is noted. -/
theorem accepted_cases (h : Diary.Keeps k d op r d') (ha : d'.world.Accepted raw) :
    d.world.Accepted raw ∨ Log.Unrecorded raw d'.log := by
  by_cases hop : op.isInsert = true
  · cases op
    case insertRaw raw' labels =>
      cases r with
      | error e =>
          have hsame : d'.world = d.world := h.2.1
          exact Or.inl (hsame ▸ ha)
      | ok id =>
          have hw : d'.world = effect (.insertRaw raw' labels) d.world :=
            Serves.effect_of_ok rfl h.1
          rw [hw] at ha
          obtain ⟨copy, hc, rfl⟩ := ha
          rcases List.mem_append.mp hc with hc | hc
          · exact Or.inl ⟨copy, hc, rfl⟩
          · rw [List.mem_singleton.mp hc, h.2.2.2]
            exact Or.inr (Or.inl ⟨rfl, rfl⟩)
    all_goals exact absurd hop nofun
  · refine Or.inl ?_
    rcases h.1.cases with hw | hw
    · exact hw ▸ ha
    · obtain ⟨copy, hc, he⟩ := ha
      have hsame : (effect op d.world).gmail = d.world.gmail := by
        refine effect_gmail d.world ?_
        rintro raw labels rfl
        exact hop rfl
      rw [hw, hsame] at hc
      exact ⟨copy, hc, he⟩

theorem accepted_stays (h : Diary.Keeps k d op r d') (ha : d.world.Accepted raw) :
    d'.world.Accepted raw := by
  rcases h.1.cases with hw | hw
  · exact hw ▸ ha
  · rw [hw]
    exact accepted_effect op ha

theorem seen_stays {new : Log} (hlog : d'.log = new ++ d.log) (hs : Seen w₀ d raw) :
    Seen w₀ d' raw := by
  rcases hs with hs | ⟨again, hin⟩
  · exact Or.inl hs
  · rw [Seen, hlog]
    exact Or.inr ⟨again, List.mem_append_right _ hin⟩

/-- A mail is unrecorded because it was, or because this call has had it accepted. -/
theorem unrecorded_cases (h : Diary.Keeps k d op r d') (hu : Log.Unrecorded raw d'.log) :
    Log.Unrecorded raw d.log ∨ ∃ labels, op = .insertRaw raw labels ∧ d'.world.Accepted raw := by
  by_cases hold : Log.Unrecorded raw d.log
  · exact Or.inl hold
  rw [h.2.2.2] at hu
  by_cases hop : op.isInsert = true
  · cases op
    case insertRaw raw' labels =>
      rw [Diary.notesOf_insert] at hu
      cases r with
      | error e =>
          rcases e with _ | _ | _ | ⟨_ | _ | _ | _, _, _⟩ | _
          all_goals
            rcases hu with ⟨-, he⟩ | hu
            · exact absurd he nofun
            · exact absurd hu hold
      | ok id =>
          rcases hu with ⟨rfl, -⟩ | hu
          · have hw : d'.world = effect (.insertRaw raw' labels) d.world :=
              Serves.effect_of_ok rfl h.1
            refine Or.inr ⟨labels, rfl, ?_⟩
            rw [hw]
            exact ⟨⟨raw', labels⟩, List.mem_append_right _ (List.mem_singleton_self _), rfl⟩
          · exact absurd hu hold
    all_goals exact absurd hop nofun
  · have hinner := Diary.notesOf_inner (k := k) (r := r) (w := d.world) (v := d'.world)
      (Bool.eq_false_iff.mpr hop)
    exact absurd hu (Log.unrecorded_inv hinner hold)

/-- A mail that was unrecorded stays so, unless the server has shown a keyword on it or has taken it
    out of the INBOX. -/
theorem unrecorded_stays (h : Diary.Keeps k d op r d') (hu : Log.Unrecorded raw d.log) :
    Log.Unrecorded raw d'.log ∨ Note.marked raw ∈ Diary.notesOf k op r d.world d'.world := by
  by_cases hn : Note.marked raw ∈ Diary.notesOf k op r d.world d'.world
  · exact Or.inr hn
  refine Or.inl ?_
  rw [h.2.2.2]
  by_cases hop : op.isInsert = true
  · cases op
    case insertRaw raw' labels =>
      obtain ⟨v, hv⟩ := Diary.answersOf_insert raw' labels r
      rw [Diary.notesOf_insert, hv]
      exact Or.inr hu
    all_goals exact absurd hop nofun
  · have hinner := Diary.notesOf_inner (k := k) (r := r) (w := d.world) (v := d'.world)
      (Bool.eq_false_iff.mpr hop)
    exact Log.unrecorded_stays (fun n hin => ⟨hinner n hin, fun he => hn (he ▸ hin)⟩) hu

theorem told_of_mem {m : Message} {keyword : String} (hk : keyword ∈ k.all)
    (hne : keyword ≠ k.failed) (h : m.has keyword = true) : Told k m := by
  simp only [Keywords.all, List.mem_cons, List.not_mem_nil, or_false] at hk
  rcases hk with rfl | rfl | rfl
  · exact Or.inl h
  · exact absurd rfl hne
  · exact Or.inr h

/-- A mail that was unrecorded and for which a marker is noted tells that Gmail has it. -/
theorem told_of_note (hb : Books k w₀ d) (hg : Allowed k d op) (h : Diary.Keeps k d op r d')
    (hu : Log.Unrecorded raw d.log) (hn : Note.marked raw ∈ Diary.notesOf k op r d.world d'.world)
    {m' : Message} (hm' : Inbox d'.world m') (hraw : m'.raw = raw) : Told k m' := by
  have hwf' := Diary.keeps_wellFormed hb.wellFormed h
  obtain ⟨m, hm, hum, hrm, hgained, -⟩ := stem hg h hm'
  rcases Diary.mem_notesOf hn with ⟨⟨raw', keyword⟩, hc, he⟩ | ⟨raw', hgone, he⟩ | ⟨c, -, he⟩ |
    ⟨raw', -, he⟩ | hans
  · cases he
    obtain ⟨value, rfl, item, hitem, m₁, hm₁, hat₁, hraw₁, hk, hflag⟩ := Diary.mem_marksOf hc
    have hhas := Diary.reported_has h.1.2 hwf' hitem hm₁ hat₁ hflag
    obtain ⟨hin₁, -⟩ := inbox_of_isAt hm₁ hat₁
    obtain ⟨m₂, hm₂, hu₂, hr₂, -⟩ := stem hg h hin₁
    have hone := hb.one hm hm₂ (hrm.trans (hraw.trans (hraw₁.symm.trans hr₂.symm)))
    obtain rfl : m' = m₁ := hwf'.unique hm'.1 hm₁ (hum.symm.trans ((congrArg _ hone).trans hu₂))
    refine told_of_mem hk ?_ hhas
    rintro rfl
    -- the failed keyword was not there, and is not stored on a mail that is unrecorded
    have hspared := hb.spared m hm (hrm.trans hraw ▸ hu)
    rcases hgained k.failed hhas with hold | ⟨f, rfl, hf⟩
    · rw [hspared] at hold
      exact absurd hold nofun
    · exact absurd (hrm.trans hraw ▸ hu) ((hg m hm rfl).2.2 hf.symm).2
  · cases he
    have hone : ∀ m ∈ d.world.messages, ∀ m' ∈ d.world.messages, m.folder = "INBOX" →
        m'.folder = "INBOX" → m.raw = raw → m'.raw = raw → m.uid = m'.uid :=
      fun m hm m' hm' hf hf' hr hr' => hb.distinct m m' ⟨hm, hf⟩ ⟨hm', hf'⟩ (hr.trans hr'.symm)
    exact absurd hraw (Diary.not_in_of_goneBy hb.wellFormed h hone hgone m' hm'.1 hm'.2)
  · exact absurd he nofun
  · exact absurd he nofun
  · cases op
    case insertRaw raw' labels =>
      obtain ⟨v, he⟩ := Diary.answersOf_insert raw' labels r
      rw [he] at hans
      exact absurd (List.mem_singleton.mp hans) nofun
    all_goals exact absurd hans List.not_mem_nil

/-- **An allowed call keeps the books.** -/
theorem books_step (hb : Books k w₀ d) (hg : Allowed k d op) (h : Diary.Keeps k d op r d') :
    Books k w₀ d' := by
  refine ⟨Diary.keeps_wellFormed hb.wellFormed h, ?_, ?_, ?_, ?_, ?_, ?_, ?_⟩
  · intro m' hm'
    obtain ⟨m, hm, -, hraw, -⟩ := stem hg h hm'
    rw [← hraw]
    exact seen_stays h.2.2.2 (hb.seen m hm)
  · intro m' m'' hm' hm'' hraw
    obtain ⟨m₁, hm₁, hu₁, hr₁, -⟩ := stem hg h hm'
    obtain ⟨m₂, hm₂, hu₂, hr₂, -⟩ := stem hg h hm''
    rw [← hu₁, ← hu₂]
    exact hb.distinct m₁ m₂ hm₁ hm₂ (hr₁.trans (hraw.trans hr₂.symm))
  · intro m' hm' hfailed hunverified
    obtain ⟨m, hm, -, -, hgained, hkept⟩ := stem hg h hm'
    -- the call has added one of the two keywords at most, and it may not add it beside the other
    refine hkept k.inserted k.inserted_ne_failed ?_
    rcases hgained k.failed hfailed with hf | ⟨f, rfl, hf⟩
    · rcases hgained k.unverified hunverified with hu | ⟨f, rfl, hu⟩
      · exact hb.backed m hm hf hu
      · exact ((hg m hm rfl).2.1 hu.symm).2 hf
    · rcases hgained k.unverified hunverified with hu | ⟨f', he, hu⟩
      · exact ((hg m hm rfl).2.2 hf.symm).1 hu
      · cases he
        exact absurd (hf.trans hu.symm) k.failed_ne_unverified
  · intro m' hm' htold
    obtain ⟨m, hm, -, hraw, hgained, -⟩ := stem hg h hm'
    rw [← hraw]
    refine accepted_stays h ?_
    rcases htold with hi | hu
    · rcases hgained _ hi with hi | ⟨f, rfl, hf⟩
      · exact hb.told m hm (Or.inl hi)
      · exact (hg m hm rfl).1 hf.symm
    · rcases hgained _ hu with hu | ⟨f, rfl, hf⟩
      · exact hb.told m hm (Or.inr hu)
      · exact ((hg m hm rfl).2.1 hf.symm).1
  · intro m' hm' ha
    obtain ⟨m, hm, -, hraw, -, hkept⟩ := stem hg h hm'
    -- either Gmail had the mail before, or this call was the insert, which is not recorded yet
    rcases accepted_cases h ha with hold | hnew
    · rw [← hraw] at hold
      rcases hb.known m hm hold with (hi | hu) | hunrecorded
      · exact Or.inl (Or.inl (hkept _ k.inserted_ne_failed hi))
      · exact Or.inl (Or.inr (hkept _ k.failed_ne_unverified.symm hu))
      · rw [hraw] at hunrecorded
        rcases unrecorded_stays h hunrecorded with hu | hn
        · exact Or.inr hu
        · exact Or.inl (told_of_note hb hg h hunrecorded hn hm' rfl)
    · exact Or.inr hnew
  · intro m' hm' hu
    obtain ⟨m, hm, -, hraw, hgained, -⟩ := stem hg h hm'
    refine Bool.eq_false_iff.mpr (fun hfailed => ?_)
    have hspared : m.has k.failed = false ∨ Log.Unrecorded m.raw d.log := by
      rw [← hraw] at hu
      rcases unrecorded_cases h hu with hu | ⟨labels, rfl, -⟩
      · exact Or.inr hu
      · exact Or.inl (hg m hm rfl)
    rcases hgained _ hfailed with hold | ⟨f, rfl, hf⟩
    · rw [hspared.elim id (hb.spared m hm)] at hold
      exact absurd hold nofun
    · rcases unrecorded_cases h (hraw ▸ hu) with hu | ⟨labels, he, -⟩
      · exact ((hg m hm rfl).2.2 hf.symm).2 hu
      · exact absurd he nofun
  · intro raw hu
    rcases unrecorded_cases h hu with hu | ⟨-, -, ha⟩
    · exact accepted_stays h (hb.accepted raw hu)
    · exact ha

/-! ## What others and calls leave of the INBOX -/

/-- The same keywords of the tool. -/
def Same (k : Keywords) (m m' : Message) : Prop := ∀ keyword ∈ k.all, m'.has keyword = m.has keyword

/-- From `d` to `d'` nothing was accepted, and whatever is in the INBOX was there before under the
    same UID and is related to what it was, or is new to the INBOX and to Gmail. -/
structure Since (R : Message → Message → Prop) (New : Message → Prop) (w₀ : World) (d d' : Diary) :
    Prop where
  uidNext : d.world.uidNext ≤ d'.world.uidNext
  seen : ∀ raw, Seen w₀ d raw → Seen w₀ d' raw
  accepted : ∀ raw, d'.world.Accepted raw ↔ d.world.Accepted raw
  unrecorded : ∀ raw, Log.Unrecorded raw d'.log → Log.Unrecorded raw d.log
  stems : ∀ m', Inbox d'.world m' →
    (∃ m, Inbox d.world m ∧ m.uid = m'.uid ∧ m.raw = m'.raw ∧ R m m') ∨
    (d.world.uidNext ≤ m'.uid ∧ ¬ Seen w₀ d m'.raw ∧ ¬ d.world.Accepted m'.raw ∧ New m')

/-- A relation between what a message was and what it is, and what is known of new messages. -/
structure Lasting (k : Keywords) (R : Message → Message → Prop) (New : Message → Prop) : Prop where
  same : ∀ {m m'}, Same k m m' → R m m'
  trans : ∀ {a b c}, R a b → R b c → R a c
  blank : ∀ {m}, Blank k m → New m
  later : ∀ {m m'}, New m → R m m' → New m'

variable {R : Message → Message → Prop} {New : Message → Prop}

theorem Lasting.refl (hR : Lasting k R New) (m : Message) : R m m := hR.same (fun _ _ => rfl)

theorem Since.refl (hR : Lasting k R New) (d : Diary) : Since R New w₀ d d where
  uidNext := Nat.le_refl _
  seen := fun _ h => h
  accepted := fun _ => Iff.rfl
  unrecorded := fun _ h => h
  stems := fun m hm => Or.inl ⟨m, hm, rfl, rfl, hR.refl m⟩

theorem Since.trans (hR : Lasting k R New) {a b c : Diary} (h : Since R New w₀ a b)
    (h' : Since R New w₀ b c) : Since R New w₀ a c where
  uidNext := h.uidNext.trans h'.uidNext
  seen := fun raw hs => h'.seen raw (h.seen raw hs)
  accepted := fun raw => (h'.accepted raw).trans (h.accepted raw)
  unrecorded := fun raw hu => h.unrecorded raw (h'.unrecorded raw hu)
  stems := by
    intro m'' hm''
    rcases h'.stems m'' hm'' with ⟨m', hm', hu', hr', hrel'⟩ | ⟨hu', hseen', hacc', hnew'⟩
    · rcases h.stems m' hm' with ⟨m, hm, hu, hr, hrel⟩ | ⟨hu, hseen, hacc, hnew⟩
      · exact Or.inl ⟨m, hm, hu.trans hu', hr.trans hr', hR.trans hrel hrel'⟩
      · rw [hr'] at hseen hacc
        exact Or.inr ⟨hu' ▸ hu, hseen, hacc, hR.later hnew hrel'⟩
    · refine Or.inr ⟨h.uidNext.trans hu', fun hs => hseen' (h.seen _ hs), fun ha => hacc' ?_, hnew'⟩
      exact (h.accepted _).mpr ha

/-- It is enough to know what the others do. -/
theorem Since.weaken (hR : Lasting k R New) (h : Since (Same k) (Blank k) w₀ d d') :
    Since R New w₀ d d' := by
  refine ⟨h.uidNext, h.seen, h.accepted, h.unrecorded, fun m' hm' => ?_⟩
  rcases h.stems m' hm' with ⟨m, hm, hu, hr, hsame⟩ | ⟨hu, hseen, hacc, hblank⟩
  · exact Or.inl ⟨m, hm, hu, hr, hR.same hsame⟩
  · exact Or.inr ⟨hu, hseen, hacc, hR.blank hblank⟩

theorem lasting_same : Lasting k (Same k) (Blank k) where
  same := fun h => h
  trans := fun h h' keyword hk => (h' keyword hk).trans (h keyword hk)
  blank := fun h => h
  later := fun hblank hsame keyword hk => (hsame keyword hk).trans (hblank keyword hk)

/-- **A move of the others.** -/
theorem Others.since (hw : WellFormed d.world) (h : Others k w₀ d d') :
    Since (Same k) (Blank k) w₀ d d' := by
  obtain ⟨e, he, hp, rfl⟩ := h
  have hinner := Diary.noticed_inner (e := e) (w := d.world)
  refine ⟨uidNext_le_apply he, fun raw hs => seen_stays rfl hs, fun raw => ?_, fun raw hu => ?_,
    fun m' hm' => ?_⟩
  · unfold World.Accepted
    rw [apply_gmail]
  · by_contra hold
    exact Log.unrecorded_inv (fun n hn => (hinner n hn).1) hold hu
  · obtain ⟨hin, hfolder⟩ := hm'
    rcases mem_apply hw he hin with hm | ⟨m, hm, flags, rfl, rfl⟩ | ⟨raw, u, flags, rfl, rfl⟩ |
      ⟨m, hm, folder, hput, rfl⟩
    · exact Or.inl ⟨m', ⟨hm, hfolder⟩, rfl, rfl, fun _ _ => rfl⟩
    · exact Or.inl ⟨m, ⟨hm, hfolder⟩, rfl, rfl, hp.keeps⟩
    · obtain ⟨hseen, hacc⟩ := hp.fresh raw (List.mem_singleton_self raw)
      exact Or.inr ⟨he, hseen, hacc, hp.keeps⟩
    · have hfolder : folderName folder = "INBOX" := hfolder
      have hblank : Blank k m := by
        rcases hput with rfl | rfl
        · exact hp.blank hfolder
        · exact hp.blank hfolder
      have henters : m.raw ∈ Diary.enters e := by
        rcases hput with rfl | rfl
        · simp [Diary.enters, hfolder]
        · simp [Diary.enters, hfolder]
      obtain ⟨hseen, hacc⟩ := hp.fresh m.raw henters
      exact Or.inr ⟨Nat.le_refl _, hseen, hacc, hblank⟩

/-- The UID an event gives out. -/
def givenBy (w : World) : Event → ℕ
  | .arrive _ uid _ => uid
  | _ => w.uidNext

theorem uid_of_new {w : World} {e : Event} (hw : WellFormed w) (he : e.Enabled w) {m' : Message}
    (hm' : m' ∈ (e.apply w).messages) (hnew : w.uidNext ≤ m'.uid) : m'.uid = givenBy w e := by
  rcases mem_apply hw he hm' with hm | ⟨m, hm, flags, rfl, rfl⟩ | ⟨raw, u, flags, rfl, rfl⟩ |
    ⟨m, hm, folder, rfl | rfl, rfl⟩
  · exact absurd (hw.given m' hm) (Nat.not_lt.mpr hnew)
  · exact absurd (hw.given m hm) (Nat.not_lt.mpr hnew)
  · rfl
  · rfl
  · rfl

/-- What an event puts into the INBOX is noted. -/
theorem Others.noticed (hw : WellFormed d.world) (h : Others k w₀ d d') {m' : Message}
    (hm' : Inbox d'.world m') :
    (∃ m, Inbox d.world m ∧ m.raw = m'.raw) ∨ Seen w₀ d' m'.raw := by
  obtain ⟨e, he, hp, rfl⟩ := h
  have hpersists : Diary.Persists k d e := by
    cases e
    case reflag m flags =>
      intro _ keyword hk _ hhas
      exact (hp.keeps keyword hk).trans hhas
    all_goals trivial
  rcases Diary.stems_apply hw he hpersists hm'.1 hm'.2 with hin | ⟨m, hm, hfolder, -, hr, -⟩
  · exact Or.inr (Or.inr ⟨_, List.mem_append_left _ (List.mem_map_of_mem hin)⟩)
  · exact Or.inl ⟨m, ⟨hm, hfolder⟩, hr⟩

theorem Others.distinct (hb : Books k w₀ d) (h : Others k w₀ d d') {m m' : Message}
    (hm : Inbox d'.world m) (hm' : Inbox d'.world m') (hraw : m.raw = m'.raw) : m.uid = m'.uid := by
  have hs := h.since hb.wellFormed
  rcases hs.stems m hm with ⟨m₁, hm₁, hu₁, hr₁, -⟩ | ⟨hu, hseen, -, -⟩
  · rcases hs.stems m' hm' with ⟨m₂, hm₂, hu₂, hr₂, -⟩ | ⟨-, hseen', -, -⟩
    · rw [← hu₁, ← hu₂]
      exact hb.distinct m₁ m₂ hm₁ hm₂ (hr₁.trans (hraw.trans hr₂.symm))
    · rw [← hraw, ← hr₁] at hseen'
      exact absurd (hb.seen m₁ hm₁) hseen'
  · rcases hs.stems m' hm' with ⟨m₂, hm₂, -, hr₂, -⟩ | ⟨hu', -, -, -⟩
    · rw [hraw, ← hr₂] at hseen
      exact absurd (hb.seen m₂ hm₂) hseen
    · obtain ⟨e, he, -, rfl⟩ := h
      rw [uid_of_new hb.wellFormed he hm.1 hu, uid_of_new hb.wellFormed he hm'.1 hu']

theorem Same.told {m m' : Message} (h : Same k m m') : Told k m' ↔ Told k m := by
  unfold Told
  rw [h _ Diary.inserted_mem, h _ Diary.unverified_mem]

theorem Blank.not_told {m : Message} (h : Blank k m) : ¬ Told k m := by
  unfold Told
  rw [h _ Diary.inserted_mem, h _ Diary.unverified_mem]
  simp

/-- **A move of the others keeps the books.** -/
theorem Others.books (hb : Books k w₀ d) (h : Others k w₀ d d') : Books k w₀ d' := by
  have hs := h.since hb.wellFormed
  have hwf' : WellFormed d'.world := by
    obtain ⟨e, he, -, rfl⟩ := h
    exact hb.wellFormed.apply he
  have hstays : ∀ raw, Log.Unrecorded raw d.log → Log.Unrecorded raw d'.log := by
    obtain ⟨e, -, -, rfl⟩ := h
    have hnoticed := Diary.noticed_inner (e := e) (w := d.world)
    exact fun raw hu => Log.unrecorded_stays
      (fun n hn => ⟨(hnoticed n hn).1, ((hnoticed n hn).2 raw).2⟩) hu
  refine ⟨hwf', ?_, fun m m' hm hm' => h.distinct hb hm hm', ?_, ?_, ?_, ?_, ?_⟩
  · intro m' hm'
    rcases h.noticed hb.wellFormed hm' with ⟨m, hm, hr⟩ | hin
    · exact hs.seen _ (hr ▸ hb.seen m hm)
    · exact hin
  · intro m' hm' hfailed hunverified
    rcases hs.stems m' hm' with ⟨m, hm, -, -, hsame⟩ | ⟨-, -, -, hblank⟩
    · rw [hsame _ Diary.failed_mem] at hfailed
      rw [hsame _ Diary.unverified_mem] at hunverified
      rw [hsame _ Diary.inserted_mem]
      exact hb.backed m hm hfailed hunverified
    · rw [hblank _ Diary.failed_mem] at hfailed
      exact absurd hfailed nofun
  · intro m' hm' htold
    rcases hs.stems m' hm' with ⟨m, hm, -, hr, hsame⟩ | ⟨-, -, -, hblank⟩
    · rw [hs.accepted, ← hr]
      exact hb.told m hm (hsame.told.mp htold)
    · exact absurd htold hblank.not_told
  · intro m' hm' ha
    rw [hs.accepted] at ha
    rcases hs.stems m' hm' with ⟨m, hm, -, hr, hsame⟩ | ⟨-, -, hacc, -⟩
    · rw [← hr] at ha ⊢
      exact (hb.known m hm ha).imp hsame.told.mpr (hstays m.raw)
    · exact absurd ha hacc
  · intro m' hm' hu
    rcases hs.stems m' hm' with ⟨m, hm, -, hr, hsame⟩ | ⟨-, -, -, hblank⟩
    · rw [hsame _ Diary.failed_mem]
      exact hb.spared m hm (hr ▸ hs.unrecorded _ hu)
    · exact hblank _ Diary.failed_mem
  · exact fun raw hu => (hs.accepted raw).mpr (hb.accepted raw (hs.unrecorded raw hu))

/-! ## Sessions that keep the books -/

/-- The books are kept, and the INBOX is what it was up to `R` and new messages. -/
def Follows (k : Keywords) (R : Message → Message → Prop) (New : Message → Prop) (w₀ : World)
    (d d' : Diary) : Prop :=
  Books k w₀ d → Books k w₀ d' ∧ Since R New w₀ d d'

theorem Follows.refl (hR : Lasting k R New) (d : Diary) : Follows k R New w₀ d d :=
  fun hb => ⟨hb, .refl hR d⟩

theorem Follows.trans (hR : Lasting k R New) {a b c : Diary} (h : Follows k R New w₀ a b)
    (h' : Follows k R New w₀ b c) : Follows k R New w₀ a c := by
  intro ha
  obtain ⟨hb, hab⟩ := h ha
  obtain ⟨hc, hbc⟩ := h' hb
  exact ⟨hc, hab.trans hR hbc⟩

theorem Others.follows (h : Others k w₀ d d') : Follows k (Same k) (Blank k) w₀ d d' :=
  fun hb => ⟨h.books hb, h.since hb.wellFormed⟩

/-- The message as a call leaves it where it is. -/
def after (op : Op) (m : Message) : Message := m.withFlags (flagsAfter op m)

/-- The calls a session may make whose stores are related by `R`, while the others are polite. -/
def discipline (k : Keywords) (R : Message → Message → Prop) (w₀ : World) :
    Discipline Op Diary where
  rely := Follows k (Same k) (Blank k) w₀
  guard := fun d op => Allowed k d op ∧ ∀ m, R m (after op m)

theorem accepted_iff (hop : op.isInsert = false) (h : Diary.Keeps k d op r d') (raw : RawMail) :
    d'.world.Accepted raw ↔ d.world.Accepted raw := by
  refine ⟨fun ha => ?_, accepted_stays h⟩
  rcases accepted_cases h ha with hold | hu
  · exact hold
  · rcases h.1.cases with hw | hw
    · exact hw ▸ ha
    · obtain ⟨copy, hc, he⟩ := ha
      have hsame : (effect op d.world).gmail = d.world.gmail := by
        refine effect_gmail d.world ?_
        rintro raw labels rfl
        exact absurd hop nofun
      rw [hw, hsame] at hc
      exact ⟨copy, hc, he⟩

/-- **A call that is no insert.** -/
theorem follows_step (hR : Lasting k R New) (hop : op.isInsert = false)
    (hg : (discipline k R w₀).guard d op) (hE : Server k d op r d') : Follows k R New w₀ d d' := by
  intro hb
  obtain ⟨hE, -⟩ := hE
  refine ⟨books_step hb hg.1 hE, hE.1.uidNext_le, fun raw hs => seen_stays hE.2.2.2 hs,
    accepted_iff hop hE, fun raw hu => ?_, fun m' hm' => ?_⟩
  · rcases unrecorded_cases hE hu with hu | ⟨labels, rfl, -⟩
    · exact hu
    · exact absurd hop nofun
  · obtain ⟨m, hm, hfolder, hu, hr, rfl | ⟨-, rfl⟩⟩ := Diary.stems hE hm'.1 hm'.2
    · exact Or.inl ⟨m', ⟨hm, hfolder⟩, rfl, rfl, hR.refl m'⟩
    · exact Or.inl ⟨m, ⟨hm, hfolder⟩, rfl, rfl, hg.2 m⟩

def growth (hR : Lasting k R New) (w₀ : World) :
    Growth (Server k) (discipline k R w₀) (fun op => op.isInsert = false) where
  grow := Follows k R New w₀
  refl := .refl hR
  trans := .trans hR
  rely := fun h hb => ⟨(h hb).1, (h hb).2.weaken hR⟩
  step := fun hop hg hE => follows_step hR hop hg hE

/-- The call stores nothing and sends nothing. -/
def writes : Op → Bool
  | .addFlags _ _ => true
  | .removeFlags _ _ => true
  | .insertRaw _ _ => true
  | _ => false

theorem guard_of_not_writes (hR : Lasting k R New) (hop : writes op = false) (d : Diary) :
    (discipline k R w₀).guard d op := by
  cases op
  case addFlags uid flag => exact absurd hop nofun
  case removeFlags uid flag => exact absurd hop nofun
  case insertRaw raw labels => exact absurd hop nofun
  all_goals exact ⟨trivial, hR.refl⟩

theorem guard_of_isRoutine (hR : Lasting k R New) (d : Diary) (op : Op)
    (h : op.isRoutine = true) : (discipline k R w₀).guard d op := by
  refine guard_of_not_writes hR ?_ d
  cases op
  case addFlags uid flag => exact absurd h (by contradiction)
  case removeFlags uid flag => exact absurd h (by contradiction)
  case insertRaw raw labels => exact absurd h (by contradiction)
  all_goals rfl

/-- A store of another flag leaves the keyword as it was. -/
theorem has_after_add {flag keyword : String} (hne : lower keyword ≠ lower flag) (uid : ℕ)
    (m : Message) : (after (.addFlags uid flag) m).has keyword = m.has keyword := by
  show hasFlag (if m.isAt uid then addFlag flag m.flags else m.flags) keyword = _
  split
  · rw [hasFlag_addFlag, decide_eq_false hne, Bool.or_false]
    rfl
  · rfl

theorem stays_after_add {flag keyword : String} (uid : ℕ) {m : Message}
    (h : m.has keyword = true) : (after (.addFlags uid flag) m).has keyword = true := by
  show hasFlag (flagsAfter (.addFlags uid flag) m) keyword = true
  have hop : ∀ u f, Op.addFlags uid flag ≠ .removeFlags u f := nofun
  exact has_flagsAfter hop h

theorem has_after_remove {flag keyword : String} (hne : lower keyword ≠ lower flag) (uid : ℕ)
    (m : Message) : (after (.removeFlags uid flag) m).has keyword = m.has keyword := by
  show hasFlag (if m.isAt uid then removeFlag flag m.flags else m.flags) keyword = _
  split
  · rw [hasFlag_removeFlag, decide_eq_true hne, Bool.and_true]
    rfl
  · rfl

/-! ## A run -/

/-- What was told stays told. -/
def StaysTold (k : Keywords) (m m' : Message) : Prop := Told k m → Told k m'

/-- What was told stays told, and nothing gets the failed keyword. -/
def Spares (k : Keywords) (m m' : Message) : Prop :=
  StaysTold k m m' ∧ (m'.has k.failed = true → m.has k.failed = true)

theorem lasting_staysTold : Lasting k (StaysTold k) (fun _ => True) where
  same := fun h => h.told.mpr
  trans := fun h h' ht => h' (h ht)
  blank := fun _ => trivial
  later := fun _ _ => trivial

theorem lasting_spares : Lasting k (Spares k) (fun _ => True) where
  same := fun h => ⟨h.told.mpr, fun hf => (h _ Diary.failed_mem) ▸ hf⟩
  trans := fun h h' => ⟨fun ht => h'.1 (h.1 ht), fun hf => h.2 (h'.2 hf)⟩
  blank := fun _ => trivial
  later := fun _ _ => trivial

theorem staysTold_add (uid : ℕ) (flag : String) (m : Message) :
    StaysTold k m (after (.addFlags uid flag) m) :=
  fun h => h.imp (stays_after_add uid) (stays_after_add uid)

theorem spares_add {flag : String} (hne : lower k.failed ≠ lower flag) (uid : ℕ) (m : Message) :
    Spares k m (after (.addFlags uid flag) m) :=
  ⟨staysTold_add uid flag m, fun hf => has_after_add hne uid m ▸ hf⟩

theorem spares_deleted (uid : ℕ) (m : Message) :
    Spares k m (after (.addFlags uid deletedFlag) m) := spares_add k.failedOk.ne_deleted uid m

/-- Nothing stands against a move. -/
theorem mayMove (hR : Lasting k R New)
    (hdeleted : ∀ uid m, R m (after (.addFlags uid deletedFlag) m)) (uid : ℕ) (folder : String)
    (d : Diary) : Forwarder.MayMove (Server k) (discipline k R w₀)
      (growth hR w₀).grow uid folder d where
  move := fun v _ => guard_of_not_writes hR rfl v
  copy := fun v _ => guard_of_not_writes hR rfl v
  after := by
    intro _ _ v _ _ _
    refine ⟨⟨fun m _ _ => ⟨fun he => ?_, fun he => ?_, fun he => ?_⟩, hdeleted uid⟩,
      guard_of_not_writes hR rfl v⟩
    · exact absurd he.symm k.insertedOk.ne_deleted
    · exact absurd he.symm k.unverifiedOk.ne_deleted
    · exact absurd he.symm k.failedOk.ne_deleted

theorem Since.mono {R' : Message → Message → Prop} {New' : Message → Prop}
    (h : Since R New w₀ d d') (hR : ∀ {m m'}, R m m' → R' m m') (hNew : ∀ {m}, New m → New' m) :
    Since R' New' w₀ d d' := by
  refine ⟨h.uidNext, h.seen, h.accepted, h.unrecorded, fun m' hm' => ?_⟩
  rcases h.stems m' hm' with ⟨m, hm, hu, hr, hrel⟩ | ⟨hu, hseen, hacc, hnew⟩
  · exact Or.inl ⟨m, hm, hu, hr, hR hrel⟩
  · exact Or.inr ⟨hu, hseen, hacc, hNew hnew⟩

/-- The books of a run: what Gmail has accepted says so, but for the messages in flight. -/
structure Running (k : Keywords) (w₀ : World) (flight : List ℕ) (d : Diary) : Prop where
  books : Books k w₀ d
  known : ∀ m, Inbox d.world m → d.world.Accepted m.raw → Told k m ∨ m.uid ∈ flight

/-- Gmail has accepted nothing that is at `uid`. -/
def Refused (uid : ℕ) (d : Diary) : Prop :=
  ∀ m, Inbox d.world m → m.uid = uid → ¬ d.world.Accepted m.raw

/-- The message that is on its way to Gmail: the one message of its mail, without the failed
    keyword. -/
structure Flight (k : Keywords) (w₀ : World) (uid : ℕ) (raw : RawMail) (d : Diary) : Prop where
  given : uid < d.world.uidNext
  seen : Seen w₀ d raw
  raws : ∀ m, Inbox d.world m → m.uid = uid → m.raw = raw
  uids : ∀ m, Inbox d.world m → m.raw = raw → m.uid = uid
  spared : ∀ m, Inbox d.world m → m.uid = uid → m.has k.failed = false

theorem Running.later {flight : List ℕ} (h : Running k w₀ flight d)
    (hf : Follows k (StaysTold k) (fun _ => True) w₀ d d') : Running k w₀ flight d' := by
  obtain ⟨hb', hs⟩ := hf h.books
  refine ⟨hb', fun m' hm' ha => ?_⟩
  rw [hs.accepted] at ha
  rcases hs.stems m' hm' with ⟨m, hm, hu, hr, htold⟩ | ⟨-, -, hacc, -⟩
  · rw [← hr] at ha
    exact (h.known m hm ha).imp htold (fun hin => hu ▸ hin)
  · exact absurd ha hacc

theorem Running.landed (h : Running k w₀ [uid] d)
    (htold : ∀ m, Inbox d.world m → m.uid = uid → Told k m) : Running k w₀ [] d := by
  refine ⟨h.books, fun m hm ha => Or.inl ?_⟩
  rcases h.known m hm ha with ht | hu
  · exact ht
  · exact htold m hm (List.mem_singleton.mp hu)

theorem Refused.later (h : Refused uid d) (hs : Since R New w₀ d d') : Refused uid d' := by
  intro m' hm' hu' ha
  rw [hs.accepted] at ha
  rcases hs.stems m' hm' with ⟨m, hm, hu, hr, -⟩ | ⟨-, -, hacc, -⟩
  · exact h m hm (hu.trans hu') (hr ▸ ha)
  · exact hacc ha

theorem Flight.later (h : Flight k w₀ uid raw d) (hs : Since (Spares k) New w₀ d d') :
    Flight k w₀ uid raw d' := by
  have hold : ∀ m', Inbox d'.world m' → m'.uid = uid → ∃ m, Inbox d.world m ∧ m.uid = uid ∧
      m.raw = m'.raw ∧ Spares k m m' := by
    intro m' hm' hu'
    rcases hs.stems m' hm' with ⟨m, hm, hu, hr, hrel⟩ | ⟨hu, -, -, -⟩
    · exact ⟨m, hm, hu.trans hu', hr, hrel⟩
    · exact absurd h.given (Nat.not_lt.mpr (hu' ▸ hu))
  refine ⟨Nat.lt_of_lt_of_le h.given hs.uidNext, hs.seen raw h.seen, fun m' hm' hu' => ?_,
    fun m' hm' hr' => ?_, fun m' hm' hu' => ?_⟩
  · obtain ⟨m, hm, hu, hr, -⟩ := hold m' hm' hu'
    exact hr.symm.trans (h.raws m hm hu)
  · rcases hs.stems m' hm' with ⟨m, hm, hu, hr, -⟩ | ⟨-, hseen, -, -⟩
    · exact hu.symm.trans (h.uids m hm (hr.trans hr'))
    · exact absurd (hr' ▸ h.seen) hseen
  · obtain ⟨m, hm, hu, -, hrel⟩ := hold m' hm' hu'
    refine Bool.eq_false_iff.mpr (fun hf => ?_)
    have hfailed := hrel.2 hf
    rw [h.spared m hm hu] at hfailed
    exact absurd hfailed nofun

/-- What a `FETCH` delivers without a keyword is on its way to Gmail, which has not had it. -/
theorem Flight.of_delivers {message : FetchedMessage} (hJ : Running k w₀ [] d)
    (h : ICloudMailbox.Delivers (Server k) d message d')
    (hinserted : message.hasKeyword k.inserted = false)
    (hquarantine : k.quarantine.any message.hasKeyword = false) :
    Flight k w₀ message.uid message.raw d' ∧ ¬ d'.world.Accepted message.raw := by
  obtain ⟨hw, m, hm, hat, hraw, hsame⟩ :=
    Serves.delivers (h.map Diary.world (fun hE => hE.1.1))
  obtain ⟨hin, hu⟩ := inbox_of_isAt hm hat
  obtain ⟨data, item, ⟨hE, -⟩, -⟩ := h
  have hhas : ∀ keyword, m.has keyword = message.hasKeyword keyword := fun kw => (hsame kw).symm
  simp only [Keywords.quarantine, List.any_cons, List.any_nil, Bool.or_false,
    Bool.or_eq_false_iff] at hquarantine
  have hnot : ¬ Told k m := by
    unfold Told
    rw [hhas, hhas, hinserted, hquarantine.2]
    simp
  have hone : ∀ m', Inbox d.world m' → m'.uid = message.uid → m' = m := fun m' hm' hu' =>
    hJ.books.wellFormed.unique hm'.1 hm (hu'.trans hu.symm)
  refine ⟨⟨?_, ?_, ?_, ?_, ?_⟩, ?_⟩
  · rw [hw, ← hu]
    exact hJ.books.wellFormed.given m hm
  · exact seen_stays hE.2.2.2 (hraw ▸ hJ.books.seen m hin)
  · rw [hw]
    intro m' hm' hu'
    rw [hone m' hm' hu']
    exact hraw
  · rw [hw]
    intro m' hm' hr'
    rw [hJ.books.one hm' hin (hr'.trans hraw.symm)]
    exact hu
  · rw [hw]
    intro m' hm' hu'
    rw [hone m' hm' hu', hhas]
    exact hquarantine.1
  · rw [hw, ← hraw]
    intro ha
    rcases hJ.known m hin ha with ht | hnone
    · exact hnot ht
    · exact absurd hnone List.not_mem_nil

/-- What an insert leaves, by its answer. -/
theorem running_answered {labels : List String} {r : Reply (.insertRaw raw labels)}
    (hJ : Running k w₀ [] d) (hf : Flight k w₀ uid raw d)
    (hE : Server k d (.insertRaw raw labels) r d') :
    Running k w₀ [uid] d' ∧ Flight k w₀ uid raw d' ∧
    (∀ e, r = .error e → Running k w₀ [] d' ∧ d'.world = d.world) ∧
    ∀ u, u ≠ uid → Refused u d → Refused u d' := by
  obtain ⟨hE, -⟩ := hE
  have hg : Allowed k d (.insertRaw raw labels) :=
    fun m hm hr => hf.spared m hm (hf.uids m hm hr)
  have hb' := books_step hJ.books hg hE
  have hsame : ∀ {m}, Inbox d'.world m → Inbox d.world m := by
    intro m hm
    obtain ⟨hmessages, -⟩ := Diary.keeps_insert hE
    exact ⟨hmessages ▸ hm.1, hm.2⟩
  -- Gmail has had nothing before that it has now, but for this mail
  have hacc : ∀ m, Inbox d.world m → d'.world.Accepted m.raw → m.uid ≠ uid →
      d.world.Accepted m.raw := by
    intro m hm ha hne
    rcases hE.1.cases with hw | hw
    · exact hw ▸ ha
    · rw [hw] at ha
      obtain ⟨copy, hc, he⟩ := ha
      rcases List.mem_append.mp hc with hc | hc
      · exact ⟨copy, hc, he⟩
      · rw [List.mem_singleton.mp hc] at he
        exact absurd (hf.uids m hm he.symm) hne
  refine ⟨⟨hb', fun m hm ha => ?_⟩, ?_, ?_, ?_⟩
  · by_cases hu : m.uid = uid
    · exact Or.inr (hu ▸ List.mem_singleton_self _)
    · rcases hJ.known m (hsame hm) (hacc m (hsame hm) ha hu) with ht | hnone
      · exact Or.inl ht
      · exact absurd hnone List.not_mem_nil
  · exact ⟨Nat.lt_of_lt_of_le hf.given hE.1.uidNext_le, seen_stays hE.2.2.2 hf.seen,
      fun m hm => hf.raws m (hsame hm), fun m hm => hf.uids m (hsame hm),
      fun m hm => hf.spared m (hsame hm)⟩
  · rintro e rfl
    have hw : d'.world = d.world := hE.2.1
    refine ⟨⟨hb', fun m hm ha => ?_⟩, hw⟩
    rw [hw] at hm ha
    exact hJ.known m hm ha
  · intro u hne hrefused m hm hu ha
    exact hrefused m (hsame hm) hu (hacc m (hsame hm) ha (hu ▸ hne))

/-! ### The evidence of a marker -/

/-- A confirmed keyword is on what is at the UID. -/
theorem has_of_confirms {keyword : String} (hw : WellFormed d'.world)
    (h : ICloudMailbox.Confirms (Server k) d uid keyword d') :
    ∀ m, Inbox d'.world m → m.uid = uid → m.has keyword = true := by
  obtain ⟨m₀, hm₀, hat₀, hhas⟩ := Serves.confirms (h.map Diary.world (fun hE => hE.1.1))
  intro m hm hu
  rw [hw.unique hm.1 hm₀ (hu.trans (Message.isAt_iff.mp hat₀).2.symm)]
  exact hhas

variable {o : ForwarderOptions}

theorem told_of_quarantined {folder : String} (hw : WellFormed d.world) (hw' : WellFormed d'.world)
    (h : Forwarder.Quarantined (Server k) o d uid k.unverified folder d') :
    ∀ m, Inbox d'.world m → m.uid = uid → Told k m := by
  intro m hm hu
  rcases h with ⟨-, hc⟩ | hc
  · exact Or.inr (has_of_confirms hw' hc m hm hu)
  · have hgone := Diary.gone_of_completes hw (hc.imp (fun hE => hE.1) (fun hE => hE.1)) m hm.1
    rw [← hu, hm.isAt] at hgone
    exact absurd hgone nofun

theorem told_of_recorded (hk : o.keywords = k) (hw : WellFormed d.world)
    (hw' : WellFormed d'.world) (h : Forwarder.Recorded (Server k) o d uid d') :
    ∀ m, Inbox d'.world m → m.uid = uid → Told k m := by
  subst hk
  rcases h with hc | hq
  · exact fun m hm hu => Or.inl (has_of_confirms hw' hc m hm hu)
  · exact told_of_quarantined hw hw' hq

/-! ### One message -/

theorem Follows.staysTold (h : Follows k (Spares k) (fun _ => True) w₀ d d') :
    Follows k (StaysTold k) (fun _ => True) w₀ d d' :=
  fun hb => ⟨(h hb).1, (h hb).2.mono (fun hrel => hrel.1) (fun hnew => hnew)⟩

theorem guard_inserted (h : ∀ m, Inbox d.world m → m.uid = uid → d.world.Accepted m.raw) :
    (discipline k (Spares k) w₀).guard d (.addFlags uid k.inserted) := by
  refine ⟨fun m hm hu => ⟨fun _ => h m hm hu, fun he => ?_, fun he => ?_⟩,
    spares_add k.inserted_ne_failed.symm uid⟩
  · exact absurd he k.inserted_ne_unverified
  · exact absurd he k.inserted_ne_failed

theorem guard_unverified (h : ∀ m, Inbox d.world m → m.uid = uid → d.world.Accepted m.raw)
    (hspared : ∀ m, Inbox d.world m → m.uid = uid → m.has k.failed = false) :
    (discipline k (Spares k) w₀).guard d (.addFlags uid k.unverified) := by
  refine ⟨fun m hm hu => ⟨fun he => ?_, fun _ => ⟨h m hm hu, fun hf => ?_⟩, fun he => ?_⟩,
    spares_add k.failed_ne_unverified uid⟩
  · exact absurd he.symm k.inserted_ne_unverified
  · rw [hspared m hm hu] at hf
    exact absurd hf nofun
  · exact absurd he.symm k.failed_ne_unverified

theorem guard_failed (h : Refused uid d) (hb : Books k w₀ d) :
    (discipline k (StaysTold k) w₀).guard d (.addFlags uid k.failed) := by
  refine ⟨fun m hm hu => ⟨fun he => ?_, fun he => ?_, fun _ => ⟨fun hunverified => ?_, fun hopen =>
    ?_⟩⟩, staysTold_add uid k.failed⟩
  · exact absurd he.symm k.inserted_ne_failed
  · exact absurd he k.failed_ne_unverified
  · exact absurd (hb.told m hm (Or.inr hunverified)) (h m hm hu)
  · exact absurd (hb.accepted m.raw hopen) (h m hm hu)

/-- What Gmail has answered for, it has. -/
theorem accepted_of_ok {labels : List String} {id : String}
    (h : Server k d (.insertRaw raw labels) (.ok id) d') : d'.world.Accepted raw := by
  have hw : d'.world = effect (.insertRaw raw labels) d.world := Serves.effect_of_ok rfl h.1.1
  rw [hw]
  exact ⟨⟨raw, labels⟩, List.mem_append_right _ (List.mem_singleton_self _), rfl⟩

/-- The rest of `_process` after Gmail has accepted the message: if it returns, a marker tells. -/
theorem recordInsert_lands (hk : o.keywords = k) {message : FetchedMessage} {s : RunState}
    (hJ : Running k w₀ [message.uid] d) (hf : Flight k w₀ message.uid message.raw d)
    (ha : d.world.Accepted message.raw) :
    (Forwarder.recordInsert o message).Safe (Server k) (discipline k (Spares k) w₀)
      (fun r s' d' => s'.rejected = s.rejected ∧ Follows k (Spares k) (fun _ => True) w₀ d d' ∧
        (r = .ok () → Running k w₀ [] d')) s d := by
  subst hk
  have hthere : ∀ v, Follows o.keywords (Spares o.keywords) (fun _ => True) w₀ d v →
      Flight o.keywords w₀ message.uid message.raw v ∧
      ∀ m, Inbox v.world m → m.uid = message.uid → v.world.Accepted m.raw := by
    intro v hv
    obtain ⟨-, hs⟩ := hv hJ.books
    have hf' := hf.later hs
    refine ⟨hf', fun m hm hu => ?_⟩
    rw [hf'.raws m hm hu]
    exact (hs.accepted _).mpr ha
  refine (Forwarder.recordInsert_safe (growth lasting_spares w₀) (guard_of_isRoutine lasting_spares)
    (fun v hv => guard_inserted (hthere v hv).2)
    (fun v hv => guard_unverified (hthere v hv).2 (hthere v hv).1.spared)
    (mayMove lasting_spares spares_deleted _ _ d)
    (fun _ _ _ _ _ v _ => guard_of_not_writes lasting_spares rfl v)
    (fun _ v _ _ _ folder => mayMove lasting_spares spares_deleted _ folder v)).mono ?_
  rintro r s' d' ⟨hrejected, hd', hok⟩
  refine ⟨hrejected, hd', fun hr => ?_⟩
  obtain ⟨v, v', hv, hrecorded, hv', hrest⟩ := hok hr
  have hJ' := hJ.later hv'.staysTold
  have htold := told_of_recorded rfl (hv hJ.books).1.wellFormed hJ'.books.wellFormed hrecorded
  exact (hJ'.landed htold).later hrest.staysTold

/-- **One message.** -/
theorem process_keeps (hk : o.keywords = k) {extraLabels : List String} {s : RunState}
    (hJ : Running k w₀ [] d) : (Forwarder.process o extraLabels uid).Safe (Server k)
      (discipline k (Spares k) w₀) (fun r s' d' => Forwarder.Adds Refused uid s s' d' ∧
        (∀ u, u ≠ uid → Refused u d → Refused u d') ∧ (r = .ok () → Running k w₀ [] d') ∧
        ∀ text, r = .error (.abortRun text) → Books k w₀ d') s d := by
  let G : Growth (Server k) (discipline k (Spares k) w₀) (fun op => op.isInsert = false) :=
    growth lasting_spares w₀
  have hstay : ∀ {v}, G.grow d v → Running k w₀ [] v ∧ ∀ u, Refused u d → Refused u v :=
    fun hv => ⟨hJ.later hv.staysTold, fun u hu => hu.later (hv hJ.books).2⟩
  refine Forwarder.process_safe G (guard_of_isRoutine lasting_spares) ?_ ?_ ?_ ?_
  · intro s' v hs hv
    obtain ⟨hJ', hrefused⟩ := hstay hv
    exact ⟨Or.inl hs.rejected, fun u _ => hrefused u, fun _ => hJ', fun _ _ => hJ'.books⟩
  · intro e s' v hs hv
    obtain ⟨hJ', hrefused⟩ := hstay hv
    exact ⟨Or.inl hs.rejected, fun u _ => hrefused u, fun _ => hJ', fun _ _ => hJ'.books⟩
  · intro message s₁ v v' hs₁ _ _ hv' _ _ _
    refine (Forwarder.trash_safe G (guard_of_isRoutine lasting_spares)
      (fun v _ => guard_of_not_writes lasting_spares rfl v)
      (fun folder => mayMove lasting_spares spares_deleted _ folder v')).mono ?_
    rintro r s' d' ⟨hs', hd'⟩
    obtain ⟨hJ', hrefused⟩ := hstay (G.trans hv' hd')
    exact ⟨Or.inl (hs'.rejected.trans hs₁.rejected), fun u _ => hrefused u, fun _ => hJ',
      fun _ _ => hJ'.books⟩
  · rintro message s₁ v v' hs₁ hv hd hv' rfl hinserted hquarantine
    obtain ⟨hf, hnot⟩ := Flight.of_delivers (hstay hv).1 hd (hk ▸ hinserted) (hk ▸ hquarantine)
    have hasked : ∀ {v₁}, Follows k (Same k) (Blank k) w₀ v' v₁ → Running k w₀ [] v₁ ∧
        Flight k w₀ message.uid message.raw v₁ ∧ ¬ v₁.world.Accepted message.raw ∧
        ∀ u, Refused u d → Refused u v₁ := by
      intro v₁ hv₁
      obtain ⟨hJ₁, hrefused⟩ := hstay (G.trans hv' (G.rely hv₁))
      have hs := (G.rely hv₁ (hstay hv').1.books).2
      refine ⟨hJ₁, hf.later hs, ?_, hrefused⟩
      rw [hs.accepted]
      exact hnot
    -- after any answer but an acceptance nothing has happened
    have hleft : ∀ {e v₁ v₂}, Follows k (Same k) (Blank k) w₀ v' v₁ →
        Server k v₁ (.insertRaw message.raw (gmailLabelsFor message extraLabels)) (.error e) v₂ →
        Running k w₀ [] v₂ ∧ Refused message.uid v₂ ∧
          ∀ u, u ≠ message.uid → Refused u d → Refused u v₂ := by
      intro e v₁ v₂ hv₁ hE
      obtain ⟨hJ₁, hf₁, hnot₁, hrefused⟩ := hasked hv₁
      obtain ⟨-, hf₂, herror, hother⟩ := running_answered hJ₁ hf₁ hE
      obtain ⟨hJ₂, hw⟩ := herror e rfl
      refine ⟨hJ₂, fun m hm hu => ?_, fun u hne hu => hother u hne (hrefused u hu)⟩
      rw [hf₂.raws m hm hu, hw]
      exact hnot₁
    refine Forwarder.insert_at ?_ ?_ ?_ ?_ ?_
    · intro v₁ hv₁
      obtain ⟨-, hf₁, -⟩ := hasked hv₁
      exact ⟨fun m hm hr => hf₁.spared m hm (hf₁.uids m hm hr), lasting_spares.refl⟩
    · intro id v₁ v₂ hv₁ hE
      obtain ⟨hJ₁, hf₁, -, hrefused⟩ := hasked hv₁
      obtain ⟨hJ₂, hf₂, -, hother⟩ := running_answered hJ₁ hf₁ hE
      refine (recordInsert_lands hk hJ₂ hf₂ (accepted_of_ok hE)).mono ?_
      rintro r s' d' ⟨hrejected, hd', hok⟩
      obtain ⟨hb', hs⟩ := hd' hJ₂.books
      refine ⟨Or.inl (hrejected.trans hs₁.rejected), fun u hne hu => ?_, hok, fun _ _ => hb'⟩
      exact (hother u hne (hrefused u hu)).later hs
    · intro e e' v₁ v₂ hv₁ hE
      obtain ⟨hJ₂, -, hother⟩ := hleft hv₁ hE
      exact ⟨Or.inl hs₁.rejected, hother, fun _ => hJ₂, fun _ _ => hJ₂.books⟩
    · intro text status v₁ v₂ hv₁ hE s' hs'
      obtain ⟨hJ₂, -, hother⟩ := hleft hv₁ hE
      exact ⟨Or.inl (hs'.rejected.trans hs₁.rejected), hother, fun _ => hJ₂, fun _ _ => hJ₂.books⟩
    · intro text status v₁ v₂ hv₁ hE
      obtain ⟨hJ₂, hrefused, hother⟩ := hleft hv₁ hE
      refine ⟨Or.inr ⟨text, MailTransporter.perMessage status, ?_, hrefused⟩, hother, fun _ => hJ₂,
        fun _ _ => hJ₂.books⟩
      show s₁.rejected ++ _ = s.rejected ++ _
      rw [hs₁.rejected]

theorem quarantine_keeps (hk : o.keywords = k) {s : RunState} (hb : Books k w₀ d)
    (h : Refused uid d) :
    (Forwarder.quarantine o uid o.keywords.failed o.failedFolder).Safe (Server k)
      (discipline k (StaysTold k) w₀) (fun _ s' d' => s.SameError s' ∧
        Follows k (StaysTold k) (fun _ => True) w₀ d d') s d := by
  subst hk
  refine (Forwarder.quarantine_safe (growth lasting_staysTold w₀)
    (guard_of_isRoutine lasting_staysTold) ?_
    (mayMove lasting_staysTold (fun uid m => staysTold_add uid deletedFlag m) _ _ d)).mono ?_
  · intro _ v hv
    obtain ⟨hb', hs⟩ := hv hb
    exact guard_failed (h.later hs) hb'
  · rintro r s' d' ⟨hs', hd', -⟩
    exact ⟨hs', hd'⟩

/-! ### The whole run -/

/-- `SEARCH` names no message twice. -/
theorem listing_nodup (keywords : List String) (s : ICloudMailbox) :
    (ICloudMailbox.listInboxUids (some keywords)).Safe
      (Env.answering fun op r => ∃ d d', Server k d op r d') .free
      (fun r _ _ => ∀ uids, r = .ok uids → uids.Nodup) s () :=
  Settlement.listInboxUids_nodup (fun _ _ ⟨_, _, hE⟩ => hE.2) _ s

/-- What the loop itself keeps. -/
def routineGrowth (k : Keywords) (w₀ : World) :
    Growth (Server k) (discipline k (StaysTold k) w₀) (fun op => op.isRoutine = true) :=
  (growth lasting_staysTold w₀).restrict (fun _ => Op.isInsert_of_isRoutine)

/-- **A run that ends clean leaves no accepted mail untold.** -/
theorem run_tells (hk : o.keywords = k) {s : RunState} (hs : s.rejected = [])
    (hJ : Running k w₀ [] d) :
    (Forwarder.run o).Safe (Server k) (discipline k (StaysTold k) w₀)
      (fun r _ d' => ∀ result, r = .ok result → result.error = none → Running k w₀ [] d') s d := by
  refine Forwarder.run_rejecting (K := Running k w₀ []) (A := Books k w₀) (N := Refused)
    (guard_of_isRoutine lasting_staysTold) (routineGrowth k w₀) (fun hd' h => h.later hd')
    (fun hd' hb => (hd' hb).1) (fun hd' hb hN => hN.later (hd' hb).2) (fun h => h.books) ?_ ?_ ?_
    hs hJ
  · intro s d hJ
    rw [safe_onMailbox]
    have hgrow := Routine.Safe.of_uses (routineGrowth k w₀)
      (ICloudMailbox.listInboxUids_glances (some o.keywords.quarantine)).looks
      (fun _ => Op.isRoutine_of_isLook)
      (fun d' op _ hop => guard_of_isRoutine lasting_staysTold d' op (Op.isRoutine_of_isLook hop))
      (s := s.mailbox) (w := d)
    refine (hgrow.also (fun hE => ⟨_, _, hE⟩) (listing_nodup _ _)).mono ?_
    rintro r mailbox d' ⟨hd', hnodup⟩
    exact ⟨hJ.later hd', rfl, hnodup⟩
  · intro extraLabels uid s d hJ
    exact (process_keeps hk hJ).guard_mono id (fun hg => ⟨hg.1, fun m => (hg.2 m).1⟩)
  · intro uid s d hb hN
    refine (quarantine_keeps hk hb hN).mono ?_
    rintro r s' d' ⟨hs', hd'⟩
    obtain ⟨hb', hsince⟩ := hd' hb
    exact ⟨hb', fun hJ => hJ.later hd', fun u hN => hN.later hsince, hs'.error⟩

/-- The books between two sessions: nothing is unrecorded. -/
def Between (k : Keywords) (w₀ : World) (d : Diary) : Prop :=
  Books k w₀ d ∧ ∀ raw, ¬ Log.Unrecorded raw d.log

theorem Between.running (h : Between k w₀ d) : Running k w₀ [] d := by
  refine ⟨h.1, fun m hm ha => Or.inl ?_⟩
  exact (h.1.known m hm ha).resolve_right (h.2 m.raw)

/-- What was told when a run ended is told between the sessions. -/
theorem Running.ended (h : Running k w₀ [] d) (e : Ending) :
    Between k w₀ { d with log := .ended e :: d.log } := by
  refine ⟨⟨h.books.wellFormed, fun m hm => ?_, h.books.distinct, h.books.backed, h.books.told,
    fun m hm ha => Or.inl ?_, fun _ _ hu => hu.elim, fun _ hu => hu.elim⟩, fun _ hu => hu.elim⟩
  · exact (h.books.seen m hm).imp id (fun ⟨again, hin⟩ => ⟨again, List.mem_cons_of_mem _ hin⟩)
  · exact (h.known m hm ha).resolve_right List.not_mem_nil

/-- The run that has ended last did not crash and returned no error between an accepted insert and
    its first confirmed marker. -/
def Settled : Log → Prop
  | .ended e :: l => e ≠ .clean → ∀ raw, ¬ Log.Unrecorded raw l
  | _ => True

theorem run_between (hk : o.keywords = k) (h : Between k w₀ d)
    (hr : (Diary.runSession o).Runs (Server k) (Others k w₀) d d') (hsettled : Settled d'.log) :
    Between k w₀ d' := by
  have hstable : ∀ (a : Except Exc SyncResult × RunState) {v v' : Diary},
      Follows k (Same k) (Blank k) w₀ v v' →
      (∀ result, a.1 = .ok result → result.error = none → Running k w₀ [] v) →
      ∀ result, a.1 = .ok result → result.error = none → Running k w₀ [] v' := by
    intro a v v' hd' hq result hresult herror
    refine (hq result hresult herror).later (fun hb => ?_)
    exact ⟨(hd' hb).1, (hd' hb).2.weaken lasting_staysTold⟩
  obtain ⟨v, r, rfl, hb, hend⟩ := hr.safe (D := discipline k (StaysTold k) w₀) (M := Books k w₀)
    (.refl lasting_same) (.trans lasting_same) Others.follows (fun hd' hb => (hd' hb).1)
    (fun hg hE hb => books_step hb hg.1 hE.1) h.1 (run_tells hk rfl h.running) hstable
  have hJ : Running k w₀ [] v := by
    by_cases hclean : Diary.endingOf r = .clean
    · rcases r with _ | ⟨e | result, s⟩
      · exact absurd hclean (by contradiction)
      · exact absurd hclean (by contradiction)
      · by_cases herror : result.error = none
        · exact hend _ rfl result rfl herror
        · simp only [Diary.endingOf, if_neg herror] at hclean
          exact absurd hclean (by simp)
    · exact Between.running ⟨hb, hsettled hclean⟩
  exact hJ.ended _

/-! ## The commands -/

/-- Nothing gets the unverified keyword or loses the inserted one. -/
def Attends (k : Keywords) (m m' : Message) : Prop :=
  (m'.has k.unverified = true → m.has k.unverified = true) ∧
  (m.has k.inserted = true → m'.has k.inserted = true)

theorem lasting_attends : Lasting k (Attends k) (fun m => m.has k.unverified = false) where
  same := by
    intro m m' h
    rw [Attends, h _ Diary.unverified_mem, h _ Diary.inserted_mem]
    exact ⟨id, id⟩
  trans := fun h h' => ⟨fun hu => h.1 (h'.1 hu), fun hi => h'.2 (h.2 hi)⟩
  blank := fun h => h _ Diary.unverified_mem
  later := fun hnew h => Bool.eq_false_iff.mpr (fun hu => by
    have hold := h.1 hu
    rw [hnew] at hold
    exact absurd hold nofun)

/-- What is at `uid` with the unverified keyword carries the inserted one, too. -/
def Heeded (k : Keywords) (uid : ℕ) (d : Diary) : Prop :=
  ∀ m, Inbox d.world m → m.uid = uid → Backed k m

theorem Heeded.later (h : Heeded k uid d)
    (hs : Since (Attends k) (fun m => m.has k.unverified = false) w₀ d d') : Heeded k uid d' := by
  intro m' hm' hu' hunverified
  rcases hs.stems m' hm' with ⟨m, hm, hu, -, hrel⟩ | ⟨-, -, -, hnew⟩
  · exact hrel.2 (h m hm (hu.trans hu') (hrel.1 hunverified))
  · rw [hnew] at hunverified
    exact absurd hunverified nofun

theorem Between.later (h : Between k w₀ d) (hf : Follows k R New w₀ d d') : Between k w₀ d' := by
  obtain ⟨hb', hs⟩ := hf h.1
  exact ⟨hb', fun raw hu => h.2 raw (hs.unrecorded raw hu)⟩

theorem guard_of_isLook (hR : Lasting k R New) (d : Diary) (op : Op) (h : op.isLook = true) :
    (discipline k R w₀).guard d op := guard_of_isRoutine hR d op (Op.isRoutine_of_isLook h)

theorem follows_look (hR : Lasting k R New) (hop : op.isLook = true) (hE : Server k d op r d') :
    Follows k R New w₀ d d' :=
  follows_step hR (Op.isInsert_of_isRoutine (Op.isRoutine_of_isLook hop))
    (guard_of_isLook hR d op hop) hE

theorem follows_lists (hR : Lasting k R New) {flags : List (ℕ × List String)}
    (h : ICloudMailbox.Lists (Server k) (Follows k R New w₀) d flags d') :
    Follows k R New w₀ d d' := by
  obtain ⟨found, v, hsearch, ⟨-, -, rfl⟩ | ⟨fetched, v', hv, hE, -⟩⟩ := h
  · exact follows_look hR rfl hsearch
  · exact (follows_look hR rfl hsearch).trans hR (hv.trans hR (follows_look hR rfl hE))

/-- The calls of a command. -/
def commanding (k : Keywords) (w₀ : World) : Discipline Op Diary where
  rely := Follows k (Same k) (Blank k) w₀
  guard := fun d op => (discipline k (Attends k) w₀).guard d op ∧ op.isInsert = false

def commandGrowth (k : Keywords) (w₀ : World) :
    Growth (Server k) (commanding k w₀) (fun op => op.isImap = true) where
  grow := Follows k (Attends k) (fun m => m.has k.unverified = false) w₀
  refl := .refl lasting_attends
  trans := .trans lasting_attends
  rely := fun h hb => ⟨(h hb).1, (h hb).2.weaken lasting_attends⟩
  step := fun _ hg hE => follows_step lasting_attends hg.2 hg.1 hE

theorem commands_look (d : Diary) (op : Op) (h : op.isLook = true) :
    (commanding k w₀).guard d op :=
  ⟨guard_of_isLook lasting_attends d op h, Op.isInsert_of_isRoutine (Op.isRoutine_of_isLook h)⟩

theorem guard_cleared (d : Diary) (uid : ℕ) :
    (commanding k w₀).guard d (.removeFlags uid k.failed) := by
  refine ⟨⟨rfl, fun m => ⟨fun hu => ?_, fun hi => ?_⟩⟩, rfl⟩
  · rw [← hu]
    exact (has_after_remove k.failed_ne_unverified.symm uid m).symm
  · rw [← hi]
    exact has_after_remove k.inserted_ne_failed uid m

theorem guard_marked (h : Between k w₀ d) (hheeded : Heeded k uid d) :
    (commanding k w₀).guard d (.addFlags uid k.failed) := by
  refine ⟨⟨fun m hm hu => ⟨fun he => ?_, fun he => ?_, fun _ => ⟨hheeded m hm hu, h.2 m.raw⟩⟩,
    fun m => ⟨fun hunverified => ?_, fun hi => stays_after_add uid hi⟩⟩, rfl⟩
  · exact absurd he.symm k.inserted_ne_failed
  · exact absurd he k.failed_ne_unverified
  · rw [← hunverified]
    exact (has_after_add k.failed_ne_unverified.symm uid m).symm

/-- `retry` without `--unverified` clears the failed keyword only. -/
theorem retry_allowed {args : RetryArgs} (hargs : args.unverified = false) {s : CliState} :
    (Cli.cmdRetry k args).Safe (Server k) (commanding k w₀) (fun _ _ _ => True) s d := by
  have hkeyword : Cli.retryKeyword k args = k.failed := by
    rw [Cli.retryKeyword, hargs]
    rfl
  refine (Cli.cmdRetry_safe (commandGrowth k w₀) commands_look ?_).mono (fun _ _ _ _ => trivial)
  intro uid v _
  rw [hkeyword]
  exact guard_cleared v uid

/-- `mark-failed` on messages whose unverified keyword is backed by the inserted one. -/
theorem markFailed_allowed {uids : List ℕ} (hgiven : ∀ uid ∈ uids, Heeded k uid d)
    (h : Between k w₀ d) {s : CliState} :
    (Cli.cmdMarkFailed k uids).Safe (Server k) (commanding k w₀) (fun _ _ _ => True) s d := by
  refine (Cli.cmdMarkFailed_safe (commandGrowth k w₀) commands_look ?_).mono
    (fun _ _ _ _ => trivial)
  intro flags v v' hv hlists uid huid _ v'' hv''
  have hall := (hv.trans lasting_attends (follows_lists lasting_attends hlists)).trans
    lasting_attends hv''
  exact guard_marked (h.later hall) ((hgiven uid huid).later (hall h.1).2)

/-- **A command leaves the books as they should be between sessions.** -/
theorem command_between {m : Command ℕ} {s : CliState} (h : Between k w₀ d)
    (hm : m.Safe (Server k) (commanding k w₀) (fun _ _ _ => True) s d)
    (hr : (Diary.commandSession m s).Runs (Server k) (Others k w₀) d d') : Between k w₀ d' := by
  obtain ⟨v, o, rfl, hv, -⟩ := hr.safe (D := commanding k w₀) (M := Between k w₀)
    (.refl lasting_same) (.trans lasting_same) Others.follows (fun hd' hb => hb.later hd')
    (fun hg hE hb => hb.later (follows_step lasting_attends hg.2 hg.1 hE)) h hm
    (fun _ _ _ _ h => h)
  exact hv

/-! ## Histories -/

/-- One step of a history: other clients move, or a run or a command is made, killed anywhere. The
    folders of the runs are not the INBOX, from which the report is taken. `Given` says what
    `mark-failed` may be given. -/
inductive Step (k : Keywords) (w₀ : World) (Given : List ℕ → Diary → Prop) (d d' : Diary) : Prop
  | others (h : Others k w₀ d d')
  | run (o : ForwarderOptions) (hk : o.keywords = k)
      (hfailed : folderName o.failedFolder ≠ "INBOX")
      (hunverified : folderName o.unverifiedFolder ≠ "INBOX")
      (h : (Diary.runSession o).Runs (Server k) (Others k w₀) d d') (hsettled : Settled d'.log)
  | retry (args : RetryArgs) (hargs : args.unverified = false)
      (h : (Diary.commandSession (Cli.cmdRetry k args) (Cli.initial k false)).Runs (Server k)
        (Others k w₀) d d')
  | markFailed (uids : List ℕ) (hgiven : Given uids d)
      (h : (Diary.commandSession (Cli.cmdMarkFailed k uids) (Cli.initial k false)).Runs (Server k)
        (Others k w₀) d d')

/-- The diaries between the sessions of the histories that begin with the account `w₀`. -/
def Reachable (k : Keywords) (w₀ : World) (Given : List ℕ → Diary → Prop) : Diary → Prop :=
  Relation.ReflTransGen (Step k w₀ Given) (Diary.opened w₀)

/-- `mark-failed` is given no message that carries the unverified keyword without the inserted
    one. -/
def Heeds (k : Keywords) (uids : List ℕ) (d : Diary) : Prop := ∀ uid ∈ uids, Heeded k uid d

/-- An account whose keywords tell: exactly what Gmail has accepted carries the inserted or the
    unverified keyword. -/
structure Agrees (k : Keywords) (w : World) : Prop where
  wellFormed : WellFormed w
  distinct : ∀ m m', Inbox w m → Inbox w m' → m.raw = m'.raw → m.uid = m'.uid
  backed : ∀ m, Inbox w m → m.has k.failed = true → Backed k m
  told : ∀ m, Inbox w m → (Told k m ↔ w.Accepted m.raw)

theorem Agrees.opened (h : Agrees k w₀) : Between k w₀ (Diary.opened w₀) := by
  refine ⟨⟨h.wellFormed, fun m hm => Or.inl ⟨m, hm, rfl⟩, h.distinct, h.backed,
    fun m hm => (h.told m hm).mp, fun m hm ha => Or.inl ((h.told m hm).mpr ha), ?_, ?_⟩, ?_⟩
  · exact fun _ _ hu => hu.elim
  · exact fun _ hu => hu.elim
  · exact fun _ hu => hu.elim

/-- **The keywords tell the truth in every history.** -/
theorem between_of_reachable (h₀ : Agrees k w₀) (h : Reachable k w₀ (Heeds k) d) :
    Between k w₀ d := by
  induction h with
  | refl => exact h₀.opened
  | tail _ hstep ih =>
      cases hstep with
      | others h => exact ih.later h.follows
      | run o hk _ _ h hsettled => exact run_between hk ih h hsettled
      | retry args hargs h => exact command_between ih (retry_allowed hargs) h
      | markFailed uids hgiven h => exact command_between ih (markFailed_allowed hgiven ih) h

/-! ## The report -/

/-- Whatever `_collect` reports while the others move, it reports of a message that was in the INBOX
    when it started, and says that Gmail has it exactly when Gmail has accepted it. -/
def TellsTruth (k : Keywords) (w₀ : World) (d : Diary) : Prop :=
  ∀ (parse : Option (List UInt8) → ICloudMailbox.Headers) (s : ICloudMailbox),
    (Cli.collect parse k).Safe (Server k) ⟨Drift (Others k w₀), fun _ _ => True⟩
      (fun r _ _ => ∀ entries, r = .ok entries → ∀ e ∈ entries, ∃ m ∈ d.world.messages,
        m.isAt e.uid = true ∧ (e.inGmail = true ↔ d.world.Accepted m.raw)) s d

/-- What `_collect` says of a message it sees as it is. -/
theorem entry_truth (hw : Between k w₀ d) {m : Message} (hm : Inbox d.world m)
    {flags : List String} (hflags : ∀ keyword ∈ k.all, hasFlag flags keyword = m.has keyword)
    {e : Entry} (he : Cli.entryFor k uid flags = some e) :
    e.uid = uid ∧ (e.inGmail = true ↔ d.world.Accepted m.raw) := by
  have hknown : d.world.Accepted m.raw → Told k m := fun ha =>
    (hw.running.known m hm ha).resolve_right List.not_mem_nil
  have hne : k.failed ≠ k.unverified := fun h => k.failed_ne_unverified (congrArg lower h)
  have hfailed := hflags _ Diary.failed_mem
  have hunverified := hflags _ Diary.unverified_mem
  have hinserted := hflags _ Diary.inserted_mem
  simp only [Cli.entryFor, Keywords.quarantine, List.find?_cons, List.find?_nil, hfailed,
    hunverified, hinserted] at he
  by_cases hf : m.has k.failed = true
  · -- the failed keyword is reported, and only the inserted one says that Gmail has the message
    simp only [hf, decide_eq_false hne, Bool.false_or] at he
    obtain rfl := Option.some.inj he
    refine ⟨rfl, fun hi => hw.1.told m hm (Or.inl hi), fun ha => ?_⟩
    rcases hknown ha with hi | hu
    · exact hi
    · exact hw.1.backed m hm hf hu
  · by_cases hu : m.has k.unverified = true
    · simp only [Bool.eq_false_iff.mpr hf, hu, decide_true, Bool.true_or] at he
      obtain rfl := Option.some.inj he
      exact ⟨rfl, fun _ => hw.1.told m hm (Or.inr hu), fun _ => rfl⟩
    · simp only [Bool.eq_false_iff.mpr hf, Bool.eq_false_iff.mpr hu] at he
      exact absurd he (by simp)

/-- An entry is made for a message with a quarantine keyword only. -/
theorem shown_of_entry {flags : List String} {e : Entry} (h : Cli.entryFor k uid flags = some e) :
    ∃ keyword ∈ k.all, hasFlag flags keyword = true := by
  unfold Cli.entryFor at h
  cases hfind : k.quarantine.find? (hasFlag flags) with
  | none =>
      rw [hfind] at h
      exact absurd h nofun
  | some keyword =>
      exact ⟨keyword, Diary.all_of_quarantine (List.mem_of_find?_eq_some hfind),
        List.find?_some hfind⟩

/-- A listing that shows a keyword of the tool on a message shows all of them as they are. -/
theorem listed_same {flags : List (ℕ × List String)}
    {grow : Diary → Diary → Prop} {v : Diary} (hs : Since (Same k) (Blank k) w₀ d d')
    (h : ICloudMailbox.Lists (Server k) grow v flags d') {item : ℕ × List String}
    (hitem : item ∈ flags) {keyword : String} (hk : keyword ∈ k.all)
    (hhas : hasFlag item.2 keyword = true) :
    ∃ m, Inbox d.world m ∧ m.uid = item.1 ∧
      ∀ keyword ∈ k.all, hasFlag item.2 keyword = m.has keyword := by
  obtain ⟨found, v₁, -, ⟨-, rfl, -⟩ | ⟨fetched, v₂, -, ⟨hE, -⟩, rfl⟩⟩ := h
  · exact absurd hitem List.not_mem_nil
  · obtain ⟨u, -, rfl⟩ := List.mem_map.mp hitem
    have hreported : ICloudMailbox.reportedFlags fetched u ≠ [] := by
      intro hnil
      rw [hnil] at hhas
      exact absurd hhas nofun
    obtain ⟨m', hm', hat, hflags⟩ := reportedFlags_same hE.1.2 hreported
    obtain ⟨hin, hu'⟩ := inbox_of_isAt hm' hat
    rcases hs.stems m' hin with ⟨m, hm, hu, -, hsame⟩ | ⟨-, -, -, hblank⟩
    · exact ⟨m, hm, hu.trans hu', fun keyword hk => (hflags keyword).trans (hsame keyword hk)⟩
    · have hout : hasFlag (ICloudMailbox.reportedFlags fetched u) keyword = false :=
        (hflags keyword).trans (hblank keyword hk)
      rw [hout] at hhas
      exact absurd hhas nofun

theorem follows_of_drift (h : Drift (Others k w₀) d d') :
    Follows k (Same k) (Blank k) w₀ d d' := by
  induction h with
  | refl => exact .refl lasting_same d
  | tail _ h ih => exact ih.trans lasting_same h.follows

/-- What a report keeps while it looks. -/
def lookGrowth (k : Keywords) (w₀ : World) :
    Growth (Server k) (discipline k (Same k) w₀) (fun op => op.isImap = true) :=
  (growth lasting_same w₀).restrict (fun _ => Op.isInsert_of_isImap)

/-- **list-quarantined tells the truth about Gmail**, in every history in which `mark-failed` is
    given no message that carries the unverified keyword without the inserted one, and no run has the
    INBOX as one of its folders. -/
theorem tells_truth (h₀ : Agrees k w₀) (h : Reachable k w₀ (Heeds k) d) : TellsTruth k w₀ d := by
  intro parse s
  have hbetween := between_of_reachable h₀ h
  have hcollect : (Cli.collect parse k).Safe (Server k) (discipline k (Same k) w₀) _ s d :=
    Cli.collect_safe (lookGrowth k w₀) (guard_of_isLook lasting_same)
  refine (hcollect.guard_mono follows_of_drift (fun _ => trivial)).mono ?_
  intro r _ _ hentries entries hr e he
  obtain ⟨flags, v, v', hv, hlists, item, hitem, e', hentry, hu, hin⟩ := hentries entries hr e he
  have hfollows : Follows k (Same k) (Blank k) w₀ d v' :=
    Follows.trans lasting_same hv (follows_lists lasting_same hlists)
  obtain ⟨keyword, hk, hhas⟩ := shown_of_entry hentry
  obtain ⟨m, hm, hum, hflags⟩ := listed_same (hfollows hbetween.1).2 hlists hitem hk hhas
  obtain ⟨hu', htruth⟩ := entry_truth hbetween hm hflags hentry
  refine ⟨m, hm.1, Message.isAt_iff.mpr ⟨hm.2, ?_⟩, ?_⟩
  · rw [hum, hu, hu']
  · rw [hin]
    exact htruth

/-! ## One mail -/

/-- The diary after a call with this answer and this effect. -/
def noted (k : Keywords) (d : Diary) (op : Op) (r : Reply op) (w' : World) : Diary where
  world := w'
  confirmed := Diary.marksOf k op r w' ++
    d.confirmed.filter (fun c => !decide (c ∈ Diary.clearedBy k op d.world w'))
  log := Diary.notesOf k op r d.world w' ++ d.log

/-- A conforming provider that names no message twice, noted in the diary. -/
def serve (P : Provider) (k : Keywords) (d : Diary) (op : Op) : Reply op × Diary :=
  match op with
  | .search criteria =>
      let found := (d.world.searchInbox criteria).dedup
      (.ok found, noted k d (.search criteria) (.ok found) d.world)
  | op => Diary.note P k d op

theorem serve_server (P : Provider) (k : Keywords) (d : Diary) (op : Op) :
    Server k d op (serve P k d op).1 (serve P k d op).2 := by
  cases op
  case search criteria =>
    exact ⟨⟨⟨Or.inl rfl, trivial⟩, trivial, rfl, rfl⟩, List.nodup_dedup _⟩
  all_goals exact ⟨Diary.note_keeps P k d _, trivial⟩

/-- The same provider, on a server that ignores every `STORE` of the inserted keyword. -/
def forget (P : Provider) (k : Keywords) (d : Diary) (op : Op) : Reply op × Diary :=
  match op with
  | .addFlags uid flag =>
      if flag = DEFAULT_INSERTED_KEYWORD then
        (.ok [], noted k d (.addFlags uid flag) (.ok []) d.world)
      else serve P k d (.addFlags uid flag)
  | op => serve P k d op

theorem forget_server (P : Provider) (k : Keywords) (d : Diary) (op : Op) :
    Server k d op (forget P k d op).1 (forget P k d op).2 := by
  cases op
  case addFlags uid flag =>
    by_cases he : flag = DEFAULT_INSERTED_KEYWORD
    · have hanswer : forget P k d (.addFlags uid flag) =
          (.ok [], noted k d (.addFlags uid flag) (.ok []) d.world) := if_pos he
      rw [hanswer]
      refine ⟨⟨⟨Or.inr ⟨?_, rfl⟩, nofun⟩, trivial, rfl, rfl⟩, trivial⟩
      rw [he]
      change decide (lower DEFAULT_INSERTED_KEYWORD ≠ lower deletedFlag) = true
      decide
    · have hanswer : forget P k d (.addFlags uid flag) = serve P k d (.addFlags uid flag) :=
        if_neg he
      rw [hanswer]
      exact serve_server P k d _
  all_goals exact serve_server P k d _

theorem oneMail_agrees : Agrees Keywords.default oneMail where
  wellFormed := oneMail_wellFormed
  distinct := by
    intro m m' hm hm' _
    rw [List.mem_singleton.mp hm.1, List.mem_singleton.mp hm'.1]
  backed := by
    intro m hm hfailed
    rw [List.mem_singleton.mp hm.1] at hfailed
    exact absurd hfailed nofun
  told := by
    intro m hm
    rw [List.mem_singleton.mp hm.1]
    refine ⟨fun h => ?_, fun ⟨copy, hc, _⟩ => absurd hc List.not_mem_nil⟩
    rcases h with h | h
    · exact absurd h nofun
    · exact absurd h nofun

/-- The diary after a run whose insert was accepted and whose inserted keyword was not stored. -/
def unconfirmed : Diary where
  world := Requeue.keptMail ["$GmailUnverified"] [Requeue.accepted]
  confirmed := [(⟨0, [72, 105]⟩, "$GmailUnverified")]
  log := [.ended .clean, .marked ⟨0, [72, 105]⟩, .answered ⟨0, [72, 105]⟩ .accepted,
    .fetched ⟨0, [72, 105]⟩]

theorem unconfirmed_eq : (Diary.runSession ForwarderOptions.default).leave
    (some ((Diary.runSession ForwarderOptions.default).program.exec
      (forget {} Keywords.default) (Diary.opened oneMail)).1)
    ((Diary.runSession ForwarderOptions.default).program.exec
      (forget {} Keywords.default) (Diary.opened oneMail)).2 = unconfirmed := by
  decide +kernel

theorem unconfirmed_reachable (Given : List ℕ → Diary → Prop) :
    Reachable Keywords.default oneMail Given unconfirmed := by
  refine .single (.run ForwarderOptions.default rfl (by decide) (by decide) ?_ ?_)
  · rw [← unconfirmed_eq]
    exact Session.Runs.exec (forget {} Keywords.default) (forget_server {} Keywords.default) _
  · exact fun h => absurd rfl h

/-- The report after that run. -/
theorem tells_truth_unconfirmed : TellsTruth Keywords.default oneMail unconfirmed :=
  tells_truth oneMail_agrees (unconfirmed_reachable _)

/-! ## A mail with both keywords -/

/-- Any message may be marked by hand. -/
def Unheeded (_ : List ℕ) (_ : Diary) : Prop := True

/-- `mark-failed --uid 1` after that run. -/
def bothKeywords : Diary :=
  ((Diary.commandSession (Cli.cmdMarkFailed Keywords.default [1])
    (Cli.initial Keywords.default false)).program.exec (serve {} Keywords.default) unconfirmed).2

theorem bothKeywords_reachable :
    Reachable Keywords.default oneMail Unheeded bothKeywords :=
  .tail (unconfirmed_reachable Unheeded) (.markFailed [1] trivial
    (Session.Runs.exec (serve {} Keywords.default) (serve_server {} Keywords.default) unconfirmed))

/-- The report after that, when nobody else moves. -/
def report : Except Exc (List Entry) :=
  ((Cli.collect (fun _ => ⟨"", "", ""⟩) Keywords.default).exec (serve {} Keywords.default)
    { readonly := true, skipKeywords := [], connected := true } bothKeywords).1.1

/-- The failed keyword hides the unverified one: the report denies that Gmail has the message, which
    Gmail has accepted. -/
theorem not_tells_truth :
    ¬ ∀ d, Reachable Keywords.default oneMail Unheeded d →
      TellsTruth Keywords.default oneMail d := by
  intro h
  have htruth := h bothKeywords bothKeywords_reachable (fun _ => ⟨"", "", ""⟩)
    { readonly := true, skipKeywords := [], connected := true }
  have hentries := Routine.Safe.exec id
    (fun d op => serve_server {} Keywords.default d op) (fun _ => Relation.ReflTransGen.refl) htruth
  have hreport : report = .ok [⟨1, "$GmailFailed", false, some ⟨"", "", ""⟩⟩] := by
    decide +kernel
  have hworld : bothKeywords.world =
      Requeue.keptMail ["$GmailUnverified", "$GmailFailed"] [Requeue.accepted] := by
    decide +kernel
  obtain ⟨m, hm, -, hiff⟩ := hentries _ hreport _ (List.mem_singleton_self _)
  rw [hworld] at hm hiff
  rw [List.mem_singleton.mp hm] at hiff
  have haccepted : (Requeue.keptMail ["$GmailUnverified", "$GmailFailed"]
      [Requeue.accepted]).Accepted ⟨0, [72, 105]⟩ :=
    ⟨Requeue.accepted, List.mem_singleton_self _, rfl⟩
  exact absurd (hiff.mpr haccepted) nofun

end InGmail

end MailTransporter
