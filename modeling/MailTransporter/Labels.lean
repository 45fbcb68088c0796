import MailTransporter.GmailClient
import MailTransporter.Provider
import MailTransporter.ForwarderRules
import MailTransporter.Effect.History

set_option autoImplicit false

/-! # The label in Gmail

The labels of the account over any number of runs, each of which may be killed at any call and may
lose any answer, the answer to a creation included. Other clients may do with other labels whatever
they like.

`Tidy` says what a run may ask of the account: it creates the configured label where none has its
name, whatever the case, and it inserts messages with the id of the label that is there. -/

namespace MailTransporter

open Effect
open Effect.Routine (getSelf)

/-- A label of the account. -/
structure GmailLabel where
  id : String
  name : String
deriving DecidableEq

/-- What the runs and the other clients see of the account. -/
structure Account where
  labels : List GmailLabel := []
deriving DecidableEq

namespace Account

variable (strLower : String → String) (label : Option String)

/-- The label a run is configured with, under whatever case. An empty name is no label. -/
def isWanted (l : GmailLabel) : Bool :=
  match label with
  | some name => decide (name ≠ "") && decide (strLower l.name = strLower name)
  | none => false

/-- The account's labels of that name. -/
def wanted (w : Account) : List GmailLabel := w.labels.filter (isWanted strLower label)

/-- The reply to a listing, in the account's order. -/
def listing (w : Account) : List Label := w.labels.map (fun l => ⟨some l.name, some l.id⟩)

def add (w : Account) (id name : String) : Account := ⟨w.labels ++ [⟨id, name⟩]⟩

/-- Gmail and the mail server: a listing shows the labels there are, a creation makes one under a
    new id, and one that fails may have made it. -/
def Server : Env Wire Wire.Reply Account := fun w call r w' =>
  match call, r with
  | .execute .listLabels, .ok (.ok labels) => labels = w.listing ∧ w' = w
  | .execute (.createLabel body), .ok (.ok created) =>
      ∃ id, created = some id ∧ (∀ l ∈ w.labels, l.id ≠ id) ∧ w' = w.add id body.name
  | .execute (.createLabel body), _ =>
      w' = w ∨ ∃ id, (∀ l ∈ w.labels, l.id ≠ id) ∧ w' = w.add id body.name
  | _, _ => w' = w

/-- The other clients leave alone the labels of that name. -/
def Others (w w' : Account) : Prop := w'.wanted strLower label = w.wanted strLower label

/-- The extra labels of an insert: none, or the id of the label that is there. -/
def Labelled (w : Account) (extraLabels : List String) : Prop :=
  (extraLabels = [] ∧ (label = none ∨ label = some "")) ∨
    ∃ l ∈ w.wanted strLower label, extraLabels = [l.id]

/-- The labels of an insert: those that some flags come to, and the extra ones. -/
def MayInsert (w : Account) (raw : RawMail) (labelIds : List String) : Prop :=
  ∃ (message : FetchedMessage) (extraLabels : List String), raw = message.raw ∧
    labelIds = gmailLabelsFor message extraLabels ∧ w.Labelled strLower label extraLabels

/-- What a run may ask of the account. -/
def Tidy (w : Account) : Wire → Prop
  | .execute (.createLabel body) => label = some body.name ∧ w.wanted strLower label = []
  | .execute (.insertMessage _ labelIds media) => w.MayInsert strLower label media.raw labelIds
  | _ => True

/-- A run with the label, over requests. It may be killed at any call. -/
def runOver (o : ForwarderOptions) : Session Wire Wire.Reply Account where
  Result := (Except Exc SyncResult × RunState) × GmailClient
  program := (Forwarder.run o (Forwarder.initial o)).over (GmailClient.carry strLower) {}
  enter := id
  leave := fun _ w => w

/-- The accounts reached by any number of runs with the label and moves of the other clients. -/
def Reachable : Account → Account → Prop :=
  History Server (Others strLower label) (fun σ => ∃ o : ForwarderOptions, o.label = label ∧
    σ = runOver strLower o)

variable {strLower label} {w w' : Account}

theorem mem_wanted {l : GmailLabel} :
    l ∈ w.wanted strLower label ↔ l ∈ w.labels ∧ isWanted strLower label l = true := List.mem_filter

theorem isWanted_iff {name : String} (hname : name ≠ "") {l : GmailLabel} :
    isWanted strLower (some name) l = true ↔ strLower l.name = strLower name := by
  simp [isWanted, hname]

/-- A label that has been listed under the name is the wanted one. -/
theorem findLabel_some {name : String} (hname : name ≠ "") {found : Label}
    (h : GmailClient.findLabel strLower name w.listing = some found) :
    ∃ l ∈ w.wanted strLower (some name), found = ⟨some l.name, some l.id⟩ := by
  have hmem := List.mem_of_find?_eq_some h
  have hmatch := List.find?_some h
  obtain ⟨l, hl, rfl⟩ := List.mem_map.mp hmem
  refine ⟨l, mem_wanted.mpr ⟨hl, (isWanted_iff hname).mpr ?_⟩, rfl⟩
  simpa using hmatch

/-- Where no listed label has the name there is none. -/
theorem findLabel_none {name : String} (hname : name ≠ "")
    (h : GmailClient.findLabel strLower name w.listing = none) :
    w.wanted strLower (some name) = [] := by
  rw [GmailClient.findLabel, List.find?_eq_none] at h
  refine List.filter_eq_nil_iff.mpr (fun l hl hw => ?_)
  have hno := h ⟨some l.name, some l.id⟩ (List.mem_map.mpr ⟨l, hl, rfl⟩)
  simp [(isWanted_iff hname).mp hw] at hno

/-- A label that is added under the name joins the wanted ones. -/
theorem wanted_add (w : Account) (id name : String) :
    (w.add id name).wanted strLower label =
      w.wanted strLower label ++ [⟨id, name⟩].filter (isWanted strLower label) :=
  List.filter_append ..

/-! ## What stays -/

/-- The wanted labels there are stay. -/
def Grows (strLower : String → String) (label : Option String) (w w' : Account) : Prop :=
  ∀ l ∈ w.wanted strLower label, l ∈ w'.wanted strLower label

theorem Grows.refl (w : Account) : Grows strLower label w w := fun _ h => h

theorem Grows.trans {a b c : Account} (h : Grows strLower label a b)
    (h' : Grows strLower label b c) : Grows strLower label a c := fun l hl => h' l (h l hl)

theorem Others.grows (h : Others strLower label w w') : Grows strLower label w w' :=
  fun _ hl => h ▸ hl

theorem Others.trans {a b c : Account} (h : Others strLower label a b)
    (h' : Others strLower label b c) : Others strLower label a c := Eq.trans h' h

theorem grows_add (w : Account) (id name : String) : Grows strLower label w (w.add id name) := by
  intro l hl
  rw [wanted_add]
  exact List.mem_append_left _ hl

theorem Server.grows {call : Wire} {r : Wire.Reply call} (h : Server w call r w') :
    Grows strLower label w w' := by
  unfold Server at h
  split at h
  · obtain ⟨-, rfl⟩ := h
    exact Grows.refl _
  · obtain ⟨id, -, -, rfl⟩ := h
    exact grows_add w id _
  · rcases h with rfl | ⟨id, -, rfl⟩
    · exact Grows.refl _
    · exact grows_add w id _
  · rw [h]
    exact Grows.refl _

theorem Labelled.grows {extraLabels : List String} (h : w.Labelled strLower label extraLabels)
    (hw : Grows strLower label w w') : w'.Labelled strLower label extraLabels := by
  rcases h with h | ⟨l, hl, he⟩
  · exact Or.inl h
  · exact Or.inr ⟨l, hw l hl, he⟩

/-! ## The run above -/

/-- What a run may ask of the client. -/
def Asks (strLower : String → String) (label : Option String) (w : Account) : Op → Prop
  | .ensureLabel name => label = some name ∧ name ≠ ""
  | .insertRaw raw labelIds => w.MayInsert strLower label raw labelIds
  | _ => True

/-- What the answer to a call of a run says about the account. -/
def Learned (strLower : String → String) (label : Option String) :
    (op : Op) → Reply op → Account → Prop
  | .ensureLabel _, .ok id, w' => ∃ l ∈ w'.wanted strLower label, l.id = id
  | _, _, _ => True

/-- The account as a run knows it: the wanted labels stay, and `ensure_label` returns the id of one
    of them. -/
def Answers (strLower : String → String) (label : Option String) : Env Op Reply Account :=
  fun w op r w' => Grows strLower label w w' ∧ Learned strLower label op r w'

/-- The others leave the wanted labels alone, and the run asks only what it may. -/
def asking (strLower : String → String) (label : Option String) : Discipline Op Account where
  rely := Others strLower label
  guard := Asks strLower label

/-- The same over the requests. -/
def requesting (strLower : String → String) (label : Option String) : Discipline Wire Account where
  rely := Others strLower label
  guard := Tidy strLower label

def growth (strLower : String → String) (label : Option String) :
    Growth (Answers strLower label) (asking strLower label) (fun _ => True) where
  grow := Grows strLower label
  refl := Grows.refl
  trans := Grows.trans
  rely := Others.grows
  step := fun _ _ hE => hE.1

/-- The calls of a run that do not concern the account. -/
def isApart : Op → Bool
  | .ensureLabel _ => false
  | .insertRaw _ _ => false
  | _ => true

theorem asks_of_isApart {op : Op} (h : isApart op = true) (w : Account) :
    Asks strLower label w op := by
  cases op
  all_goals first | exact trivial | simp [isApart] at h

theorem isApart_of_isLook {op : Op} (h : op.isLook = true) : isApart op = true := by
  cases op
  all_goals first | rfl | simp [Op.isLook, Op.isQuiet] at h

theorem isApart_of_isOn {uid : ℕ} {op : Op} (h : op.isOn uid = true) : isApart op = true := by
  cases op
  all_goals first | rfl | simp [Op.isOn] at h

/-- Calls that do not concern the account may be made at any time. -/
theorem apart_safe {σ α : Type} {m : Py σ α} (hm : m.Uses (fun op => isApart op = true)) (s : σ)
    (w : Account) : m.Safe (Answers strLower label) (asking strLower label)
      (fun _ _ w' => Grows strLower label w w') s w :=
  Routine.Safe.of_uses (growth strLower label) hm (fun _ _ => trivial)
    (fun w' _ _ h => asks_of_isApart h w')

/-- The extra labels of a run are none, or the label that is there. -/
theorem extraLabelIds_safe (s : RunState) (w : Account) :
    (Forwarder.extraLabelIds label).Safe (Answers strLower label) (asking strLower label)
      (fun r _ w' => ∀ extraLabels, r = .ok extraLabels → w'.Labelled strLower label extraLabels)
      s w := by
  cases label with
  | none =>
      rintro extraLabels ⟨⟩
      exact Or.inl ⟨rfl, Or.inl rfl⟩
  | some name =>
      by_cases hname : name = ""
      · subst hname
        rintro extraLabels ⟨⟩
        exact Or.inl ⟨rfl, Or.inr rfl⟩
      · rw [Forwarder.extraLabelIds]
        simp only [hname, if_false, Routine.safe_bind]
        intro w₁ hothers
        refine ⟨⟨rfl, hname⟩, ?_⟩
        rintro r w₂ ⟨-, hlearned⟩
        cases r with
        | error e =>
            intro extraLabels h
            cases h
        | ok id =>
            obtain ⟨l, hl, rfl⟩ := hlearned
            rintro extraLabels ⟨⟩
            exact Or.inr ⟨l, hl, rfl⟩

/-- From the listing on a run inserts with the labels it has found out. -/
theorem listed_safe (o : ForwarderOptions) {extraLabels : List String} (started : ℚ) (s : RunState)
    (h : w.Labelled strLower label extraLabels) :
    Routine.Safe (Answers strLower label) (asking strLower label) (do
      let uids ← onMailbox (ICloudMailbox.listInboxUids (some o.keywords.quarantine))
      count (fun r => { r with listed := uids.length })
      Forwarder.processAll o extraLabels started uids
      let s ← getSelf
      if s.rejected = [] then pure () else Forwarder.settleRejections o : Run Unit)
      (fun _ _ _ => True) s w := by
  let S : Op → Prop := fun op => isApart op = true ∨
    ∃ message : FetchedMessage, op = .insertRaw message.raw (gmailLabelsFor message extraLabels)
  have huses := Forwarder.listed_labelled (o := o) (S := S)
    (fun _ _ hon => Or.inl (isApart_of_isOn hon)) (Or.inl rfl) (fun _ => Or.inl rfl)
    (fun _ => Or.inl rfl) (fun _ => Or.inl rfl) (fun message => Or.inr ⟨message, rfl⟩) started
  refine (Routine.Safe.of_uses (growth strLower label) huses (fun _ _ => trivial) ?_).mono
    (fun _ _ _ _ => trivial)
  rintro w' op hw' (hop | ⟨message, rfl⟩)
  · exact asks_of_isApart hop w'
  · exact ⟨message, extraLabels, rfl, rfl, h.grows hw'⟩

theorem session_safe {o : ForwarderOptions} (ho : o.label = label) (started : ℚ) (s : RunState)
    (w : Account) : (Forwarder.session o started).Safe (Answers strLower label)
      (asking strLower label) (fun _ _ _ => True) s w := by
  rw [Forwarder.session, Routine.safe_bind]
  have hrequire : (onMailbox ICloudMailbox.requireKeywords).Uses (fun op => isApart op = true) :=
    Routine.uses_on ICloudMailbox.requireKeywords_uses
  refine (apart_safe hrequire s w).mono ?_
  intro r s₁ w₁ _
  cases r with
  | error e => trivial
  | ok _ =>
  rw [Routine.after_ok, Routine.safe_bind]
  refine Routine.Safe.mono (apart_safe (Routine.uses_call rfl) s₁ w₁) ?_
  intro r s₂ w₂ _
  cases r with
  | error e => trivial
  | ok _ =>
  rw [Routine.after_ok, Routine.safe_bind, ho]
  refine (extraLabelIds_safe s₂ w₂).mono ?_
  intro r s₃ w₃ h₃
  cases r with
  | error e => trivial
  | ok extraLabels => exact listed_safe o started s₃ (h₃ extraLabels rfl)

theorem run_safe {o : ForwarderOptions} (ho : o.label = label) (s : RunState) (w : Account) :
    (Forwarder.run o).Safe (Answers strLower label) (asking strLower label) (fun _ _ _ => True)
      s w := by
  have hlook : ∀ {α : Type} {m : Mailbox α}, ICloudMailbox.Looks m →
      (onMailbox m).Uses (fun op => isApart op = true) :=
    fun hm => Routine.uses_on (hm.mono (fun _ => isApart_of_isLook))
  have hend : ∀ started outcome s w, (Forwarder.conclude started outcome).Safe
      (Answers strLower label) (asking strLower label) (fun _ _ _ => True) s w := by
    intro started outcome s w
    refine (apart_safe ?_ s w).mono (fun _ _ _ _ => trivial)
    have hfinish : (do
        let ended ← call .clock
        count (fun r => { r with durationSeconds := round3 (ended - started) })
        let s ← getSelf
        pure s.result : Run SyncResult).Uses (fun op => isApart op = true) := by
      refine Routine.uses_bind (Routine.uses_call rfl) (fun ended => ?_)
      refine Routine.uses_bind (Routine.uses_modifySelf _) (fun _ => ?_)
      exact Routine.uses_bind Routine.uses_getSelf (fun _ => Routine.uses_pure _)
    cases outcome with
    | ok _ => exact hfinish
    | error e =>
        show Routine.Uses (if _ then _ else _) _
        split
        · exact Routine.uses_bind (Routine.uses_modifySelf _) (fun _ => hfinish)
        · exact Routine.uses_raise _
  simp only [Forwarder.run, Forwarder.withMailbox, Routine.safe_bind]
  refine Routine.Safe.mono (apart_safe (Routine.uses_call rfl) s w) ?_
  intro started s₁ w₁ _
  cases started with
  | error e => trivial
  | ok started =>
  simp only [Routine.after_ok, Routine.safe_bind, Routine.safe_attempt]
  refine (apart_safe (hlook ICloudMailbox.connect_glances.looks) s₁ w₁).mono ?_
  intro r s₂ w₂ _
  cases r with
  | error e => exact hend started (.error e) s₂ w₂
  | ok _ =>
  simp only [Routine.after_ok, Routine.safe_bind, Routine.safe_attempt]
  refine (session_safe ho started s₂ w₂).mono ?_
  intro outcome s₃ w₃ _
  refine (apart_safe (hlook ICloudMailbox.close_glances.looks) s₃ w₃).mono ?_
  intro r s₄ w₄ _
  cases r with
  | error e => exact hend started (.error e) s₄ w₄
  | ok _ =>
      simp only [Routine.after_ok, Routine.safe_settle]
      exact hend started outcome s₄ w₄

/-! ## The client -/

/-- The cache knows the configured label at most, and its id is one of a label that is there. -/
def Cached (strLower : String → String) (label : Option String) (w : Account)
    (client : GmailClient) : Prop :=
  ∀ entry ∈ client.labelCache, ∃ l ∈ w.wanted strLower label, l.id = entry.2

theorem Cached.grows {client : GmailClient} (h : w.Cached strLower label client)
    (hw : Grows strLower label w w') : w'.Cached strLower label client := by
  intro entry he
  obtain ⟨l, hl, hid⟩ := h entry he
  exact ⟨l, hw l hl, hid⟩

/-- What a request may ask, and what is known after it. -/
theorem execute_safe {request : Request} {client : GmailClient}
    {Q : Except Exc (Found request) → GmailClient → Account → Prop}
    (hguard : ∀ w₁, Others strLower label w w₁ → Tidy strLower label w₁ (.execute request))
    (hfound : ∀ found w₁ w', Others strLower label w w₁ →
      Server w₁ (.execute request) (.ok (.ok found)) w' → Q (.ok found) client w')
    (hfail : ∀ e w₁ r w', Others strLower label w w₁ → Server w₁ (.execute request) r w' →
      Q (.error e) client w') :
    (GmailClient.execute request).Safe Server (requesting strLower label) Q client w := by
  rw [GmailClient.execute, Routine.safe_bind]
  intro w₁ hw₁
  refine ⟨hguard w₁ hw₁, fun r w' hE => ?_⟩
  rcases r with e | ⟨failure | found⟩
  · exact hfail e w₁ _ w' hw₁ hE
  · exact hfail _ w₁ _ w' hw₁ hE
  · exact hfound found w₁ w' hw₁ hE

/-- The client is left with a label that is there in its cache. -/
theorem remember_safe {name id : String} {client : GmailClient} {w w₀ : Account}
    (hcached : w.Cached strLower label client) (hgrows : Grows strLower label w₀ w)
    (hid : ∃ l ∈ w.wanted strLower label, l.id = id) :
    Routine.Safe Server (requesting strLower label) (do
      GmailClient.remember name id
      pure id : Client String)
      (fun r client' w' => (Grows strLower label w₀ w' ∧
        Learned strLower label (.ensureLabel name) r w') ∧ w'.Cached strLower label client')
      client w := by
  refine ⟨⟨hgrows, hid⟩, fun entry he => ?_⟩
  rcases List.mem_cons.mp he with rfl | he
  · exact hid
  · exact hcached entry he

theorem ensureLabel_safe {name : String} (hname : name ≠ "") {client : GmailClient}
    (hcached : w.Cached strLower (some name) client) :
    (GmailClient.ensureLabel strLower name).Safe Server (requesting strLower (some name))
      (fun r client' w' => (Grows strLower (some name) w w' ∧
        Learned strLower (some name) (.ensureLabel name) r w') ∧
          w'.Cached strLower (some name) client') client w := by
  have hleft : ∀ {e : Exc} {w₁ w' : Account} {request : Request}
      {r : Wire.Reply (.execute request)}, Grows strLower (some name) w w₁ →
      Server w₁ (.execute request) r w' → (Grows strLower (some name) w w' ∧
        Learned strLower (some name) (.ensureLabel name) (.error e) w') ∧
          w'.Cached strLower (some name) client :=
    fun hw₁ hE => ⟨⟨hw₁.trans hE.grows, trivial⟩, hcached.grows (hw₁.trans hE.grows)⟩
  rw [GmailClient.ensureLabel, Routine.safe_bind, Routine.safe_getSelf, Routine.after_ok]
  rcases hlookup : client.labelCache.lookup name with _ | id
  swap
  · obtain ⟨before, after, heq, -⟩ := List.lookup_eq_some_iff.mp hlookup
    obtain ⟨l, hl, hid⟩ := hcached (name, id) (by simp [heq])
    exact ⟨⟨Grows.refl w, l, hl, hid⟩, hcached⟩
  rw [Routine.safe_bind]
  refine execute_safe (fun _ _ => trivial) ?_ (fun e w₁ r w' hw₁ hE => hleft hw₁.grows hE)
  rintro labels _ w₂ hw₁ ⟨rfl, rfl⟩
  have hw₂ := hw₁.grows
  rw [Routine.after_ok]
  rcases hfind : GmailClient.findLabel strLower name w₂.listing with _ | found
  · -- No label has the name, and none gets it before the creation.
    have hnone := findLabel_none hname hfind
    dsimp only
    rw [Routine.safe_bind]
    refine execute_safe (fun w₃ hw₃ => ⟨rfl, Eq.trans hw₃ hnone⟩) ?_
      (fun e w₃ r w' hw₃ hE => hleft (hw₂.trans hw₃.grows) hE)
    rintro created w₃ w₄ hw₃ hE
    have hw₄ := hw₂.trans (hw₃.grows.trans hE.grows)
    obtain ⟨id, rfl, -, rfl⟩ := hE
    refine remember_safe (hcached.grows hw₄) hw₄ ⟨⟨id, name⟩, ?_, rfl⟩
    exact mem_wanted.mpr ⟨List.mem_append_right _ (List.mem_singleton_self _),
      (isWanted_iff hname).mpr rfl⟩
  · obtain ⟨l, hl, rfl⟩ := findLabel_some hname hfind
    exact remember_safe (hcached.grows hw₂) hw₂ ⟨l, hl, rfl⟩

theorem insertRaw_safe {raw : RawMail} {labelIds : List String} {client : GmailClient}
    (hguard : ∀ w₁, Others strLower label w w₁ → w₁.MayInsert strLower label raw labelIds)
    (hcached : w.Cached strLower label client) :
    (GmailClient.insertRaw raw labelIds).Safe Server (requesting strLower label)
      (fun _ client' w' => Grows strLower label w w' ∧ w'.Cached strLower label client')
      client w := by
  simp only [GmailClient.insertRaw, Routine.safe_bind]
  refine execute_safe hguard ?_ ?_
  · intro found w₁ w' hw₁ hE
    have hw' := hw₁.grows.trans hE.grows
    cases found with
    | none => exact ⟨hw', hcached.grows hw'⟩
    | some id => exact ⟨hw', hcached.grows hw'⟩
  · intro e w₁ r w' hw₁ hE
    have hw' := hw₁.grows.trans hE.grows
    exact ⟨hw', hcached.grows hw'⟩

/-- The client carries out the calls of a run as the account above answers them. -/
theorem carries (strLower : String → String) (label : Option String) :
    Carries (Answers strLower label) (asking strLower label) Server (requesting strLower label)
      (GmailClient.carry strLower) (fun w client v => v = w ∧ w.Cached strLower label client) := by
  rintro op w client v ⟨rfl, hcached⟩ hguard
  by_cases hop : op.isGmail = true
  · cases op with
    | gmailClient =>
        intro w₁ hw₁
        refine ⟨trivial, fun r w' hE => ?_⟩
        have hE : Server w₁ (.build "gmail" "v1") r w' := hE
        have hw' := hw₁.grows.trans hE.grows
        cases r with
        | error e => exact ⟨v, w', rfl, ⟨hw', trivial⟩, rfl, hcached.grows hw'⟩
        | ok _ => exact ⟨v, w', rfl, ⟨hw', trivial⟩, rfl, by simp [Cached]⟩
    | ensureLabel name =>
        obtain ⟨rfl, hname⟩ := hguard v rfl
        refine Program.Safe.mono (ensureLabel_safe hname hcached) ?_
        rintro ⟨r, client'⟩ w' ⟨hanswer, hcached'⟩
        exact ⟨v, w', rfl, hanswer, rfl, hcached'⟩
    | insertRaw raw labelIds =>
        refine Program.Safe.mono (insertRaw_safe hguard hcached) ?_
        rintro ⟨r, client'⟩ w' ⟨hw', hcached'⟩
        exact ⟨v, w', rfl, ⟨hw', trivial⟩, rfl, hcached'⟩
    | _ => simp [Op.isGmail] at hop
  · have hop := Bool.eq_false_iff.mpr hop
    rw [GmailClient.carry_tool strLower hop]
    intro w₁ hw₁
    refine ⟨trivial, fun r w' hE => ⟨v, w', rfl, ⟨?_, ?_⟩, rfl, ?_⟩⟩
    · exact hw₁.grows.trans hE.grows
    · cases op with
      | ensureLabel name => simp [Op.isGmail] at hop
      | _ => trivial
    · exact hcached.grows (hw₁.grows.trans hE.grows)

theorem over_safe {o : ForwarderOptions} (ho : o.label = label) (w : Account) :
    ((Forwarder.run o (Forwarder.initial o)).over (GmailClient.carry strLower) {}).Safe Server
      (requesting strLower label) (fun _ _ => True) w := by
  have hcached : w.Cached strLower label {} := by simp [Cached]
  exact (Program.Safe.over (carries strLower label) (run_safe ho (Forwarder.initial o) w)
    ⟨rfl, hcached⟩).mono (fun _ _ _ => trivial)

/-- The others' moves, however many. -/
theorem others_of_drift (h : Drift (Others strLower label) w w') : Others strLower label w w' := by
  induction h with
  | refl => rfl
  | tail _ hs ih => exact Others.trans ih hs

/-- A step of a run leaves at most one label of the name. -/
theorem server_once {call : Wire} {r : Wire.Reply call} (hguard : Tidy strLower label w call)
    (hE : Server w call r w') (h : (w.wanted strLower label).length ≤ 1) :
    (w'.wanted strLower label).length ≤ 1 := by
  have hadd : ∀ {id : String} {body : LabelBody},
      Tidy strLower label w (.execute (.createLabel body)) →
      ((w.add id body.name).wanted strLower label).length ≤ 1 := by
    rintro id body ⟨-, hnone⟩
    rw [wanted_add, hnone, List.nil_append]
    exact List.length_filter_le _ _
  unfold Server at hE
  split at hE
  · exact hE.2 ▸ h
  · obtain ⟨id, -, -, rfl⟩ := hE
    exact hadd hguard
  · rcases hE with rfl | ⟨id, -, rfl⟩
    · exact h
    · exact hadd hguard
  · rw [hE]
    exact h

/-- The executions of a run among the moves of the others, and what it asks in them. -/
def Orderly (strLower : String → String) (o : ForwarderOptions) : Prop :=
  ∀ (w₀ w : Account) call next,
    Program.Steps (Server.under (Drift (Others strLower o.label)))
      (w₀, (runOver strLower o).program) (w, .call call next) → Tidy strLower o.label w call

/-! ## An account that loses an answer -/

/-- A creation makes the label, and its answer is lost. -/
def lossy (w : Account) : (call : Wire) → Wire.Reply call × Account
  | .tool op => (Provider.reply {} 0 oneMail op, w)
  | .build _ _ => (.ok (), w)
  | .execute .listLabels => (.ok (.ok w.listing), w)
  | .execute (.createLabel body) =>
      (.ok (.error (.transport "timed out")),
        if ∀ l ∈ w.labels, l.id ≠ "Label_1" then w.add "Label_1" body.name else w)
  | .execute (.insertMessage _ _ _) => (.ok (.ok (some "id")), w)

theorem lossy_server (w : Account) (call : Wire) :
    Server w call (lossy w call).1 (lossy w call).2 := by
  rcases call with op | ⟨service, version⟩ | request
  · rfl
  · rfl
  · cases request with
    | listLabels => exact ⟨rfl, rfl⟩
    | insertMessage source labelIds media => rfl
    | createLabel body =>
        by_cases hfresh : ∀ l ∈ w.labels, l.id ≠ "Label_1"
        · exact Or.inr ⟨"Label_1", hfresh, if_pos hfresh⟩
        · exact Or.inl (if_neg hfresh)

/-- The account after a run on it. -/
def ranOn (w : Account) : Account := ((runOver lower .default).program.exec lossy w).2

theorem ranOn_reachable {w₀ : Account} (h : Reachable lower (some "iCloud") w₀ w) :
    Reachable lower (some "iCloud") w₀ w.ranOn := by
  refine h.tail (Or.inr ⟨runOver lower .default, ⟨.default, rfl, rfl⟩, ?_⟩)
  exact Session.Runs.exec lossy lossy_server w

/-! ## Main results -/

/-- **A run creates the label only where it is missing, and inserts with the label that is there.**
    The account may have any labels, and any answer may be lost. -/
theorem orderly (strLower : String → String) (o : ForwarderOptions) : Orderly strLower o := by
  intro w₀ w call next hs
  have hunder : Program.Steps (Server.under (requesting strLower o.label).rely) _ _ :=
    Env.under_mono others_of_drift hs
  obtain ⟨-, hcall⟩ := (over_safe rfl w₀).steps (I := fun _ => True) (fun _ h => h)
    (fun _ _ h => h) trivial hunder
  exact (hcall w rfl).1

/-- **No number of runs makes a second label.** Runs may be killed at any call, and an answer that
    is lost may be the answer to a creation. -/
theorem label_once {w₀ : Account} (h₀ : (w₀.wanted strLower label).length ≤ 1)
    (h : Reachable strLower label w₀ w) : (w.wanted strLower label).length ≤ 1 := by
  induction h with
  | refl => exact h₀
  | tail _ hstep ih =>
      rcases hstep with hothers | ⟨σ, ⟨o, ho, rfl⟩, hruns⟩
      · rw [show Others strLower label _ _ from hothers]
        exact ih
      · obtain ⟨v, -, rfl, hv, -⟩ := hruns.safe (D := requesting strLower label)
          (M := fun w => (w.wanted strLower label).length ≤ 1) (fun _ => rfl) Others.trans id
          (fun hothers h => by rw [show Others strLower label _ _ from hothers]; exact h)
          (fun hguard hE h => server_once hguard hE h) ih (over_safe ho _) (fun _ _ _ _ h => h)
        exact hv

/-- The answer to the creation is lost, and the next run finds the label. -/
theorem label_once_lost :
    ((ranOn (ranOn {})).wanted lower (some "iCloud")).length ≤ 1 ∧
      (ranOn (ranOn {})).labels = [⟨"Label_1", "iCloud"⟩] :=
  ⟨label_once (by decide) (ranOn_reachable (ranOn_reachable .refl)), by decide +kernel⟩

end Account

end MailTransporter
