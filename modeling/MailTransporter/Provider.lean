import MailTransporter.Replies

set_option autoImplicit false

/-! # A conforming provider

A server that answers as RFC 3501 says, with Gmail's answers given by a function. What is left open
is what servers differ in: the extensions they have, whether they search for keywords, the name of
the Trash, and the order in which they list messages, which is the order of `World.messages`; and
whether the installed `imapclient` exports `TRASH`, which the pinned 3.1.0 does not. -/

namespace MailTransporter

open Effect

structure Provider where
  move : Bool := true
  uidPlus : Bool := true
  keywordSearch : Bool := true
  trash : Option String := some "Deleted Messages"
  exportsTrash : Bool := false
  gmail : RawMail → Except Exc String := fun _ => .ok "id"
  label : String → String := id

/-- The RFC 3501 meaning of the criteria the tool sends: `NOT DELETED` and `NOT KEYWORD`. -/
def matchesCriteria : List String → Message → Bool
  | "NOT" :: "DELETED" :: rest, m => !m.has deletedFlag && matchesCriteria rest m
  | "NOT" :: "KEYWORD" :: keyword :: rest, m => !m.has keyword && matchesCriteria rest m
  | _, _ => true

/-- `SEARCH` lists the messages of the INBOX that match. -/
def World.searchInbox (w : World) (criteria : List String) : List ℕ :=
  (w.messages.filter (fun m => decide (m.folder = "INBOX") && matchesCriteria criteria m)).map
    Message.uid

/-- One item of a `FETCH` reply. -/
def Message.item (m : Message) : FetchItems → FetchItem
  | .message => ⟨some (some m.raw), some m.flags, none⟩
  | .flags => ⟨none, some m.flags, none⟩
  | .headers => ⟨none, none, some m.raw.bytes⟩

/-- `FETCH` replies with an item for every message it finds. -/
def World.fetchInbox (w : World) (uids : List ℕ) (items : FetchItems) : Fetched :=
  uids.filterMap (fun uid => (w.find uid).map (fun m => (uid, m.item items)))

/-- `STORE` replies with the flags of the message, if there is one. -/
def World.storedFlags (w : World) (uid : ℕ) : Stored :=
  ((w.find uid).map (fun m => (uid, m.flags))).toList

namespace Provider

/-- The answer to a call made at the time `now`. -/
def reply (P : Provider) (now : ℚ) (w : World) : (op : Op) → Reply op
  | .openClient => .ok ()
  | .login => .ok ()
  | .selectFolder _ _ => .ok ⟨some 1, some ["\\Seen", "\\Deleted", "\\*"]⟩
  | .hasCapability name =>
      .ok ((decide (name = "MOVE") && P.move) || (decide (name = "UIDPLUS") && P.uidPlus))
  | .search criteria =>
      if "KEYWORD" ∈ criteria ∧ P.keywordSearch = false then
        .error (.other "IMAPClientError" "BAD SEARCH")
      else .ok (w.searchInbox criteria)
  | .fetch uids items => .ok (w.fetchInbox uids items)
  | .addFlags uid flag => .ok ((effect (.addFlags uid flag) w).storedFlags uid)
  | .removeFlags uid flag => .ok ((effect (.removeFlags uid flag) w).storedFlags uid)
  | .trashConstant =>
      if P.exportsTrash then .ok ()
      else .error (.other "AttributeError" "module 'imapclient' has no attribute 'TRASH'")
  | .findTrash => .ok P.trash
  | .folderExists folder => .ok (decide (folder ∈ w.folders))
  | .createFolder _ => .ok ()
  | .move _ _ => .ok ()
  | .copy _ _ => .ok ()
  | .uidExpunge _ => .ok ()
  | .logout => .ok ()
  | .shutdown => .ok ()
  | .idle => .ok ()
  | .idleCheck _ => .ok true
  | .idleDone => .ok ()
  | .noop => .ok ()
  | .gmailClient => .ok ()
  | .ensureLabel name => .ok (P.label name)
  | .insertRaw raw _ => P.gmail raw
  | .clock => .ok now
  | .sleep _ => .ok ()
  | .trigger => .ok { ok := true }
  | .touch _ _ => .ok ()
  | .issueTrash _ => .ok ()

/-- The account after the call: a refused call has no effect. -/
def after (P : Provider) (now : ℚ) (w : World) (op : Op) : World :=
  match P.reply now w op with
  | .ok _ => effect op w
  | .error _ => w

/-- The provider as a handler, at a fixed time. -/
def handle (P : Provider) (now : ℚ) (w : World) (op : Op) : Reply op × World :=
  (P.reply now w op, P.after now w op)

theorem truthful_storedFlags (w : World) (uid : ℕ) :
    ∀ item ∈ w.storedFlags uid, ∃ m ∈ w.messages, m.isAt item.1 = true ∧
      SameFlags item.2 m.flags := by
  intro item hitem
  unfold World.storedFlags at hitem
  cases hf : w.find uid with
  | none =>
      rw [hf] at hitem
      exact absurd hitem List.not_mem_nil
  | some m =>
      rw [hf] at hitem
      obtain ⟨hm, hat⟩ := World.find_some hf
      rw [List.mem_singleton.mp hitem]
      exact ⟨m, hm, hat, SameFlags.refl _⟩

theorem mem_fetchInbox {w : World} {uids : List ℕ} {items : FetchItems} {item : ℕ × FetchItem}
    (h : item ∈ w.fetchInbox uids items) :
    ∃ m, w.find item.1 = some m ∧ item.2 = m.item items := by
  obtain ⟨uid, -, hmap⟩ := List.mem_filterMap.mp h
  obtain ⟨m, hf, rfl⟩ := Option.map_eq_some_iff.mp hmap
  exact ⟨m, hf, rfl⟩

/-- **A conforming provider is one of the servers the tool is proved against.** -/
theorem serves (P : Provider) (now : ℚ) (w : World) (op : Op) :
    Serves w op (P.reply now w op) (P.after now w op) := by
  unfold after
  cases op
  case search criteria =>
    simp only [reply]
    split
    · exact ⟨rfl, Or.inl rfl⟩
    · exact ⟨Or.inl rfl, trivial⟩
  case insertRaw raw labels =>
    simp only [reply]
    cases P.gmail raw with
    | ok id => exact ⟨Or.inl rfl, trivial⟩
    | error e => exact ⟨rfl, Or.inl rfl⟩
  case trashConstant =>
    simp only [reply]
    cases P.exportsTrash with
    | true => exact ⟨Or.inl rfl, trivial⟩
    | false => exact ⟨rfl, Or.inl rfl⟩
  case addFlags uid flag => exact ⟨Or.inl rfl, truthful_storedFlags _ uid⟩
  case removeFlags uid flag => exact ⟨Or.inl rfl, truthful_storedFlags _ uid⟩
  case fetch uids items =>
    refine ⟨Or.inl rfl, ?_⟩
    -- every item is of a message that is there, with its own bytes and flags
    have hitem : ∀ item ∈ w.fetchInbox uids items, ∃ m ∈ w.messages, m.isAt item.1 = true ∧
        item.2 = m.item items := by
      intro item h
      obtain ⟨m, hf, he⟩ := mem_fetchInbox h
      obtain ⟨hm, hat⟩ := World.find_some hf
      exact ⟨m, hm, hat, he⟩
    cases items with
    | message =>
        intro item h
        obtain ⟨m, hm, hat, he⟩ := hitem item h
        refine ⟨m, hm, hat, fun raw hraw => ?_, m.flags, by rw [he]; rfl, SameFlags.refl _⟩
        rw [he] at hraw
        injection hraw with hraw
        injection hraw with hraw
        exact hraw.symm
    | flags =>
        intro item h
        obtain ⟨m, hm, hat, he⟩ := hitem item h
        refine ⟨m, hm, hat, fun raw hraw => ?_, m.flags, by rw [he]; rfl, SameFlags.refl _⟩
        rw [he] at hraw
        exact absurd hraw nofun
    | headers => trivial
  all_goals exact ⟨Or.inl rfl, trivial⟩

end Provider

/-- One mail in the INBOX. -/
def oneMail : World := ⟨[⟨"INBOX", 1, ⟨0, [72, 105]⟩, []⟩], ["INBOX"], 2, []⟩

theorem oneMail_wellFormed : WellFormed oneMail := ⟨by decide, by decide⟩

end MailTransporter
