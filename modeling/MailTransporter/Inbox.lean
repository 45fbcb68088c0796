import MailTransporter.Provider
import MailTransporter.Cli

set_option autoImplicit false

/-! # Listings of a conforming provider

What the methods that list messages return when a conforming provider answers them. `World.live` is
the listing they all come down to: the UIDs of the messages of the INBOX that are not `\Deleted` and
satisfy a predicate, in ascending order. -/

namespace MailTransporter

open Effect
open Effect.Routine (raise attempt getSelf modifySelf)

/-! ## Live messages -/

namespace World

/-- No two messages of the INBOX have the same UID. -/
def InboxDistinct (w : World) : Prop :=
  ((w.messages.filter (fun m => decide (m.folder = "INBOX"))).map Message.uid).Nodup

/-- The flags of the message at `uid`. -/
def flagsAt (w : World) (uid : ℕ) : List String := ((w.find uid).map Message.flags).getD []

/-- The UIDs of the messages of the INBOX that are not `\Deleted` and satisfy `p`, ascending. -/
def live (w : World) (p : Message → Bool) : List ℕ :=
  ICloudMailbox.sortUids ((w.messages.filter
    (fun m => decide (m.folder = "INBOX") && (!m.has deletedFlag && p m))).map Message.uid)

variable {w : World}

theorem mem_live {p : Message → Bool} {uid : ℕ} :
    uid ∈ w.live p ↔
      ∃ m ∈ w.messages, m.isAt uid = true ∧ m.has deletedFlag = false ∧ p m = true := by
  simp only [live, ICloudMailbox.sortUids, List.mem_insertionSort, List.mem_map, List.mem_filter,
    Bool.and_eq_true, decide_eq_true_eq, Bool.not_eq_true', Message.isAt_iff]
  constructor
  · rintro ⟨m, ⟨hm, hfolder, hlive, hp⟩, huid⟩
    exact ⟨m, hm, ⟨hfolder, huid⟩, hlive, hp⟩
  · rintro ⟨m, hm, ⟨hfolder, huid⟩, hlive, hp⟩
    exact ⟨m, ⟨hm, hfolder, hlive, hp⟩, huid⟩

namespace InboxDistinct

variable (hw : w.InboxDistinct)

include hw

theorem live_sorted (p : Message → Bool) : (w.live p).SortedLT := by
  have hsorted : (w.live p).Pairwise (· ≤ ·) := List.pairwise_insertionSort _ _
  refine hsorted.sortedLE.sortedLT_of_nodup ?_
  rw [live, ICloudMailbox.sortUids, (List.perm_insertionSort _ _).nodup_iff]
  -- the live messages are some of those that are in the INBOX
  have hfilter : w.messages.filter
      (fun m => decide (m.folder = "INBOX") && (!m.has deletedFlag && p m)) =
        (w.messages.filter (fun m => decide (m.folder = "INBOX"))).filter
          (fun m => !m.has deletedFlag && p m) := by
    rw [List.filter_filter]
    congr 1
    funext m
    rw [Bool.and_comm]
  rw [hfilter]
  exact hw.sublist (List.filter_sublist.map _)

theorem unique {m m' : Message} {uid : ℕ} (hm : m ∈ w.messages) (hat : m.isAt uid = true)
    (hm' : m' ∈ w.messages) (hat' : m'.isAt uid = true) : m = m' := by
  obtain ⟨hfolder, huid⟩ := Message.isAt_iff.mp hat
  obtain ⟨hfolder', huid'⟩ := Message.isAt_iff.mp hat'
  refine List.inj_on_of_nodup_map hw ?_ ?_ (huid.trans huid'.symm)
  · exact List.mem_filter.mpr ⟨hm, decide_eq_true hfolder⟩
  · exact List.mem_filter.mpr ⟨hm', decide_eq_true hfolder'⟩

theorem find_eq {m : Message} {uid : ℕ} (hm : m ∈ w.messages) (hat : m.isAt uid = true) :
    w.find uid = some m := by
  cases hf : w.find uid with
  | none =>
      rw [World.find_none hf hm] at hat
      exact absurd hat Bool.false_ne_true
  | some m' =>
      obtain ⟨hm', hat'⟩ := World.find_some hf
      rw [hw.unique hm hat hm' hat']

/-- Two ascending listings of the same messages are equal. -/
theorem live_eq {p : Message → Bool} {uids : List ℕ} (hsorted : uids.SortedLT)
    (hmem : ∀ uid, uid ∈ uids ↔
      ∃ m ∈ w.messages, m.isAt uid = true ∧ m.has deletedFlag = false ∧ p m = true) :
    uids = w.live p := by
  refine hsorted.eq_of_mem_iff (hw.live_sorted p) ?_
  intro uid
  rw [hmem, mem_live]

end InboxDistinct

theorem mem_live_of_or {p q : Message → Bool} {uid : ℕ} :
    uid ∈ w.live p ∨ uid ∈ w.live q ↔ uid ∈ w.live (fun m => p m || q m) := by
  simp only [mem_live, Bool.or_eq_true]
  constructor
  · rintro (⟨m, hm, hat, hlive, hp⟩ | ⟨m, hm, hat, hlive, hq⟩)
    · exact ⟨m, hm, hat, hlive, Or.inl hp⟩
    · exact ⟨m, hm, hat, hlive, Or.inr hq⟩
  · rintro ⟨m, hm, hat, hlive, hp | hq⟩
    · exact Or.inl ⟨m, hm, hat, hlive, hp⟩
    · exact Or.inr ⟨m, hm, hat, hlive, hq⟩

/-! ## Storing flags -/

/-- What `STORE` makes of a message. -/
def stored (uid : ℕ) (f : List String → List String) (m : Message) : Message :=
  if m.isAt uid then m.withFlags (f m.flags) else m

@[simp] theorem stored_folder (uid : ℕ) (f : List String → List String) (m : Message) :
    (stored uid f m).folder = m.folder := by
  unfold stored
  split <;> rfl

@[simp] theorem stored_uid (uid : ℕ) (f : List String → List String) (m : Message) :
    (stored uid f m).uid = m.uid := by
  unfold stored
  split <;> rfl

@[simp] theorem stored_isAt (uid : ℕ) (f : List String → List String) (m : Message) (v : ℕ) :
    (stored uid f m).isAt v = m.isAt v := by
  simp only [Message.isAt, stored_folder, stored_uid]

theorem stored_of_isAt {uid : ℕ} (f : List String → List String) {m : Message}
    (h : m.isAt uid = true) : stored uid f m = m.withFlags (f m.flags) := if_pos h

theorem stored_of_not_isAt {uid : ℕ} (f : List String → List String) {m : Message}
    (h : m.isAt uid = false) : stored uid f m = m := by
  rw [stored, h]
  rfl

theorem stored_stored (uid : ℕ) (f g : List String → List String) (m : Message) :
    stored uid f (stored uid g m) = stored uid (f ∘ g) m := by
  by_cases hat : m.isAt uid = true
  · rw [stored_of_isAt f (by rw [stored_isAt, hat]), stored_of_isAt g hat, stored_of_isAt _ hat]
    rfl
  · rw [Bool.not_eq_true] at hat
    rw [stored_of_not_isAt g hat, stored_of_not_isAt f hat, stored_of_not_isAt _ hat]

theorem store_store (uid : ℕ) (f g : List String → List String) (w : World) :
    store uid f (store uid g w) = store uid (f ∘ g) w := by
  have hmap : (w.messages.map (stored uid g)).map (stored uid f) =
      w.messages.map (stored uid (f ∘ g)) := by
    rw [List.map_map]
    exact List.map_congr_left (fun m _ => stored_stored uid f g m)
  show ({ w with messages := (w.messages.map (stored uid g)).map (stored uid f) } : World) = _
  rw [hmap]
  rfl

theorem find_store (uid : ℕ) (f : List String → List String) (w : World) (v : ℕ) :
    (store uid f w).find v = (w.find v).map (stored uid f) := by
  show (w.messages.map (stored uid f)).find? _ = _
  rw [List.find?_map]
  simp only [Function.comp_def, stored_isAt]
  rfl

theorem InboxDistinct.store (hw : w.InboxDistinct) (uid : ℕ) (f : List String → List String) :
    (w.store uid f).InboxDistinct := by
  have hinbox : ((w.messages.map (stored uid f)).filter (fun m => decide (m.folder = "INBOX"))).map
      Message.uid = (w.messages.filter (fun m => decide (m.folder = "INBOX"))).map Message.uid := by
    rw [List.filter_map, List.map_map]
    simp only [Function.comp_def, stored_folder, stored_uid]
  show List.Nodup _
  exact hinbox ▸ hw

theorem mem_live_store {uid : ℕ} {f : List String → List String} {p : Message → Bool} {v : ℕ} :
    v ∈ (w.store uid f).live p ↔ ∃ m ∈ w.messages, m.isAt v = true ∧
      (stored uid f m).has deletedFlag = false ∧ p (stored uid f m) = true := by
  rw [mem_live]
  show (∃ m ∈ w.messages.map (stored uid f), _) ↔ _
  simp only [List.mem_map, exists_exists_and_eq_and, stored_isAt]

end World

/-! ## What the replies list -/

theorem matchesCriteria_notKeywords (keywords : List String) (m : Message) :
    matchesCriteria (keywords.flatMap (fun keyword => ["NOT", "KEYWORD", keyword])) m =
      !matchesAny m.flags keywords := by
  induction keywords with
  | nil => rfl
  | cons keyword rest ih =>
      show (!m.has keyword && matchesCriteria (rest.flatMap _) m) = _
      rw [ih, matchesAny, matchesAny, List.any_cons, Bool.not_or]
      rfl

theorem matchesCriteria_queue (keywords : List String) (m : Message) :
    matchesCriteria (ICloudMailbox.searchCriteria keywords) m =
      (!m.has deletedFlag && !matchesAny m.flags keywords) := by
  show (!m.has deletedFlag && matchesCriteria _ m) = _
  rw [← matchesCriteria_notKeywords keywords m]
  rfl

theorem searchInbox_queue (w : World) (keywords : List String) :
    ICloudMailbox.sortUids (w.searchInbox (ICloudMailbox.searchCriteria keywords)) =
      w.live (fun m => !matchesAny m.flags keywords) := by
  simp only [World.searchInbox, World.live, matchesCriteria_queue]

theorem searchInbox_live (w : World) :
    ICloudMailbox.sortUids (w.searchInbox ["NOT", "DELETED"]) = w.live (fun _ => true) := by
  simp only [World.searchInbox, World.live, matchesCriteria]

/-- A `FETCH` reply has an item for every message asked for that is there. -/
theorem lookup_fetchInbox (w : World) (uids : List ℕ) (items : FetchItems) (uid : ℕ) :
    (w.fetchInbox uids items).lookup uid =
      if uid ∈ uids then (w.find uid).map (fun m => m.item items) else none := by
  induction uids with
  | nil => rfl
  | cons u rest ih =>
      unfold World.fetchInbox at ih ⊢
      cases hf : w.find u with
      | none =>
          rw [List.filterMap_cons_none (by rw [hf]; rfl), ih]
          by_cases hu : uid = u
          · simp [hu, hf]
          · simp [hu]
      | some m =>
          rw [List.filterMap_cons_some (by rw [hf]; rfl), List.lookup_cons]
          by_cases hu : uid = u
          · simp [hu, hf]
          · have hne : (uid == u) = false := beq_eq_false_iff_ne.mpr hu
            rw [hne, ih]
            simp [hu]

/-! ## The methods -/

namespace Provider

/-- The provider answers, at one of the times in `T`. -/
def serving (P : Provider) (T : ℚ → Prop) : Env Op Reply World :=
  fun w op r w' => ∃ now, T now ∧ r = P.reply now w op ∧ w' = P.after now w op

variable {P : Provider} {T : ℚ → Prop}

theorem handle_serving {now : ℚ} (h : T now) (w : World) (op : Op) :
    (P.serving T) w op (P.handle now w op).1 (P.handle now w op).2 := ⟨now, h, rfl, rfl⟩

/-- A call that succeeds at any time. -/
theorem returns_call {σ : Type} {op : Op} {v : Value op} {s : σ} {w : World}
    (h : ∀ now, P.reply now w op = .ok v) :
    (call op : Py σ (Value op)).Returns (P.serving T) s w v s (effect op w) := by
  refine Routine.returns_call ?_
  rintro r w' ⟨now, -, rfl, rfl⟩
  rw [after, h now]
  exact ⟨rfl, rfl⟩

end Provider

namespace ICloudMailbox

variable {P : Provider} {T : ℚ → Prop} {self : ICloudMailbox} {w : World}

theorem client_returns (hc : self.connected = true) :
    client.Returns (P.serving T) self w () self w := by
  refine Routine.returns_getSelf.bind ?_
  rw [if_pos hc]
  exact Routine.returns_pure ()

theorem search_returns {criteria : List String}
    (h : "KEYWORD" ∉ criteria ∨ P.keywordSearch = true) :
    (call (.search criteria) : Mailbox (List ℕ)).Returns (P.serving T) self w
      (w.searchInbox criteria) self w := by
  refine Provider.returns_call (fun now => if_neg ?_)
  rintro ⟨hin, hno⟩
  rcases h with h | h
  · exact h hin
  · rw [h] at hno
    exact absurd hno nofun

theorem searchAndFetchFlags_returns (hc : self.connected = true) :
    searchAndFetchFlags.Returns (P.serving T) self w
      (w.live (fun _ => true), w.fetchInbox (w.live (fun _ => true)) .flags) self w := by
  refine (client_returns hc).bind ((search_returns (Or.inl (by decide))).bind ?_)
  rw [searchInbox_live]
  split
  · next hnil =>
    rw [hnil]
    exact Routine.returns_pure _
  · have hfetch : (call (.fetch (w.live (fun _ => true)) .flags) : Mailbox Fetched).Returns
        (P.serving T) self w (w.fetchInbox (w.live (fun _ => true)) .flags) self w :=
      Provider.returns_call (fun _ => rfl)
    exact (client_returns hc).bind (hfetch.bind (Routine.returns_pure _))

/-- What `inbox_flags` lists. -/
theorem inboxFlags_returns (hw : w.InboxDistinct) (hc : self.connected = true) :
    inboxFlags.Returns (P.serving T) self w
      ((w.live (fun _ => true)).map (fun uid => (uid, w.flagsAt uid))) self w := by
  refine (searchAndFetchFlags_returns hc).attempt.bind ?_
  have hnodup := (hw.live_sorted (fun _ => true)).nodup
  have hmap : (w.live (fun _ => true)).map (fun uid => (uid, w.flagsAt uid)) =
      (w.live (fun _ => true)).dedup.map (fun uid =>
        (uid, reportedFlags (w.fetchInbox (w.live (fun _ => true)) .flags) uid)) := by
    rw [hnodup.dedup]
    refine List.map_congr_left ?_
    intro uid huid
    rw [reportedFlags, lookup_fetchInbox, if_pos huid, World.flagsAt]
    cases w.find uid with
    | none => rfl
    | some m => rfl
  rw [hmap]
  exact Routine.returns_pure _

/-- The two listings of `list_inbox_uids` agree. -/
theorem filter_inboxFlags (hw : w.InboxDistinct) (p : List String → Bool) :
    ((((w.live (fun _ => true)).map (fun uid => (uid, w.flagsAt uid))).filter
      (fun item => p item.2)).map Prod.fst) = w.live (fun m => p m.flags) := by
  have hfst : (((w.live (fun _ => true)).map (fun uid => (uid, w.flagsAt uid))).filter
      (fun item => p item.2)).map Prod.fst =
        (w.live (fun _ => true)).filter (fun uid => p (w.flagsAt uid)) := by
    rw [List.filter_map, List.map_map]
    exact List.map_id _
  rw [hfst]
  refine hw.live_eq ((hw.live_sorted _).pairwise.filter _).sortedLT ?_
  intro uid
  rw [List.mem_filter, World.mem_live]
  constructor
  · rintro ⟨⟨m, hm, hat, hlive, -⟩, hp⟩
    rw [World.flagsAt, hw.find_eq hm hat] at hp
    exact ⟨m, hm, hat, hlive, hp⟩
  · rintro ⟨m, hm, hat, hlive, hp⟩
    refine ⟨⟨m, hm, hat, hlive, rfl⟩, ?_⟩
    rw [World.flagsAt, hw.find_eq hm hat]
    exact hp

/-- **The queue.** A server that refuses to search for keywords gives the same list. -/
theorem listInboxUids_returns (hw : w.InboxDistinct) (hc : self.connected = true)
    {skip : Option (List String)} {keywords : List String}
    (hskip : skip.getD self.skipKeywords = keywords) :
    (listInboxUids skip).Returns (P.serving T) self w
      (w.live (fun m => !matchesAny m.flags keywords)) self w := by
  refine Routine.returns_getSelf.bind ?_
  rw [hskip]
  by_cases hsearch : "KEYWORD" ∉ searchCriteria keywords ∨ P.keywordSearch = true
  · have hqueue : (searchQueue keywords).Returns (P.serving T) self w
        (w.live (fun m => !matchesAny m.flags keywords)) self w := by
      rw [← searchInbox_queue]
      exact (client_returns hc).bind ((search_returns hsearch).bind (Routine.returns_pure _))
    exact hqueue.attempt.bind (Routine.returns_pure _)
  · rw [not_or, not_not, Bool.not_eq_true] at hsearch
    obtain ⟨hin, hno⟩ := hsearch
    -- the refused search is an exception, and the listing is filtered here
    have hrefused : (attempt (searchQueue keywords)).Returns (P.serving T) self w
        (.error (.other "IMAPClientError" "BAD SEARCH")) self w := by
      rw [Routine.Returns, Routine.safe_attempt]
      refine (client_returns hc).andThen ?_
      rw [Routine.safe_bind]
      refine Routine.safe_call_alone.mpr ?_
      rintro r w' ⟨now, -, rfl, rfl⟩
      have hreply : P.reply now w (.search (searchCriteria keywords)) =
          .error (.other "IMAPClientError" "BAD SEARCH") := if_pos ⟨hin, hno⟩
      rw [Provider.after, hreply]
      exact ⟨rfl, rfl, rfl⟩
    have hne : keywords ≠ [] := by
      rintro rfl
      exact absurd hin (by decide)
    refine hrefused.bind ?_
    dsimp only
    rw [if_neg hne, ← filter_inboxFlags hw (fun flags => !matchesAny flags keywords)]
    exact (inboxFlags_returns hw hc).bind (Routine.returns_pure _)

theorem lookup_storedFlags {m : Message} {uid : ℕ} (h : w.find uid = some m) :
    (w.storedFlags uid).lookup uid = some m.flags := by
  rw [World.storedFlags, h]
  simp

/-- Clearing a keyword of a message of the INBOX. -/
theorem removeKeyword_returns (hw : w.InboxDistinct) (hc : self.connected = true) {m : Message}
    {uid : ℕ} (hm : m ∈ w.messages) (hat : m.isAt uid = true) {keyword : String}
    (hk : IsKeyword keyword) :
    (removeKeyword uid keyword).Returns (P.serving T) self w () self
      (w.store uid (removeFlag keyword)) := by
  have hfind : (w.store uid (removeFlag keyword)).find uid =
      some (m.withFlags (removeFlag keyword m.flags)) := by
    rw [World.find_store, hw.find_eq hm hat, Option.map_some, World.stored_of_isAt _ hat]
  have hcleared : hasFlag (removeFlag keyword m.flags) keyword = false := by simp
  have hstore : (unstoreKeyword uid keyword).Returns (P.serving T) self w (removeFlag keyword m.flags)
      self (w.store uid (removeFlag keyword)) := by
    refine (client_returns hc).bind (Routine.Returns.bind (a := ()) (by
      rw [encodeAscii, if_pos hk.ascii]
      exact Routine.returns_pure ()) ?_)
    have hcall : (call (.removeFlags uid keyword) : Mailbox Stored).Returns (P.serving T) self w
        ((w.store uid (removeFlag keyword)).storedFlags uid) self
        (w.store uid (removeFlag keyword)) := Provider.returns_call (fun _ => rfl)
    refine hcall.bind ?_
    rw [lookup_storedFlags hfind]
    dsimp only [Message.withFlags_flags]
    rw [hcleared]
    exact Routine.returns_pure _
  refine hstore.attempt.bind ?_
  dsimp only
  rw [hcleared]
  exact Routine.returns_pure ()

end ICloudMailbox

/-! ## The quarantine listing -/

/-- The headers of the message at `uid`. -/
def World.heads (parse : Option (List UInt8) → ICloudMailbox.Headers) (w : World) (uid : ℕ) :
    ICloudMailbox.Headers :=
  parse ((w.find uid).map (fun m => m.raw.bytes))

namespace Cli

variable {P : Provider} {T : ℚ → Prop} {self : ICloudMailbox} {w : World}

theorem entryFor_uid {k : Keywords} {uid : ℕ} {flags : List String} {e : Entry}
    (h : entryFor k uid flags = some e) : e.uid = uid := by
  unfold entryFor at h
  split at h
  · exact absurd h nofun
  · cases h
    rfl

theorem isSome_entryFor (k : Keywords) (uid : ℕ) (flags : List String) :
    (entryFor k uid flags).isSome = matchesAny flags k.quarantine := by
  have hfind : (k.quarantine.find? (hasFlag flags)).isSome = matchesAny flags k.quarantine :=
    List.isSome_find?
  rw [← hfind]
  unfold entryFor
  cases k.quarantine.find? (hasFlag flags) with
  | none => rfl
  | some keyword => rfl

theorem map_uid_filterMap (k : Keywords) (items : List (ℕ × List String)) :
    (items.filterMap (fun item => entryFor k item.1 item.2)).map Entry.uid =
      (items.filter (fun item => matchesAny item.2 k.quarantine)).map Prod.fst := by
  induction items with
  | nil => rfl
  | cons item rest ih =>
      have hsome := isSome_entryFor k item.1 item.2
      cases he : entryFor k item.1 item.2 with
      | none =>
          rw [he, Option.isSome_none] at hsome
          simp only [List.filterMap_cons, List.filter_cons, he, ← hsome, ih]
          rfl
      | some e =>
          rw [he, Option.isSome_some] at hsome
          simp only [List.filterMap_cons, List.filter_cons, he, ← hsome, List.map_cons, ih,
            entryFor_uid he, if_true]

theorem fetchHeaders_returns (parse : Option (List UInt8) → ICloudMailbox.Headers)
    (uids : List ℕ) (hc : self.connected = true) :
    (ICloudMailbox.fetchHeaders parse uids).Returns (P.serving T) self w
      (uids.map (fun uid => (uid, w.heads parse uid))) self w := by
  unfold ICloudMailbox.fetchHeaders
  split
  · next hnone =>
    rw [hnone]
    exact Routine.returns_pure _
  · have hfetch : (call (.fetch uids .headers) : Mailbox Fetched).Returns (P.serving T) self w
        (w.fetchInbox uids .headers) self w := Provider.returns_call (fun _ => rfl)
    have hheads : uids.map (fun uid => (uid, w.heads parse uid)) = uids.map (fun uid =>
        (uid, parse (((w.fetchInbox uids .headers).lookup uid).bind FetchItem.headers))) := by
      refine List.map_congr_left (fun uid huid => ?_)
      rw [lookup_fetchInbox, if_pos huid, World.heads]
      cases w.find uid <;> rfl
    rw [hheads]
    exact ((ICloudMailbox.client_returns hc).bind hfetch).attempt.bind (Routine.returns_pure _)

/-- **The quarantine listing.** -/
theorem collect_returns (hw : w.InboxDistinct) (hc : self.connected = true)
    (parse : Option (List UInt8) → ICloudMailbox.Headers) (k : Keywords) :
    ∃ entries, (collect parse k).Returns (P.serving T) self w entries self w ∧
      entries.map Entry.uid = w.live (fun m => matchesAny m.flags k.quarantine) := by
  have hheaders := fetchHeaders_returns (P := P) (T := T) (w := w) parse
    ((((w.live (fun _ => true)).map (fun uid => (uid, w.flagsAt uid))).filterMap
      (fun item => entryFor k item.1 item.2)).map Entry.uid) hc
  generalize List.map (fun uid => (uid, w.heads parse uid)) _ = headers at hheaders
  refine ⟨_, (ICloudMailbox.inboxFlags_returns hw hc).bind
    (hheaders.bind (Routine.returns_pure _)), ?_⟩
  have huids : ((((w.live (fun _ => true)).map (fun uid => (uid, w.flagsAt uid))).filterMap
      (fun item => entryFor k item.1 item.2)).map
        (fun e => { e with headers := headers.lookup e.uid })).map Entry.uid =
          w.live (fun m => matchesAny m.flags k.quarantine) := by
    rw [List.map_map, ← ICloudMailbox.filter_inboxFlags hw
      (fun flags => matchesAny flags k.quarantine), ← map_uid_filterMap]
    rfl
  rw [List.Pairwise.insertionSort_eq, huids]
  rw [← List.pairwise_map (f := Entry.uid) (R := (· ≤ ·)), huids]
  exact (hw.live_sorted _).sortedLE.pairwise

end Cli

/-! ## Nothing falls in between -/

/-- Clear both quarantine keywords of a message. -/
def clearBoth (k : Keywords) (uid : ℕ) : Mailbox Unit := do
  ICloudMailbox.removeKeyword uid k.failed
  ICloudMailbox.removeKeyword uid k.unverified

/-- The mailbox after both keywords of the message at `uid` have been cleared. -/
def World.cleared (k : Keywords) (uid : ℕ) (w : World) : World :=
  w.store uid (removeFlag k.unverified ∘ removeFlag k.failed)

namespace World

variable {w : World} {k : Keywords} {m : Message} {uid : ℕ}

theorem clearBoth_returns {P : Provider} {T : ℚ → Prop} {self : ICloudMailbox} (hw : w.InboxDistinct)
    (hc : self.connected = true) (hm : m ∈ w.messages) (hat : m.isAt uid = true) :
    (clearBoth k uid).Returns (P.serving T) self w () self (w.cleared k uid) := by
  have hm' : stored uid (removeFlag k.failed) m ∈ (w.store uid (removeFlag k.failed)).messages :=
    List.mem_map_of_mem hm
  have hat' : (stored uid (removeFlag k.failed) m).isAt uid = true := by rw [stored_isAt, hat]
  rw [cleared, ← store_store]
  exact (ICloudMailbox.removeKeyword_returns hw hc hm hat k.failedOk).bind
    (ICloudMailbox.removeKeyword_returns (hw.store uid _) hc hm' hat' k.unverifiedOk)

/-- What clearing both keywords changes of a message. -/
theorem cleared_has (m : Message) (hat : m.isAt uid = true) :
    (stored uid (removeFlag k.unverified ∘ removeFlag k.failed) m).has deletedFlag =
      m.has deletedFlag ∧
    matchesAny (stored uid (removeFlag k.unverified ∘ removeFlag k.failed) m).flags k.quarantine =
      false := by
  rw [stored_of_isAt _ hat, matchesAny_quarantine]
  have hfailed := k.failedOk.ne_deleted.symm
  have hunverified := k.unverifiedOk.ne_deleted.symm
  simp [Message.has, hfailed, hunverified]

theorem mem_live_cleared (hw : w.InboxDistinct) (hm : m ∈ w.messages) (hat : m.isAt uid = true)
    (hlive : m.has deletedFlag = false) {v : ℕ} :
    (v ∈ (w.cleared k uid).live (fun m => !matchesAny m.flags k.quarantine) ↔
      v ∈ w.live (fun m => !matchesAny m.flags k.quarantine) ∨ v = uid) ∧
    (v ∈ (w.cleared k uid).live (fun m => matchesAny m.flags k.quarantine) ↔
      v ∈ w.live (fun m => matchesAny m.flags k.quarantine) ∧ v ≠ uid) := by
  unfold cleared
  rw [mem_live_store, mem_live_store, mem_live, mem_live]
  by_cases hv : v = uid
  · subst hv
    obtain ⟨hdel, hno⟩ := cleared_has (k := k) m hat
    constructor
    · refine iff_of_true ⟨m, hm, hat, hdel.trans hlive, ?_⟩ (Or.inr rfl)
      rw [hno]
      rfl
    · refine iff_of_false ?_ (fun h => h.2 rfl)
      rintro ⟨m', hm', hat', -, hquarantined⟩
      rw [hw.unique hm' hat' hm hat, hno] at hquarantined
      exact absurd hquarantined Bool.false_ne_true
  · -- every other message is as it was
    have hother : ∀ m' : Message, m'.isAt v = true →
        stored uid (removeFlag k.unverified ∘ removeFlag k.failed) m' = m' := by
      intro m' hat'
      refine stored_of_not_isAt _ ?_
      rw [Bool.eq_false_iff]
      intro hat''
      exact hv ((Message.isAt_iff.mp hat').2.symm.trans (Message.isAt_iff.mp hat'').2)
    constructor
    · simp only [hv, or_false]
      refine exists_congr (fun m' => and_congr_right (fun _ => and_congr_right (fun hat' => ?_)))
      rw [hother m' hat']
    · simp only [hv, ne_eq, not_false_eq_true, and_true]
      refine exists_congr (fun m' => and_congr_right (fun _ => and_congr_right (fun hat' => ?_)))
      rw [hother m' hat']

end World

/-- The two listings of one mailbox. -/
structure Listings (P : Provider) (now : ℚ) (k : Keywords)
    (parse : Option (List UInt8) → ICloudMailbox.Headers) (mailbox : ICloudMailbox) (w : World)
    (queue : List ℕ) (entries : List Entry) : Prop where
  queued : ∀ skip : Option (List String), skip.getD mailbox.skipKeywords = k.quarantine →
    ∀ keywordSearch, (ICloudMailbox.listInboxUids skip).exec
      ({ P with keywordSearch := keywordSearch }.handle now) mailbox w = ((.ok queue, mailbox), w)
  collected : (Cli.collect parse k).exec (P.handle now) mailbox w = ((.ok entries, mailbox), w)

/-- The listings partition the live messages. -/
structure Partition (w : World) (queue quarantined : List ℕ) : Prop where
  queueSorted : queue.SortedLT
  quarantinedSorted : quarantined.SortedLT
  disjoint : queue.Disjoint quarantined
  covers : ∀ uid, uid ∈ queue ∨ uid ∈ quarantined ↔
    ∃ m ∈ w.messages, m.isAt uid = true ∧ m.has deletedFlag = false

section listings

variable {P : Provider} {T : ℚ → Prop} {now : ℚ} {k : Keywords}
  {parse : Option (List UInt8) → ICloudMailbox.Headers} {self : ICloudMailbox} {w : World}

theorem exec_of_returns {α : Type} {m : Mailbox α} {a : α} {self' : ICloudMailbox} {w' : World}
    (h : m.Returns (P.serving fun _ => True) self w a self' w') :
    m.exec (P.handle now) self w = ((.ok a, self'), w') := by
  obtain ⟨ho, hw⟩ := h.exec id (Provider.handle_serving trivial)
  exact Prod.ext ho hw

theorem partition_live (hw : w.InboxDistinct) (p : Message → Bool) :
    Partition w (w.live (fun m => !p m)) (w.live p) where
  queueSorted := hw.live_sorted _
  quarantinedSorted := hw.live_sorted _
  disjoint := by
    intro uid hqueue hquarantined
    obtain ⟨m, hm, hat, -, hnot⟩ := World.mem_live.mp hqueue
    obtain ⟨m', hm', hat', -, hp⟩ := World.mem_live.mp hquarantined
    rw [hw.unique hm' hat' hm hat] at hp
    simp [hp] at hnot
  covers := by
    intro uid
    rw [World.mem_live_of_or, World.mem_live]
    simp

theorem listings_of_returns (hw : w.InboxDistinct) (hc : self.connected = true) :
    ∃ entries, Listings P now k parse self w
        (w.live (fun m => !matchesAny m.flags k.quarantine)) entries ∧
      entries.map Entry.uid = w.live (fun m => matchesAny m.flags k.quarantine) := by
  obtain ⟨entries, hentries, huids⟩ := Cli.collect_returns (P := P) hw hc parse k
  refine ⟨entries, ⟨?_, exec_of_returns hentries⟩, huids⟩
  intro skip hskip keywordSearch
  exact exec_of_returns (ICloudMailbox.listInboxUids_returns hw hc hskip)

/-- **Nothing falls between the queue and the quarantine.** On every mailbox, whether or not the
    server searches for keywords, the queue and the quarantine listing partition the messages that
    are not `\Deleted`; and clearing both keywords of a reported message moves its UID over. -/
theorem queue_and_quarantine (P : Provider) (now : ℚ) (k : Keywords)
    (parse : Option (List UInt8) → ICloudMailbox.Headers) (self : ICloudMailbox) (w : World)
    (hw : w.InboxDistinct) (hc : self.connected = true) :
    ∃ queue entries, Listings P now k parse self w queue entries ∧
      Partition w queue (entries.map Entry.uid) ∧
      ∀ uid ∈ entries.map Entry.uid, ∃ w' queue' entries',
        (clearBoth k uid).exec (P.handle now) self w = ((.ok (), self), w') ∧
        Listings P now k parse self w' queue' entries' ∧
        Partition w' queue' (entries'.map Entry.uid) ∧
        (∀ v, v ∈ queue' ↔ v ∈ queue ∨ v = uid) ∧
        (∀ v, v ∈ entries'.map Entry.uid ↔ v ∈ entries.map Entry.uid ∧ v ≠ uid) := by
  obtain ⟨entries, hlistings, huids⟩ := listings_of_returns (P := P) hw hc
  refine ⟨_, entries, hlistings, ?_, ?_⟩
  · rw [huids]
    exact partition_live hw _
  · intro uid huid
    rw [huids] at huid
    obtain ⟨m, hm, hat, hlive, -⟩ := World.mem_live.mp huid
    have hw' : (w.cleared k uid).InboxDistinct := hw.store uid _
    obtain ⟨entries', hlistings', huids'⟩ := listings_of_returns (P := P) hw' hc
    refine ⟨w.cleared k uid, _, entries', exec_of_returns (World.clearBoth_returns hw hc hm hat),
      hlistings', ?_, ?_, ?_⟩
    · rw [huids']
      exact partition_live hw' _
    · exact fun v => (World.mem_live_cleared hw hm hat hlive).1
    · intro v
      rw [huids', huids]
      exact (World.mem_live_cleared hw hm hat hlive).2

end listings

/-- A queued message, a quarantined one with its keyword in capitals, and a deleted one. -/
def mixedInbox : World :=
  ⟨[⟨"INBOX", 5, ⟨0, [72]⟩, ["$GMAILFAILED"]⟩, ⟨"INBOX", 2, ⟨1, [105]⟩, ["\\Seen"]⟩,
    ⟨"INBOX", 3, ⟨2, [33]⟩, ["\\deleted", "$GmailFailed"]⟩], ["INBOX"], 6, []⟩

/-- The session of a command. -/
def openMailbox : ICloudMailbox := { Cli.newMailbox .default false with connected := true }

theorem queue_and_quarantine_mixed : ∃ queue entries,
    Listings {} 0 .default (fun _ => ⟨"", "", ""⟩) openMailbox mixedInbox queue entries ∧
    Partition mixedInbox queue (entries.map Entry.uid) ∧ queue = [2] := by
  obtain ⟨queue, entries, hlistings, hpartition, -⟩ := queue_and_quarantine {} 0 .default
    (fun _ => ⟨"", "", ""⟩) openMailbox mixedInbox (by unfold World.InboxDistinct; decide) rfl
  refine ⟨queue, entries, hlistings, hpartition, ?_⟩
  have hqueue := hlistings.queued (some Keywords.default.quarantine) rfl true
  have hexec : ((ICloudMailbox.listInboxUids (some Keywords.default.quarantine)).exec
      (Provider.handle {} 0) openMailbox mixedInbox).1.1 = .ok [2] := by decide +kernel
  have hsame : (.ok queue : Except Exc (List ℕ)) = .ok [2] := by
    rw [← hexec]
    exact (congrArg (fun x => x.1.1) hqueue).symm
  injection hsame

end MailTransporter
