import MailTransporter.MailboxRules
import MailTransporter.Server

set_option autoImplicit false

/-! # What the replies of the server mean

The rules of the mailbox methods speak about replies. Here is what each of those replies says about
the mailbox it came from. -/

namespace MailTransporter

open Effect

namespace ICloudMailbox

variable {W W' : Type} {E : Env Op Reply W} {E' : Env Op Reply W'}

/-- Evidence from a larger environment is evidence from the one it projects to. -/
theorem Delivers.map (f : W → W') (hE : ∀ {w op r w'}, E w op r w' → E' (f w) op r (f w'))
    {w w' : W} {message : FetchedMessage} (h : Delivers E w message w') :
    Delivers E' (f w) message (f w') := by
  obtain ⟨data, item, hr, hl, hbody, hflags⟩ := h
  exact ⟨data, item, hE hr, hl, hbody, hflags⟩

theorem Confirms.map (f : W → W') (hE : ∀ {w op r w'}, E w op r w' → E' (f w) op r (f w'))
    {w w' : W} {uid : ℕ} {keyword : String} (h : Confirms E w uid keyword w') :
    Confirms E' (f w) uid keyword (f w') := by
  rcases h with ⟨response, hr, hin⟩ | ⟨fetched, hr, hin⟩
  · exact Or.inl ⟨response, hE hr, hin⟩
  · exact Or.inr ⟨fetched, hE hr, hin⟩

end ICloudMailbox

theorem mem_of_lookup {α : Type} {l : List (ℕ × α)} {uid : ℕ} {a : α}
    (h : l.lookup uid = some a) : (uid, a) ∈ l := by
  obtain ⟨before, after, rfl, -⟩ := List.lookup_eq_some_iff.mp h
  exact List.mem_append_right _ List.mem_cons_self

/-- A flag reported for `uid` is on the message there. -/
theorem reportedFlags_has {w : World} {uids : List ℕ} {fetched : Fetched} {uid : ℕ}
    {flag : String} (ht : Truthful w (.fetch uids .flags) fetched)
    (h : hasFlag (ICloudMailbox.reportedFlags fetched uid) flag = true) :
    ∃ m ∈ w.messages, m.isAt uid = true ∧ m.has flag = true := by
  unfold ICloudMailbox.reportedFlags at h
  cases hl : fetched.lookup uid with
  | none =>
      rw [hl] at h
      exact absurd h nofun
  | some item =>
      obtain ⟨m, hm, hat, -, flags, hflags, hsame⟩ := ht _ (mem_of_lookup hl)
      rw [hl] at h
      have hitem : item.flags.getD [] = flags := congrArg (fun o => o.getD []) hflags
      simp only [hitem] at h
      have hhas := hsame flag
      rw [h] at hhas
      exact ⟨m, hm, hat, hhas.symm⟩

/-- What is reported for `uid` at all is what the message there carries. -/
theorem reportedFlags_same {w : World} {uids : List ℕ} {fetched : Fetched} {uid : ℕ}
    (ht : Truthful w (.fetch uids .flags) fetched)
    (h : ICloudMailbox.reportedFlags fetched uid ≠ []) :
    ∃ m ∈ w.messages, m.isAt uid = true ∧
      SameFlags (ICloudMailbox.reportedFlags fetched uid) m.flags := by
  unfold ICloudMailbox.reportedFlags at h ⊢
  cases hl : fetched.lookup uid with
  | none =>
      rw [hl] at h
      exact absurd rfl h
  | some item =>
      obtain ⟨m, hm, hat, -, flags, hflags, hsame⟩ := ht _ (mem_of_lookup hl)
      have hitem : item.flags.getD [] = flags := congrArg (fun o => o.getD []) hflags
      refine ⟨m, hm, hat, ?_⟩
      show SameFlags (item.flags.getD []) m.flags
      rw [hitem]
      exact hsame

/-- A call about one message names no other. -/
theorem Op.spares_of_isAbout {u uid : ℕ} (hne : u ≠ uid) {op : Op} (h : op.isAbout u = true) :
    op.spares uid = true := by
  unfold Op.isAbout at h
  unfold Op.spares
  split at h
  all_goals simp_all

namespace Serves

/-- A fetched message is a message of the INBOX, as it was. -/
theorem delivers {w w' : World} {message : FetchedMessage}
    (h : ICloudMailbox.Delivers Serves w message w') :
    w' = w ∧ ∃ m ∈ w.messages, m.isAt message.uid = true ∧ m.raw = message.raw ∧
      SameFlags message.flags m.flags := by
  obtain ⟨data, item, ⟨heff, ht⟩, hl, hbody, hmf⟩ := h
  have hw : w' = w := by
    rcases heff with heff | ⟨hs, _⟩
    · exact heff
    · exact absurd hs nofun
  rw [hw] at ht
  obtain ⟨m, hm, hat, hraw, flags, hflags, hsame⟩ := ht _ (mem_of_lookup hl)
  refine ⟨hw, m, hm, hat, (hraw _ hbody).symm, ?_⟩
  rw [hmf, hflags]
  exact hsame

/-- A confirmed keyword is on the message. -/
theorem confirms {w w' : World} {uid : ℕ} {keyword : String}
    (h : ICloudMailbox.Confirms Serves w uid keyword w') :
    ∃ m ∈ w'.messages, m.isAt uid = true ∧ m.has keyword = true := by
  rcases h with ⟨response, ⟨-, ht⟩, hin⟩ | ⟨fetched, ⟨-, ht⟩, hin⟩
  · cases hl : response.lookup uid with
    | none =>
        rw [hl] at hin
        exact absurd hin nofun
    | some flags =>
        rw [hl, Option.getD_some] at hin
        obtain ⟨m, hm, hat, hsame⟩ := ht _ (mem_of_lookup hl)
        have hhas := hsame keyword
        rw [hin] at hhas
        exact ⟨m, hm, hat, hhas.symm⟩
  · exact reportedFlags_has ht hin

/-- A call of another kind than a keyword `STORE` that returns has had its effect. -/
theorem effect_of_ok {w w' : World} {op : Op} {value : Value op} (hop : op.isKeywordStore = false)
    (h : Serves w op (.ok value) w') : w' = effect op w := by
  rcases h.1 with h | ⟨hs, _⟩
  · exact h
  · rw [hop] at hs
    exact absurd hs nofun

end Serves

end MailTransporter
