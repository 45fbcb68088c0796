import MailTransporter.MailboxRules

set_option autoImplicit false

/-! # Keyword changes and their confirmation

`add_keyword` and `remove_keyword` read at most two replies: the one to the `STORE` and the one to a
confirming `FETCH`. Either may leave the message out, or its flags. `add_keyword` takes a missing
report for a missing keyword and raises; `remove_keyword` takes it for a missing keyword, too, and
so returns for a message the server does not report. -/

namespace MailTransporter

open Effect
open Effect.Routine (raise attempt getSelf)

namespace ICloudMailbox

/-! ## Replies and reports -/

/-- What a method returns or raises when every call gets the answer `answers` has for it. A keyword
    change makes no call twice. -/
def outcome {α : Type} (answers : (op : Op) → Reply op) (m : Mailbox α) (s : ICloudMailbox) :
    Except Exc α :=
  (m.exec (fun _ op => (answers op, ())) s ()).1.1

/-- The flags of `uid` that the answer to a `STORE` reports. -/
def storeReport (reply : Except Exc Stored) (uid : ℕ) : Option (List String) :=
  reply.toOption.bind (fun response => response.lookup uid)

/-- The flags of `uid` that the answer to a `FETCH` reports. -/
def fetchReport (reply : Except Exc Fetched) (uid : ℕ) : Option (List String) :=
  reply.toOption.bind (fun data => (data.lookup uid).bind FetchItem.flags)

/-- One of the two answers reports the flags of `uid`, and `keyword` is among them or not, as
    `present` says. -/
def Shown (store : Except Exc Stored) (fetch : Except Exc Fetched) (uid : ℕ) (keyword : String)
    (present : Bool) : Prop :=
  ∃ flags, (storeReport store uid = some flags ∨ fetchReport fetch uid = some flags) ∧
    hasFlag flags keyword = present

/-- The method returns only if `shown`, and otherwise raises a `MailboxError`. -/
def FailsClosed (result : Except Exc Unit) (shown : Prop) : Prop :=
  (result = .ok () → shown) ∧ ∀ e, result = .error e → ∃ text, e = .mailboxError text

variable (answers : (op : Op) → Reply op) (s : ICloudMailbox) (uid : ℕ) (keyword : String)

/-! ## The environment of one change -/

/-- Every call gets its answer. -/
def answered : Env Op Reply Unit := fun _ op r _ => r = answers op

/-- The method is judged by the answers it may get. -/
theorem outcome_of_safe {α : Type} {m : Mailbox α} {Q : Except Exc α → Prop}
    (h : m.Safe (answered answers) .free (fun r _ _ => Q r) s ()) : Q (outcome answers m s) :=
  Routine.Safe.exec (fun _ => ()) (fun _ _ => rfl) (fun _ => trivial) h

/-- Nothing has to be kept between two calls. -/
def nothing : Growth (answered answers) .free (fun op => op.isImap = true) where
  grow := fun _ _ => True
  refl := fun _ => trivial
  trans := fun _ _ => trivial
  rely := fun _ => trivial
  step := fun _ _ _ => trivial

variable {answers s uid keyword}

/-- What a `FETCH` reports as a flag of `uid` is a report about `uid`. -/
theorem fetchReport_of_has {data : Fetched} (h : hasFlag (reportedFlags data uid) keyword = true) :
    ∃ flags, fetchReport (.ok data) uid = some flags ∧ hasFlag flags keyword = true := by
  unfold reportedFlags at h
  cases hl : data.lookup uid with
  | none =>
      rw [hl] at h
      exact absurd h nofun
  | some item =>
      rw [hl] at h
      cases hf : item.flags with
      | none =>
          simp only [hf] at h
          exact absurd h nofun
      | some flags =>
          simp only [hf, Option.getD_some] at h
          refine ⟨flags, ?_, h⟩
          show (data.lookup uid).bind FetchItem.flags = some flags
          rw [hl]
          exact hf

/-- Without a report the flags are taken for empty. -/
theorem fetchReport_none_iff {data : Fetched} (h : fetchReport (.ok data) uid = none) :
    reportedFlags data uid = [] := by
  have h : (data.lookup uid).bind FetchItem.flags = none := h
  unfold reportedFlags
  cases hl : data.lookup uid with
  | none => rfl
  | some item =>
      rw [hl] at h
      have hf : item.flags = none := h
      simp only [hf, Option.getD_none]

theorem reportedFlags_of_report {data : Fetched} {flags : List String}
    (h : fetchReport (.ok data) uid = some flags) : reportedFlags data uid = flags := by
  have h : (data.lookup uid).bind FetchItem.flags = some flags := h
  obtain ⟨item, hl, hf⟩ := Option.bind_eq_some_iff.mp h
  unfold reportedFlags
  rw [hl]
  simp only [hf, Option.getD_some]

/-! ## Adding a keyword -/

variable (answers s uid keyword)

/-- `add_keyword` fails closed. -/
theorem addKeyword_failsClosed : FailsClosed (outcome answers (addKeyword uid keyword) s)
    (Shown (answers (.addFlags uid keyword)) (answers (.fetch [uid] .flags)) uid keyword true) := by
  refine outcome_of_safe answers s (Q := fun r => FailsClosed r _) ?_
  refine (addKeyword_safe (nothing answers) (fun _ _ => trivial) (fun _ _ => trivial)).mono ?_
  rintro r s' w' ⟨-, -, ⟨rfl, w₁, -, hc⟩ | ⟨text, rfl⟩⟩
  · refine ⟨fun _ => ?_, nofun⟩
    rcases hc with ⟨response, hE, hin⟩ | ⟨data, hE, hin⟩
    · have hE : answers (.addFlags uid keyword) = .ok response := hE.symm
      rw [hE]
      cases hl : response.lookup uid with
      | none =>
          rw [hl] at hin
          exact absurd hin nofun
      | some flags =>
          rw [hl, Option.getD_some] at hin
          exact ⟨flags, Or.inl hl, hin⟩
    · have hE : answers (.fetch [uid] .flags) = .ok data := hE.symm
      rw [hE]
      obtain ⟨flags, hf, hhas⟩ := fetchReport_of_has hin
      exact ⟨flags, Or.inr hf, hhas⟩
  · refine ⟨nofun, ?_⟩
    rintro e ⟨⟩
    exact ⟨text, rfl⟩

/-! ## Removing a keyword -/

/-- `remove_keyword` goes on to the confirming `FETCH`: the session is open, the `STORE` was
    answered, and its answer does not show `uid` without `keyword`. -/
def Refetches (store : Except Exc Stored) : Prop :=
  s.connected = true ∧ isAscii keyword = true ∧ ∃ response, store = .ok response ∧
    ∀ flags, response.lookup uid = some flags → hasFlag flags keyword = true

variable {answers s uid keyword}

theorem outcome_refetchFlags (hconnected : s.connected = true) :
    (refetchFlags uid).exec (fun _ op => (answers op, ())) s () =
      (((answers (.fetch [uid] .flags)).map (fun data => reportedFlags data uid), s), ()) := by
  simp only [refetchFlags, client, call, Routine.exec_bind, Routine.exec_getSelf, hconnected,
    if_true, Routine.exec_pure, Routine.exec_call]
  cases answers (.fetch [uid] .flags) <;> rfl

/-- Then the `FETCH` alone decides. -/
theorem removeKeyword_of_refetches
    (h : Refetches s uid keyword (answers (.removeFlags uid keyword))) :
    outcome answers (removeKeyword uid keyword) s = .ok () ↔
      ∃ data, answers (.fetch [uid] .flags) = .ok data ∧
        hasFlag (reportedFlags data uid) keyword = false := by
  obtain ⟨hconnected, hascii, response, hstore, hshown⟩ := h
  have hun : (unstoreKeyword uid keyword).exec (fun _ op => (answers op, ())) s () =
      (((answers (.fetch [uid] .flags)).map (fun data => reportedFlags data uid), s), ()) := by
    simp only [unstoreKeyword, client, encodeAscii, call, Routine.exec_bind, Routine.exec_getSelf,
      hconnected, hascii, if_true, Routine.exec_pure, Routine.exec_call, hstore]
    cases hl : response.lookup uid with
    | none => exact outcome_refetchFlags hconnected
    | some flags =>
        simp only [hshown flags hl, if_true]
        exact outcome_refetchFlags hconnected
  unfold outcome
  simp only [removeKeyword, Routine.exec_bind, Routine.exec_attempt, hun]
  cases hfetch : answers (.fetch [uid] .flags) with
  | error e =>
      refine ⟨by intros; contradiction, ?_⟩
      rintro ⟨data, hd, _⟩
      exact absurd hd (by simp)
  | ok data =>
      cases hout : hasFlag (reportedFlags data uid) keyword with
      | true =>
          simp only [Except.map, hout, if_true, Routine.exec_raise]
          refine ⟨by simp, ?_⟩
          rintro ⟨data', hd, hout'⟩
          cases hd
          rw [hout] at hout'
          exact absurd hout' (by simp)
      | false =>
          simp only [Except.map, hout]
          exact ⟨fun _ => ⟨data, rfl, hout⟩, fun _ => rfl⟩

/-- Without a `FETCH` it returns on a report without the keyword only. -/
theorem removeKeyword_of_not_refetches
    (h : ¬ Refetches s uid keyword (answers (.removeFlags uid keyword)))
    (hok : outcome answers (removeKeyword uid keyword) s = .ok ()) :
    ∃ flags, storeReport (answers (.removeFlags uid keyword)) uid = some flags ∧
      hasFlag flags keyword = false := by
  unfold outcome at hok
  simp only [removeKeyword, unstoreKeyword, client, encodeAscii, call, Routine.exec_bind,
    Routine.exec_attempt, Routine.exec_getSelf] at hok
  by_cases hconnected : s.connected = true
  swap
  · simp [hconnected] at hok
  by_cases hascii : isAscii keyword = true
  swap
  · simp [hconnected, hascii] at hok
  simp only [hconnected, hascii, if_true, Routine.exec_pure, Routine.exec_call] at hok
  cases hstore : answers (.removeFlags uid keyword) with
  | error e =>
      rw [hstore] at hok
      exact absurd hok (by simp)
  | ok response =>
      rw [hstore] at h
      by_contra hnone
      refine h ⟨hconnected, hascii, response, rfl, fun flags hl => ?_⟩
      by_contra hout
      exact hnone ⟨flags, hl, Bool.eq_false_iff.mpr hout⟩

variable (answers s uid keyword)

/-- Whatever it raises is a `MailboxError`. -/
theorem removeKeyword_raises : ∀ e, outcome answers (removeKeyword uid keyword) s = .error e →
    ∃ text, e = .mailboxError text := by
  refine outcome_of_safe answers s
    (Q := fun r => ∀ e, r = .error e → ∃ text, e = .mailboxError text) ?_
  refine (removeKeyword_safe (nothing answers) (fun _ _ => trivial) (fun _ _ => trivial)).mono ?_
  rintro r s' w' ⟨-, -, ⟨rfl, -⟩ | ⟨text, rfl⟩⟩
  · exact nofun
  · rintro e ⟨⟩
    exact ⟨text, rfl⟩

/-- **Keyword changes fail closed** exactly when every confirming `FETCH` of `remove_keyword` that
    is answered reports the flags of the message. -/
theorem keyword_changes_fail_closed :
    (FailsClosed (outcome answers (addKeyword uid keyword) s)
        (Shown (answers (.addFlags uid keyword)) (answers (.fetch [uid] .flags)) uid keyword true) ∧
      FailsClosed (outcome answers (removeKeyword uid keyword) s)
        (Shown (answers (.removeFlags uid keyword)) (answers (.fetch [uid] .flags)) uid keyword
          false)) ↔
    (Refetches s uid keyword (answers (.removeFlags uid keyword)) →
      ∀ data, answers (.fetch [uid] .flags) = .ok data →
        ∃ flags, fetchReport (.ok data) uid = some flags) := by
  constructor
  · rintro ⟨-, hclosed, -⟩ hre data hfetch
    cases hr : fetchReport (.ok data) uid with
    | some flags => exact ⟨flags, rfl⟩
    | none =>
        have hempty : hasFlag (reportedFlags data uid) keyword = false := by
          rw [fetchReport_none_iff hr]
          rfl
        have hok := (removeKeyword_of_refetches hre).mpr ⟨data, hfetch, hempty⟩
        obtain ⟨-, -, response, hstore, hshown⟩ := hre
        obtain ⟨flags, hreport, hout⟩ := hclosed hok
        rw [hstore, hfetch] at hreport
        rcases hreport with hreport | hreport
        · have hreport : response.lookup uid = some flags := hreport
          rw [hshown flags hreport] at hout
          exact absurd hout nofun
        · rw [hr] at hreport
          exact absurd hreport nofun
  · intro hcondition
    refine ⟨addKeyword_failsClosed answers s uid keyword, fun hok => ?_,
      removeKeyword_raises answers s uid keyword⟩
    by_cases hre : Refetches s uid keyword (answers (.removeFlags uid keyword))
    · obtain ⟨data, hfetch, hout⟩ := (removeKeyword_of_refetches hre).mp hok
      obtain ⟨flags, hr⟩ := hcondition hre data hfetch
      rw [reportedFlags_of_report hr] at hout
      exact ⟨flags, Or.inr (hfetch ▸ hr), hout⟩
    · obtain ⟨flags, hr, hout⟩ := removeKeyword_of_not_refetches hre hok
      exact ⟨flags, Or.inl hr, hout⟩

/-- A server that answers the `STORE` and the confirming `FETCH` without the message. -/
def silent : (op : Op) → Reply op
  | .removeFlags _ _ => .ok []
  | .fetch _ _ => .ok []
  | _ => .error (.other "IMAPClientError" "NO")

/-- A message the server no longer reports is taken for cleared. -/
theorem unreported_taken_for_cleared :
    ¬ FailsClosed
      (outcome silent (removeKeyword 7 "$GmailFailed")
        { readonly := false, skipKeywords := [], connected := true })
      (Shown (silent (.removeFlags 7 "$GmailFailed")) (silent (.fetch [7] .flags)) 7 "$GmailFailed"
        false) := by
  intro h
  obtain ⟨flags, hreport | hreport, -⟩ := h.1 (by decide)
  · exact absurd hreport nofun
  · exact absurd hreport nofun

end ICloudMailbox

end MailTransporter
