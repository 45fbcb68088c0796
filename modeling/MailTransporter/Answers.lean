import MailTransporter.EndpointRules
import MailTransporter.Credentials
import MailTransporter.Notifier

set_option autoImplicit false

/-! # What the answers of the endpoint say

Two readers of a `/sync` answer. Whoever sees it learns no registered value that the mask keeps
apart, and the credentials of the forwarder are registered. The watcher, whose notifier decodes it,
learns what the forwarder run came to: the server's encoding and the notifier's decoding fit, in
whatever order the members of the object arrive, so every call is written down by the loop as what
it was. -/

namespace MailTransporter

open Effect

namespace Endpoint

variable {W : Type} {V : Verifier} {E : Env Op Reply W} {others : W → W → Prop} {caller : Caller}
  {history : List Event}

/-! ## The texts of an answer -/

/-- The endpoint's own words that are short, and texts that have been scrubbed. -/
inductive Worded (registered : Secrets.Registered) : String → Prop
  | own {text : String} (h : text.length < 6) : Worded registered text
  | scrubbed (text : String) : Worded registered (Secrets.errorText registered text)

theorem length_le_of_contains {text value : String} (h : Contains text value) :
    value.length ≤ text.length := by
  have hle := List.IsInfix.length_le h
  rwa [String.length_toList, String.length_toList] at hle

/-- Such a text shows no registered value that the mask keeps apart. -/
theorem Worded.hides {registered : Secrets.Registered} {text : String}
    (h : Worded registered text) {secret : Secrets.Secret} (hmem : secret ∈ registered)
    (hmask : Secrets.Maskable secret.value) : ¬Contains text secret.value := by
  intro hcontains
  cases h with
  | own hshort =>
      have hle := length_le_of_contains hcontains
      have hlong := secret.long
      omega
  | scrubbed text => exact Secrets.redact_clean hmem hmask text hcontains.of_truncate

theorem Worded.short {registered : Secrets.Registered} {text : String}
    (h : Worded registered text) : text.length ≤ Secrets.ERROR_TEXT_LIMIT := by
  cases h with
  | own hshort =>
      have : Secrets.ERROR_TEXT_LIMIT = 500 := rfl
      omega
  | scrubbed text =>
      rw [Secrets.errorText, truncate, ← String.length_toList, String.toList_ofList]
      exact List.length_take_le _ _

/-- The texts of an answer to a run. -/
theorem resultResponse_worded {registered : Secrets.Registered} {result : SyncResult}
    {key text : String} (h : (key, Json.str text) ∈ (resultResponse registered result).body) :
    Worded registered text := by
  simp only [resultResponse, SyncResult.toDict, List.mem_cons, Prod.mk.injEq, List.not_mem_nil,
    or_false, reduceCtorEq, and_false, false_or] at h
  rcases h with ⟨-, herror⟩ | ⟨-, hstatus⟩
  · cases hresult : result.error with
    | none => simp [hresult] at herror
    | some error =>
        rw [hresult] at herror
        simp only [Option.map_some, Option.elim_some, Json.str.injEq] at herror
        split at herror
        · next hempty =>
          rw [herror, hempty]
          exact .own (by decide)
        · rw [herror]
          exact .scrubbed error
  · cases hstatus
    split
    · exact .own (by decide)
    · exact .own (by decide)

/-- The texts of an answer to an exception. -/
theorem failureResponse_worded {registered : Secrets.Registered} {exc : Exc} {key text : String}
    (h : (key, Json.str text) ∈ (failureResponse registered exc).body) :
    Worded registered text := by
  simp only [failureResponse, List.mem_cons, Prod.mk.injEq, List.not_mem_nil, or_false] at h
  rcases h with ⟨-, hstatus⟩ | ⟨-, herror⟩
  · cases hstatus
    exact .own (by decide)
  · cases herror
    exact .scrubbed _

theorem response_worded {registered : Secrets.Registered} {outcome : Except Exc SyncResult}
    {key text : String} (h : (key, Json.str text) ∈ (response registered outcome).body) :
    Worded registered text := by
  cases outcome with
  | ok result => exact resultResponse_worded h
  | error exc => exact failureResponse_worded h

/-! ## The credentials of the forwarder -/

/-- The secrets of a forwarder: its password and those members of the document that are texts. -/
def IsCredential (forwarder : ForwarderSettings) (value : String) : Prop :=
  value = forwarder.icloud.password ∨ .str value = forwarder.gmail.clientSecret ∨
    .str value = forwarder.gmail.refreshToken

open Secrets (IsRegistered registerSecret)

theorem icloud_registered {e : Environ} {before after : Secrets.Registered} {s : ICloudSettings}
    (h : (ICloudSettings.fromEnv e).outcome before = (.ok s, after)) :
    IsRegistered after s.password := by
  simp only [ICloudSettings.fromEnv, Reading.outcome_bind_eq_ok, Reading.outcome_lift,
    Reading.outcome_pure, Credentials.resolveSecretEnv_outcome, Prod.mk.injEq] at h
  obtain ⟨user, _, -, password, _, hpassword, port, _, ⟨-, rfl⟩, timeout, _, ⟨-, rfl⟩, hs, rfl⟩ := h
  cases hs
  cases hvalue : Credentials.secretValue e "ICLOUD_PASSWORD" with
  | none => simp [hvalue] at hpassword
  | some value =>
      rw [hvalue] at hpassword
      cases hpassword
      exact Secrets.isRegistered_registerSecret _ _

/-- What `register_secret` has accepted stays registered, and a text is registered then. -/
theorem registerValue_registered {value : Json} {before after : Secrets.Registered}
    (h : (GmailSettings.registerValue value).outcome before = (.ok (), after)) :
    before ⊆ after ∧ ∀ text, .str text = value → IsRegistered after text := by
  by_cases hstr : Credentials.Json.IsStr value
  · obtain ⟨text, rfl⟩ := hstr
    by_cases hempty : text = ""
    · subst hempty
      cases h
      refine ⟨List.Subset.refl _, fun text heq => ?_⟩
      cases heq
      intro hlong
      exact absurd hlong (by decide)
    · rw [Credentials.outcome_registerValue_str before hempty] at h
      cases h
      refine ⟨Secrets.registerSecret_subset _ _, fun other heq => ?_⟩
      cases heq
      exact Secrets.isRegistered_registerSecret _ _
  · rcases Credentials.outcome_registerValue_other before hstr with ⟨name, text, herror⟩ | hok
    · rw [herror] at h
      cases h
    · rw [hok] at h
      cases h
      exact ⟨List.Subset.refl _, fun text heq => absurd ⟨text, heq.symm⟩ hstr⟩

theorem gmail_registered {e : Environ} {before after : Secrets.Registered} {s : GmailSettings}
    (h : (GmailSettings.fromEnv e).outcome before = (.ok s, after)) :
    before ⊆ after ∧ ∀ text, .str text = s.clientSecret ∨ .str text = s.refreshToken →
      IsRegistered after text := by
  rw [GmailSettings.fromEnv, Reading.outcome_bind_eq_ok] at h
  obtain ⟨raw, first, hraw, h⟩ := h
  have hfirst : before ⊆ first := by
    rw [Credentials.resolveSecretEnv_outcome] at hraw
    cases hvalue : Credentials.secretValue e "GMAIL_OAUTH_JSON" with
    | none => simp [hvalue] at hraw
    | some value =>
        rw [hvalue] at hraw
        cases hraw
        exact Secrets.registerSecret_subset _ _
  cases hload : e.loads raw with
  | error err =>
      rw [hload] at h
      cases err with
      | jsonDecodeError => cases h
      | other name text => cases h
  | ok data =>
      rw [hload] at h
      simp only [GmailSettings.fromJson, Reading.outcome_bind_eq_ok, Reading.outcome_lift,
        Prod.mk.injEq] at h
      obtain ⟨members, _, ⟨-, rfl⟩, h⟩ := h
      split at h
      · cases h
      · simp only [Reading.outcome_bind_eq_ok, Reading.outcome_pure] at h
        obtain ⟨_, second, hsecret, _, third, htoken, hs⟩ := h
        cases hs
        obtain ⟨hsecond, hsecret⟩ := registerValue_registered hsecret
        obtain ⟨hthird, htoken⟩ := registerValue_registered htoken
        refine ⟨List.Subset.trans (List.Subset.trans hfirst hsecond) hthird, ?_⟩
        rintro text (heq | heq)
        · exact (hsecret text heq).mono hthird
        · exact htoken text heq

/-- **The credentials of a forwarder that has been built are registered.** -/
theorem Built.registered {forwarder : ForwarderSettings} {registered : Secrets.Registered}
    (h : Built forwarder registered) {value : String} (hvalue : IsCredential forwarder value) :
    IsRegistered registered value := by
  obtain ⟨e, before, after, hread, hsub⟩ := h
  obtain ⟨-, -, ⟨between, hicloud, hgmail⟩, -⟩ := ForwarderSettings.fromEnv_eq_ok_iff.mp hread
  obtain ⟨hkept, hmembers⟩ := gmail_registered hgmail
  rcases hvalue with rfl | hmember
  · exact ((icloud_registered hicloud).mono hkept).mono hsub
  · exact (hmembers value hmember).mono hsub

/-! ## Decoding -/

/-- What is read of a status that tells a failure. -/
def failed (status : ℤ) (text : String) : TriggerResult :=
  let body := truncate text 500
  { ok := false, error := some s!"HTTP {status}: {body}" }

/-- What the notifier is to read: the status, and what the run left over. -/
def decoded : Except Exc SyncResult → String → TriggerResult
  | .ok result, text =>
      if result.ok then { ok := true, remaining := result.remaining } else failed 500 text
  | .error _, text => failed 500 text

/-- The response with the members of its object in any order. -/
def wire (response : Response) (text : String) (members : List (String × Json)) :
    Notifier.Response where
  statusCode := response.status
  text := text
  json := .ok (.obj members)

theorem lookup_of_mem {members : List (String × Json)} (hkeys : (members.map Prod.fst).Nodup)
    {key : String} {value : Json} (hmem : (key, value) ∈ members) :
    members.lookup key = some value := by
  induction members with
  | nil => exact absurd hmem List.not_mem_nil
  | cons member rest ih =>
      rw [List.map_cons, List.nodup_cons] at hkeys
      rcases List.mem_cons.mp hmem with rfl | hrest
      · simp
      · have hne : key ≠ member.1 := by
          rintro rfl
          exact hkeys.1 (List.mem_map.mpr ⟨_, hrest, rfl⟩)
        have hother : (key == member.1) = false := beq_eq_false_iff_ne.mpr hne
        rw [List.lookup_cons, hother]
        exact ih hkeys.2 hrest

theorem toDict_keys (result : SyncResult) : (result.toDict.map Prod.fst).Nodup := by
  simp [SyncResult.toDict]

/-- What `remaining` is read from an object in whose members it stands. -/
theorem remainingOf_toDict (int : String → Option ℤ) {result : SyncResult}
    {members : List (String × Json)} (hperm : members.Perm result.toDict) :
    Notifier.remainingOf int (.obj members) = .ok result.remaining := by
  have hkeys : (members.map Prod.fst).Nodup :=
    (hperm.map Prod.fst).nodup_iff.mpr (toDict_keys result)
  have hmem : ("remaining", Json.int result.remaining) ∈ members := by
    refine hperm.mem_iff.mpr ?_
    simp [SyncResult.toDict]
  simp only [Notifier.remainingOf, lookup_of_mem hkeys hmem, Option.getD_some]
  by_cases hzero : result.remaining = 0
  · simp [hzero, Json.truthy, Notifier.intOf]
  · simp [hzero, Json.truthy, Notifier.intOf]

/-- **The notifier reads what the endpoint wrote.** -/
theorem trigger_response (int : String → Option ℤ) (registered : Secrets.Registered)
    (outcome : Except Exc SyncResult) {text : String} {members : List (String × Json)}
    (hperm : members.Perm (response registered outcome).body) :
    Notifier.trigger int (.ok (wire (response registered outcome) text members)) =
      .ok (decoded outcome text) := by
  cases outcome with
  | error exc => rfl
  | ok result =>
      cases hok : result.ok with
      | false =>
          have hstatus : (response registered (.ok result)).status = 500 := by
            simp [response, resultResponse, hok]
          simp [Notifier.trigger, wire, hstatus, decoded, hok, failed]
      | true =>
          have hstatus : (response registered (.ok result)).status = 200 := by
            simp [response, resultResponse, hok]
          rw [Notifier.trigger_ok int _ hstatus]
          have hread := remainingOf_toDict int hperm
          simp only [wire, Notifier.payloadOf, bind, Except.bind, hread, Except.map, decoded, hok,
            if_true]

/-- The answer is about a run in the history that ended without an error, and left `remaining`
    messages. -/
def Completed (history : List Event) (answer : Response) (remaining : ℕ) : Prop :=
  ∃ forwarder registered result s calls earlier later,
    (forwarderRun forwarder).Transcript calls (.ok result, s) ∧
    history = earlier ++ calls.map forwarded ++ ⟨.secrets, registered⟩ :: later ∧
    answer = response registered (.ok result) ∧ result.error = none ∧ result.remaining = remaining

/-- What an answer tells the watcher. -/
inductive Told (history : List Event) (answer : Response) : TriggerResult → Prop
  | completed {remaining : ℕ} (h : Completed history answer remaining) :
      Told history answer { ok := true, remaining := remaining }
  | busy (h : answer = busy) : Told history answer { ok := false, busy := true }
  | failed (text : String) (h : answer.status = 403 ∨ answer.status = 500) :
      Told history answer (failed answer.status text)

/-- The answers about a run, decoded. -/
theorem Reported.told {ran : Option ForwarderSettings} {registered : Secrets.Registered}
    {answer : Response} (h : Reported history ran registered answer) (int : String → Option ℤ)
    {text : String} {members : List (String × Json)} (hperm : members.Perm answer.body) :
    ∃ result, Notifier.trigger int (.ok (wire answer text members)) = .ok result ∧
      Told history answer result := by
  cases h with
  | unbuilt hrefused hhistory => exact ⟨_, rfl, .failed text (Or.inr rfl)⟩
  | @ran forwarder registered outcome s calls earlier later hstored hbuilt hrun hhistory =>
      refine ⟨_, trigger_response int registered outcome hperm, ?_⟩
      cases outcome with
      | error exc => exact .failed text (Or.inr rfl)
      | ok result =>
          cases hok : result.ok with
          | true =>
              have herror : result.error = none := Option.isNone_iff_eq_none.mp hok
              rw [decoded, if_pos hok]
              exact .completed ⟨forwarder, registered, result, s, calls, earlier, later, hrun,
                hhistory, rfl, herror, rfl⟩
          | false =>
              have hstatus : (response registered (.ok result)).status = 500 := by
                simp [response, resultResponse, hok]
              rw [decoded, hok, if_neg (by simp), ← hstatus]
              exact .failed text (Or.inr hstatus)

theorem Answered.told {exchange : Exchange} (h : Answered V caller history exchange)
    (int : String → Option ℤ) (text : String) {members : List (String × Json)}
    (hperm : members.Perm exchange.2.body) :
    ∃ result, Notifier.trigger int (.ok (wire exchange.2 text members)) = .ok result ∧
      Told history exchange.2 result := by
  cases h with
  | forbidden h => exact ⟨_, rfl, .failed text (Or.inl rfl)⟩
  | busy h => exact ⟨_, rfl, .busy rfl⟩
  | reported h hreported => exact hreported.told int hperm

/-- The texts of an answer about a run or about refused settings. -/
theorem Reported.worded {ran : Option ForwarderSettings} {registered : Secrets.Registered}
    {answer : Response} (h : Reported history ran registered answer) {key text : String}
    (hmem : (key, Json.str text) ∈ answer.body) : Worded registered text := by
  cases h with
  | ran hstored hbuilt hrun hhistory => exact response_worded hmem
  | unbuilt hrefused hhistory => exact failureResponse_worded hmem

/-- The credentials of the forwarder that ran are registered. -/
theorem Reported.credentials {forwarder : ForwarderSettings} {registered : Secrets.Registered}
    {answer : Response} (h : Reported history (some forwarder) registered answer) {value : String}
    (hvalue : IsCredential forwarder value) : IsRegistered registered value := by
  cases h with
  | ran hstored hbuilt hrun hhistory => exact hbuilt.registered hvalue

/-! ## Main results -/

/-- **No answer shows a secret.** The texts of an answer about a run or about refused settings are
    short and show no value that the mask keeps apart of those the process had registered by then;
    among these are the credentials of the forwarder that ran. -/
theorem answers_scrubbed {headers : Option String → Prop} {w : W}
    {c : Pool Call Call.Value (Process W) Exchange} (h : Reachable V E others caller headers w c)
    {t : Thread Call Call.Value Exchange} {exchange : Exchange} (ht : t ∈ c.threads)
    (hdone : t.program = .pure exchange) :
    exchange.2 = forbidden ∨ exchange.2 = busy ∨ ∃ ran registered,
      Reported c.state.history ran registered exchange.2 ∧
      (∀ forwarder, ran = some forwarder →
        ∀ value, IsCredential forwarder value → IsRegistered registered value) ∧
      ∀ key text, (key, Json.str text) ∈ exchange.2.body →
        text.length ≤ Secrets.ERROR_TEXT_LIMIT ∧
        ∀ secret ∈ registered, Secrets.Maskable secret.value → ¬Contains text secret.value := by
  have hanswered := (reachable_sound h).done ht hdone
  cases hanswered with
  | forbidden h => exact Or.inl rfl
  | busy h => exact Or.inr (Or.inl rfl)
  | @reported authorization answer ran registered h hreported =>
      refine Or.inr (Or.inr ⟨ran, registered, hreported, ?_, fun key text hmem => ?_⟩)
      · rintro forwarder rfl value
        exact hreported.credentials
      · have hworded := hreported.worded hmem
        exact ⟨hworded.short, fun secret hsecret hmask => hworded.hides hsecret hmask⟩

/-- The answer to a run at which the login fails. -/
theorem answers_scrubbed_failed : ∃ (c : Pool Call Call.Value (Process Unit) Exchange)
    (exchange : Exchange), exchange.2.status = 500 ∧
    (exchange.2 = forbidden ∨ exchange.2 = busy ∨ ∃ ran registered,
      Reported c.state.history ran registered exchange.2 ∧
      (∀ forwarder, ran = some forwarder →
        ∀ value, IsCredential forwarder value → IsRegistered registered value) ∧
      ∀ key text, (key, Json.str text) ∈ exchange.2.body →
        text.length ≤ Secrets.ERROR_TEXT_LIMIT ∧
        ∀ secret ∈ registered, Secrets.Maskable secret.value → ¬Contains text secret.value) := by
  obtain ⟨c, t, exchange, hc, ht, hdone, hstatus⟩ := played_failed
  exact ⟨c, exchange, hstatus, answers_scrubbed hc ht hdone⟩

open WatchLoop (Turn delayAfter)

/-- What the watch loop makes of an answer. -/
inductive Watched (history : List Event) (answer : Response) (turn : Turn) (l : WatchLoop)
    (uids : List ℕ) : Prop
  | completed {remaining : ℕ} (hrun : Completed history answer remaining)
      (hnotified : (turn.take l).2.notified = uids.toFinset)
      (hfailures : (turn.take l).2.failures = 0)
      (houtcome : (turn.take l).1.outcome = .ok (if 0 < remaining then some SHORT_DELAY else none))
  | busy (hanswer : answer = busy)
      (hnotified : (turn.take l).2.notified = l.notified ∩ uids.toFinset)
      (houtcome : (turn.take l).1.outcome = .ok (some BUSY_DELAY))
      (hbefore : (turn.take l).2.notBefore = turn.now + BUSY_DELAY)
      (hfailures : (turn.take l).2.failures = l.failures)
  | failed (hanswer : answer.status = 403 ∨ answer.status = 500)
      (hnotified : (turn.take l).2.notified = l.notified ∩ uids.toFinset)
      (houtcome : (turn.take l).1.outcome = .ok (some (delayAfter (l.failures + 1))))
      (hbefore : (turn.take l).2.notBefore = turn.now + delayAfter (l.failures + 1))
      (hfailures : (turn.take l).2.failures = l.failures + 1)

/-- **The watcher in front of the endpoint.** A turn of the watch loop whose call is answered by the
    endpoint, in whatever order the members of the object arrive, takes the listed mail for notified
    exactly after a run that ended without an error, comes back soon if that run left messages, tries
    again when the endpoint was busy, and backs off otherwise; then the mail it had notified of
    before stays what it takes for notified, as far as it is still listed. -/
theorem watched {headers : Option String → Prop} {w : W}
    {c : Pool Call Call.Value (Process W) Exchange} (h : Reachable V E others caller headers w c)
    {t : Thread Call Call.Value Exchange} {exchange : Exchange} (ht : t ∈ c.threads)
    (hdone : t.program = .pure exchange) (int : String → Option ℤ) (text : String)
    {members : List (String × Json)} (hperm : members.Perm exchange.2.body) {turn : Turn}
    {l : WatchLoop} (hanswer : turn.answer = Notifier.trigger int (.ok (wire exchange.2 text members)))
    (hcalled : (turn.take l).1.called = true) (hfailures : l.failures < 1024) :
    ∃ uids, turn.listing = .ok uids ∧ Watched c.state.history exchange.2 turn l uids := by
  have hanswered := (reachable_sound h).done ht hdone
  obtain ⟨result, hresult, htold⟩ := hanswered.told int text hperm
  rw [hresult] at hanswer
  have htook := WatchLoop.took turn l
  generalize hp : (turn.take l).1 = p at htook hcalled
  generalize hl' : (turn.take l).2 = l' at htook
  cases htook with
  | unlisted e he => cases hcalled
  | empty he => cases hcalled
  | known he hknown hstale => cases hcalled
  | early he hearly => cases hcalled
  | unanswered he hdue e ha => cases hanswer.symm.trans ha
  | @answered uids he hdue result' ha outcome l' hs =>
      refine ⟨uids, he, ?_⟩
      cases hanswer.symm.trans ha
      cases htold with
      | @completed remaining hcompleted =>
          cases hs with
          | drained hok hremaining =>
              have hzero : ¬0 < remaining := by
                have hle : (remaining : ℤ) ≤ 0 := hremaining
                omega
              refine .completed hcompleted (by rw [hl']) (by rw [hl']) ?_
              rw [hp, if_neg hzero]
          | remaining hok hremaining =>
              have hpos : 0 < remaining := by
                have hlt : (0 : ℤ) < remaining := hremaining
                omega
              refine .completed hcompleted (by rw [hl']) (by rw [hl']) ?_
              rw [hp, if_pos hpos]
          | busy hok hbusy => cases hok
          | failed hok hbusy hn => cases hok
          | overflowed hok hbusy hn => cases hok
      | busy hbusy =>
          cases hs with
          | drained hok hremaining => cases hok
          | remaining hok hremaining => cases hok
          | busy hok =>
              exact .busy hbusy (by rw [hl']; rfl) (by rw [hp]) (by rw [hl']) (by rw [hl']; rfl)
          | failed hok hbusy hn => cases hbusy
          | overflowed hok hbusy hn => cases hbusy
      | failed text hstatus =>
          cases hs with
          | drained hok hremaining => cases hok
          | remaining hok hremaining => cases hok
          | busy hok hbusy => cases hbusy
          | failed hok hbusy hn =>
              exact .failed hstatus (by rw [hl']; rfl) (by rw [hp]; rfl) (by rw [hl']; rfl)
                (by rw [hl']; rfl)
          | overflowed hok hbusy hn =>
              have hmany : 1024 < l.failures + 1 := hn
              omega

/-- A turn that lists one mail and is answered 409. -/
def turnedAway : Turn :=
  { WatchLoop.exampleTurn 0 [7] { ok := true } with
    answer := Notifier.trigger (fun _ => none) (.ok (wire busy "" busy.body)) }

theorem watched_busy : ∃ c, Played ⟨"", ""⟩ c ∧ ∃ uids, turnedAway.listing = .ok uids ∧
    Watched c.state.history busy turnedAway (Watch.initial {}).loop uids := by
  obtain ⟨c, hc, -, t, ht, hdone⟩ := played_busy
  have hcalled : (turnedAway.take (Watch.initial {}).loop).1.called = true := by decide +kernel
  exact ⟨c, hc, watched hc ht hdone (fun _ => none) "" (List.Perm.refl _) rfl hcalled (by decide)⟩

end Endpoint

end MailTransporter
