import MailTransporter.Environ
import MailTransporter.WatchLoop

set_option autoImplicit false

/-! # The answers of the forwarder (`CloudRunNotifier.trigger`)

What the watcher makes of the HTTP response to its `POST`. A body that is no JSON counts as an empty
object, but a JSON document that is no object, or whose `remaining` is no number, makes `trigger`
raise; `step` is left before it has written down when the next call is due. -/

namespace MailTransporter

namespace Notifier

/-- The exceptions of `response.json()`. -/
inductive BodyError where
  | valueError
  | other (name text : String)

/-- What `trigger` reads of a response. -/
structure Response where
  statusCode : ℤ
  text : String
  json : Except BodyError Json

variable (int : String → Option ℤ)

/-- `int(value)`, which truncates a `float` towards zero. -/
def intOf : Json → Except Exc ℤ
  | .int value => .ok value
  | .bool value => .ok (if value then 1 else 0)
  | .float (.finite value) => .ok (if 0 ≤ value then value.floor else value.ceil)
  | .float .nan => .error (.other "ValueError" "cannot convert float NaN to integer")
  | .float (.infinite _) =>
      .error (.other "OverflowError" "cannot convert float infinity to integer")
  | .str text =>
      match int text with
      | some value => .ok value
      | none =>
          let got := strRepr text
          .error (.other "ValueError" s!"invalid literal for int() with base 10: {got}")
  | value =>
      let name := value.typeName
      .error (.other "TypeError" ("int() argument must be a string, a bytes-like object or a " ++
        s!"real number, not '{name}'"))

/-- `int(payload.get("remaining", 0) or 0)` -/
def remainingOf : Json → Except Exc ℤ
  | .obj members =>
      let value := (members.lookup "remaining").getD (.int 0)
      intOf int (if value.truthy then value else .int 0)
  | payload =>
      let name := payload.typeName
      .error (.other "AttributeError" s!"'{name}' object has no attribute 'get'")

/-- The `try` around `response.json()`. -/
def payloadOf : Except BodyError Json → Except Exc Json
  | .ok payload => .ok payload
  | .error .valueError => .ok (.obj [])
  | .error (.other name text) => .error (.other name text)

/-- `trigger` once the request has been made: with the response, or the text of the exception that
    fetching the token or the request raised. -/
def trigger : Except String Response → Except Exc TriggerResult
  | .error text => .ok { ok := false, error := some s!"request failed: {text}" }
  | .ok response =>
      if response.statusCode = 409 then .ok { ok := false, busy := true }
      else if response.statusCode ≠ 200 then
        let status := response.statusCode
        let body := truncate response.text 500
        .ok { ok := false, error := some s!"HTTP {status}: {body}" }
      else do
        let payload ← payloadOf response.json
        let remaining ← remainingOf int payload
        .ok { ok := true, remaining := remaining }

/-! ## Bodies that can be read -/

/-- `int` reads the value: a truth value, a finite number, or a text it takes for an integer. -/
def IsNumber : Json → Prop
  | .int _ => True
  | .bool _ => True
  | .float (.finite _) => True
  | .str text => int text ≠ none
  | _ => False

/-- The body is no JSON, or an object whose `remaining` is missing, counts as false or is a
    number. -/
def Countable : Except BodyError Json → Prop
  | .error .valueError => True
  | .ok (.obj members) => ∀ value, members.lookup "remaining" = some value →
      value.truthy = true → IsNumber int value
  | _ => False

/-- The response is not a success, or its body can be read. -/
def Readable (response : Response) : Prop :=
  response.statusCode = 200 → Countable int response.json

/-- `trigger` returns a result that tells the two status codes. -/
def Answers (response : Response) : Prop :=
  ∃ result, trigger int (.ok response) = .ok result ∧
    (result.ok = true ↔ response.statusCode = 200) ∧
    (result.busy = true ↔ response.statusCode = 409)

theorem intOf_ok_iff (value : Json) : (∃ n, intOf int value = .ok n) ↔ IsNumber int value := by
  cases value with
  | float x => cases x <;> simp [intOf, IsNumber]
  | str text =>
      simp only [intOf, IsNumber]
      cases int text with
      | none => simp
      | some n => simp
  | _ => simp [intOf, IsNumber]

/-- **What the decoder reads.** -/
theorem countable_iff (json : Except BodyError Json) :
    (∃ n, (do let payload ← payloadOf json; remainingOf int payload) = .ok n) ↔
      Countable int json := by
  cases json with
  | error err =>
      cases err with
      | valueError =>
          simp [payloadOf, bind, Except.bind, remainingOf, Countable, Json.truthy, intOf]
      | other name text => simp [payloadOf, bind, Except.bind, Countable]
  | ok payload =>
      simp only [payloadOf, bind, Except.bind]
      cases payload with
      | obj members =>
          simp only [remainingOf, Countable]
          cases hvalue : members.lookup "remaining" with
          | none => simp [Json.truthy, intOf]
          | some value =>
              by_cases htruthy : value.truthy = true
              · simp [htruthy, intOf_ok_iff]
              · simp [htruthy, intOf]
      | _ => simp [remainingOf, Countable]

/-- The answer to a success is the number that was read. -/
theorem trigger_ok (response : Response) (h : response.statusCode = 200) :
    trigger int (.ok response) =
      (do let payload ← payloadOf response.json; remainingOf int payload).map
        (fun remaining => { ok := true, remaining := remaining }) := by
  simp only [trigger, h]
  cases payloadOf response.json with
  | error e => rfl
  | ok payload =>
      simp only [bind, Except.bind]
      cases remainingOf int payload <;> rfl

/-- A response that is readable is answered, and no other. -/
theorem answers_iff (response : Response) : Answers int response ↔ Readable int response := by
  unfold Answers Readable
  by_cases hok : response.statusCode = 200
  · rw [trigger_ok int response hok, ← countable_iff]
    generalize (do let payload ← payloadOf response.json; remainingOf int payload) = read
    cases read with
    | error e => simp [Except.map, hok]
    | ok n => simp [Except.map, hok]
  · by_cases hbusy : response.statusCode = 409
    · simp [trigger, hbusy]
    · simp [trigger, hok, hbusy]

/-! ## The step that calls the forwarder -/

open WatchLoop

/-- The call is a failed request or a response that can be read. -/
def Returns (request : Except String Response) : Prop :=
  ∀ response, request = .ok response → Readable int response

theorem returns_iff (request : Except String Response) :
    (∃ result, trigger int request = .ok result) ↔ Returns int request := by
  cases request with
  | error text => simp [trigger, Returns]
  | ok response =>
      have hanswers := answers_iff int response
      simp only [Returns, Except.ok.injEq, forall_eq', ← hanswers]
      constructor
      · rintro ⟨result, hresult⟩
        refine hanswers.mpr (fun hok => ?_)
        rw [← countable_iff]
        rw [trigger_ok int response hok] at hresult
        generalize (do let payload ← payloadOf response.json; remainingOf int payload) = read
          at hresult ⊢
        cases read with
        | error e => cases hresult
        | ok n => exact ⟨n, rfl⟩
      · rintro ⟨result, hresult, -⟩
        exact ⟨result, hresult⟩

/-- The step has returned and written down that the listed mail is notified. -/
structure Succeeded (t : Turn) (p : Past) (l : WatchLoop) : Prop where
  returned : ∃ delay, p.outcome = .ok delay
  notified : ∃ uids, t.listing = .ok uids ∧ l.notified = uids.toFinset
  failures : l.failures = 0
  notBefore : l.notBefore = t.now

/-- The step has written down its success, or when the next call is due. -/
def Paced (t : Turn) (l : WatchLoop) : Prop :=
  Succeeded t (t.take l).1 (t.take l).2 ∨ t.now < (t.take l).2.notBefore

/-- A call that has been answered is written down. -/
theorem paced_of_answer {t : Turn} {l : WatchLoop} {result : TriggerResult}
    (ha : t.answer = .ok result) (hcalled : (t.take l).1.called = true)
    (hfailures : l.failures < 1000) : Paced t l := by
  have htook := took t l
  unfold Paced
  generalize (t.take l).1 = p at htook hcalled ⊢
  generalize (t.take l).2 = l' at htook ⊢
  cases htook with
  | unlisted e he => exact absurd hcalled nofun
  | empty he => exact absurd hcalled nofun
  | known he hknown hstale => exact absurd hcalled nofun
  | early he hearly => exact absurd hcalled nofun
  | unanswered he hdue e he' =>
      rw [ha] at he'
      cases he'
  | @answered uids he hdue result' ha' outcome l' hs =>
      cases hs with
      | drained hok hremaining =>
          exact Or.inl ⟨⟨none, rfl⟩, ⟨uids, he, rfl⟩, rfl, rfl⟩
      | remaining hok hremaining =>
          exact Or.inl ⟨⟨some SHORT_DELAY, rfl⟩, ⟨uids, he, rfl⟩, rfl, rfl⟩
      | busy hok hbusy =>
          have hpos : (0 : ℚ) < BUSY_DELAY := by norm_num [BUSY_DELAY]
          exact Or.inr (lt_add_of_pos_right t.now hpos)
      | failed hok hbusy hn =>
          exact Or.inr (lt_add_of_pos_right t.now (delayAfter_bounds _).1)
      | overflowed hok hbusy hn =>
          have hmany : 1024 < l.failures + 1 := hn
          omega

/-- A call that raised leaves no trace. -/
theorem not_paced_of_raise {t : Turn} {l : WatchLoop} {e : Exc} (ha : t.answer = .error e)
    (hcalled : (t.take l).1.called = true) : ¬Paced t l := by
  have htook := took t l
  unfold Paced
  generalize (t.take l).1 = p at htook hcalled ⊢
  generalize (t.take l).2 = l' at htook ⊢
  cases htook with
  | unlisted e he => exact absurd hcalled nofun
  | empty he => exact absurd hcalled nofun
  | known he hknown hstale => exact absurd hcalled nofun
  | early he hearly => exact absurd hcalled nofun
  | unanswered he hdue e' he' =>
      rintro (hsucceeded | harmed)
      · obtain ⟨delay, hdelay⟩ := hsucceeded.returned
        cases hdelay
      · exact absurd harmed (Rat.not_lt.mpr hdue)
  | answered he hdue result ha' hs =>
      rw [ha] at ha'
      cases ha'

/-! ## Main results -/

/-- **Which answers keep the watcher paced.** `trigger` returns a result with the right flags
    exactly for the responses that can be read, and a step that calls it writes down its success or
    its next call exactly if the request fails or is answered by such a response. -/
theorem paced_iff (int : String → Option ℤ) :
    (∀ response, Answers int response ↔ Readable int response) ∧
    (∀ (t : Turn) (l : WatchLoop) (request : Except String Response),
      t.answer = trigger int request → (t.take l).1.called = true → l.failures < 1000 →
        (Paced t l ↔ Returns int request)) := by
  refine ⟨answers_iff int, fun t l request ha hcalled hfailures => ?_⟩
  rw [← returns_iff]
  constructor
  · intro hpaced
    cases hanswer : trigger int request with
    | ok result => exact ⟨result, rfl⟩
    | error e => exact absurd hpaced (not_paced_of_raise (ha.trans hanswer) hcalled)
  · rintro ⟨result, hresult⟩
    exact paced_of_answer (ha.trans hresult) hcalled hfailures

/-- A response with the status 200. -/
def success (json : Json) : Except String Response := .ok ⟨200, "", .ok json⟩

/-- A turn at which the server lists one mail, and the forwarder gives the response. -/
def oneListed (now : ℚ) (request : Except String Response) : Turn :=
  { exampleTurn now [7] { ok := true } with answer := trigger (fun _ => none) request }

/-- A step that is answered with three messages left. -/
theorem paced_iff_remaining :
    Paced (oneListed 0 (success (.obj [("remaining", .int 3)]))) (Watch.initial {}).loop := by
  have hreturns : Returns (fun _ => none) (success (.obj [("remaining", .int 3)])) := by
    intro response heq hstatus
    cases heq
    intro value hvalue htruthy
    cases hvalue
    exact trivial
  have hcalled : ((oneListed 0 (success (.obj [("remaining", .int 3)]))).take
      (Watch.initial {}).loop).1.called = true := by decide +kernel
  exact ((paced_iff (fun _ => none)).2 _ _ _ rfl hcalled (by decide)).mpr hreturns

/-- A success whose body is a list: `trigger` raises, and a step five seconds later calls the
    forwarder again for the same mail. -/
theorem list_not_paced :
    trigger (fun _ => none) (success (.arr [])) =
      .error (.other "AttributeError" "'list' object has no attribute 'get'") ∧
    (let first := oneListed 0 (success (.arr []))
    let l := (Watch.initial {}).loop
    (first.take l).1.called = true ∧ ¬0 < (first.take l).2.notBefore ∧
      (first.take l).2.notified = ∅ ∧
      ((oneListed 5 (success (.arr []))).take (first.take l).2).1.called = true) := by
  refine ⟨rfl, ?_⟩
  decide +kernel

end Notifier

end MailTransporter
