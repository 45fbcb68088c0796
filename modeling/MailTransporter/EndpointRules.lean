import MailTransporter.Endpoint

set_option autoImplicit false

/-! # Requests one at a time

The rule of the lock for the requests of a process. `request_guarded` says what a request does with
the lock and what its answer is; from `Pool.sound` it follows for any interleaving of requests that
one forwarder runs at a time, that the process builds its forwarder once, and that an answer about a
run is about a whole run whose calls stand in the history of the process without a call of another
request between them. -/

namespace MailTransporter

open Effect

namespace Endpoint

variable {W : Type} {V : Verifier} {E : Env Op Reply W} {others : W → W → Prop} {caller : Caller}
  {w₀ : W}

/-! ## Moves of the others -/

/-- What happens beside a section: the world moves, and other requests have tokens verified. -/
def Aside (others : W → W → Prop) (P P' : Process W) : Prop :=
  Relation.ReflTransGen others P.outside P'.outside ∧ P'.globals = P.globals ∧
    P'.history = P.history

theorem aside_refl (P : Process W) : Aside others P P := ⟨.refl, rfl, rfl⟩

theorem aside_trans {P P' P'' : Process W} (h : Aside others P P') (h' : Aside others P' P'') :
    Aside others P P'' :=
  ⟨h.1.trans h'.1, h'.2.1.trans h.2.1, h'.2.2.trans h.2.2⟩

theorem aside_outside {P P' : Process W} {call : Call} {r : call.Value}
    (hcall : call.isOutside = true) (h : Runs V E P call r P') : Aside others P P' := by
  cases call with
  | googleTransport =>
      rcases h with ⟨-, rfl⟩ | ⟨-, -, rfl⟩
      · exact ⟨.refl, rfl, rfl⟩
      · exact aside_refl P'
  | verifyToken token audience =>
      obtain ⟨-, rfl⟩ := h
      exact aside_refl P'
  | _ => simp [Call.isOutside] at hcall

/-! ## What the lock protects -/

/-- A run of a program of the forwarder, in which the others move as they like. -/
abbrev Alone (E : Env Op Reply W) (others : W → W → Prop) {α : Type} :
    W × Program Op Reply α → W × Program Op Reply α → Prop :=
  Program.Steps (E.under (Relation.ReflTransGen others))

/-- The forwarder has been built from the environment, and what was registered then still is. -/
def Built (forwarder : ForwarderSettings) (registered : Secrets.Registered) : Prop :=
  ∃ e before after, (ForwarderSettings.fromEnv e).outcome before = (.ok forwarder, after) ∧
    after ⊆ registered

/-- The environment has been refused, which has left these values registered. -/
def Refused (exc : Exc) (registered : Secrets.Registered) : Prop :=
  ∃ e before error, (ForwarderSettings.fromEnv e).outcome before = (.error error, registered) ∧
    exc = error.exc

/-- The forwarder that is kept is the one that has been built. -/
structure Globals.Kept (g : Globals) : Prop where
  built : g.built = g.forwarder.toList
  settings : ∀ forwarder, g.forwarder = some forwarder → Built forwarder g.registered

/-- The globals while no request is in its section. -/
structure Globals.Idle (g : Globals) : Prop extends Globals.Kept g where
  unlocked : g.forwarderLocked = false

theorem Globals.Kept.once {g : Globals} (h : g.Kept) : g.built.length ≤ 1 := by
  rw [h.built]
  cases g.forwarder <;> simp

/-- The world is moved by the others, or by a whole run of a forwarder that has been built. -/
def Served (E : Env Op Reply W) (others : W → W → Prop) (w w' : W) : Prop :=
  others w w' ∨ ∃ forwarder registered outcome s, Built forwarder registered ∧
    Alone E others (w, forwarderRun forwarder) (w', .pure (outcome, s))

/-- Any number of such moves. -/
abbrev Serial (E : Env Op Reply W) (others : W → W → Prop) : W → W → Prop :=
  Relation.ReflTransGen (Served E others)

theorem Serial.wait {w w' w'' : W} (h : Serial E others w w')
    (hmoved : Relation.ReflTransGen others w' w'') : Serial E others w w'' :=
  h.trans (Relation.ReflTransGen.mono (fun _ _ => Or.inl) _ _ hmoved)

/-- The process while no request is in its section: since the start in the world `w` there have been
    whole runs only. -/
structure Resting (E : Env Op Reply W) (others : W → W → Prop) (w : W) (P : Process W) : Prop where
  idle : P.globals.Idle
  recorded : ∀ forwarder, P.globals.forwarder = some forwarder →
    ⟨.buildForwarder, .ok forwarder⟩ ∈ P.history
  serial : Serial E others w P.outside

theorem Resting.stable {P P' : Process W} (h : Resting E others w₀ P) (hmove : Aside others P P') :
    Resting E others w₀ P' := by
  obtain ⟨hmoved, hglobals, hhistory⟩ := hmove
  refine ⟨hglobals ▸ h.idle, fun forwarder hf => ?_, h.serial.wait hmoved⟩
  rw [hglobals] at hf
  exact hhistory ▸ h.recorded forwarder hf

/-- Where a request in its section makes a call, and does not wait for `_forwarder_lock`. -/
structure Globals.Open (g : Globals) (call : Call) : Prop where
  once : g.built.length ≤ 1
  unlocked : call = .lockForwarder → g.forwarderLocked = false

/-- The protection by `_run_lock`: outside a section a request only has its token verified. -/
def runLock (E : Env Op Reply W) (others : W → W → Prop) (w : W) : Protection Call (Process W) where
  invariant := Resting E others w
  sections := { rely := Aside others, guard := fun P call => P.globals.Open call }
  outside := fun call => call.isOutside = true

theorem runLock_lawful : (runLock E others w₀).Lawful (Runs V E) (Moves others) where
  refl := aside_refl
  trans := aside_trans
  others := by
    rintro P P' ⟨w', hmove, rfl⟩
    exact ⟨.single hmove, rfl, rfl⟩
  outside := aside_outside
  stable := fun hmove hresting => hresting.stable hmove

/-! ## The section of a request -/

theorem safe_ask {call : Call} {Q : call.Value → Process W → Prop} {g : Globals} {w : W} {b : Bool}
    {events : List Event} (hopen : g.Open call) (hw : Serial E others w₀ w)
    (h : ∀ w' b' r P, Serial E others w₀ w' → Runs V E ⟨g, w', b', events⟩ call r P → Q r P) :
    (ask call).Safe (Runs V E) (runLock E others w₀).sections Q ⟨g, w, b, events⟩ := by
  rintro ⟨g', w', b', events'⟩ ⟨hmoved, rfl, rfl⟩
  exact ⟨hopen, fun r P => h w' b' r P (hw.wait hmoved)⟩

theorem safe_seq {α β : Type} {D : Discipline Call (Process W)} {p : Part α} {f : α → Part β}
    {Q : β → Process W → Prop} {P : Process W} (h : p.Safe (Runs V E) D
      (fun a P' => (f a).Safe (Runs V E) D Q P') P) :
    (p >>= f).Safe (Runs V E) D Q P := Program.safe_bind.mpr h

/-- What `build_forwarder` comes to. -/
theorem built_buildForwarder {e : Environ} {registered after : Secrets.Registered}
    {r : Except Exc ForwarderSettings} (h : buildForwarder e registered = (r, after)) :
    (∀ forwarder, r = .ok forwarder → Built forwarder after) ∧
      ∀ exc, r = .error exc → Refused exc after := by
  unfold buildForwarder at h
  cases hread : (ForwarderSettings.fromEnv e).outcome registered with
  | mk outcome after' =>
      rw [hread] at h
      cases h
      cases outcome with
      | ok settings =>
          refine ⟨fun forwarder hf => ?_, fun exc he => (by cases he)⟩
          cases hf
          exact ⟨e, registered, after', hread, List.Subset.refl _⟩
      | error error =>
          refine ⟨fun forwarder hf => (by cases hf), fun exc he => ?_⟩
          cases he
          exact ⟨e, registered, error, hread, rfl⟩

/-- What `get_forwarder` comes to: the forwarder the process has built, or the settings it has been
    refused for just now. -/
def Got (registered : Secrets.Registered) (history : List Event) :
    Except Exc ForwarderSettings → Prop
  | .ok forwarder => ⟨.buildForwarder, .ok forwarder⟩ ∈ history ∧ Built forwarder registered
  | .error exc => Refused exc registered ∧ ∃ earlier,
      history = earlier ++ [⟨.buildForwarder, .error exc⟩, ⟨.unlockForwarder, ()⟩]

/-- The end of the `with` statement in `get_forwarder`. -/
theorem unlock_safe {r : Except Exc ForwarderSettings} {g : Globals} {w : W} {b : Bool}
    {events : List Event} (h : g.Kept) (hw : Serial E others w₀ w)
    (hrecorded : ∀ forwarder, g.forwarder = some forwarder →
      ⟨.buildForwarder, .ok forwarder⟩ ∈ events)
    (hr : Got g.registered (events ++ [⟨.unlockForwarder, ()⟩]) r) :
    (do ask .unlockForwarder; pure r : Part (Except Exc ForwarderSettings)).Safe (Runs V E)
      (runLock E others w₀).sections
      (fun r P' => Resting E others w₀ P' ∧ Got P'.globals.registered P'.history r)
      ⟨g, w, b, events⟩ := by
  refine safe_seq (safe_ask ⟨h.once, by simp⟩ hw ?_)
  rintro w' b' ⟨⟩ P hw' rfl
  refine ⟨⟨⟨⟨h.built, h.settings⟩, rfl⟩, fun forwarder hf => ?_, hw'⟩, hr⟩
  exact List.mem_append_left _ (hrecorded forwarder hf)

/-- `get_forwarder` with `_forwarder_lock` free. -/
theorem getForwarder_safe {P : Process W} (h : Resting E others w₀ P) :
    getForwarder.Safe (Runs V E) (runLock E others w₀).sections
      (fun r P' => Resting E others w₀ P' ∧ Got P'.globals.registered P'.history r) P := by
  obtain ⟨g, w, b, events⟩ := P
  obtain ⟨hidle, hrecorded, hw⟩ := h
  refine safe_seq (safe_ask ⟨hidle.once, fun _ => hidle.unlocked⟩ hw ?_)
  rintro w₁ b₁ r₁ P hw ⟨-, rfl⟩
  refine safe_seq (safe_ask ⟨hidle.once, by simp⟩ hw ?_)
  rintro w₂ b₂ found P hw ⟨rfl, rfl⟩
  cases hfound : g.forwarder with
  | some forwarder =>
      refine unlock_safe ⟨hidle.built, hidle.settings⟩ hw (fun f hf => ?_) ⟨?_, ?_⟩
      · exact List.mem_append_left _ (List.mem_append_left _ (hrecorded f hf))
      · exact List.mem_append_left _ (List.mem_append_left _
          (List.mem_append_left _ (hrecorded forwarder hfound)))
      · exact hidle.settings forwarder hfound
  | none =>
      have hnone : g.built = [] := by
        rw [hidle.built, hfound]
        rfl
      refine safe_seq (safe_ask ⟨hidle.once, by simp⟩ hw ?_)
      rintro w₃ b₃ r P hw ⟨e, hr, rfl⟩
      cases hread : buildForwarder e g.registered with
      | mk r' after =>
      obtain ⟨hok, herror⟩ := built_buildForwarder hread
      obtain rfl : r = r' := hr.trans (congrArg Prod.fst hread)
      dsimp only [Process.noted]
      cases r with
      | error exc =>
          refine unlock_safe ⟨hidle.built, fun f hf => ?_⟩ hw (fun f hf => ?_)
            ⟨herror exc rfl, _, List.append_assoc _ _ _⟩
          · exact absurd (hfound.symm.trans hf) (by simp)
          · exact absurd (hfound.symm.trans hf) (by simp)
      | ok forwarder =>
          refine safe_seq (safe_ask ⟨hidle.once, by simp⟩ hw ?_)
          rintro w₄ b₄ r₄ P hw rfl
          refine unlock_safe ⟨congrArg (forwarder :: ·) hnone, fun f hf => ?_⟩ hw (fun f hf => ?_)
            ⟨?_, hok forwarder rfl⟩
          · cases hf
            exact hok forwarder rfl
          · cases hf
            simp [Process.noted]
          · simp [Process.noted]

/-- The calls of a forwarder among the calls of a section. -/
def forwarded (call : (op : Op) × Reply op) : Event := ⟨.forward call.1, call.2⟩

/-- The forwarder in a section: the globals stay, its run is one nobody else took part in, and its
    calls are what the history goes on with. -/
theorem forward_safe {α : Type} (p : Program Op Reply α) {g : Globals} {w : W} {b : Bool}
    {events : List Event} (h : g.built.length ≤ 1) :
    (p.via Call.forward (fun _ r => r)).Safe (Runs V E) (runLock E others w₀).sections
      (fun a P' => P'.globals = g ∧ Alone E others (w, p) (P'.outside, .pure a) ∧
        ∃ calls, p.Transcript calls a ∧ P'.history = events ++ calls.map forwarded)
      ⟨g, w, b, events⟩ := by
  suffices hrun : ∀ (w₁ : W) (b₁ : Bool) (events : List Event) (q : Program Op Reply α),
      Alone E others (w, p) (w₁, q) →
      (q.via Call.forward (fun _ r => r)).Safe (Runs V E) (runLock E others w₀).sections
        (fun a P' => P'.globals = g ∧ Alone E others (w, p) (P'.outside, .pure a) ∧
          ∃ calls, q.Transcript calls a ∧ P'.history = events ++ calls.map forwarded)
        ⟨g, w₁, b₁, events⟩ from hrun w b events p .refl
  intro w₁ b₁ events q hq
  induction q generalizing w₁ b₁ events with
  | pure a => exact ⟨rfl, hq, [], .pure a, by simp⟩
  | call op next ih =>
      rintro ⟨g', w₂, b₂, events'⟩ ⟨hmoved, rfl, rfl⟩
      refine ⟨⟨h, by simp⟩, ?_⟩
      rintro r P ⟨w₃, hE, rfl⟩
      refine (ih r w₃ b₂ _ (hq.tail (.call ⟨w₂, hmoved, hE⟩))).mono ?_
      rintro a P' ⟨hglobals, halone, calls, hcalls, hhistory⟩
      refine ⟨hglobals, halone, ⟨op, r⟩ :: calls, .call hcalls, ?_⟩
      rw [hhistory]
      simp [Process.noted, forwarded]

/-! ## Answers -/

/-- The answers of a section, and the part of the history they are about: the calls of a run from
    start to end, of the forwarder the process had built, or the refusal of the settings. The values
    the answer is scrubbed of have been read just afterwards. -/
inductive Reported (history : List Event) :
    Option ForwarderSettings → Secrets.Registered → Response → Prop
  | ran {forwarder : ForwarderSettings} {registered : Secrets.Registered}
      {outcome : Except Exc SyncResult} {s : RunState} {calls : List ((op : Op) × Reply op)}
      {earlier later : List Event} (hstored : ⟨.buildForwarder, .ok forwarder⟩ ∈ earlier)
      (hbuilt : Built forwarder registered)
      (hrun : (forwarderRun forwarder).Transcript calls (outcome, s))
      (hhistory : history =
        earlier ++ calls.map forwarded ++ ⟨.secrets, registered⟩ :: later) :
      Reported history (some forwarder) registered (response registered outcome)
  | unbuilt {exc : Exc} {registered : Secrets.Registered} {earlier later : List Event}
      (hrefused : Refused exc registered)
      (hhistory : history = earlier ++ ⟨.buildForwarder, .error exc⟩ ::
        ⟨.unlockForwarder, ()⟩ :: ⟨.secrets, registered⟩ :: later) :
      Reported history none registered (failureResponse registered exc)

/-- The verifier may vouch for the caller of a request with the header. -/
def Allowed (V : Verifier) (caller : Caller) (authorization : Option String) : Prop :=
  caller.allowedInvoker ≠ "" → caller.expectedAudience ≠ "" ∧
    ∃ token claims, authorization = some ("Bearer " ++ token) ∧
      V token caller.expectedAudience (.ok claims) ∧ accepts caller.allowedInvoker claims = true

/-- What a request of a process with this history may be answered. -/
inductive Answered (V : Verifier) (caller : Caller) (history : List Event) : Exchange → Prop
  | forbidden {authorization : Option String} (h : caller.allowedInvoker ≠ "") :
      Answered V caller history (authorization, forbidden)
  | busy {authorization : Option String} (h : Allowed V caller authorization) :
      Answered V caller history (authorization, busy)
  | reported {authorization : Option String} {response : Response}
      {ran : Option ForwarderSettings} {registered : Secrets.Registered}
      (h : Allowed V caller authorization) (hreported : Reported history ran registered response) :
      Answered V caller history (authorization, response)

theorem Reported.append {history : List Event} {ran : Option ForwarderSettings}
    {registered : Secrets.Registered} {answer : Response}
    (h : Reported history ran registered answer) (more : List Event) :
    Reported (history ++ more) ran registered answer := by
  cases h with
  | ran hstored hbuilt hrun hhistory =>
      exact .ran hstored hbuilt hrun (by rw [hhistory, List.append_assoc]; rfl)
  | unbuilt hrefused hhistory =>
      exact .unbuilt hrefused (by rw [hhistory, List.append_assoc]; rfl)

theorem Answered.append {history : List Event} {exchange : Exchange}
    (h : Answered V caller history exchange) (more : List Event) :
    Answered V caller (history ++ more) exchange := by
  cases h with
  | forbidden h => exact .forbidden h
  | busy h => exact .busy h
  | reported h hreported => exact .reported h (hreported.append more)

/-- The history only grows. -/
theorem Runs.history {P P' : Process W} {call : Call} {r : call.Value} (h : Runs V E P call r P') :
    ∃ more, P'.history = P.history ++ more := by
  cases call with
  | googleTransport => rcases h with ⟨-, rfl⟩ | ⟨-, -, rfl⟩ <;> exact ⟨[], by simp⟩
  | verifyToken token audience =>
      obtain ⟨-, rfl⟩ := h
      exact ⟨[], by simp⟩
  | lockForwarder =>
      obtain ⟨-, rfl⟩ := h
      exact ⟨_, rfl⟩
  | unlockForwarder =>
      obtain rfl := h
      exact ⟨_, rfl⟩
  | readForwarder =>
      obtain ⟨-, rfl⟩ := h
      exact ⟨_, rfl⟩
  | buildForwarder =>
      obtain ⟨e, -, rfl⟩ := h
      exact ⟨_, rfl⟩
  | storeForwarder forwarder =>
      obtain rfl := h
      exact ⟨_, rfl⟩
  | secrets =>
      obtain ⟨-, rfl⟩ := h
      exact ⟨_, rfl⟩
  | forward op =>
      obtain ⟨w', -, rfl⟩ := h
      exact ⟨_, rfl⟩

theorem answered_lasting : Lasting (Runs V E) (Moves others)
    (fun exchange P => Answered V caller P.history exchange) where
  call := by
    intro exchange P call r P' hruns h
    obtain ⟨more, hmore⟩ := hruns.history
    exact hmore ▸ h.append more
  others := by
    rintro exchange P P' ⟨w', -, rfl⟩ h
    exact h

/-- The end of a section. -/
theorem respond_safe {outcome : Except Exc SyncResult} {ran : Option ForwarderSettings}
    {P : Process W} (h : Resting E others w₀ P)
    (hreported : Reported (P.history ++ [⟨.secrets, P.globals.registered⟩]) ran P.globals.registered
      (response P.globals.registered outcome)) :
    (respond outcome).Safe (Runs V E) (runLock E others w₀).sections
      (fun response P' => Resting E others w₀ P' ∧
        ∃ ran registered, Reported P'.history ran registered response) P := by
  obtain ⟨g, w, b, events⟩ := P
  obtain ⟨hidle, hrecorded, hw⟩ := h
  refine safe_seq (safe_ask ⟨hidle.once, by simp⟩ hw ?_)
  rintro w' b' registered P hw ⟨rfl, rfl⟩
  exact ⟨⟨hidle, fun f hf => List.mem_append_left _ (hrecorded f hf), hw⟩, _, _, hreported⟩

/-- The section of a request. -/
theorem section_safe {P : Process W} (h : Resting E others w₀ P) :
    (runForwarder >>= respond).Safe (Runs V E) (runLock E others w₀).sections
      (fun response P' => Resting E others w₀ P' ∧
        ∃ ran registered, Reported P'.history ran registered response) P := by
  refine safe_seq (safe_seq ((getForwarder_safe h).mono ?_))
  rintro r P₁ ⟨hresting, hgot⟩
  cases r with
  | error exc =>
      obtain ⟨hrefused, earlier, hearlier⟩ := hgot
      have hhistory : P₁.history ++ [⟨.secrets, P₁.globals.registered⟩] =
          earlier ++ ⟨.buildForwarder, .error exc⟩ :: ⟨.unlockForwarder, ()⟩ ::
            ⟨.secrets, P₁.globals.registered⟩ :: [] := by
        rw [hearlier, List.append_assoc]
        rfl
      exact respond_safe hresting (.unbuilt hrefused hhistory)
  | ok forwarder =>
      obtain ⟨g, w, b, events⟩ := P₁
      obtain ⟨hidle, hrecorded, hw⟩ := hresting
      refine safe_seq ((forward_safe _ hidle.once).mono ?_)
      rintro ⟨outcome, s⟩ ⟨g', w', b', events'⟩ ⟨rfl, hrun, calls, hcalls, rfl⟩
      have hserved : Served E others w w' := Or.inr ⟨forwarder, _, outcome, s, hgot.2, hrun⟩
      have hresting : Resting E others w₀ ⟨g', w', b', events ++ calls.map forwarded⟩ :=
        ⟨hidle, fun f hf => List.mem_append_left _ (hrecorded f hf), hw.tail hserved⟩
      exact respond_safe hresting (.ran hgot.1 hgot.2 hcalls rfl)

/-- A text that starts with a mark is the mark and what stands behind it. -/
theorem eq_append_of_isPrefixOf {mark text : String} (h : mark.toList.isPrefixOf text.toList = true) :
    text = mark ++ String.ofList (text.toList.drop mark.toList.length) := by
  obtain ⟨rest, hrest⟩ := List.isPrefixOf_iff_prefix.mp h
  apply String.toList_inj.mp
  rw [String.toList_append, String.toList_ofList, ← hrest, List.drop_left]

/-- Whom `verify_invoker` lets pass. -/
theorem verifyInvoker_safe (caller : Caller) (authorization : Option String) (P : Process W) :
    (verifyInvoker caller authorization).Safe (Runs V E) (runLock E others w₀).apart
      (fun allowed _ => if allowed then Allowed V caller authorization
        else caller.allowedInvoker ≠ "") P := by
  unfold verifyInvoker
  split
  · rename_i hinvoker
    exact fun hne => absurd hinvoker hne
  rename_i hinvoker
  split
  · exact hinvoker
  rename_i haudience
  split
  · exact hinvoker
  split
  · rename_i header hbearer
    refine fun P₁ _ => ⟨rfl, fun transport P₂ _ => ?_⟩
    cases transport with
    | error text => exact hinvoker
    | ok _ =>
        refine fun P₃ _ => ⟨rfl, ?_⟩
        rintro r P₄ ⟨hV, -⟩
        cases r with
        | error text => exact hinvoker
        | ok claims =>
            show if accepts caller.allowedInvoker claims then _ else _
            split
            · rename_i haccepts
              have hheader := congrArg some (eq_append_of_isPrefixOf hbearer)
              exact fun _ => ⟨haudience, _, claims, hheader, hV, haccepts⟩
            · exact hinvoker
  · exact hinvoker

/-- **What a request does with the lock, and what it is answered.** -/
theorem request_guarded (caller : Caller) (authorization : Option String) (P : Process W) :
    (request caller authorization).Guarded (Runs V E) (runLock E others w₀)
      (fun exchange P' => Answered V caller P'.history exchange) false P := by
  simp only [request, sync, bind_assoc]
  refine (verifyInvoker_safe caller authorization P).guarded_outside (fun allowed h P₀ => ?_) P
  cases allowed with
  | false => exact .forbidden h
  | true =>
      refine ⟨fun P₁ hresting => ?_, fun P₁ => .busy h⟩
      show (((runForwarder >>= respond).unlocked.bind
        (fun response => .call .release (fun _ => .pure response))).bind
          (fun response => .pure (authorization, response))).Guarded _ _ _ _ _
      rw [Program.bind_assoc']
      refine (section_safe hresting).guarded (fun response P₂ h₂ P₃ hmove => ?_)
      obtain ⟨hresting₂, ran, registered, hreported⟩ := h₂
      exact ⟨hresting₂.stable hmove, .reported h (hmove.2.2 ▸ hreported)⟩

/-- A request nobody vouches for. -/
theorem request_apart {authorization : Option String} (h : ¬Allowed V caller authorization)
    (P : Process W) :
    (request caller authorization).Apart (Runs V E) (runLock E others w₀).outside
      (fun exchange => exchange.2 = forbidden) := by
  simp only [request, sync, bind_assoc]
  refine (verifyInvoker_safe caller authorization P).apart (fun allowed hallowed => ?_)
  cases allowed with
  | false => rfl
  | true => exact absurd hallowed h

/-- The pools of a process are sound. -/
theorem reachable_sound {headers : Option String → Prop}
    {c : Pool Call Call.Value (Process W) Exchange} (h : Reachable V E others caller headers w₀ c) :
    c.Sound (Runs V E) (runLock E others w₀)
      (fun exchange P => Answered V caller P.history exchange) := by
  refine Pool.sound runLock_lawful answered_lasting ?_ ?_ h
  · rintro p ⟨authorization, -, rfl⟩ P
    exact request_guarded caller authorization P
  · exact ⟨⟨⟨rfl, fun f hf => absurd hf (by simp [Process.initial])⟩, rfl⟩,
      fun f hf => absurd hf (by simp [Process.initial]), .refl⟩

/-! ## A process on its own -/

/-- The settings of an account. -/
def account : Environ where
  get := fun
    | "ICLOUD_USER" => some "me@icloud.com"
    | "ICLOUD_PASSWORD" => some "abcd-efgh"
    | "GMAIL_OAUTH_JSON" => some "document"
    | _ => none
  accessSecretVersion := fun _ => ""
  int := fun _ => none
  lower := lower
  loads := fun _ => .ok (.obj [("client_id", .str "id"), ("client_secret", .str "s-123456"),
    ("refresh_token", .str "t-123456")])

/-- A mail server that turns the login down. -/
def refusing : (op : Op) → Reply op
  | .clock => .ok 0
  | .openClient => .ok ()
  | .login => .error (.mailboxError "IMAP login failed for abcd-efgh")
  | _ => .error (.other "OSError" "no route to host")

/-- The world of this server. -/
abbrev refuses : Env Op Reply Unit := fun _ op r _ => r = refusing op

/-- The calls of a request in a process with these settings and this server. -/
def played (P : Process Unit) : (call : Call) → Option (call.Value × Process Unit)
  | .googleTransport => some (.ok (), { P with transport := true })
  | .verifyToken _ _ => none
  | .lockForwarder =>
      if P.globals.forwarderLocked then none
      else some ((), { P.noted .lockForwarder () with
        globals := { P.globals with forwarderLocked := true } })
  | .unlockForwarder =>
      some ((), { P.noted .unlockForwarder () with
        globals := { P.globals with forwarderLocked := false } })
  | .readForwarder => some (P.globals.forwarder, P.noted .readForwarder P.globals.forwarder)
  | .buildForwarder =>
      let read := buildForwarder account P.globals.registered
      some (read.1, { P.noted .buildForwarder read.1 with
        globals := { P.globals with registered := read.2 } })
  | .storeForwarder forwarder =>
      some ((), { P.noted (.storeForwarder forwarder) () with
        globals := { P.globals with
          forwarder := some forwarder, built := forwarder :: P.globals.built } })
  | .secrets => some (P.globals.registered, P.noted .secrets P.globals.registered)
  | .forward op => some (refusing op, P.noted (.forward op) (refusing op))

theorem played_runs (P : Process Unit) (call : Call) (r : call.Value) (P' : Process Unit)
    (h : played P call = some (r, P')) :
    Runs (fun _ _ _ => False) refuses P call r P' := by
  cases call with
  | googleTransport =>
      cases h
      exact Or.inl ⟨rfl, rfl⟩
  | verifyToken token audience => cases h
  | lockForwarder =>
      simp only [played] at h
      split at h
      · cases h
      · next hfree =>
        cases h
        exact ⟨Bool.eq_false_iff.mpr hfree, rfl⟩
  | buildForwarder =>
      cases h
      exact ⟨account, rfl, rfl⟩
  | unlockForwarder => cases h; rfl
  | readForwarder => cases h; exact ⟨rfl, rfl⟩
  | storeForwarder forwarder => cases h; rfl
  | secrets => cases h; exact ⟨rfl, rfl⟩
  | forward op => cases h; exact ⟨(), rfl, rfl⟩

/-- The pools of this process, where the verifier rejects every token. -/
abbrev Played (caller : Caller) : Pool Call Call.Value (Process Unit) Exchange → Prop :=
  Reachable (fun _ _ _ => False) refuses (fun _ _ => False) caller
    (fun _ => True) ()

/-- A request gets to its end while the others rest. -/
theorem Played.finish {caller : Caller} {P P' : Process Unit} {l l' b : Bool}
    {after : List (Thread Call Call.Value Exchange)} {p : Locked Call Call.Value Exchange}
    (exchange : Exchange) (hc : Played caller ⟨P, l, ⟨p, b⟩ :: after⟩)
    (hsolo : p.solo played P l = some (exchange, P', l')) :
    ∃ b', Played caller ⟨P', l', ⟨.pure exchange, b'⟩ :: after⟩ := by
  let before : List (Thread Call Call.Value Exchange) := []
  have hc : Played caller ⟨P, l, before ++ ⟨p, b⟩ :: after⟩ := hc
  exact hc.solo played_runs hsolo

theorem played_start (caller : Caller) :
    Played caller ⟨.initial (), false, [⟨request caller none, false⟩]⟩ :=
  .single (.start _ ⟨none, trivial, rfl⟩)

/-- The answer to a run at which the login fails. -/
theorem played_failed : ∃ c t exchange, Played ⟨"", ""⟩ c ∧ t ∈ c.threads ∧
    t.program = .pure exchange ∧ exchange.2.status = 500 := by
  have hsolo : (((request ⟨"", ""⟩ none).solo played (.initial ()) false).map
      (fun done => done.1.2.status)) = some 500 := by decide +kernel
  obtain ⟨⟨exchange, P', l'⟩, hdone, hstatus⟩ := Option.map_eq_some_iff.mp hsolo
  obtain ⟨b', hc⟩ := Played.finish exchange (played_start ⟨"", ""⟩) hdone
  exact ⟨_, _, exchange, hc, List.mem_cons_self, rfl, hstatus⟩

/-- The answer to a second request while the first is in its section. -/
theorem played_busy : ∃ c, Played ⟨"", ""⟩ c ∧ c.held = true ∧
    ∃ t ∈ c.threads, t.program = .pure (none, busy) := by
  have hstarted := (played_start ⟨"", ""⟩).tail (.start _ ⟨none, trivial, rfl⟩)
  have hacquired : Played ⟨"", ""⟩ _ := hstarted.tail (@Pool.Step.acquire _ _ _ _ _ _ _ _ _ [_] _ _)
  obtain ⟨b', hc⟩ := Played.finish (none, busy) hacquired rfl
  exact ⟨_, hc, rfl, _, List.mem_cons_self, rfl⟩

/-! ## Main results -/

/-- **One request at a time.** However the requests interleave: no two are in their sections, only a
    request in its section makes a call of the forwarder, it finds `_forwarder_lock` free, and the
    process builds one forwarder at most. While the lock is free, the world has only been through
    moves of the others and whole runs, one after the other. -/
theorem one_at_a_time {headers : Option String → Prop} {w : W}
    {c : Pool Call Call.Value (Process W) Exchange} (h : Reachable V E others caller headers w c) :
    (c.held = true ↔ ∃ t ∈ c.threads, t.holds = true) ∧
    (∀ before t between u after, c.threads = before ++ t :: between ++ u :: after →
      ¬(t.holds = true ∧ u.holds = true)) ∧
    (∀ t ∈ c.threads, ∀ op next, t.program = .call (.other (.forward op)) next →
      t.holds = true) ∧
    (∀ t ∈ c.threads, ∀ next, t.program = .call (.other .lockForwarder) next →
      c.state.globals.forwarderLocked = false) ∧
    c.state.globals.built.length ≤ 1 ∧
    (c.held = false → Serial E others w c.state.outside) := by
  have hsound := reachable_sound h
  refine ⟨hsound.held_iff, fun before t between u after hts => hsound.exclusive hts, ?_, ?_, ?_,
    fun hfree => (hsound.free hfree).serial⟩
  · intro t ht op next hnext
    exact (hsound.holder runLock_lawful ht hnext (by simp [runLock, Call.isOutside])).1
  · intro t ht next hnext
    exact (hsound.holder runLock_lawful ht hnext (by simp [runLock, Call.isOutside])).2.unlocked rfl
  · exact hsound.always runLock_lawful (fun _ hresting => hresting.idle.once)
      (fun _ _ hopen => hopen.once)

/-- A second request finds the lock taken. -/
theorem one_at_a_time_busy : ∃ c, Played ⟨"", ""⟩ c ∧ c.held = true ∧
    (∃ t ∈ c.threads, t.program = .pure (none, busy)) ∧ ∃ t ∈ c.threads, t.holds = true := by
  obtain ⟨c, hc, hheld, hbusy⟩ := played_busy
  exact ⟨c, hc, hheld, hbusy, (one_at_a_time hc).1.mp hheld⟩

/-- **Every answer is true.** A request is answered 403 or 409, or about a forwarder run from start to
    end whose calls follow each other in the history of the process, or about settings that were
    refused; and all but 403 only if its caller can be vouched for. -/
theorem answers_true {headers : Option String → Prop} {w : W}
    {c : Pool Call Call.Value (Process W) Exchange} (h : Reachable V E others caller headers w c)
    {t : Thread Call Call.Value Exchange} {exchange : Exchange} (ht : t ∈ c.threads)
    (hdone : t.program = .pure exchange) : Answered V caller c.state.history exchange :=
  (reachable_sound h).done ht hdone

/-- The answer to a run at which the login fails is about a run, or about refused settings. -/
theorem answers_true_failed : ∃ c t exchange, Played ⟨"", ""⟩ c ∧ t ∈ c.threads ∧
    t.program = .pure exchange ∧ exchange.2.status = 500 ∧
    Answered (fun _ _ _ => False) ⟨"", ""⟩ c.state.history exchange := by
  obtain ⟨c, t, exchange, hc, ht, hdone, hstatus⟩ := played_failed
  exact ⟨c, t, exchange, hc, ht, hdone, hstatus, answers_true hc ht hdone⟩

/-- **Fail closed.** Where no caller can be vouched for, the lock stays free, no call of a section is
    made, the globals of the sections are as they were, the world is moved by the others only, and
    all requests are answered 403. -/
theorem fail_closed {headers : Option String → Prop} {w : W}
    {c : Pool Call Call.Value (Process W) Exchange} (h : Reachable V E others caller headers w c)
    (hclosed : ∀ authorization, headers authorization → ¬Allowed V caller authorization) :
    c.held = false ∧ c.state.history = [] ∧ c.state.globals = {} ∧
      Relation.ReflTransGen others w c.state.outside ∧
      ∀ t ∈ c.threads, ∀ exchange, t.program = .pure exchange → exchange.2 = forbidden := by
  have hstart : ∀ p, (∃ authorization, headers authorization ∧ p = request caller authorization) →
      p.Apart (Runs V E) (runLock E others w).outside (fun exchange => exchange.2 = forbidden) := by
    rintro p ⟨authorization, hheader, rfl⟩
    exact request_apart (hclosed authorization hheader) (.initial w)
  obtain ⟨hfree, ⟨hmoved, hglobals, hhistory⟩, hthreads⟩ := Pool.apart runLock_lawful hstart h
  refine ⟨hfree, hhistory, hglobals, hmoved, fun t ht exchange hdone => ?_⟩
  have hresult := hthreads t ht
  rw [hdone] at hresult
  exact hresult

/-- An invoker, and no audience. -/
theorem fail_closed_audience : ∃ c, Played ⟨"invoker", ""⟩ c ∧
    (∃ t ∈ c.threads, t.program = .pure (none, forbidden)) ∧ c.state.globals = {} := by
  obtain ⟨b', hc⟩ := Played.finish (none, forbidden) (played_start ⟨"invoker", ""⟩) rfl
  have hclosed : ∀ authorization, True →
      ¬Allowed (fun _ _ _ => False) ⟨"invoker", ""⟩ authorization :=
    fun _ _ hallowed => (hallowed (by decide)).1 rfl
  exact ⟨_, hc, ⟨_, List.mem_cons_self, rfl⟩, (fail_closed hc hclosed).2.2.1⟩

end Endpoint

end MailTransporter
