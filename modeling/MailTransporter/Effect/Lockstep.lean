import MailTransporter.Effect.Discipline

set_option autoImplicit false

/-! # Two programs in lockstep

A `TwinEnv` answers two programs at once: the call both make is answered by `r` here and by `r'`
there. `Program.Twins` says that the two make the same calls whatever the answers are, and end
together with `Q`; `Routine.Twins` says it of two routines that start on the same object and leave
the same object, having returned values that `R` relates or raised the same exception.

A routine is `Blind` if it cannot tell the two answers apart in the end: run twice in lockstep it
returns the same. Blindness is closed under everything a routine is made of, so only the calls that
really get different answers need a proof. -/

namespace Effect

variable {Op : Type} {Ret : Op → Type} {V : Op → Type} {ε σ τ W α β γ δ : Type}

/-- Who answers two programs at once. -/
abbrev TwinEnv (Op : Type) (Ret : Op → Type) (W : Type) :=
  W → (op : Op) → Ret op → Ret op → W → Prop

/-- What the first of the two sees. -/
def TwinEnv.first (E : TwinEnv Op Ret W) : Env Op Ret W := fun w op r w' => ∃ r', E w op r r' w'

namespace Program

/-- The two programs make the same calls, and end together with `Q`. -/
def Twins (E : TwinEnv Op Ret W) (Q : α → β → W → Prop) :
    Program Op Ret α → Program Op Ret β → W → Prop
  | .pure a, p', w => ∃ b, p' = .pure b ∧ Q a b w
  | .call op next, p', w => ∃ next', p' = .call op next' ∧
      ∀ r r' w', E w op r r' w' → (next r).Twins E Q (next' r') w'

variable {E : TwinEnv Op Ret W}

theorem twins_pure {Q : α → β → W → Prop} {a : α} {b : β} {w : W} (h : Q a b w) :
    (Program.pure a : Program Op Ret α).Twins E Q (.pure b) w := ⟨b, rfl, h⟩

theorem Twins.mono {Q Q' : α → β → W → Prop} {p : Program Op Ret α} {p' : Program Op Ret β} {w : W}
    (h : p.Twins E Q p' w) (hQ : ∀ a b w', Q a b w' → Q' a b w') : p.Twins E Q' p' w := by
  induction p generalizing p' w with
  | pure a =>
      obtain ⟨b, rfl, hb⟩ := h
      exact twins_pure (hQ a b w hb)
  | call op next ih =>
      obtain ⟨next', rfl, hn⟩ := h
      exact ⟨next', rfl, fun r r' w' hE => ih r (hn r r' w' hE)⟩

/-- Programs in lockstep, followed by programs in lockstep. -/
theorem Twins.bind {R : α → β → W → Prop} {Q : γ → δ → W → Prop} {p : Program Op Ret α}
    {p' : Program Op Ret β} {f : α → Program Op Ret γ} {f' : β → Program Op Ret δ} {w : W}
    (h : p.Twins E R p' w) (hf : ∀ a b w', R a b w' → (f a).Twins E Q (f' b) w') :
    (p.bind f).Twins E Q (p'.bind f') w := by
  induction p generalizing p' w with
  | pure a =>
      obtain ⟨b, rfl, hb⟩ := h
      exact hf a b w hb
  | call op next ih =>
      obtain ⟨next', rfl, hn⟩ := h
      exact ⟨_, rfl, fun r r' w' hE => ih r (hn r r' w' hE)⟩

/-- A program whose calls get the same answer twice does the same twice. -/
theorem twins_self {S : Op → Prop} (hS : ∀ {w op r r' w'}, S op → E w op r r' w' → r = r')
    {p : Program Op Ret α} (hp : p.Uses S) (w : W) : p.Twins E (fun a b _ => a = b) p w := by
  induction p generalizing w with
  | pure a => exact twins_pure rfl
  | call op next ih =>
      refine ⟨next, rfl, fun r r' w' hE => ?_⟩
      rw [hS hp.1 hE]
      exact ih r' (hp.2 r') w'

/-- What is known of the first program alone may be added. -/
theorem Twins.also {Q : α → β → W → Prop} {R : α → W → Prop} {p : Program Op Ret α}
    {p' : Program Op Ret β} {w : W} (h : p.Twins E Q p' w) (h' : p.Safe E.first .alone R w) :
    p.Twins E (fun a b w' => Q a b w' ∧ R a w') p' w := by
  induction p generalizing p' w with
  | pure a =>
      obtain ⟨b, rfl, hb⟩ := h
      exact twins_pure ⟨hb, h'⟩
  | call op next ih =>
      obtain ⟨next', rfl, hn⟩ := h
      refine ⟨next', rfl, fun r r' w' hE => ih r (hn r r' w' hE) ?_⟩
      exact (h' w rfl).2 r w' ⟨r', hE⟩

/-- **Two handlers that answer calls of `S` as `E` does run twins in lockstep.** `rel` says how the
    states of the handlers and of `E` belong together. -/
theorem Twins.exec {S : Op → Prop} {X X' : Type} {h : X → (op : Op) → Ret op × X}
    {h' : X' → (op : Op) → Ret op × X'} {rel : X → X' → W → Prop}
    (hrel : ∀ x x' w op, S op → rel x x' w → ∃ w', E w op (h x op).1 (h' x' op).1 w' ∧
      rel (h x op).2 (h' x' op).2 w')
    {Q : α → β → W → Prop} {p : Program Op Ret α} {p' : Program Op Ret β} {x : X} {x' : X'} {w : W}
    (hp : p.Twins E Q p' w) (hS : p.Uses S) (hx : rel x x' w) :
    ∃ w', rel (p.exec h x).2 (p'.exec h' x').2 w' ∧ Q (p.exec h x).1 (p'.exec h' x').1 w' := by
  induction p generalizing p' x x' w with
  | pure a =>
      obtain ⟨b, rfl, hb⟩ := hp
      exact ⟨w, hx, hb⟩
  | call op next ih =>
      obtain ⟨next', rfl, hn⟩ := hp
      obtain ⟨w₁, hE, hx₁⟩ := hrel x x' w op hS.1 hx
      obtain ⟨w₂, hx₂, hQ⟩ := ih _ (hn _ _ w₁ hE) (hS.2 _) hx₁
      exact ⟨w₂, hx₂, hQ⟩

end Program

namespace Routine

variable {E : TwinEnv Op (Answer V ε) W} {s : σ} {w : W}

/-- Both returned, with values that `R` relates, or both raised the same exception. -/
def Both (R : α → β → W → Prop) : Except ε α → Except ε β → W → Prop
  | .ok a, .ok b, w => R a b w
  | .error e, .error e', _ => e = e'
  | _, _, _ => False

theorem Both.cases {R : α → β → W → Prop} {o : Except ε α} {o' : Except ε β} (h : Both R o o' w) :
    (∃ e, o = .error e ∧ o' = .error e) ∨ ∃ a b, o = .ok a ∧ o' = .ok b ∧ R a b w := by
  cases o with
  | ok a =>
      cases o' with
      | ok b => exact Or.inr ⟨a, b, rfl, rfl, h⟩
      | error e => exact h.elim
  | error e =>
      cases o' with
      | ok b => exact h.elim
      | error e' => exact Or.inl ⟨e, rfl, congrArg _ (Eq.symm h)⟩

theorem Both.mono {R R' : α → β → W → Prop} {o : Except ε α} {o' : Except ε β}
    (h : Both R o o' w) (hR : ∀ a b, R a b w → R' a b w) : Both R' o o' w := by
  rcases h.cases with ⟨e, rfl, rfl⟩ | ⟨a, b, rfl, rfl, hab⟩
  · rfl
  · exact hR a b hab

/-- In lockstep the two routines return values that `R` relates, or raise the same exception, and
    leave the same object. -/
def Twins (E : TwinEnv Op (Answer V ε) W) (m : Routine Op V ε σ α) (R : α → β → W → Prop)
    (m' : Routine Op V ε σ β) (s : σ) (w : W) : Prop :=
  (m s).Twins E (fun o o' w' => o.2 = o'.2 ∧ Both R o.1 o'.1 w') (m' s) w

theorem twins_pure {R : α → β → W → Prop} {a : α} {b : β} (h : R a b w) :
    (Pure.pure a : Routine Op V ε σ α).Twins E R (Pure.pure b) s w :=
  Program.twins_pure ⟨rfl, h⟩

theorem twins_raise {R : α → β → W → Prop} (e : ε) :
    (raise e : Routine Op V ε σ α).Twins E R (raise e) s w := Program.twins_pure ⟨rfl, rfl⟩

/-- One call, answered twice. -/
theorem twins_call {op : Op} {R : V op → V op → W → Prop}
    (h : ∀ r r' w', E w op r r' w' → Both R r r' w') :
    (call op : Routine Op V ε σ (V op)).Twins E R (call op) s w :=
  ⟨_, rfl, fun r r' w' hE => Program.twins_pure ⟨rfl, h r r' w' hE⟩⟩

theorem Twins.mono {R R' : α → β → W → Prop} {m : Routine Op V ε σ α} {m' : Routine Op V ε σ β}
    (h : m.Twins E R m' s w) (hR : ∀ a b w', R a b w' → R' a b w') : m.Twins E R' m' s w :=
  Program.Twins.mono h (fun _ _ w' ho => ⟨ho.1, ho.2.mono (fun a b => hR a b w')⟩)

/-- Routines in lockstep, followed by routines in lockstep. -/
theorem Twins.bind {R : α → β → W → Prop} {R' : γ → δ → W → Prop} {m : Routine Op V ε σ α}
    {m' : Routine Op V ε σ β} {f : α → Routine Op V ε σ γ} {f' : β → Routine Op V ε σ δ}
    (h : m.Twins E R m' s w) (hf : ∀ a b s' w', R a b w' → (f a).Twins E R' (f' b) s' w') :
    (m >>= f).Twins E R' (m' >>= f') s w := by
  refine Program.Twins.bind h ?_
  rintro ⟨o, s'⟩ ⟨o', s''⟩ w' ⟨rfl, ho⟩
  rcases ho.cases with ⟨e, rfl, rfl⟩ | ⟨a, b, rfl, rfl, hab⟩
  · exact Program.twins_pure ⟨rfl, rfl⟩
  · exact hf a b s' w' hab

theorem Twins.attempt {R : α → β → W → Prop} {m : Routine Op V ε σ α} {m' : Routine Op V ε σ β}
    (h : m.Twins E R m' s w) : m.attempt.Twins E (Both R) m'.attempt s w :=
  Program.Twins.bind h (fun _ _ _ ho => Program.twins_pure ho)

theorem Twins.on {part : τ → σ} {update : σ → τ → τ} {R : α → β → W → Prop}
    {m : Routine Op V ε σ α} {m' : Routine Op V ε σ β} {t : τ} (h : m.Twins E R m' (part t) w) :
    (m.on part update).Twins E R (m'.on part update) t w := by
  refine Program.Twins.bind h ?_
  rintro ⟨o, s'⟩ ⟨o', s''⟩ w' ⟨rfl, ho⟩
  exact Program.twins_pure ⟨rfl, ho⟩

/-- What the first routine alone establishes may be added. -/
theorem Twins.also {R : α → β → W → Prop} {Q : α → W → Prop} {m : Routine Op V ε σ α}
    {m' : Routine Op V ε σ β} (h : m.Twins E R m' s w)
    (h' : m.Safe E.first .alone (fun o _ w' => ∀ a, o = .ok a → Q a w') s w) :
    m.Twins E (fun a b w' => R a b w' ∧ Q a w') m' s w := by
  refine (Program.Twins.also h h').mono ?_
  rintro ⟨o, s'⟩ ⟨o', s''⟩ w' ⟨⟨hs, ho⟩, hQ⟩
  refine ⟨hs, ?_⟩
  rcases ho.cases with ⟨e, rfl, rfl⟩ | ⟨a, b, rfl, rfl, hab⟩
  · rfl
  · exact ⟨hab, hQ a rfl⟩

/-! ## Blind routines -/

/-- Run twice in lockstep, the routine returns the same and leaves the same object. -/
def Blind (E : TwinEnv Op (Answer V ε) W) (m : Routine Op V ε σ α) : Prop :=
  ∀ s w, m.Twins E (fun a b _ => a = b) m s w

theorem blind_pure (a : α) : (Pure.pure a : Routine Op V ε σ α).Blind E := fun _ _ => twins_pure rfl

theorem blind_raise (e : ε) : (raise e : Routine Op V ε σ α).Blind E := fun _ _ => twins_raise e

theorem blind_getSelf : (getSelf : Routine Op V ε σ σ).Blind E :=
  fun _ _ => Program.twins_pure ⟨rfl, rfl⟩

theorem blind_modifySelf (f : σ → σ) : (modifySelf f : Routine Op V ε σ Unit).Blind E :=
  fun _ _ => Program.twins_pure ⟨rfl, rfl⟩

theorem blind_settle (o : Except ε α) : (settle o : Routine Op V ε σ α).Blind E := by
  cases o with
  | ok a => exact blind_pure a
  | error e => exact blind_raise e

theorem Blind.bind {m : Routine Op V ε σ α} {f : α → Routine Op V ε σ β} (hm : m.Blind E)
    (hf : ∀ a, (f a).Blind E) : (m >>= f).Blind E := by
  intro s w
  refine (hm s w).bind ?_
  rintro a _ s' w' rfl
  exact hf a s' w'

theorem both_eq {o o' : Except ε α} (h : Both (fun a b (_ : W) => a = b) o o' w) : o = o' := by
  rcases h.cases with ⟨e, rfl, rfl⟩ | ⟨a, b, rfl, rfl, rfl⟩
  · rfl
  · rfl

theorem Blind.attempt {m : Routine Op V ε σ α} (hm : m.Blind E) : m.attempt.Blind E :=
  fun s w => (hm s w).attempt.mono (fun _ _ _ => both_eq)

theorem Blind.on {part : τ → σ} {update : σ → τ → τ} {m : Routine Op V ε σ α} (hm : m.Blind E) :
    (m.on part update).Blind E := fun t w => (hm (part t) w).on

/-- A routine whose calls get the same answer twice. -/
theorem blind_of_uses {S : Op → Prop} (hS : ∀ {w op r r' w'}, S op → E w op r r' w' → r = r')
    {m : Routine Op V ε σ α} (hm : m.Uses S) : m.Blind E := by
  intro s w
  refine (Program.twins_self hS (hm s) w).mono ?_
  rintro ⟨o, s'⟩ _ w' rfl
  refine ⟨rfl, ?_⟩
  cases o <;> rfl

end Routine

end Effect
