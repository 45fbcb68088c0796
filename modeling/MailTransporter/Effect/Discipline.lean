import MailTransporter.Effect.Routine

set_option autoImplicit false

/-! # Rely and guarantee for programs

A `Discipline` says what the others may do between two calls of a program (`rely`) and what every
call of the program must respect at the state it is made in (`guard`). `Program.Safe` is the
weakest precondition of a program under a discipline: whatever the environment answers and whatever
the others do in between, each call respects its guard and the result satisfies the postcondition.

The `safe_*` equations compute it for a `Routine`, clause by clause. `Growth` packages a preorder
that others and own calls all follow, which is what facts that stay true are stated in;
`Program.Safe.of_uses` gives it for a program known only by the calls it may make. -/

namespace Effect

variable {Op : Type} {Ret : Op → Type} {V : Op → Type} {ε ρ σ τ W α β : Type}

/-- What the others may do between two calls, and what a call must respect. -/
structure Discipline (Op W : Type) where
  rely : W → W → Prop
  guard : W → Op → Prop

/-- An environment in which the others move before each call. -/
def Env.under (E : Env Op Ret W) (rely : W → W → Prop) : Env Op Ret W :=
  fun w op r w' => ∃ w₁, rely w w₁ ∧ E w₁ op r w'

/-- The environment, for programs that only make calls of `S`. -/
def Env.only (E : Env Op Ret W) (S : Op → Prop) : Env Op Ret W :=
  fun w op r w' => S op ∧ E w op r w'

variable (E : Env Op Ret W) (D : Discipline Op W)

/-- Every call of the program respects its guard and its result satisfies `Q`, whatever the
    environment answers and the others do. -/
def Program.Safe (Q : α → W → Prop) : Program Op Ret α → W → Prop
  | .pure a, w => Q a w
  | .call op next, w =>
      ∀ w₁, D.rely w w₁ → D.guard w₁ op ∧ ∀ r w₂, E w₁ op r w₂ → (next r).Safe Q w₂

/-- The environment of which nothing is known but the answers a call may get. -/
def Env.answering (A : (op : Op) → Ret op → Prop) : Env Op Ret Unit := fun _ op r _ => A op r

/-- Nothing is asked of the calls. -/
def Discipline.free : Discipline Op Unit := ⟨fun _ _ => True, fun _ _ => True⟩

/-- Nobody else is there, and nothing is asked of the calls. -/
def Discipline.alone : Discipline Op W := ⟨fun w w' => w' = w, fun _ _ => True⟩

/-- Nobody else is there, and `I` holds whenever a call is made. -/
def Discipline.keeping (I : W → Prop) : Discipline Op W := ⟨fun w w' => w' = w, fun w _ => I w⟩

/-- The program makes no call outside `S`. -/
def Program.Uses (S : Op → Prop) : Program Op Ret α → Prop
  | .pure _ => True
  | .call op next => S op ∧ ∀ r, (next r).Uses S

variable {E D}

namespace Program

theorem safe_bind {p : Program Op Ret α} {f : α → Program Op Ret β} {Q : β → W → Prop} {w : W} :
    (p.bind f).Safe E D Q w ↔ p.Safe E D (fun a w' => (f a).Safe E D Q w') w := by
  induction p generalizing w with
  | pure a => rfl
  | call op next ih =>
      simp only [call_bind, Safe, ih]

theorem Safe.mono {p : Program Op Ret α} {Q Q' : α → W → Prop} {w : W} (h : p.Safe E D Q w)
    (hQ : ∀ a w', Q a w' → Q' a w') : p.Safe E D Q' w := by
  induction p generalizing w with
  | pure a => exact hQ a w h
  | call op next ih =>
      intro w₁ h₁
      obtain ⟨hg, hn⟩ := h w₁ h₁
      exact ⟨hg, fun r w₂ hE => ih r (hn r w₂ hE)⟩

/-- The run of a safe program against a handler, whose states are seen through `f`. -/
theorem Safe.exec {V : Type} {h : V → (op : Op) → Ret op × V} (f : V → W)
    (hE : ∀ v op, E (f v) op (h v op).1 (f (h v op).2)) (refl : ∀ w, D.rely w w)
    {p : Program Op Ret α} {Q : α → W → Prop} {v : V} (hp : p.Safe E D Q (f v)) :
    Q (p.exec h v).1 (f (p.exec h v).2) := by
  induction p generalizing v with
  | pure a => exact hp
  | call op next ih =>
      obtain ⟨-, hn⟩ := hp (f v) (refl (f v))
      exact ih _ (hn _ _ (hE v op))

/-- Without guards every program is safe. -/
theorem safe_free {E : Env Op Ret Unit} (p : Program Op Ret α) {Q : α → Unit → Prop}
    (hQ : ∀ a, Q a ()) : p.Safe E .free Q () := by
  induction p with
  | pure a => exact hQ a
  | call op next ih => exact fun _ _ => ⟨trivial, fun r _ _ => ih r⟩

/-- A guard may be weakened. -/
theorem Safe.guard_mono {D' : Discipline Op W} {p : Program Op Ret α} {Q : α → W → Prop} {w : W}
    (h : p.Safe E D Q w) (hrely : ∀ {w w'}, D'.rely w w' → D.rely w w')
    (hguard : ∀ {w op}, D.guard w op → D'.guard w op) : p.Safe E D' Q w := by
  induction p generalizing w with
  | pure a => exact h
  | call op next ih =>
      intro w₁ h₁
      obtain ⟨hg, hn⟩ := h w₁ (hrely h₁)
      exact ⟨hguard hg, fun r w₂ hE => ih r (hn r w₂ hE)⟩

/-- Two postconditions are established together. -/
theorem Safe.and {p : Program Op Ret α} {Q Q' : α → W → Prop} {w : W} (h : p.Safe E D Q w)
    (h' : p.Safe E D Q' w) : p.Safe E D (fun a w' => Q a w' ∧ Q' a w') w := by
  induction p generalizing w with
  | pure a => exact ⟨h, h'⟩
  | call op next ih =>
      intro w₁ h₁
      obtain ⟨hg, hn⟩ := h w₁ h₁
      obtain ⟨-, hn'⟩ := h' w₁ h₁
      exact ⟨hg, fun r w₂ hE => ih r (hn r w₂ hE) (hn' r w₂ hE)⟩

/-- What is known of a program from the answers alone may be added. -/
theorem Safe.also {A : (op : Op) → Ret op → Prop} {p : Program Op Ret α} {Q : α → W → Prop}
    {R : α → Unit → Prop} {w : W} (h : p.Safe E D Q w)
    (hA : ∀ {w op r w'}, E w op r w' → A op r) (h' : p.Safe (Env.answering A) .free R ()) :
    p.Safe E D (fun a w' => Q a w' ∧ R a ()) w := by
  induction p generalizing w with
  | pure a => exact ⟨h, h'⟩
  | call op next ih =>
      intro w₁ h₁
      obtain ⟨hg, hn⟩ := h w₁ h₁
      obtain ⟨-, hn'⟩ := h' () trivial
      exact ⟨hg, fun r w₂ hE => ih r (hn r w₂ hE) (hn' r () (hA hE))⟩

/-- The others may move before a safe program goes on. -/
theorem Safe.rely {p : Program Op Ret α} {Q : α → W → Prop} {w w' : W} (h : p.Safe E D Q w)
    (hw : D.rely w w') (trans : ∀ {a b c}, D.rely a b → D.rely b c → D.rely a c)
    (stable : ∀ a {v v'}, D.rely v v' → Q a v → Q a v') : p.Safe E D Q w' := by
  cases p with
  | pure a => exact stable a hw h
  | call op next => exact fun w₁ h₁ => h w₁ (trans hw h₁)

/-- **Executions of a safe program.** An invariant that the others and the guarded calls keep holds
    at every point of an execution, and what is left of the program is safe there. -/
theorem Safe.steps {p : Program Op Ret α} {Q : α → W → Prop} {w w' : W} {p' : Program Op Ret α}
    {I : W → Prop} (hrely : ∀ {v v'}, D.rely v v' → I v → I v')
    (hstep : ∀ {v op r v'}, D.guard v op → E v op r v' → I v → I v')
    (h : p.Safe E D Q w) (hI : I w) (hs : Steps (E.under D.rely) (w, p) (w', p')) :
    I w' ∧ p'.Safe E D Q w' := by
  generalize hc : (w, p) = c at hs
  generalize hc' : (w', p') = c' at hs
  induction hs generalizing w' p' with
  | refl =>
      cases hc.trans hc'.symm
      exact ⟨hI, h⟩
  | @tail b c hs hl ih =>
      cases hl with
      | @call v v' op next r hE =>
          cases hc'
          obtain ⟨hIv, hv⟩ := ih rfl
          obtain ⟨v₁, hr, hE⟩ := hE
          obtain ⟨hg, hn⟩ := hv v₁ hr
          exact ⟨hstep hg hE (hrely hr hIv), hn r _ hE⟩

/-- What holds whatever the answers are holds in every environment. -/
theorem Safe.anywhere {E : Env Op Ret W} {p : Program Op Ret α} {R : α → Unit → Prop} {w : W}
    (h : p.Safe (Env.answering fun _ _ => True) .free R ()) :
    p.Safe E .alone (fun a _ => R a ()) w := by
  induction p generalizing w with
  | pure a => exact h
  | call op next ih =>
      intro w₁ _
      exact ⟨trivial, fun r w₂ _ => ih r ((h () trivial).2 r () trivial)⟩

/-- Executions in which the others do not move. -/
theorem Steps.under (rely : W → W → Prop) (refl : ∀ w, rely w w) {c c' : W × Program Op Ret α}
    (h : Steps E c c') : Steps (E.under rely) c c' := h.mono (fun {w _ _ _} hE => ⟨w, refl w, hE⟩)

/-- What holds at every call and at the end holds at every point of an execution. -/
theorem Safe.always {I : W → Prop} {p : Program Op Ret α} {Q : α → W → Prop} {w w' : W}
    {p' : Program Op Ret α} (h : p.Safe E (.keeping I) Q w) (hQ : ∀ a w', Q a w' → I w')
    (hs : Steps E (w, p) (w', p')) : I w' ∧ p'.Safe E (.keeping I) Q w' := by
  have hunder := Steps.under (Discipline.keeping I : Discipline Op W).rely (fun _ => rfl) hs
  obtain ⟨-, hp'⟩ := h.steps (I := fun _ => True) (fun _ h => h) (fun _ _ h => h) trivial hunder
  refine ⟨?_, hp'⟩
  cases p' with
  | pure a => exact hQ a w' hp'
  | call op next => exact (hp' w' rfl).1

theorem uses_bind {S : Op → Prop} {p : Program Op Ret α} {f : α → Program Op Ret β}
    (hp : p.Uses S) (hf : ∀ a, (f a).Uses S) : (p.bind f).Uses S := by
  induction p with
  | pure a => exact hf a
  | call op next ih => exact ⟨hp.1, fun r => ih r (hp.2 r)⟩

theorem Uses.mono {S T : Op → Prop} {p : Program Op Ret α} (h : p.Uses S)
    (hT : ∀ op, S op → T op) : p.Uses T := by
  induction p with
  | pure a => trivial
  | call op next ih => exact ⟨hT op h.1, fun r => ih r (h.2 r)⟩

/-- A program that only makes calls of `S` need only be safe where no other call is made. -/
theorem Safe.of_only {S : Op → Prop} {p : Program Op Ret α} {Q : α → W → Prop} {w : W}
    (hu : p.Uses S) (h : p.Safe (E.only S) D Q w) : p.Safe E D Q w := by
  induction p generalizing w with
  | pure a => exact h
  | call op next ih =>
      intro w₁ h₁
      obtain ⟨hg, hn⟩ := h w₁ h₁
      exact ⟨hg, fun r w₂ hE => ih r (hu.2 r) (hn r w₂ ⟨hu.1, hE⟩)⟩

/-- What is known of a program over the states that are seen through `f`, which the calls of `S` show
    as they are. -/
theorem Safe.pull {V : Type} {E' : Env Op Ret V} {S : Op → Prop} (f : V → W)
    (hE : ∀ {v op r v'}, S op → E' v op r v' → E (f v) op r (f v')) {p : Program Op Ret α}
    {Q : α → W → Prop} {v : V} (hu : p.Uses S) (h : p.Safe E .alone Q (f v)) :
    p.Safe E' .alone (fun a v' => Q a (f v')) v := by
  induction p generalizing v with
  | pure a => exact h
  | call op next ih =>
      rintro v₁ rfl
      refine ⟨trivial, fun r v₂ hE' => ih r (hu.2 r) ?_⟩
      exact (h (f v₁) rfl).2 r (f v₂) (hE hu.1 hE')

/-- A handler that calls of `S` leave where it is ends where it began. -/
theorem exec_uses {S : Op → Prop} {h : W → (op : Op) → Ret op × W}
    (hS : ∀ w op, S op → (h w op).2 = w) {p : Program Op Ret α} (hp : p.Uses S) (w : W) :
    (p.exec h w).2 = w := by
  induction p generalizing w with
  | pure a => rfl
  | call op next ih =>
      rw [exec_call, ih _ (hp.2 _), hS w op hp.1]

end Program

/-! ## What only grows -/

/-- A preorder that the others and the guarded calls of `S` follow. -/
structure Growth (E : Env Op Ret W) (D : Discipline Op W) (S : Op → Prop) where
  grow : W → W → Prop
  refl : ∀ w, grow w w
  trans : ∀ {a b c}, grow a b → grow b c → grow a c
  rely : ∀ {w w'}, D.rely w w' → grow w w'
  step : ∀ {w op r w'}, S op → D.guard w op → E w op r w' → grow w w'

/-- The same growth, asked of fewer calls. -/
def Growth.restrict {S T : Op → Prop} (G : Growth E D S) (h : ∀ op, T op → S op) :
    Growth E D T where
  grow := G.grow
  refl := G.refl
  trans := G.trans
  rely := G.rely
  step := fun hop => G.step (h _ hop)

/-- The growth, where no other call is made. -/
def Growth.only {S : Op → Prop} (G : Growth E D S) : Growth (E.only S) D (fun _ => True) where
  grow := G.grow
  refl := G.refl
  trans := G.trans
  rely := G.rely
  step := fun _ hg hE => G.step hE.1 hg hE.2

/-- A program that only makes calls of `S` the guard has nothing against follows the growth. -/
theorem Program.Safe.of_uses {S T : Op → Prop} (G : Growth E D S) {p : Program Op Ret α} {w : W}
    (hu : p.Uses T) (hT : ∀ op, T op → S op)
    (hg : ∀ w' op, G.grow w w' → T op → D.guard w' op) :
    p.Safe E D (fun _ w' => G.grow w w') w := by
  suffices h : ∀ v, G.grow w v → p.Safe E D (fun _ w' => G.grow w w') v from h w (G.refl w)
  induction p with
  | pure a => exact fun v hv => hv
  | call op next ih =>
      intro v hv v₁ hr
      have hv₁ := G.trans hv (G.rely hr)
      have hg₁ := hg v₁ op hv₁ hu.1
      exact ⟨hg₁, fun r v₂ hE => ih r (hu.2 r) v₂ (G.trans hv₁ (G.step (hT op hu.1) hg₁ hE))⟩

/-- Where every call is allowed and follows the growth, every program does. -/
theorem Program.Safe.follows (G : Growth E D (fun _ => True)) (hguard : ∀ w op, D.guard w op)
    (p : Program Op Ret α) (w : W) : p.Safe E D (fun _ w' => G.grow w w') w := by
  have huses : p.Uses (fun _ => True) := by
    induction p with
    | pure a => trivial
    | call op next ih => exact ⟨trivial, ih⟩
  exact .of_uses G huses (fun _ _ => trivial) (fun v op _ _ => hguard v op)

/-! ## Routines -/

namespace Routine

variable {E : Env Op (Answer V ε) W}

/-- `Program.Safe` for a routine started on the object `s`. -/
def Safe (E : Env Op (Answer V ε) W) (D : Discipline Op W) (m : Routine Op V ε σ α)
    (Q : Except ε α → σ → W → Prop) (s : σ) (w : W) : Prop :=
  (m s).Safe E D (fun o w' => Q o.1 o.2 w') w

/-- The routine makes no call outside `S`. -/
def Uses (m : Routine Op V ε σ α) (S : Op → Prop) : Prop := ∀ s, (m s).Uses S

theorem Safe.mono {m : Routine Op V ε σ α} {Q Q' : Except ε α → σ → W → Prop} {s : σ} {w : W}
    (h : m.Safe E D Q s w) (hQ : ∀ o s' w', Q o s' w' → Q' o s' w') : m.Safe E D Q' s w :=
  Program.Safe.mono h (fun o w' => hQ o.1 o.2 w')

/-- The run of a safe routine against a handler, whose states are seen through `f`. -/
theorem Safe.exec {X : Type} {h : X → (op : Op) → Answer V ε op × X} (f : X → W)
    (hE : ∀ x op, E (f x) op (h x op).1 (f (h x op).2)) (refl : ∀ w, D.rely w w)
    {m : Routine Op V ε σ α} {Q : Except ε α → σ → W → Prop} {s : σ} {x : X}
    (hm : m.Safe E D Q s (f x)) :
    Q (m.exec h s x).1.1 (m.exec h s x).1.2 (f (m.exec h s x).2) :=
  Program.Safe.exec f hE refl hm

variable {s : σ} {w : W}

@[simp] theorem safe_pure {a : α} {Q : Except ε α → σ → W → Prop} :
    (Pure.pure a : Routine Op V ε σ α).Safe E D Q s w ↔ Q (.ok a) s w := Iff.rfl

@[simp] theorem safe_raise {e : ε} {Q : Except ε α → σ → W → Prop} :
    (raise e : Routine Op V ε σ α).Safe E D Q s w ↔ Q (.error e) s w := Iff.rfl

@[simp] theorem safe_getSelf {Q : Except ε σ → σ → W → Prop} :
    (getSelf : Routine Op V ε σ σ).Safe E D Q s w ↔ Q (.ok s) s w := Iff.rfl

@[simp] theorem safe_modifySelf {f : σ → σ} {Q : Except ε Unit → σ → W → Prop} :
    (modifySelf f : Routine Op V ε σ Unit).Safe E D Q s w ↔ Q (.ok ()) (f s) w := Iff.rfl

@[simp] theorem safe_call {op : Op} {Q : Except ε (V op) → σ → W → Prop} :
    (call op : Routine Op V ε σ (V op)).Safe E D Q s w ↔
      ∀ w₁, D.rely w w₁ → D.guard w₁ op ∧ ∀ r w₂, E w₁ op r w₂ → Q r s w₂ := Iff.rfl

/-- A call made alone. -/
theorem safe_call_alone {op : Op} {Q : Except ε (V op) → σ → W → Prop} :
    (call op : Routine Op V ε σ (V op)).Safe E .alone Q s w ↔ ∀ r w', E w op r w' → Q r s w' := by
  rw [safe_call]
  simp [Discipline.alone]

/-- A call of which only the answers are known. -/
theorem safe_answer {A : (op : Op) → Answer V ε op → Prop} {op : Op}
    {Q : Except ε (V op) → σ → Unit → Prop} {s : σ} (h : ∀ r, A op r → Q r s ()) :
    (call op : Routine Op V ε σ (V op)).Safe (Env.answering A) .free Q s () :=
  fun _ _ => ⟨trivial, fun r _ hr => h r hr⟩

theorem Safe.guard_mono {D' : Discipline Op W} {m : Routine Op V ε σ α}
    {Q : Except ε α → σ → W → Prop} {s : σ} {w : W} (h : m.Safe E D Q s w)
    (hrely : ∀ {w w'}, D'.rely w w' → D.rely w w')
    (hguard : ∀ {w op}, D.guard w op → D'.guard w op) : m.Safe E D' Q s w :=
  Program.Safe.guard_mono h hrely hguard

theorem Safe.and {m : Routine Op V ε σ α} {Q Q' : Except ε α → σ → W → Prop} {s : σ} {w : W}
    (h : m.Safe E D Q s w) (h' : m.Safe E D Q' s w) :
    m.Safe E D (fun o s' w' => Q o s' w' ∧ Q' o s' w') s w := Program.Safe.and h h'

theorem Safe.also {A : (op : Op) → Answer V ε op → Prop} {m : Routine Op V ε σ α}
    {Q : Except ε α → σ → W → Prop} {R : Except ε α → σ → Unit → Prop} {s : σ} {w : W}
    (h : m.Safe E D Q s w) (hA : ∀ {w op r w'}, E w op r w' → A op r)
    (h' : m.Safe (Env.answering A) .free R s ()) :
    m.Safe E D (fun o s' w' => Q o s' w' ∧ R o s' ()) s w :=
  Program.Safe.also h hA h'

@[simp] theorem safe_settle {o : Except ε α} {Q : Except ε α → σ → W → Prop} :
    (settle o : Routine Op V ε σ α).Safe E D Q s w ↔ Q o s w := by
  cases o <;> rfl

/-- A call made with nobody else there while `I` holds. -/
theorem safe_call_keeping {I : W → Prop} {op : Op} {Q : Except ε (V op) → σ → W → Prop} :
    (call op : Routine Op V ε σ (V op)).Safe E (.keeping I) Q s w ↔
      I w ∧ ∀ r w', E w op r w' → Q r s w' := by
  rw [safe_call]
  simp [Discipline.keeping]

/-- What is asked of a routine followed by `f`: on a return, what `f` needs; on a raise, what is
    asked of the whole. -/
def After (E : Env Op (Answer V ε) W) (D : Discipline Op W) (f : α → Routine Op V ε σ β)
    (Q : Except ε β → σ → W → Prop) : Except ε α → σ → W → Prop
  | .ok a, s, w => (f a).Safe E D Q s w
  | .error e, s, w => Q (.error e) s w

@[simp] theorem after_ok {f : α → Routine Op V ε σ β} {Q : Except ε β → σ → W → Prop} {a : α} :
    After E D f Q (.ok a) s w ↔ (f a).Safe E D Q s w := Iff.rfl

@[simp] theorem after_error {f : α → Routine Op V ε σ β} {Q : Except ε β → σ → W → Prop} {e : ε} :
    After E D f Q (.error e) s w ↔ Q (.error e) s w := Iff.rfl

@[simp] theorem safe_bind {m : Routine Op V ε σ α} {f : α → Routine Op V ε σ β}
    {Q : Except ε β → σ → W → Prop} :
    (m >>= f).Safe E D Q s w ↔ m.Safe E D (After E D f Q) s w := by
  show ((m s).bind (onReturn f)).Safe E D _ w ↔ _
  rw [Program.safe_bind]
  refine ⟨fun h => Program.Safe.mono h ?_, fun h => Program.Safe.mono h ?_⟩
  · rintro ⟨o, s'⟩ w' h'
    cases o <;> exact h'
  · rintro ⟨o, s'⟩ w' h'
    cases o <;> exact h'

@[simp] theorem safe_attempt {m : Routine Op V ε σ α} {Q : Except ε (Except ε α) → σ → W → Prop} :
    m.attempt.Safe E D Q s w ↔ m.Safe E D (fun o s' w' => Q (.ok o) s' w') s w :=
  Program.safe_bind

@[simp] theorem safe_on {part : τ → σ} {update : σ → τ → τ} {m : Routine Op V ε σ α} {t : τ}
    {Q : Except ε α → τ → W → Prop} :
    (m.on part update).Safe E D Q t w ↔
      m.Safe E D (fun o s' w' => Q o (update s' t) w') (part t) w :=
  Program.safe_bind

/-! ### Routines that are sure to return -/

/-- Alone in the environment, the routine returns `a` and leaves `s'` and `w'`. -/
def Returns (E : Env Op (Answer V ε) W) (m : Routine Op V ε σ α) (s : σ) (w : W) (a : α) (s' : σ)
    (w' : W) : Prop :=
  m.Safe E .alone (fun o s₁ w₁ => o = .ok a ∧ s₁ = s' ∧ w₁ = w') s w

section returns

variable {s' s'' : σ} {w' w'' : W}

theorem returns_pure (a : α) : (Pure.pure a : Routine Op V ε σ α).Returns E s w a s w :=
  ⟨rfl, rfl, rfl⟩

theorem returns_getSelf : (getSelf : Routine Op V ε σ σ).Returns E s w s s w := ⟨rfl, rfl, rfl⟩

theorem returns_modifySelf (f : σ → σ) :
    (modifySelf f : Routine Op V ε σ Unit).Returns E s w () (f s) w := ⟨rfl, rfl, rfl⟩

theorem returns_call {op : Op} {v : V op} (h : ∀ r w₁, E w op r w₁ → r = .ok v ∧ w₁ = w') :
    (call op : Routine Op V ε σ (V op)).Returns E s w v s w' :=
  safe_call_alone.mpr (fun r w₁ hE => ⟨(h r w₁ hE).1, rfl, (h r w₁ hE).2⟩)

/-- What follows a routine that is sure to return. -/
theorem Returns.andThen {m : Routine Op V ε σ α} {a : α} (h : m.Returns E s w a s' w')
    {f : α → Routine Op V ε σ β} {Q : Except ε β → σ → W → Prop}
    (hf : (f a).Safe E .alone Q s' w') : (m >>= f).Safe E .alone Q s w := by
  rw [safe_bind]
  refine h.mono ?_
  rintro o s₁ w₁ ⟨rfl, rfl, rfl⟩
  exact hf

theorem Returns.bind {m : Routine Op V ε σ α} {a : α} (h : m.Returns E s w a s' w')
    {f : α → Routine Op V ε σ β} {b : β} (hf : (f a).Returns E s' w' b s'' w'') :
    (m >>= f).Returns E s w b s'' w'' := h.andThen hf

theorem Returns.attempt {m : Routine Op V ε σ α} {a : α} (h : m.Returns E s w a s' w') :
    m.attempt.Returns E s w (.ok a) s' w' := by
  rw [Returns, safe_attempt]
  refine h.mono ?_
  rintro o s₁ w₁ ⟨rfl, rfl, rfl⟩
  exact ⟨rfl, rfl, rfl⟩

theorem Returns.on {part : τ → σ} {update : σ → τ → τ} {m : Routine Op V ε σ α} {t : τ} {a : α}
    (h : m.Returns E (part t) w a s' w') :
    (m.on part update).Returns E t w a (update s' t) w' := by
  rw [Returns, safe_on]
  refine h.mono ?_
  rintro o s₁ w₁ ⟨rfl, rfl, rfl⟩
  exact ⟨rfl, rfl, rfl⟩

/-- Against a handler of the environment, the run is the one that was promised. -/
theorem Returns.exec {X : Type} {h : X → (op : Op) → Answer V ε op × X} (f : X → W)
    (hE : ∀ x op, E (f x) op (h x op).1 (f (h x op).2)) {m : Routine Op V ε σ α} {a : α} {x : X}
    (hm : m.Returns E s (f x) a s' w') :
    (m.exec h s x).1 = (.ok a, s') ∧ f (m.exec h s x).2 = w' := by
  obtain ⟨ho, hs, hw⟩ := Safe.exec f hE (fun _ => rfl) hm
  exact ⟨Prod.ext ho hs, hw⟩

end returns

/-! ### The calls of a routine -/

variable {S : Op → Prop}

theorem Uses.mono {T : Op → Prop} {m : Routine Op V ε σ α} (h : m.Uses S)
    (hT : ∀ op, S op → T op) : m.Uses T := fun s => Program.Uses.mono (h s) hT

theorem uses_pure (a : α) : (Pure.pure a : Routine Op V ε σ α).Uses S := fun _ => trivial

theorem uses_raise (e : ε) : (raise e : Routine Op V ε σ α).Uses S := fun _ => trivial

theorem uses_getSelf : (getSelf : Routine Op V ε σ σ).Uses S := fun _ => trivial

theorem uses_modifySelf (f : σ → σ) : (modifySelf f : Routine Op V ε σ Unit).Uses S := fun _ => trivial

theorem uses_settle (o : Except ε α) : (settle o : Routine Op V ε σ α).Uses S := by
  cases o with
  | ok a => exact uses_pure a
  | error e => exact uses_raise e

theorem uses_call {op : Op} (h : S op) : (call op : Routine Op V ε σ (V op)).Uses S :=
  fun _ => ⟨h, fun _ => trivial⟩

theorem uses_bind {m : Routine Op V ε σ α} {f : α → Routine Op V ε σ β} (hm : m.Uses S)
    (hf : ∀ a, (f a).Uses S) : (m >>= f).Uses S := by
  intro s
  refine Program.uses_bind (hm s) ?_
  rintro ⟨o, s'⟩
  cases o with
  | ok a => exact hf a s'
  | error e => trivial

theorem uses_attempt {m : Routine Op V ε σ α} (hm : m.Uses S) : m.attempt.Uses S :=
  fun s => Program.uses_bind (hm s) (fun _ => trivial)

theorem uses_on {part : τ → σ} {update : σ → τ → τ} {m : Routine Op V ε σ α} (hm : m.Uses S) :
    (m.on part update).Uses S :=
  fun t => Program.uses_bind (hm (part t)) (fun _ => trivial)

theorem exec_uses {h : W → (op : Op) → Answer V ε op × W} (hS : ∀ w op, S op → (h w op).2 = w)
    {m : Routine Op V ε σ α} (hm : m.Uses S) (s : σ) (w : W) : (m.exec h s w).2 = w :=
  Program.exec_uses hS (hm s) w

/-! ### The object of a routine -/

variable {f : σ → τ}

/-- Whatever its calls are answered, the routine leaves `f` of the object as it is. -/
def Keeps (m : Routine Op V ε σ α) (f : σ → τ) : Prop :=
  ∀ s, m.Safe (Env.answering fun _ _ => True) .free (fun _ s' _ => f s' = f s) s ()

theorem keeps_pure (a : α) : (Pure.pure a : Routine Op V ε σ α).Keeps f := fun _ => rfl

theorem keeps_raise (e : ε) : (raise e : Routine Op V ε σ α).Keeps f := fun _ => rfl

theorem keeps_getSelf : (getSelf : Routine Op V ε σ σ).Keeps f := fun _ => rfl

theorem keeps_modifySelf {g : σ → σ} (h : ∀ s, f (g s) = f s) :
    (modifySelf g : Routine Op V ε σ Unit).Keeps f := h

theorem keeps_call (op : Op) : (call op : Routine Op V ε σ (V op)).Keeps f :=
  fun _ => safe_answer (fun _ _ => rfl)

theorem keeps_settle (o : Except ε α) : (settle o : Routine Op V ε σ α).Keeps f := by
  cases o with
  | ok a => exact fun _ => rfl
  | error e => exact fun _ => rfl

theorem keeps_bind {m : Routine Op V ε σ α} {g : α → Routine Op V ε σ β} (hm : m.Keeps f)
    (hg : ∀ a, (g a).Keeps f) : (m >>= g).Keeps f := by
  intro s
  rw [safe_bind]
  refine (hm s).mono ?_
  intro o s' _ hs'
  cases o with
  | error e => exact hs'
  | ok a => exact (hg a s').mono (fun _ _ _ hs'' => hs''.trans hs')

theorem keeps_attempt {m : Routine Op V ε σ α} (hm : m.Keeps f) : m.attempt.Keeps f := by
  intro s
  rw [safe_attempt]
  exact hm s

/-- A routine on a part of the object leaves what does not depend on that part. -/
theorem keeps_on {part : ρ → σ} {update : σ → ρ → ρ} {g : ρ → τ} (m : Routine Op V ε σ α)
    (h : ∀ s t, g (update s t) = g t) : (m.on part update).Keeps g := by
  intro t
  rw [safe_on]
  exact Program.safe_free _ (fun o => h o.2 t)

/-- What a routine leaves as it is of its object stays as it is of the whole. -/
theorem keeps_part {part : ρ → σ} {update : σ → ρ → ρ} {m : Routine Op V ε σ α}
    (h : ∀ s t, part (update s t) = s) (hm : m.Keeps f) :
    (m.on part update).Keeps (fun t => f (part t)) := by
  intro t
  rw [safe_on]
  refine (hm (part t)).mono ?_
  intro _ s' _ hs'
  exact (congrArg f (h s' t)).trans hs'

theorem Keeps.safe {m : Routine Op V ε σ α} (hm : m.Keeps f) (s : σ) (w : W) :
    m.Safe E .alone (fun _ s' _ => f s' = f s) s w := Program.Safe.anywhere (hm s)

theorem Keeps.exec {X : Type} {m : Routine Op V ε σ α} (hm : m.Keeps f)
    (h : X → (op : Op) → Answer V ε op × X) (s : σ) (x : X) :
    f (m.exec h s x).1.2 = f s :=
  Safe.exec (W := Unit) (fun _ => ()) (fun _ _ => trivial) (fun _ => trivial) (hm s)

/-- What is known of a routine over the states that are seen through `f`. -/
theorem Safe.pull {X : Type} {E' : Env Op (Answer V ε) X} {S : Op → Prop} (f : X → W)
    (hE : ∀ {x op r x'}, S op → E' x op r x' → E (f x) op r (f x')) {m : Routine Op V ε σ α}
    {Q : Except ε α → σ → W → Prop} {s : σ} {x : X} (hu : m.Uses S)
    (h : m.Safe E .alone Q s (f x)) : m.Safe E' .alone (fun o s' x' => Q o s' (f x')) s x :=
  Program.Safe.pull f hE (hu s) h

/-- A routine that only makes calls of `S` need only be safe where no other call is made. -/
theorem Safe.of_only {m : Routine Op V ε σ α} {Q : Except ε α → σ → W → Prop} (hu : m.Uses S)
    (h : m.Safe (E.only S) D Q s w) : m.Safe E D Q s w := Program.Safe.of_only (hu s) h

/-- Where every call is allowed and follows the growth, every routine does. -/
theorem Safe.follows (G : Growth E D (fun _ => True)) (hguard : ∀ w op, D.guard w op)
    (m : Routine Op V ε σ α) (s : σ) (w : W) : m.Safe E D (fun _ _ w' => G.grow w w') s w :=
  Program.Safe.follows G hguard (m s) w

/-- A routine that only makes calls of `S` the guard has nothing against follows the growth. -/
theorem Safe.of_uses {T : Op → Prop} (G : Growth E D S) {m : Routine Op V ε σ α} (hu : m.Uses T)
    (hT : ∀ op, T op → S op) (hg : ∀ w' op, G.grow w w' → T op → D.guard w' op) :
    m.Safe E D (fun _ _ w' => G.grow w w') s w :=
  Program.Safe.of_uses G (hu s) hT hg

end Routine

end Effect
