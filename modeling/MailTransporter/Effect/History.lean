import MailTransporter.Effect.Discipline

set_option autoImplicit false

/-! # Programs one after another

A `Session` is a program with the bookkeeping around it: what is noted when it starts, and what is
noted when it has ended with a result or has been killed on the way. A `History` is any number of
sessions one after another, while the others move at any time, also between two calls. -/

namespace Effect

variable {Op : Type} {Ret : Op → Type} {W α : Type}

/-- The result of a program that has ended. -/
def Program.result? : Program Op Ret α → Option α
  | .pure a => some a
  | .call _ _ => none

theorem Program.result?_eq_some {p : Program Op Ret α} {a : α} (h : p.result? = some a) :
    p = .pure a := by
  cases p with
  | pure b =>
      cases h
      rfl
  | call op next => exact absurd h nofun

structure Session (Op : Type) (Ret : Op → Type) (W : Type) where
  Result : Type
  program : Program Op Ret Result
  enter : W → W
  leave : Option Result → W → W

/-- The others move any number of times. -/
abbrev Drift (others : W → W → Prop) : W → W → Prop := Relation.ReflTransGen others

/-- The session may turn `w` into `w'`. A program that is killed after its last call may have noted
    its end or not. -/
def Session.Runs (E : Env Op Ret W) (others : W → W → Prop) (σ : Session Op Ret W)
    (w w' : W) : Prop :=
  ∃ v v' p o, Program.Steps (E.under (Drift others)) (σ.enter w, σ.program) (v, p) ∧
    Drift others v v' ∧ (o = p.result? ∨ o = none) ∧ w' = σ.leave o v'

/-- One move of the others or one session. -/
def History.Step (E : Env Op Ret W) (others : W → W → Prop) (Start : Session Op Ret W → Prop)
    (w w' : W) : Prop :=
  others w w' ∨ ∃ σ, Start σ ∧ σ.Runs E others w w'

/-- The states between the sessions of a history. -/
def History (E : Env Op Ret W) (others : W → W → Prop) (Start : Session Op Ret W → Prop) :
    W → W → Prop :=
  Relation.ReflTransGen (History.Step E others Start)

variable {E : Env Op Ret W} {D : Discipline Op W} {others : W → W → Prop}
  {M : W → Prop}

theorem Env.under_mono {rely rely' : W → W → Prop} (h : ∀ {w w'}, rely w w' → rely' w w')
    {c c' : W × Program Op Ret α} (hs : Program.Steps (E.under rely) c c') :
    Program.Steps (E.under rely') c c' :=
  hs.mono (fun ⟨w₁, hr, hE⟩ => ⟨w₁, h hr, hE⟩)

/-- A preorder that covers one move covers a drift. -/
theorem Drift.rely {rely : W → W → Prop} (refl : ∀ w, rely w w)
    (trans : ∀ {a b c}, rely a b → rely b c → rely a c)
    (h : ∀ {w w'}, others w w' → rely w w') {w w' : W} (hd : Drift others w w') : rely w w' := by
  induction hd with
  | refl => exact refl w
  | tail _ hs ih => exact trans ih (h hs)

/-- What a safe session leaves: its invariant `M` has held throughout, and if it has ended its
    postcondition holds. -/
theorem Session.Runs.safe {σ : Session Op Ret W} {Q : σ.Result → W → Prop} {w w' : W}
    (h : σ.Runs E others w w') (refl : ∀ w, D.rely w w)
    (trans : ∀ {a b c}, D.rely a b → D.rely b c → D.rely a c)
    (hothers : ∀ {w w'}, others w w' → D.rely w w')
    (hrely : ∀ {w w'}, D.rely w w' → M w → M w')
    (hstep : ∀ {w op r w'}, D.guard w op → E w op r w' → M w → M w')
    (hM : M (σ.enter w)) (hp : σ.program.Safe E D Q (σ.enter w))
    (stable : ∀ a {v v'}, D.rely v v' → Q a v → Q a v') :
    ∃ v o, w' = σ.leave o v ∧ M v ∧ ∀ a, o = some a → Q a v := by
  obtain ⟨v, v', p, o, hs, hd, ho, rfl⟩ := h
  have hr := Drift.rely refl trans hothers hd
  obtain ⟨hv, hsafe⟩ := hp.steps hrely hstep hM (Env.under_mono (Drift.rely refl trans hothers) hs)
  refine ⟨v', o, rfl, hrely hr hv, ?_⟩
  rintro a rfl
  rcases ho with ho | ho
  · rw [Program.result?_eq_some ho.symm] at hsafe
    exact stable a hr hsafe
  · exact absurd ho nofun

/-- A session that nobody disturbs, run by a handler. -/
theorem Session.Runs.exec {σ : Session Op Ret W} (h : W → (op : Op) → Ret op × W)
    (hE : ∀ w op, E w op (h w op).1 (h w op).2) (w : W) :
    σ.Runs E others w (σ.leave (some (σ.program.exec h (σ.enter w)).1)
      (σ.program.exec h (σ.enter w)).2) := by
  refine ⟨_, _, .pure (σ.program.exec h (σ.enter w)).1, _, ?_, .refl, Or.inl rfl, rfl⟩
  have hs := Program.exec_steps h hE σ.program (σ.enter w)
  generalize (σ.enter w, σ.program) = c at hs ⊢
  generalize ((σ.program.exec h (σ.enter w)).2,
    (Program.pure (σ.program.exec h (σ.enter w)).1 : Program Op Ret σ.Result)) = c' at hs ⊢
  induction hs with
  | refl => exact .refl
  | tail _ hs ih =>
      cases hs with
      | call hE => exact ih.tail (.call ⟨_, .refl, hE⟩)

end Effect
