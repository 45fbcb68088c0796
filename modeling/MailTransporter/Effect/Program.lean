import Mathlib.Logic.Relation

set_option autoImplicit false

/-! # Programs as trees of calls

A `Program` makes calls `op : Op` and continues on the answer `Ret op` it gets. Nothing is said
about who answers: an `Env` is a relation between the state before a call, the call, its answer and
the state after it, so one program text is run against a test double, a conforming server or an
adversary. `Program.Steps` is the small-step execution (a crash is an execution that stops early),
`Program.exec` the run against a deterministic handler, and `Program.exec_steps` says the second is
an instance of the first. -/

namespace Effect

/-- A program of result type `α` over the calls `Op`, call `op` being answered by a `Ret op`. -/
inductive Program (Op : Type) (Ret : Op → Type) (α : Type) where
  | pure (a : α)
  | call (op : Op) (next : Ret op → Program Op Ret α)

/-- Who answers: from state `w`, `op` may be answered by `r`, leaving `w'`. -/
abbrev Env (Op : Type) (Ret : Op → Type) (W : Type) := W → (op : Op) → Ret op → W → Prop

variable {Op : Type} {Ret : Op → Type} {W α β γ : Type}

namespace Program

/-- Run `p`, then `f` on its result. -/
def bind : Program Op Ret α → (α → Program Op Ret β) → Program Op Ret β
  | .pure a, f => f a
  | .call op next, f => .call op (fun r => (next r).bind f)

instance : Monad (Program Op Ret) where
  pure := Program.pure
  bind := Program.bind

@[simp] theorem pure_bind' (a : α) (f : α → Program Op Ret β) :
    (Program.pure a : Program Op Ret α).bind f = f a := rfl

@[simp] theorem call_bind (op : Op) (next : Ret op → Program Op Ret α)
    (f : α → Program Op Ret β) :
    (Program.call op next).bind f = .call op (fun r => (next r).bind f) := rfl

theorem bind_assoc' (p : Program Op Ret α) (f : α → Program Op Ret β)
    (g : β → Program Op Ret γ) : (p.bind f).bind g = p.bind (fun a => (f a).bind g) := by
  induction p with
  | pure a => rfl
  | call op next ih =>
      simp only [call_bind]
      exact congrArg _ (funext ih)

theorem bind_pure' (p : Program Op Ret α) : p.bind Program.pure = p := by
  induction p with
  | pure a => rfl
  | call op next ih =>
      simp only [call_bind]
      exact congrArg _ (funext ih)

instance : LawfulMonad (Program Op Ret) :=
  LawfulMonad.mk' _ bind_pure' (fun _ _ => rfl) bind_assoc'

/-! ## Executions -/

/-- One answered call. -/
inductive Step (E : Env Op Ret W) : W × Program Op Ret α → W × Program Op Ret α → Prop
  | call {w w' : W} {op : Op} {next : Ret op → Program Op Ret α} {r : Ret op}
      (h : E w op r w') : Step E (w, .call op next) (w', next r)

/-- Any number of answered calls. The program that is left need not be finished. -/
abbrev Steps (E : Env Op Ret W) : W × Program Op Ret α → W × Program Op Ret α → Prop :=
  Relation.ReflTransGen (Step E)

/-- Executions seen through a map of the states. -/
theorem Steps.map {V : Type} {E : Env Op Ret W} {E' : Env Op Ret V} (f : W → V)
    (h : ∀ {w op r w'}, E w op r w' → E' (f w) op r (f w')) {c c' : W × Program Op Ret α}
    (hs : Steps E c c') : Steps E' (f c.1, c.2) (f c'.1, c'.2) := by
  induction hs with
  | refl => exact .refl
  | tail _ hs ih =>
      cases hs with
      | call hE => exact ih.tail (.call (h hE))

theorem Steps.mono {E E' : Env Op Ret W} (h : ∀ {w op r w'}, E w op r w' → E' w op r w')
    {c c' : W × Program Op Ret α} (hs : Steps E c c') : Steps E' c c' := hs.map id h

theorem Steps.bind {E : Env Op Ret W} {c c' : W × Program Op Ret α} (h : Steps E c c')
    (f : α → Program Op Ret β) : Steps E (c.1, c.2.bind f) (c'.1, c'.2.bind f) := by
  induction h with
  | refl => exact .refl
  | tail _ hs ih =>
      cases hs with
      | call h => exact ih.tail (.call h)

/-- The program makes these calls in this order, is answered so, and ends with the result. -/
inductive Transcript : Program Op Ret α → List ((op : Op) × Ret op) → α → Prop
  | pure (a : α) : Transcript (.pure a) [] a
  | call {op : Op} {next : Ret op → Program Op Ret α} {r : Ret op}
      {calls : List ((op : Op) × Ret op)} {a : α} (h : Transcript (next r) calls a) :
      Transcript (.call op next) (⟨op, r⟩ :: calls) a

/-- The run of a program against a handler that answers every call. -/
def exec (h : W → (op : Op) → Ret op × W) : Program Op Ret α → W → α × W
  | .pure a, w => (a, w)
  | .call op next, w => (next (h w op).1).exec h (h w op).2

@[simp] theorem exec_pure (h : W → (op : Op) → Ret op × W) (a : α) (w : W) :
    (Program.pure a : Program Op Ret α).exec h w = (a, w) := rfl

@[simp] theorem exec_call (h : W → (op : Op) → Ret op × W) (op : Op)
    (next : Ret op → Program Op Ret α) (w : W) :
    (Program.call op next).exec h w = (next (h w op).1).exec h (h w op).2 := rfl

theorem exec_bind (h : W → (op : Op) → Ret op × W) (p : Program Op Ret α)
    (f : α → Program Op Ret β) (w : W) :
    (p.bind f).exec h w = (f (p.exec h w).1).exec h (p.exec h w).2 := by
  induction p generalizing w with
  | pure a => rfl
  | call op next ih => simp only [call_bind, exec_call, ih]

/-- A handler whose states are seen through `f` gives the run of the handler that is seen. -/
theorem exec_map {V : Type} {h : W → (op : Op) → Ret op × W} {h' : V → (op : Op) → Ret op × V}
    (f : V → W) (hf : ∀ v op, h (f v) op = ((h' v op).1, f (h' v op).2)) (p : Program Op Ret α)
    (v : V) : p.exec h (f v) = ((p.exec h' v).1, f (p.exec h' v).2) := by
  induction p generalizing v with
  | pure a => rfl
  | call op next ih =>
      rw [exec_call, exec_call, hf]
      exact ih _ _

/-- **A handler allowed by `E` runs one of `E`'s executions.** -/
theorem exec_steps {E : Env Op Ret W} (h : W → (op : Op) → Ret op × W)
    (hE : ∀ w op, E w op (h w op).1 (h w op).2) (p : Program Op Ret α) (w : W) :
    Steps E (w, p) ((p.exec h w).2, .pure (p.exec h w).1) := by
  induction p generalizing w with
  | pure a => exact .refl
  | call op next ih => exact .head (.call (hE w op)) (ih _ _)

end Program

end Effect
