import MailTransporter.Effect.Program

set_option autoImplicit false

/-! # Routines: programs with exceptions and a mutable object

A `Routine` is a program that reads and writes an object of type `σ` and either returns or raises an
`ε`. Writes survive a raise, as the attributes of an object do in a language with exceptions: what
was written before the raise is there for whoever catches it. A call is answered by a value or by an
exception, which the routine raises in its turn. -/

namespace Effect

variable {Op : Type} {V : Op → Type} {ε σ τ α β W : Type}

/-- The answer to a call: a value, or an exception. -/
abbrev Answer (V : Op → Type) (ε : Type) (op : Op) := Except ε (V op)

/-- A program over the object `σ` that returns an `α` or raises an `ε`. -/
def Routine (Op : Type) (V : Op → Type) (ε σ α : Type) :=
  σ → Program Op (Answer V ε) (Except ε α × σ)

namespace Routine

protected def pure (a : α) : Routine Op V ε σ α := fun s => .pure (.ok a, s)

/-- What follows a routine: `f` on a return; a raise goes through. -/
def onReturn (f : α → Routine Op V ε σ β) :
    Except ε α × σ → Program Op (Answer V ε) (Except ε β × σ)
  | (.ok a, s) => f a s
  | (.error e, s) => .pure (.error e, s)

protected def bind (m : Routine Op V ε σ α) (f : α → Routine Op V ε σ β) : Routine Op V ε σ β :=
  fun s => (m s).bind (onReturn f)

instance : Monad (Routine Op V ε σ) where
  pure := Routine.pure
  bind := Routine.bind

/-- Raise `e`. -/
def raise (e : ε) : Routine Op V ε σ α := fun s => .pure (.error e, s)

/-- Run `m` and hand its outcome on: the `try` of a language with exceptions, whose `except` and
    `else` clauses are the cases of what follows. -/
def attempt (m : Routine Op V ε σ α) : Routine Op V ε σ (Except ε α) :=
  fun s => (m s).bind (fun o => .pure (.ok o.1, o.2))

/-- Return the value or raise the exception. -/
def settle : Except ε α → Routine Op V ε σ α
  | .ok a => Routine.pure a
  | .error e => raise e

/-- The object. -/
def getSelf : Routine Op V ε σ σ := fun s => .pure (.ok s, s)

/-- Write the object. -/
def modifySelf (f : σ → σ) : Routine Op V ε σ Unit := fun s => .pure (.ok (), f s)

/-- Make the call `op`. -/
def call (op : Op) : Routine Op V ε σ (V op) :=
  fun s => .call op (fun r => .pure (r, s))

/-- Run `m` on a part of the object. -/
def on (part : τ → σ) (update : σ → τ → τ) (m : Routine Op V ε σ α) : Routine Op V ε τ α :=
  fun t => (m (part t)).bind (fun o => .pure (o.1, update o.2 t))

/-! ## The run of a routine against a handler -/

/-- The outcome, the object and the state after running `m`. -/
def exec (h : W → (op : Op) → Answer V ε op × W) (m : Routine Op V ε σ α) (s : σ) (w : W) :
    (Except ε α × σ) × W :=
  (m s).exec h w

variable (h : W → (op : Op) → Answer V ε op × W) (s : σ) (w : W)

@[simp] theorem exec_pure (a : α) :
    (Pure.pure a : Routine Op V ε σ α).exec h s w = ((.ok a, s), w) := rfl

@[simp] theorem exec_raise (e : ε) :
    (raise e : Routine Op V ε σ α).exec h s w = ((.error e, s), w) := rfl

@[simp] theorem exec_getSelf : (getSelf : Routine Op V ε σ σ).exec h s w = ((.ok s, s), w) := rfl

@[simp] theorem exec_modifySelf (f : σ → σ) :
    (modifySelf f : Routine Op V ε σ Unit).exec h s w = ((.ok (), f s), w) := rfl

@[simp] theorem exec_call (op : Op) :
    (call op : Routine Op V ε σ (V op)).exec h s w = (((h w op).1, s), (h w op).2) := rfl

theorem exec_bind (m : Routine Op V ε σ α) (f : α → Routine Op V ε σ β) :
    (m >>= f).exec h s w =
      match m.exec h s w with
      | ((.ok a, s'), w') => (f a).exec h s' w'
      | ((.error e, s'), w') => ((.error e, s'), w') := by
  show ((m s).bind (onReturn f)).exec h w = _
  rw [Program.exec_bind]
  unfold exec
  rcases (m s).exec h w with ⟨⟨o, s'⟩, w'⟩
  cases o <;> rfl

/-- The step of a symbolic run: the first routine returned. -/
theorem exec_bind_ok {m : Routine Op V ε σ α} {f : α → Routine Op V ε σ β} {a : α} {s' : σ}
    {w' : W} (hm : m.exec h s w = ((.ok a, s'), w')) :
    (m >>= f).exec h s w = (f a).exec h s' w' := by
  rw [exec_bind, hm]

theorem exec_bind_error {m : Routine Op V ε σ α} {f : α → Routine Op V ε σ β} {e : ε} {s' : σ}
    {w' : W} (hm : m.exec h s w = ((.error e, s'), w')) :
    (m >>= f).exec h s w = ((.error e, s'), w') := by
  rw [exec_bind, hm]

/-- A sequence that returned went through its first part. -/
theorem exec_bind_inv {m : Routine Op V ε σ α} {f : α → Routine Op V ε σ β} {b : β} {s'' : σ}
    {w'' : W} (hb : (m >>= f).exec h s w = ((.ok b, s''), w'')) :
    ∃ a s' w', m.exec h s w = ((.ok a, s'), w') ∧ (f a).exec h s' w' = ((.ok b, s''), w'') := by
  rw [exec_bind] at hb
  rcases hm : m.exec h s w with ⟨⟨o, s'⟩, w'⟩
  rw [hm] at hb
  cases o with
  | ok a => exact ⟨a, s', w', rfl, hb⟩
  | error e => cases hb

@[simp] theorem exec_attempt (m : Routine Op V ε σ α) :
    m.attempt.exec h s w =
      ((.ok (m.exec h s w).1.1, (m.exec h s w).1.2), (m.exec h s w).2) := by
  show ((m s).bind _).exec h w = _
  rw [Program.exec_bind]
  rfl

@[simp] theorem exec_settle (o : Except ε α) :
    (settle o : Routine Op V ε σ α).exec h s w = ((o, s), w) := by
  cases o <;> rfl

@[simp] theorem exec_on (part : τ → σ) (update : σ → τ → τ) (m : Routine Op V ε σ α) (t : τ) :
    (m.on part update).exec h t w =
      (((m.exec h (part t) w).1.1, update (m.exec h (part t) w).1.2 t),
        (m.exec h (part t) w).2) := by
  show ((m (part t)).bind _).exec h w = _
  rw [Program.exec_bind]
  rfl

end Routine

end Effect
