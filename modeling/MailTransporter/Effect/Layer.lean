import MailTransporter.Effect.Discipline

set_option autoImplicit false

/-! # Programs over the calls of another level

`Program.via` takes a program to calls of another kind, one for one. `Program.over` carries out each
call by a program over the calls below, which keeps an object of its own from call to call; a
program that is safe above is safe over whatever carries out its calls (`Program.Safe.over`). -/

namespace Effect

variable {Op Op' : Type} {Ret : Op → Type} {Ret' : Op' → Type} {W V σ α β : Type}

/-! ## One call for one call -/

/-- The program with `f op` in place of each call `op`, its answer read by `g`. -/
def Program.via (f : Op → Op') (g : (op : Op) → Ret' (f op) → Ret op) :
    Program Op Ret α → Program Op' Ret' α
  | .pure a => .pure a
  | .call op next => .call (f op) (fun r => (next (g op r)).via f g)

variable {f : Op → Op'} {g : (op : Op) → Ret' (f op) → Ret op}

/-! ## One call for a program -/

/-- The program over the calls below, with `carry op` in place of each call `op`. -/
def Program.over (carry : (op : Op) → σ → Program Op' Ret' (Ret op × σ)) :
    Program Op Ret α → σ → Program Op' Ret' (α × σ)
  | .pure a, s => .pure (a, s)
  | .call op next, s => (carry op s).bind (fun o => (next o.1).over carry o.2)

/-- Each call is carried out as the environment above answers it, wherever the guard above allows the
    call: `R` relates a state above, the object and a state below, and the others above may have
    moved before the call. -/
def Carries (E : Env Op Ret W) (D : Discipline Op W) (E' : Env Op' Ret' V) (D' : Discipline Op' V)
    (carry : (op : Op) → σ → Program Op' Ret' (Ret op × σ)) (R : W → σ → V → Prop) : Prop :=
  ∀ op w s v, R w s v → (∀ w₁, D.rely w w₁ → D.guard w₁ op) →
    (carry op s).Safe E' D'
      (fun o v' => ∃ w₁ w', D.rely w w₁ ∧ E w₁ op o.1 w' ∧ R w' o.2 v') v

/-- **A program that is safe above is safe over the calls below.** -/
theorem Program.Safe.over {E : Env Op Ret W} {D : Discipline Op W} {E' : Env Op' Ret' V}
    {D' : Discipline Op' V} {carry : (op : Op) → σ → Program Op' Ret' (Ret op × σ)}
    {R : W → σ → V → Prop} (hcarry : Carries E D E' D' carry R) {p : Program Op Ret α}
    {Q : α → W → Prop} {w : W} {s : σ} {v : V} (h : p.Safe E D Q w) (hR : R w s v) :
    (p.over carry s).Safe E' D' (fun o v' => ∃ w', Q o.1 w' ∧ R w' o.2 v') v := by
  induction p generalizing w s v with
  | pure a => exact ⟨w, h, hR⟩
  | call op next ih =>
      rw [Program.over, safe_bind]
      refine (hcarry op w s v hR (fun w₁ h₁ => (h w₁ h₁).1)).mono ?_
      rintro o v' ⟨w₁, w', h₁, hE, hR'⟩
      exact ih o.1 ((h w₁ h₁).2 o.1 w' hE) hR'

end Effect
