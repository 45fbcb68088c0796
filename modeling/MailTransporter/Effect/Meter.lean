import MailTransporter.Effect.Discipline
import Mathlib.Algebra.Order.Monoid.Defs

set_option autoImplicit false

/-! # What a routine takes at most

A `Meter` says how much of something is left in a state, and how much of it a call can use up.
`Routine.Takes` is the most a routine can use, whatever the calls return: it composes along the
routine, and on every path the invariant of the meter holds. -/

namespace Effect

variable {Op : Type} {V : Op → Type} {ε σ τ α β W C : Type} [AddCommMonoid C] [PartialOrder C]

/-- How much is left, and what a metered call takes of it. -/
structure Meter (C : Type) [AddCommMonoid C] [PartialOrder C] {Op : Type} {Ret : Op → Type}
    {W : Type} (E : Env Op Ret W) (I : W → Prop) where
  left : C → W → Prop
  metered : Op → Prop
  price : Op → C
  nonneg : ∀ {op}, metered op → 0 ≤ price op
  sound : ∀ {c w}, 0 ≤ c → left c w → I w
  less : ∀ {c c' w}, c' ≤ c → left c w → left c' w
  charge : ∀ {w op r w' c}, metered op → left (price op + c) w → E w op r w' → left c w'

namespace Routine

variable {E : Env Op (Answer V ε) W} {I : W → Prop}

/-- The routine uses up at most `c`, and never all that is left. -/
structure Takes (M : Meter C E I) (m : Routine Op V ε σ α) (c : C) : Prop where
  nonneg : 0 ≤ c
  safe : ∀ s w rest, 0 ≤ rest → M.left (c + rest) w →
    m.Safe E (.keeping I) (fun _ _ w' => M.left rest w') s w

variable {M : Meter C E I} {c d : C}

theorem takes_pure (a : α) : (Pure.pure a : Routine Op V ε σ α).Takes M 0 :=
  ⟨le_refl 0, fun _ w rest _ h => by rwa [zero_add] at h⟩

theorem takes_raise (e : ε) : (raise e : Routine Op V ε σ α).Takes M 0 :=
  ⟨le_refl 0, fun _ w rest _ h => by rwa [zero_add] at h⟩

theorem takes_getSelf : (getSelf : Routine Op V ε σ σ).Takes M 0 :=
  ⟨le_refl 0, fun _ w rest _ h => by rwa [zero_add] at h⟩

theorem takes_modifySelf (f : σ → σ) : (modifySelf f : Routine Op V ε σ Unit).Takes M 0 :=
  ⟨le_refl 0, fun _ w rest _ h => by rwa [zero_add] at h⟩

theorem takes_settle (o : Except ε α) : (settle o : Routine Op V ε σ α).Takes M 0 := by
  cases o with
  | ok a => exact takes_pure a
  | error e => exact takes_raise e

theorem takes_attempt {m : Routine Op V ε σ α} (h : m.Takes M c) : m.attempt.Takes M c :=
  ⟨h.nonneg, fun s w rest hrest hleft => safe_attempt.mpr (h.safe s w rest hrest hleft)⟩

theorem takes_on {part : τ → σ} {update : σ → τ → τ} {m : Routine Op V ε σ α}
    (h : m.Takes M c) : (m.on part update).Takes M c :=
  ⟨h.nonneg, fun s w rest hrest hleft => safe_on.mpr (h.safe (part s) w rest hrest hleft)⟩

variable [IsOrderedAddMonoid C]

/-- A call that is metered. -/
theorem takes_call {op : Op} (hop : M.metered op) :
    (call op : Routine Op V ε σ (V op)).Takes M (M.price op) := by
  refine ⟨M.nonneg hop, fun s w rest hrest hleft => ?_⟩
  rw [safe_call_keeping]
  have htotal : 0 ≤ M.price op + rest := add_nonneg (M.nonneg hop) hrest
  exact ⟨M.sound htotal hleft, fun r w' hE => M.charge hop hleft hE⟩

theorem Takes.mono {m : Routine Op V ε σ α} (h : m.Takes M c) (hle : c ≤ d) : m.Takes M d := by
  refine ⟨le_trans h.nonneg hle, fun s w rest hrest hleft => ?_⟩
  have hmore : c + rest ≤ d + rest := add_le_add_left hle rest
  exact h.safe s w rest hrest (M.less hmore hleft)

/-- One after the other: what they take adds up. -/
theorem takes_bind {m : Routine Op V ε σ α} {f : α → Routine Op V ε σ β} (hm : m.Takes M c)
    (hd : 0 ≤ d) (hf : ∀ a, (f a).Takes M d) : (m >>= f).Takes M (c + d) := by
  refine ⟨add_nonneg hm.nonneg hd, fun s w rest hrest hleft => ?_⟩
  rw [add_assoc] at hleft
  have hboth : 0 ≤ d + rest := add_nonneg hd hrest
  rw [safe_bind]
  refine (hm.safe s w (d + rest) hboth hleft).mono ?_
  intro o s' w' hleft'
  cases o with
  | ok a => exact (hf a).safe s' w' rest hrest hleft'
  | error e => exact M.less (le_add_of_nonneg_left hd) hleft'

/-- What is written before a routine costs nothing. -/
theorem takes_bind_free {m : Routine Op V ε σ α} {f : α → Routine Op V ε σ β} (hm : m.Takes M 0)
    (hd : 0 ≤ d) (hf : ∀ a, (f a).Takes M d) : (m >>= f).Takes M d := by
  have hsum := takes_bind hm hd hf
  rwa [zero_add] at hsum

/-- What follows a routine costs nothing. -/
theorem takes_then {m : Routine Op V ε σ α} {f : α → Routine Op V ε σ β} (hm : m.Takes M c)
    (hf : ∀ a, (f a).Takes M 0) : (m >>= f).Takes M c := by
  have hsum := takes_bind hm (le_refl 0) hf
  rwa [add_zero] at hsum

end Routine

end Effect
