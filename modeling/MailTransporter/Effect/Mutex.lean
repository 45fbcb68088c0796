import MailTransporter.Effect.Layer
import Mathlib.Data.List.Basic

set_option autoImplicit false

/-! # A lock nobody waits for

Programs that share one lock, with their calls interleaved in any order. `tryAcquire` answers at once
whether the lock was free, and whoever got it goes on to `release`.

A `Pool` is the lock, the state and the threads, each with a mark that says whether it holds the
lock. A `Protection` says what the lock is for, and `Program.Guarded` what is asked of a thread:
outside its section it makes only calls that count as moves of somebody else, and its section,
which starts from the invariant of the lock, is safe under a discipline and establishes the invariant
again. `Pool.sound` is the rule: then at most one thread is in its section, the invariant holds
whenever the lock is free, and every thread that is done has its postcondition, which may speak of
the state as long as no move undoes it (`Lasting`). -/

namespace Effect

variable {Op : Type} {Ret : Op → Type} {W α β : Type}

/-! ## Threads -/

/-- The calls of programs that share a lock. -/
inductive Locking (Op : Type) where
  | tryAcquire
  | release
  | other (op : Op)

/-- The answers: whether the lock was free, nothing, and the answers of the other calls. -/
@[reducible] def Locking.Answer (Ret : Op → Type) : Locking Op → Type
  | .tryAcquire => Bool
  | .release => Unit
  | .other op => Ret op

/-- A program that shares the lock. -/
abbrev Locked (Op : Type) (Ret : Op → Type) (α : Type) :=
  Program (Locking Op) (Locking.Answer Ret) α

/-- A program that does not touch the lock, among programs that share it. -/
def Program.unlocked (p : Program Op Ret α) : Locked Op Ret α := p.via .other (fun _ r => r)

/-- A program under way, and whether it holds the lock. -/
structure Thread (Op : Type) (Ret : Op → Type) (α : Type) where
  program : Locked Op Ret α
  holds : Bool

/-- The state, the lock and the threads. A thread that is done stays with its result. -/
structure Pool (Op : Type) (Ret : Op → Type) (W α : Type) where
  state : W
  held : Bool
  threads : List (Thread Op Ret α)

namespace Pool

/-- One step of a pool: a thread starts, the others move, or a thread makes a call. -/
inductive Step (E : Env Op Ret W) (Start : Locked Op Ret α → Prop) (others : W → W → Prop) :
    Pool Op Ret W α → Pool Op Ret W α → Prop
  | start {w : W} {l : Bool} {ts : List (Thread Op Ret α)} (p : Locked Op Ret α) (h : Start p) :
      Step E Start others ⟨w, l, ts⟩ ⟨w, l, ⟨p, false⟩ :: ts⟩
  | others {w w' : W} {l : Bool} {ts : List (Thread Op Ret α)} (h : others w w') :
      Step E Start others ⟨w, l, ts⟩ ⟨w', l, ts⟩
  | acquire {w : W} {b : Bool} {before after : List (Thread Op Ret α)}
      {next : Bool → Locked Op Ret α} :
      Step E Start others ⟨w, false, before ++ ⟨.call .tryAcquire next, b⟩ :: after⟩
        ⟨w, true, before ++ ⟨next true, true⟩ :: after⟩
  | refuse {w : W} {b : Bool} {before after : List (Thread Op Ret α)}
      {next : Bool → Locked Op Ret α} :
      Step E Start others ⟨w, true, before ++ ⟨.call .tryAcquire next, b⟩ :: after⟩
        ⟨w, true, before ++ ⟨next false, b⟩ :: after⟩
  | release {w : W} {l b : Bool} {before after : List (Thread Op Ret α)}
      {next : Unit → Locked Op Ret α} :
      Step E Start others ⟨w, l, before ++ ⟨.call .release next, b⟩ :: after⟩
        ⟨w, false, before ++ ⟨next (), false⟩ :: after⟩
  | call {w w' : W} {l b : Bool} {before after : List (Thread Op Ret α)} {op : Op}
      {next : Ret op → Locked Op Ret α} {r : Ret op} (h : E w op r w') :
      Step E Start others ⟨w, l, before ++ ⟨.call (.other op) next, b⟩ :: after⟩
        ⟨w', l, before ++ ⟨next r, b⟩ :: after⟩

/-- The pools reached from the state `w` with the lock free and no thread under way. -/
def Reachable (E : Env Op Ret W) (Start : Locked Op Ret α → Prop) (others : W → W → Prop)
    (w : W) : Pool Op Ret W α → Prop :=
  Relation.ReflTransGen (Step E Start others) ⟨w, false, []⟩

end Pool

/-! ## A thread on its own -/

/-- The program run to its end while the other threads rest, as far as `h` answers its calls: its
    result, the state and the lock. -/
def Program.solo (h : W → (op : Op) → Option (Ret op × W)) :
    Locked Op Ret α → W → Bool → Option (α × W × Bool)
  | .pure a, w, l => some (a, w, l)
  | .call .tryAcquire next, w, l => (next (!l)).solo h w true
  | .call .release next, w, _ => (next ()).solo h w false
  | .call (.other op) next, w, l =>
      match h w op with
      | some answer => (next answer.1).solo h answer.2 l
      | none => none

/-- Where the answers are those of the environment, the pool gets there. -/
theorem Pool.Reachable.solo {E : Env Op Ret W} {Start : Locked Op Ret α → Prop}
    {others : W → W → Prop} {h : W → (op : Op) → Option (Ret op × W)} {w₀ w w' : W} {l l' b : Bool}
    {before after : List (Thread Op Ret α)} {p : Locked Op Ret α} {a : α}
    (hc : Reachable E Start others w₀ ⟨w, l, before ++ ⟨p, b⟩ :: after⟩)
    (hE : ∀ w op r w', h w op = some (r, w') → E w op r w')
    (hsolo : p.solo h w l = some (a, w', l')) :
    ∃ b', Reachable E Start others w₀ ⟨w', l', before ++ ⟨.pure a, b'⟩ :: after⟩ := by
  induction p generalizing w l b with
  | pure a =>
      cases hsolo
      exact ⟨b, hc⟩
  | call op next ih =>
      cases op with
      | tryAcquire =>
          cases l with
          | true => exact ih false (hc.tail .refuse) hsolo
          | false => exact ih true (hc.tail .acquire) hsolo
      | release => exact ih () (hc.tail .release) hsolo
      | other op =>
          cases hop : h w op with
          | none => simp [Program.solo, hop] at hsolo
          | some answer =>
              obtain ⟨r, w₁⟩ := answer
              simp only [Program.solo, hop] at hsolo
              exact ih r (hc.tail (.call (hE w op r w₁ hop))) hsolo

/-! ## What is asked of a thread -/

/-- What a lock protects: its invariant, which holds while it is free, the discipline of the
    sections, and the calls that are made outside a section. -/
structure Protection (Op W : Type) where
  invariant : W → Prop
  sections : Discipline Op W
  outside : Op → Prop

/-- The others and the calls outside a section only make moves a section relies on, and the invariant
    stands them. -/
structure Protection.Lawful (L : Protection Op W) (E : Env Op Ret W) (others : W → W → Prop) :
    Prop where
  refl : ∀ w, L.sections.rely w w
  trans : ∀ {a b c}, L.sections.rely a b → L.sections.rely b c → L.sections.rely a c
  others : ∀ {w w'}, others w w' → L.sections.rely w w'
  outside : ∀ {w op r w'}, L.outside op → E w op r w' → L.sections.rely w w'
  stable : ∀ {w w'}, L.sections.rely w w' → L.invariant w → L.invariant w'

/-- A program keeps to the protection, in its section or not, and its result satisfies `Q`. In its
    section it is judged at the state, outside only when it is done. -/
def Program.Guarded (E : Env Op Ret W) (L : Protection Op W) (Q : α → W → Prop) :
    Locked Op Ret α → Bool → W → Prop
  | .pure a, false, w => Q a w
  | .pure _, true, _ => False
  | .call .tryAcquire next, false, _ =>
      (∀ w, L.invariant w → (next true).Guarded E L Q true w) ∧
        ∀ w, (next false).Guarded E L Q false w
  | .call .tryAcquire _, true, _ => False
  | .call .release _, false, _ => False
  | .call .release next, true, w =>
      ∀ w₁, L.sections.rely w w₁ → L.invariant w₁ ∧ (next ()).Guarded E L Q false w₁
  | .call (.other op) next, false, _ =>
      L.outside op ∧ ∀ w r w', E w op r w' → (next r).Guarded E L Q false w'
  | .call (.other op) next, true, w =>
      ∀ w₁, L.sections.rely w w₁ →
        L.sections.guard w₁ op ∧ ∀ r w₂, E w₁ op r w₂ → (next r).Guarded E L Q true w₂

/-- What no call and no move of the others undoes. -/
structure Lasting (E : Env Op Ret W) (others : W → W → Prop) (Q : α → W → Prop) : Prop where
  call : ∀ {a w op r w'}, E w op r w' → Q a w → Q a w'
  others : ∀ {a w w'}, others w w' → Q a w → Q a w'

/-- A program that does not touch the lock, and makes only calls of `S`. -/
def Program.Apart (E : Env Op Ret W) (S : Op → Prop) (Q : α → Prop) : Locked Op Ret α → Prop
  | .pure a => Q a
  | .call .tryAcquire _ => False
  | .call .release _ => False
  | .call (.other op) next => S op ∧ ∀ w r w', E w op r w' → (next r).Apart E S Q

section rules

variable {E : Env Op Ret W} {L : Protection Op W} {others : W → W → Prop} {Q : α → W → Prop}

/-- The program in its section after a move of the others. -/
theorem Program.Guarded.moved (hL : L.Lawful E others) {p : Locked Op Ret α} {w w' : W}
    (h : p.Guarded E L Q true w) (hmove : L.sections.rely w w') : p.Guarded E L Q true w' := by
  cases p with
  | pure a => exact h
  | call op next =>
      cases op with
      | tryAcquire => exact h
      | release => exact fun w₁ h₁ => h w₁ (hL.trans hmove h₁)
      | other op => exact fun w₁ h₁ => h w₁ (hL.trans hmove h₁)

/-- The program outside its section after any move its postcondition stands. -/
theorem Program.Guarded.elsewhere {p : Locked Op Ret α} {w w' : W}
    (h : p.Guarded E L Q false w) (hQ : ∀ a, Q a w → Q a w') : p.Guarded E L Q false w' := by
  cases p with
  | pure a => exact hQ a h
  | call op next =>
      cases op with
      | tryAcquire => exact h
      | release => exact h
      | other op => exact h

/-- A part of the section that does not touch the lock. -/
theorem Program.Safe.guarded {p : Program Op Ret β} {f : β → Locked Op Ret α}
    {R : β → W → Prop} {w : W} (h : p.Safe E L.sections R w)
    (hf : ∀ b w', R b w' → (f b).Guarded E L Q true w') :
    (p.unlocked.bind f).Guarded E L Q true w := by
  induction p generalizing w with
  | pure b => exact hf b w h
  | call op next ih =>
      intro w₁ h₁
      obtain ⟨hguard, hnext⟩ := h w₁ h₁
      exact ⟨hguard, fun r w₂ hE => ih r (hnext r w₂ hE)⟩

/-- The calls outside a section, while anything may happen. -/
def Protection.apart (L : Protection Op W) : Discipline Op W where
  rely := fun _ _ => True
  guard := fun _ op => L.outside op

/-- A part outside the section that does not touch the lock. -/
theorem Program.Safe.guarded_outside {p : Program Op Ret β} {f : β → Locked Op Ret α}
    {R : β → Prop} {w : W} (h : p.Safe E L.apart (fun b _ => R b) w)
    (hf : ∀ b, R b → ∀ w, (f b).Guarded E L Q false w) (w' : W) :
    (p.unlocked.bind f).Guarded E L Q false w' := by
  induction p generalizing w w' with
  | pure b => exact hf b h w'
  | call op next ih =>
      refine ⟨(h w trivial).1, fun w₁ r w₂ hE => ?_⟩
      have hnext := (h w₁ trivial).2 r w₂ hE
      exact ih r hnext w₂

/-- A part at which a program stays apart. -/
theorem Program.Safe.apart {p : Program Op Ret β} {f : β → Locked Op Ret α}
    {R : β → Prop} {S : α → Prop} {w : W} (h : p.Safe E L.apart (fun b _ => R b) w)
    (hf : ∀ b, R b → (f b).Apart E L.outside S) : (p.unlocked.bind f).Apart E L.outside S := by
  induction p generalizing w with
  | pure b => exact hf b h
  | call op next ih =>
      refine ⟨(h w trivial).1, fun w₁ r w₂ hE => ?_⟩
      have hnext := (h w₁ trivial).2 r w₂ hE
      exact ih r hnext

/-- A thread is in its section if it holds the lock. -/
def Thread.Guarded (E : Env Op Ret W) (L : Protection Op W) (Q : α → W → Prop) (w : W)
    (t : Thread Op Ret α) : Prop :=
  t.program.Guarded E L Q t.holds w

namespace Pool

/-- The number of threads in their section. -/
def insiders (ts : List (Thread Op Ret α)) : ℕ := ts.countP Thread.holds

/-- The invariant of a pool. -/
structure Sound (E : Env Op Ret W) (L : Protection Op W) (Q : α → W → Prop) (c : Pool Op Ret W α) :
    Prop where
  inside : insiders c.threads = if c.held then 1 else 0
  free : c.held = false → L.invariant c.state
  threads : ∀ t ∈ c.threads, t.Guarded E L Q c.state

variable {w w' : W} {l b : Bool} {ts before after : List (Thread Op Ret α)} {p p' : Locked Op Ret α}

theorem insiders_append :
    insiders (before ++ ⟨p, b⟩ :: after) = insiders (before ++ after) + if b then 1 else 0 := by
  simp only [insiders, List.countP_append, List.countP_cons]
  omega

/-- The threads beside one of them. -/
theorem mem_beside {t : Thread Op Ret α} (h : t ∈ before ++ ⟨p', b⟩ :: after) :
    t = ⟨p', b⟩ ∨ t ∈ before ++ after := by
  simp only [List.mem_append, List.mem_cons] at h ⊢
  grind

theorem beside_mem {t u : Thread Op Ret α} (h : t ∈ before ++ after) :
    t ∈ before ++ u :: after := by
  simp only [List.mem_append, List.mem_cons] at h ⊢
  grind

/-- Threads of which nobody is in a section. -/
theorem guarded_of_none (hnone : insiders ts = 0) (hQ : ∀ a, Q a w → Q a w')
    (h : ∀ t ∈ ts, t.Guarded E L Q w) : ∀ t ∈ ts, t.Guarded E L Q w' := by
  intro t ht
  have hout : t.holds = false := by simpa using List.countP_eq_zero.mp hnone t ht
  have hg := h t ht
  rw [Thread.Guarded, hout] at hg ⊢
  exact hg.elsewhere hQ

/-- Threads after a move of somebody else. -/
theorem guarded_of_rely (hL : L.Lawful E others) (hmove : L.sections.rely w w')
    (hQ : ∀ a, Q a w → Q a w') (h : ∀ t ∈ ts, t.Guarded E L Q w) :
    ∀ t ∈ ts, t.Guarded E L Q w' := by
  intro t ht
  have hg := h t ht
  cases hholds : t.holds with
  | true =>
      rw [Thread.Guarded, hholds] at hg ⊢
      exact hg.moved hL hmove
  | false =>
      rw [Thread.Guarded, hholds] at hg ⊢
      exact hg.elsewhere hQ

/-- A thread in its section holds the lock, and no other thread is in one. -/
theorem Sound.alone (h : Sound E L Q ⟨w, l, before ++ ⟨p, true⟩ :: after⟩) :
    l = true ∧ insiders (before ++ after) = 0 := by
  have hinside := h.inside
  simp only [insiders_append, if_true] at hinside
  cases l with
  | true => exact ⟨rfl, by simpa using hinside⟩
  | false => exact absurd hinside (by simp)

/-! ### One step -/

/-- A thread outside its section makes a call. -/
theorem Sound.callOutside (hL : L.Lawful E others) (hQ : Lasting E others Q) {op : Op}
    {next : Ret op → Locked Op Ret α} {r : Ret op}
    (h : Sound E L Q ⟨w, l, before ++ ⟨.call (.other op) next, false⟩ :: after⟩)
    (hE : E w op r w') : Sound E L Q ⟨w', l, before ++ ⟨next r, false⟩ :: after⟩ := by
  have hthread := h.threads ⟨.call (.other op) next, false⟩ (by simp)
  obtain ⟨hop, hnext⟩ := hthread
  have hmove := hL.outside hop hE
  refine ⟨?_, fun hl => hL.stable hmove (h.free hl), fun t ht => ?_⟩
  · have hinside := h.inside
    simp only [insiders_append] at hinside ⊢
    exact hinside
  · rcases mem_beside ht with rfl | ht
    · exact hnext w r w' hE
    · exact guarded_of_rely hL hmove (fun _ => hQ.call hE)
        (fun u hu => h.threads u (beside_mem hu)) t ht

/-- The thread in its section makes a call. -/
theorem Sound.callInside (hL : L.Lawful E others) (hQ : Lasting E others Q) {op : Op}
    {next : Ret op → Locked Op Ret α} {r : Ret op}
    (h : Sound E L Q ⟨w, l, before ++ ⟨.call (.other op) next, true⟩ :: after⟩)
    (hE : E w op r w') : Sound E L Q ⟨w', l, before ++ ⟨next r, true⟩ :: after⟩ := by
  have hthread := h.threads ⟨.call (.other op) next, true⟩ (by simp)
  obtain ⟨hheld, hnone⟩ := h.alone
  refine ⟨?_, fun hl => absurd (hheld.symm.trans hl) (by simp), fun t ht => ?_⟩
  · simp [insiders_append, hnone, hheld]
  · rcases mem_beside ht with rfl | ht
    · exact (hthread w (hL.refl w)).2 r w' hE
    · exact guarded_of_none hnone (fun _ => hQ.call hE)
        (fun u hu => h.threads u (beside_mem hu)) t ht

/-- A thread that finds the lock free. -/
theorem Sound.acquire {next : Bool → Locked Op Ret α}
    (h : Sound E L Q ⟨w, false, before ++ ⟨.call .tryAcquire next, b⟩ :: after⟩) :
    Sound E L Q ⟨w, true, before ++ ⟨next true, true⟩ :: after⟩ := by
  have hinside := h.inside
  simp only [insiders_append] at hinside
  have hnone : insiders (before ++ after) = 0 := by
    have : insiders (before ++ after) + (if b then 1 else 0) = 0 := hinside
    omega
  have hout : b = false := by
    by_contra hb
    rw [if_pos (by simpa using hb)] at hinside
    exact absurd hinside (by simp)
  subst hout
  have hthread := h.threads ⟨.call .tryAcquire next, false⟩ (by simp)
  refine ⟨?_, by simp, fun t ht => ?_⟩
  · simp [insiders_append, hnone]
  · rcases mem_beside ht with rfl | ht
    · exact hthread.1 w (h.free rfl)
    · exact h.threads t (beside_mem ht)

/-- A thread that finds the lock taken. -/
theorem Sound.refuse {next : Bool → Locked Op Ret α}
    (h : Sound E L Q ⟨w, true, before ++ ⟨.call .tryAcquire next, b⟩ :: after⟩) :
    Sound E L Q ⟨w, true, before ++ ⟨next false, b⟩ :: after⟩ := by
  have hthread := h.threads ⟨.call .tryAcquire next, b⟩ (by simp)
  have hout : b = false := by
    cases b with
    | true => exact hthread.elim
    | false => rfl
  subst hout
  refine ⟨?_, by simp, fun t ht => ?_⟩
  · have hinside := h.inside
    simp only [insiders_append] at hinside ⊢
    exact hinside
  · rcases mem_beside ht with rfl | ht
    · exact hthread.2 w
    · exact h.threads t (beside_mem ht)

/-- The thread in its section gives the lock back. -/
theorem Sound.release (hL : L.Lawful E others) {next : Unit → Locked Op Ret α}
    (h : Sound E L Q ⟨w, l, before ++ ⟨.call .release next, b⟩ :: after⟩) :
    Sound E L Q ⟨w, false, before ++ ⟨next (), false⟩ :: after⟩ := by
  have hthread := h.threads ⟨.call .release next, b⟩ (by simp)
  have hin : b = true := by
    cases b with
    | true => rfl
    | false => exact hthread.elim
  subst hin
  obtain ⟨-, hnone⟩ := h.alone
  obtain ⟨hinvariant, hnext⟩ := hthread w (hL.refl w)
  refine ⟨?_, fun _ => hinvariant, fun t ht => ?_⟩
  · simp [insiders_append, hnone]
  · rcases mem_beside ht with rfl | ht
    · exact hnext
    · exact h.threads t (beside_mem ht)

/-- **The rule of the lock.** -/
theorem sound {Start : Locked Op Ret α → Prop} (hL : L.Lawful E others) (hQ : Lasting E others Q)
    (hstart : ∀ p, Start p → ∀ w, p.Guarded E L Q false w) (hw : L.invariant w)
    {c : Pool Op Ret W α} (hc : Reachable E Start others w c) : Sound E L Q c := by
  induction hc with
  | refl => exact ⟨rfl, fun _ => hw, by simp⟩
  | tail _ hs ih =>
      cases hs with
      | start p hp =>
          refine ⟨?_, ih.free, fun t ht => ?_⟩
          · have hinside := ih.inside
            simp only [insiders, List.countP_cons] at hinside ⊢
            simpa using hinside
          · rcases List.mem_cons.mp ht with rfl | ht
            · exact hstart p hp _
            · exact ih.threads t ht
      | others h =>
          exact ⟨ih.inside, fun hl => hL.stable (hL.others h) (ih.free hl),
            guarded_of_rely hL (hL.others h) (fun _ => hQ.others h) ih.threads⟩
      | acquire => exact ih.acquire
      | refuse => exact ih.refuse
      | release => exact ih.release hL
      | @call v v' l b before after op next r h =>
          cases b with
          | false => exact ih.callOutside hL hQ h
          | true => exact ih.callInside hL hQ h

/-! ### What the invariant says -/

variable {c : Pool Op Ret W α}

/-- A thread that is done has its postcondition. -/
theorem Sound.done (h : Sound E L Q c) {t : Thread Op Ret α} {a : α} (ht : t ∈ c.threads)
    (ha : t.program = .pure a) : Q a c.state := by
  have hg := h.threads t ht
  rw [Thread.Guarded, ha] at hg
  cases hholds : t.holds with
  | true =>
      rw [hholds] at hg
      exact hg.elim
  | false =>
      rw [hholds] at hg
      exact hg

/-- A thread whose next call belongs into a section holds the lock, and the call is guarded. -/
theorem Sound.holder (hL : L.Lawful E others) (h : Sound E L Q c) {t : Thread Op Ret α} {op : Op}
    {next : Ret op → Locked Op Ret α} (ht : t ∈ c.threads)
    (hnext : t.program = .call (.other op) next) (hop : ¬L.outside op) :
    t.holds = true ∧ L.sections.guard c.state op := by
  have hg := h.threads t ht
  rw [Thread.Guarded, hnext] at hg
  cases hholds : t.holds with
  | true =>
      rw [hholds] at hg
      exact ⟨rfl, (hg _ (hL.refl _)).1⟩
  | false =>
      rw [hholds] at hg
      exact absurd hg.1 hop

/-- What the invariant of the lock says, and every guard, holds in every state. -/
theorem Sound.always (hL : L.Lawful E others) {J : W → Prop} (h : Sound E L Q c)
    (hinvariant : ∀ w, L.invariant w → J w) (hguard : ∀ w op, L.sections.guard w op → J w) :
    J c.state := by
  cases hheld : c.held with
  | false => exact hinvariant _ (h.free hheld)
  | true =>
      have hinside := h.inside
      rw [hheld, if_pos rfl] at hinside
      obtain ⟨⟨p, b⟩, ht, hb⟩ := List.countP_pos_iff.mp (hinside.symm ▸ Nat.one_pos)
      have hg := h.threads _ ht
      obtain rfl : b = true := hb
      cases p with
      | pure a => exact hg.elim
      | call op next =>
          cases op with
          | tryAcquire => exact hg.elim
          | release => exact hinvariant _ (hg _ (hL.refl _)).1
          | other op => exact hguard _ op (hg _ (hL.refl _)).1

/-- The lock is taken exactly while a thread is in its section. -/
theorem Sound.held_iff (h : Sound E L Q c) : c.held = true ↔ ∃ t ∈ c.threads, t.holds = true := by
  rw [← List.countP_pos_iff, ← insiders, h.inside]
  cases c.held <;> simp

/-- No two threads are in their sections. -/
theorem Sound.exclusive (h : Sound E L Q c) {between : List (Thread Op Ret α)}
    {t u : Thread Op Ret α} (hts : c.threads = before ++ t :: between ++ u :: after) :
    ¬(t.holds = true ∧ u.holds = true) := by
  rintro ⟨ht, hu⟩
  have hinside := h.inside
  rw [hts] at hinside
  simp only [insiders, List.countP_append, List.countP_cons, ht, hu, if_true] at hinside
  split at hinside <;> omega

/-! ### Threads that stay apart -/

/-- Threads that stay apart leave the lock free and make only moves the sections rely on. -/
theorem apart {Start : Locked Op Ret α → Prop} {S : α → Prop} (hL : L.Lawful E others)
    (hstart : ∀ p, Start p → p.Apart E L.outside S) (hc : Reachable E Start others w c) :
    c.held = false ∧ L.sections.rely w c.state ∧
      ∀ t ∈ c.threads, t.program.Apart E L.outside S := by
  induction hc with
  | refl => exact ⟨rfl, hL.refl w, by simp⟩
  | tail _ hs ih =>
      obtain ⟨hfree, hmoved, hthreads⟩ := ih
      cases hs with
      | start p hp =>
          refine ⟨hfree, hmoved, fun t ht => ?_⟩
          rcases List.mem_cons.mp ht with rfl | ht
          · exact hstart p hp
          · exact hthreads t ht
      | others h => exact ⟨hfree, hL.trans hmoved (hL.others h), hthreads⟩
      | @acquire v b before after next =>
          exact (hthreads ⟨.call .tryAcquire next, b⟩ (by simp)).elim
      | refuse => exact absurd hfree (by simp)
      | @release v l b before after next =>
          exact (hthreads ⟨.call .release next, b⟩ (by simp)).elim
      | @call v v' l b before after op next r h =>
          obtain ⟨hop, hnext⟩ := hthreads ⟨.call (.other op) next, b⟩ (by simp)
          refine ⟨hfree, hL.trans hmoved (hL.outside hop h), fun t ht => ?_⟩
          rcases mem_beside ht with rfl | ht
          · exact hnext v r v' h
          · exact hthreads t (beside_mem ht)

end Pool

end rules

end Effect
