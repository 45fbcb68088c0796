import MailTransporter.Effect.Discipline

set_option autoImplicit false

/-! # Overlapping programs

Any number of programs on one state, their calls interleaved in any order. A program may start at
any time and may stop at any time, finished or not: a crash is a stop. `System.safe` is the parallel
rule: if each program is safe under a discipline whose `rely` covers every guarded call and every
move of the others, an invariant kept by `rely` holds in every reachable system. -/

namespace Effect

variable {Op : Type} {Ret : Op → Type} {W : Type}

/-- A routine on the object `s` as a program under way: nobody waits for its outcome. -/
def Routine.thread {V : Op → Type} {ε σ α : Type} (m : Routine Op V ε σ α) (s : σ) :
    Program Op (Answer V ε) Unit := (m s).bind (fun _ => .pure ())

/-- A state and the programs under way on it. -/
structure System (Op : Type) (Ret : Op → Type) (W : Type) where
  state : W
  threads : List (Program Op Ret Unit)

/-- One step of a system: a program starts, the others move, one program makes a call, or one
    program stops where it is. -/
inductive System.Step (E : Env Op Ret W) (Start : Program Op Ret Unit → Prop)
    (others : W → W → Prop) : System Op Ret W → System Op Ret W → Prop
  | start {w : W} {ts : List (Program Op Ret Unit)} (p : Program Op Ret Unit) (h : Start p) :
      System.Step E Start others ⟨w, ts⟩ ⟨w, p :: ts⟩
  | others {w w' : W} {ts : List (Program Op Ret Unit)} (h : others w w') :
      System.Step E Start others ⟨w, ts⟩ ⟨w', ts⟩
  | call {w w' : W} {before after : List (Program Op Ret Unit)} {op : Op}
      {next : Ret op → Program Op Ret Unit} {r : Ret op} (h : E w op r w') :
      System.Step E Start others ⟨w, before ++ .call op next :: after⟩
        ⟨w', before ++ next r :: after⟩
  | stop {w : W} {before after : List (Program Op Ret Unit)} (p : Program Op Ret Unit) :
      System.Step E Start others ⟨w, before ++ p :: after⟩ ⟨w, before ++ after⟩

/-- The systems reached from the state `w` with no program under way. -/
def System.Reachable (E : Env Op Ret W) (Start : Program Op Ret Unit → Prop)
    (others : W → W → Prop) (w : W) : System Op Ret W → Prop :=
  Relation.ReflTransGen (System.Step E Start others) ⟨w, []⟩

variable {E : Env Op Ret W} {D : Discipline Op W} {Start : Program Op Ret Unit → Prop}
  {others : W → W → Prop} {I : W → Prop}

/-- **The parallel rule.** -/
theorem System.safe (refl : ∀ w, D.rely w w)
    (trans : ∀ {a b c}, D.rely a b → D.rely b c → D.rely a c)
    (hcall : ∀ {w op r w'}, I w → D.guard w op → E w op r w' → D.rely w w')
    (hothers : ∀ {w w'}, I w → others w w' → D.rely w w')
    (hI : ∀ {w w'}, D.rely w w' → I w → I w')
    (hstart : ∀ p, Start p → ∀ w, I w → p.Safe E D (fun _ _ => True) w)
    {w : W} (hw : I w) {c : System Op Ret W} (hc : System.Reachable E Start others w c) :
    I c.state ∧ ∀ p ∈ c.threads, p.Safe E D (fun _ _ => True) c.state := by
  have onward : ∀ {p : Program Op Ret Unit} {v v' : W}, D.rely v v' →
      p.Safe E D (fun _ _ => True) v → p.Safe E D (fun _ _ => True) v' :=
    fun h hp => hp.rely h trans (fun _ _ _ _ h => h)
  induction hc with
  | refl => exact ⟨hw, by simp⟩
  | tail _ hs ih =>
      obtain ⟨hv, hts⟩ := ih
      cases hs with
      | start p hp =>
          refine ⟨hv, fun q hq => ?_⟩
          rcases List.mem_cons.mp hq with rfl | hq
          · exact hstart _ hp _ hv
          · exact hts q hq
      | others h =>
          have hr := hothers hv h
          exact ⟨hI hr hv, fun q hq => onward hr (hts q hq)⟩
      | @call v v' before after op next r h =>
          obtain ⟨hg, hn⟩ := hts (.call op next) (by simp) v (refl v)
          have hr := hcall hv hg h
          refine ⟨hI hr hv, fun q hq => ?_⟩
          rcases List.mem_append.mp hq with hq | hq
          · exact onward hr (hts q (by simp [hq]))
          · rcases List.mem_cons.mp hq with rfl | hq
            · exact hn r v' h
            · exact onward hr (hts q (by simp [hq]))
      | stop p =>
          refine ⟨hv, fun q hq => hts q ?_⟩
          rcases List.mem_append.mp hq with hq | hq <;> simp [hq]

/-- A program under way may go on by itself. -/
theorem System.Step.run {w w' : W} {p p' : Program Op Ret Unit}
    (before after : List (Program Op Ret Unit)) (h : Program.Steps E (w, p) (w', p')) :
    Relation.ReflTransGen (System.Step E Start others) ⟨w, before ++ p :: after⟩
      ⟨w', before ++ p' :: after⟩ := by
  generalize hc : (w, p) = c at h
  generalize hc' : (w', p') = c' at h
  induction h generalizing w' p' with
  | refl =>
      cases hc.trans hc'.symm
      exact .refl
  | tail _ hs ih =>
      cases hs with
      | call hE =>
          cases hc'
          exact (ih rfl).tail (.call hE)

/-- A whole session from start to end. -/
theorem System.Reachable.session {w v v' : W} {ts : List (Program Op Ret Unit)}
    {p p' : Program Op Ret Unit} (h : System.Reachable E Start others w ⟨v, ts⟩) (hp : Start p)
    (hs : Program.Steps E (v, p) (v', p')) :
    System.Reachable E Start others w ⟨v', p' :: ts⟩ :=
  (h.tail (.start p hp)).trans (System.Step.run [] ts hs)

end Effect
