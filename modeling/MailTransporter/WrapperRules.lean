import MailTransporter.Wrapper

set_option autoImplicit false

/-! # What a wrapper lets through

The argument loop of a wrapper reads the items of its argument vector (`loop_eq`). A vector gets
through exactly if its flags are found in the list, its texts are screened, it has at most one
verdict and, where something is posted, the body opens with the line of the verdict
(`script_ok_iff`). -/

namespace MailTransporter

open Text

namespace Wrapper

variable {sub : Sub} {tokens : Tokens} {space : Char → Bool}

/-- A computation with two steps succeeds if both do. -/
theorem bind_eq_ok_iff {ε α β : Type} {first : Except ε α} {next : α → Except ε β} {result : β} :
    (first >>= next) = .ok result ↔ ∃ value, first = .ok value ∧ next value = .ok result := by
  cases first with
  | error e => simp [bind, Except.bind]
  | ok value => simp [bind, Except.bind]

/-! ## The list of flags -/

/-- The flags in the list of a script. -/
def listed : Sub → List String
  | .view => ["--json"]
  | .diff => []
  | .comment => ["--body"]
  | .review => ["--approve", "--request-changes", "--body"]

theorem flags_eq (sub : Sub) :
    (flags sub).toList = padded ' ' ((listed sub).map String.toList) := by
  cases sub <;> decide

theorem noBlank_of_listed : ∀ w ∈ (listed sub).map String.toList, ' ' ∉ w := by
  cases sub <;> decide

/-- **What the search finds:** flags of the list, and several consecutive ones in one argument. -/
theorem admitted_iff {name : String} :
    Admitted sub name ↔ name.toList.splitOn ' ' <:+: (listed sub).map String.toList := by
  rw [Admitted, flags_eq]
  exact infix_padded_iff noBlank_of_listed

theorem mem_listed_iff {name : String} (h : ' ' ∉ name.toList) :
    name ∈ listed sub ↔ Admitted sub name := by
  rw [admitted_iff, List.splitOn_eq_singleton h, List.singleton_infix_iff, List.mem_map]
  constructor
  · intro hname
    exact ⟨name, hname, rfl⟩
  · rintro ⟨name', hname, heq⟩
    rwa [← String.toList_inj.mp heq]

theorem admitted_of_mem {name : String} (h : name ∈ listed sub) : Admitted sub name :=
  (mem_listed_iff (noBlank_of_listed _ (List.mem_map_of_mem h))).mp h

/-- A flag that is found starts with two dashes and a letter. -/
theorem Admitted.isLong {name : String} (h : Admitted sub name) : isLong name = true := by
  have hinfix := admitted_iff.mp h
  obtain ⟨first, rest, hsplit⟩ :=
    List.exists_cons_of_ne_nil (List.splitOn_ne_nil ' ' name.toList)
  have hfirst : first ∈ (listed sub).map String.toList :=
    hinfix.subset (hsplit ▸ List.mem_cons_self)
  obtain ⟨word, hword, rfl⟩ := List.mem_map.mp hfirst
  have hjoin : [' '].intercalate (name.toList.splitOn ' ') = name.toList :=
    List.intercalate_splitOn ' '
  have hback : ∃ back, name.toList = word.toList ++ back := by
    rw [← hjoin, hsplit]
    cases rest with
    | nil => exact ⟨[], by simp⟩
    | cons next rest => exact ⟨_, List.intercalate_cons_cons.trans (List.append_assoc _ _ _)⟩
  obtain ⟨back, hname⟩ := hback
  have hlong : ∀ word ∈ listed sub, ∃ c rest, word.toList = '-' :: '-' :: c :: rest ∧ c ≠ '-' := by
    cases sub <;> simp [listed]
  obtain ⟨c, letters, hletters, hc⟩ := hlong word hword
  rw [hletters] at hname
  simp [Text.isLong, hname, hc]

/-! ## The screen -/

/-- There is something to compare with, and none of it is in the text. -/
structure Screened (sub : Sub) (tokens : Tokens) (text : String) : Prop where
  credential : posts sub = true → ∃ secret ∈ tokens.values, secret ≠ ""
  clean : ∀ secret ∈ tokens.values, secret ≠ "" → ¬secret.toList <:+: text.toList

theorem forM_eq_ok_iff {ε α : Type} {f : α → Except ε Unit} {l : List α} :
    l.forM f = .ok () ↔ ∀ x ∈ l, f x = .ok () := by
  induction l with
  | nil => simp [pure, Except.pure]
  | cons x rest ih =>
      have hstep : (x :: rest).forM f = (f x >>= fun _ => rest.forM f) := rfl
      rw [hstep, bind_eq_ok_iff, List.forall_mem_cons, ← ih]
      constructor
      · rintro ⟨_, h⟩
        exact h
      · intro h
        exact ⟨(), h⟩

/-- The three values together are empty if each of them is. -/
theorem join_eq_empty_iff :
    tokens.claudeCodeOauthToken ++ tokens.githubToken ++ tokens.ghToken = "" ↔
      ∀ secret ∈ tokens.values, secret = "" := by
  simp [Tokens.values, and_assoc]

/-- **What `check_secret` lets through.** -/
theorem checkSecret_eq_ok_iff {text : String} {done : Unit} :
    checkSecret sub tokens text = .ok done ↔ Screened sub tokens text := by
  rw [checkSecret]
  by_cases hempty : tokens.claudeCodeOauthToken ++ tokens.githubToken ++ tokens.ghToken = ""
  · have hall := join_eq_empty_iff.mp hempty
    rw [if_pos hempty]
    by_cases hposts : posts sub = true
    · rw [if_pos hposts]
      constructor
      · intro h
        exact absurd h (by simp)
      · intro h
        obtain ⟨secret, hmem, hne⟩ := h.credential hposts
        exact absurd (hall secret hmem) hne
    · rw [if_neg hposts]
      constructor
      · intro _
        exact ⟨fun h => absurd h hposts, fun secret hmem hne => absurd (hall secret hmem) hne⟩
      · intro _
        rfl
  · rw [if_neg hempty, forM_eq_ok_iff]
    have hsome : ∃ secret ∈ tokens.values, secret ≠ "" := by
      by_contra hnone
      apply hempty
      apply join_eq_empty_iff.mpr
      intro secret hmem
      by_contra hne
      exact hnone ⟨secret, hmem, hne⟩
    constructor
    · intro h
      refine ⟨fun _ => hsome, fun secret hmem hne hin => ?_⟩
      have hsecret := h secret hmem
      rw [if_pos ⟨hne, hin⟩] at hsecret
      exact absurd hsecret (by simp)
    · intro h secret hmem
      exact if_neg (fun hc => h.clean secret hmem hc.1 hc.2)

/-! ## The loop reads the items -/

/-- The flags whose value may be the next argument. -/
def takesValue (name : String) : Bool := decide (name = "--body" ∨ name = "--json")

/-- The items of an argument vector. -/
abbrev vector (args : List String) : List Item := items takesValue none args

/-- The two flags that carry a verdict. -/
def IsVerdict (name : String) : Prop := name = "--approve" ∨ name = "--request-changes"

instance (name : String) : Decidable (IsVerdict name) := inferInstanceAs (Decidable (_ ∨ _))

/-- A flag that takes a value carries no verdict. -/
theorem not_isVerdict_of_takesValue {name : String} (h : takesValue name = true) :
    ¬IsVerdict name := by
  rcases of_decide_eq_true h with rfl | rfl <;> decide

/-- What the loop does with one item. -/
def take (sub : Sub) (tokens : Tokens) (s : Loop) : Item → Except Exit Loop
  | .positional text => do
      checkSecret sub tokens text
      .ok s
  | .flag name value =>
      if Admitted sub name then do
        let s ← setVerdict sub s name
        match value with
        | none => .ok s
        | some value =>
            checkSecret sub tokens value
            .ok (setBody s name value)
      else .error (refusedFlag sub name)

/-- The variables with nothing expected. -/
def settled (s : Loop) : Loop := { s with expectValue := "" }

/-- The loop expects the value of the flag that waits for it. -/
structure Waits (sub : Sub) (s : Loop) (pending : Option String) : Prop where
  expect : s.expectValue = pending.getD ""
  flag : ∀ name, pending = some name → Admitted sub name ∧ takesValue name = true

theorem settled_eq {s : Loop} (h : s.expectValue = "") : settled s = s := by
  rw [settled, ← h]

theorem setVerdict_of_not {s : Loop} {name : String} (h : ¬IsVerdict name) :
    setVerdict sub s name = .ok s := if_neg h

theorem setVerdict_expectValue {s s' : Loop} {name : String} (h : setVerdict sub s name = .ok s') :
    s'.expectValue = s.expectValue := by
  unfold setVerdict at h
  split_ifs at h
  · rw [← Except.ok.inj h]
  · rw [← Except.ok.inj h]

@[simp] theorem setBody_expectValue (s : Loop) (name text : String) :
    (setBody s name text).expectValue = s.expectValue := by
  unfold setBody
  split_ifs <;> rfl

@[simp] theorem settled_setBody (s : Loop) (name text : String) :
    settled (setBody s name text) = setBody (settled s) name text := by
  unfold setBody
  split_ifs <;> rfl

variable {s : Loop} {arg : String}

theorem argument_positional (hexpect : s.expectValue = "") (hdashed : ¬isDashed arg = true) :
    argument sub tokens s arg = take sub tokens s (.positional arg) := by
  rw [argument, if_neg (not_not_intro hexpect), if_neg hdashed, take]

/-- A flag with its value, or one that takes none. -/
theorem argument_flag (hexpect : s.expectValue = "") (hdashed : isDashed arg = true)
    (h : ¬(valueOf arg = none ∧ takesValue arg = true)) :
    argument sub tokens s arg = take sub tokens s (.flag (nameOf arg) (valueOf arg)) := by
  rw [argument, if_neg (not_not_intro hexpect), if_pos hdashed, take]
  cases hvalue : valueOf arg with
  | some value => rfl
  | none =>
      have hflag : ¬(nameOf arg = "--body" ∨ nameOf arg = "--json") := by
        intro hflag
        rw [valueOf_eq_none_iff.mp hvalue] at hflag
        exact h ⟨hvalue, decide_eq_true hflag⟩
      simp only [if_neg hflag]

theorem argument_refused (hexpect : s.expectValue = "") (hdashed : isDashed arg = true)
    (h : ¬Admitted sub (nameOf arg)) :
    argument sub tokens s arg = .error (refusedFlag sub (nameOf arg)) := by
  rw [argument, if_neg (not_not_intro hexpect), if_pos hdashed]
  exact if_neg h

/-- A flag whose value is the next argument. -/
theorem argument_waiting (hexpect : s.expectValue = "") (hdashed : isDashed arg = true)
    (hvalue : valueOf arg = none) (htakes : takesValue arg = true) (h : Admitted sub arg) :
    argument sub tokens s arg = .ok { s with expectValue := arg } := by
  have hname := valueOf_eq_none_iff.mp hvalue
  have hflag := of_decide_eq_true htakes
  rw [argument, if_neg (not_not_intro hexpect), if_pos hdashed]
  simp only [hname, hvalue, if_pos h, setVerdict_of_not (not_isVerdict_of_takesValue htakes),
    if_pos hflag]
  rfl

/-- The value a flag has been waiting for. -/
theorem argument_value {name : String} (hexpect : s.expectValue = name)
    (htakes : takesValue name = true) (h : Admitted sub name) :
    argument sub tokens s arg = take sub tokens (settled s) (.flag name (some arg)) := by
  have hne : s.expectValue ≠ "" := by
    rw [hexpect]
    rcases of_decide_eq_true htakes with rfl | rfl <;> decide
  have hsettled : { setBody s name arg with expectValue := "" } = setBody (settled s) name arg :=
    settled_setBody s name arg
  rw [argument, if_pos hne, take, if_pos h,
    setVerdict_of_not (not_isVerdict_of_takesValue htakes), hexpect, hsettled]
  rfl

theorem take_expectValue {s' : Loop} {item : Item} (h : take sub tokens s item = .ok s') :
    s'.expectValue = s.expectValue := by
  cases item with
  | positional text =>
      obtain ⟨_, _, heq⟩ := bind_eq_ok_iff.mp h
      rw [← Except.ok.inj heq]
  | flag name value =>
      rw [take] at h
      split_ifs at h with hadmitted
      obtain ⟨s₁, hverdict, hrest⟩ := bind_eq_ok_iff.mp h
      rw [← setVerdict_expectValue hverdict]
      cases value with
      | none => rw [← Except.ok.inj hrest]
      | some value =>
          obtain ⟨_, _, heq⟩ := bind_eq_ok_iff.mp hrest
          rw [← Except.ok.inj heq, setBody_expectValue]

/-- One item has been taken, and the loop goes on. -/
theorem loop_step {first : Except Exit Loop} {rest : List String}
    {next : Loop → Except Exit Loop}
    (h : ∀ s, first = .ok s →
      (rest.foldlM (argument sub tokens) s).map settled = next s) :
    (first >>= fun s => rest.foldlM (argument sub tokens) s).map settled = first >>= next := by
  cases first with
  | error e => rfl
  | ok s => exact h s rfl

/-- **The loop does with its arguments what `take` does with their items.** -/
theorem loop_eq {pending : Option String} (hw : Waits sub s pending) (args : List String) :
    (args.foldlM (argument sub tokens) s).map settled =
      (items takesValue pending args).foldlM (take sub tokens) (settled s) := by
  induction args generalizing pending s with
  | nil =>
      cases pending with
      | none => rfl
      | some name =>
          -- The flag at the end has no value.
          obtain ⟨hadmitted, htakes⟩ := hw.flag name rfl
          rw [items, List.foldlM_cons, take, if_pos hadmitted,
            setVerdict_of_not (not_isVerdict_of_takesValue htakes)]
          rfl
  | cons arg rest ih =>
      have hgo : ∀ item, ∀ s₁, s₁.expectValue = "" → ∀ s₂, take sub tokens s₁ item = .ok s₂ →
          (rest.foldlM (argument sub tokens) s₂).map settled =
            (items takesValue none rest).foldlM (take sub tokens) s₂ := by
        intro item s₁ hs₁ s₂ htake
        have hs₂ : s₂.expectValue = "" := (take_expectValue htake).trans hs₁
        have hnone : Waits sub s₂ none := ⟨hs₂, by simp⟩
        have hnext := ih hnone
        rwa [settled_eq hs₂] at hnext
      cases pending with
      | some name =>
          obtain ⟨hadmitted, htakes⟩ := hw.flag name rfl
          rw [List.foldlM_cons, items, List.foldlM_cons,
            argument_value hw.expect htakes hadmitted]
          exact loop_step (hgo _ _ rfl)
      | none =>
          have hexpect : s.expectValue = "" := hw.expect
          rw [settled_eq hexpect, List.foldlM_cons, items]
          by_cases hdashed : isDashed arg = true
          · rw [if_pos hdashed]
            by_cases hwaits : valueOf arg = none ∧ takesValue arg = true
            · obtain ⟨hvalue, htakes⟩ := hwaits
              rw [if_pos ⟨hvalue, htakes⟩]
              by_cases hadmitted : Admitted sub arg
              · have hnext : Waits sub { s with expectValue := arg } (some arg) :=
                  ⟨rfl, fun name h => Option.some.inj h ▸ ⟨hadmitted, htakes⟩⟩
                have hsettled : settled { s with expectValue := arg } = s := settled_eq hexpect
                rw [argument_waiting hexpect hdashed hvalue htakes hadmitted]
                exact (ih hnext).trans (by rw [hsettled])
              · rw [argument_refused hexpect hdashed
                  (by rwa [valueOf_eq_none_iff.mp hvalue] : ¬Admitted sub (nameOf arg)),
                  valueOf_eq_none_iff.mp hvalue]
                cases rest <;> rw [items, List.foldlM_cons, take, if_neg hadmitted] <;> rfl
            · rw [if_neg hwaits, List.foldlM_cons, argument_flag hexpect hdashed hwaits]
              exact loop_step (hgo _ _ hexpect)
          · rw [if_neg hdashed, List.foldlM_cons, argument_positional hexpect hdashed]
            exact loop_step (hgo _ _ hexpect)

/-! ## A vector that gets through -/

/-- The body the loop has found. -/
def posted (s : Loop) : Option String := if s.haveBody = true then some s.body else none

theorem posted_setBody (s : Loop) (name text : String) :
    posted (setBody s name text) = if name = "--body" then some text else posted s := by
  unfold setBody
  split_ifs <;> rfl

/-- The verdict, if the flag carries one. -/
def withVerdict (s : Loop) (name : String) : Loop :=
  if IsVerdict name then { s with verdict := name } else s

theorem setVerdict_eq_ok_iff {s' : Loop} {name : String} :
    setVerdict sub s name = .ok s' ↔
      (IsVerdict name → s.verdict = "" ∨ s.verdict = name) ∧ withVerdict s name = s' := by
  by_cases hname : IsVerdict name
  · have hflag : name = "--approve" ∨ name = "--request-changes" := hname
    rw [setVerdict, if_pos hflag, withVerdict, if_pos hname]
    by_cases hother : s.verdict ≠ "" ∧ s.verdict ≠ name
    · rw [if_pos hother]
      simp [hname, hother]
    · have hkept : s.verdict = "" ∨ s.verdict = name := by
        by_contra hnone
        exact hother (not_or.mp hnone)
      rw [if_neg hother, Except.ok.injEq]
      simp [hkept]
  · rw [setVerdict_of_not hname, Except.ok.injEq, withVerdict, if_neg hname]
    simp [hname]

/-- What one item does to the variables. -/
def taken (s : Loop) : Item → Loop
  | .positional _ => s
  | .flag name none => withVerdict s name
  | .flag name (some value) => setBody (withVerdict s name) name value

/-- **What `take` accepts.** -/
theorem take_eq_ok_iff {s' : Loop} {item : Item} :
    take sub tokens s item = .ok s' ↔
      (∀ name, item.name = some name → Admitted sub name ∧
        (IsVerdict name → s.verdict = "" ∨ s.verdict = name)) ∧
      (∀ text, item.text = some text → Screened sub tokens text) ∧ taken s item = s' := by
  cases item with
  | positional text =>
      rw [take, bind_eq_ok_iff]
      simp [Item.name, Item.text, taken, checkSecret_eq_ok_iff]
  | flag name value =>
      rw [take]
      by_cases hadmitted : Admitted sub name
      · rw [if_pos hadmitted, bind_eq_ok_iff]
        cases value with
        | none => simp [setVerdict_eq_ok_iff, Item.name, Item.text, taken, hadmitted, and_assoc]
        | some value =>
            simp [setVerdict_eq_ok_iff, Item.name, Item.text, taken, hadmitted, bind_eq_ok_iff,
              checkSecret_eq_ok_iff, and_assoc]
      · rw [if_neg hadmitted]
        simp [Item.name, hadmitted]

/-! ## The items of a vector -/

@[simp] theorem withVerdict_posted (s : Loop) (name : String) :
    posted (withVerdict s name) = posted s := by
  unfold withVerdict
  split_ifs <;> rfl

@[simp] theorem setBody_verdict (s : Loop) (name text : String) :
    (setBody s name text).verdict = s.verdict := by
  unfold setBody
  split_ifs <;> rfl

theorem taken_verdict (s : Loop) (item : Item) :
    (∃ name, item.name = some name ∧ IsVerdict name ∧ (taken s item).verdict = name) ∨
      (∀ name, item.name = some name → ¬IsVerdict name) ∧ (taken s item).verdict = s.verdict := by
  cases item with
  | positional text => exact Or.inr ⟨by simp [Item.name], rfl⟩
  | flag name value =>
      have hverdict : (taken s (.flag name value)).verdict = (withVerdict s name).verdict := by
        cases value with
        | none => rfl
        | some value => simp [taken]
      rw [hverdict, withVerdict]
      by_cases hname : IsVerdict name
      · exact Or.inl ⟨name, rfl, hname, by rw [if_pos hname]⟩
      · exact Or.inr ⟨by simp [Item.name, hname], by rw [if_neg hname]⟩

theorem posted_taken (s : Loop) (item : Item) :
    posted (taken s item) = (item.valueFor "--body").or (posted s) := by
  cases item with
  | positional text => rfl
  | flag name value =>
      cases value with
      | none => simp [taken, Item.valueFor]
      | some value =>
          rw [taken, posted_setBody, Item.valueFor, withVerdict_posted]
          by_cases hname : name = "--body"
          · simp [hname]
          · simp [hname]

/-- **What is known when the items have been taken.** -/
structure Passed (sub : Sub) (tokens : Tokens) (s : Loop) (vector : List Item) (s' : Loop) :
    Prop where
  names : ∀ name ∈ names vector, Admitted sub name
  texts : ∀ text ∈ texts vector, Screened sub tokens text
  verdict : ∀ name ∈ Text.names vector, IsVerdict name → s'.verdict = name
  kept : s.verdict ≠ "" → s'.verdict = s.verdict
  given : s'.verdict = s.verdict ∨ s'.verdict ∈ Text.names vector ∧ IsVerdict s'.verdict
  body : posted s' = (lastValue "--body" vector).or (posted s)

theorem IsVerdict.ne_empty {name : String} (h : IsVerdict name) : name ≠ "" := by
  rcases h with rfl | rfl <;> decide

theorem passed {vector : List Item} {s s' : Loop}
    (h : vector.foldlM (take sub tokens) s = .ok s') : Passed sub tokens s vector s' := by
  induction vector generalizing s with
  | nil =>
      have hs : s = s' := Except.ok.inj h
      subst hs
      exact ⟨by simp [names], by simp [texts], by simp [names], fun _ => rfl, Or.inl rfl,
        by simp [lastValue]⟩
  | cons item rest ih =>
      rw [List.foldlM_cons, bind_eq_ok_iff] at h
      obtain ⟨s₁, htake, hrest⟩ := h
      obtain ⟨hname, htext, rfl⟩ := take_eq_ok_iff.mp htake
      have hpassed := ih hrest
      constructor
      case names =>
        intro name hmem
        rcases mem_names_cons.mp hmem with hitem | hmem
        · exact (hname name hitem).1
        · exact hpassed.names name hmem
      case texts =>
        intro text hmem
        rcases mem_texts_cons.mp hmem with hitem | hmem
        · exact htext text hitem
        · exact hpassed.texts text hmem
      case verdict =>
        intro name hmem hverdict
        rcases mem_names_cons.mp hmem with hitem | hmem
        · rcases taken_verdict s item with ⟨name', hname', _, htaken⟩ | ⟨hnone, _⟩
          · rw [hitem, Option.some.injEq] at hname'
            subst hname'
            rw [hpassed.kept (htaken ▸ hverdict.ne_empty), htaken]
          · exact absurd hverdict (hnone name hitem)
        · exact hpassed.verdict name hmem hverdict
      case kept =>
        intro hs
        rcases taken_verdict s item with ⟨name, hitem, hverdict, htaken⟩ | ⟨_, htaken⟩
        · have hsame := ((hname name hitem).2 hverdict).resolve_left hs
          rw [hpassed.kept (htaken ▸ hverdict.ne_empty), htaken, hsame]
        · rw [hpassed.kept (htaken ▸ hs), htaken]
      case given =>
        rcases hpassed.given with hsame | ⟨hmem, hverdict⟩
        · rcases taken_verdict s item with ⟨name, hitem, hverdict, htaken⟩ | ⟨_, htaken⟩
          · right
            rw [hsame, htaken]
            exact ⟨mem_names_cons.mpr (Or.inl hitem), hverdict⟩
          · exact Or.inl (hsame.trans htaken)
        · exact Or.inr ⟨mem_names_cons.mpr (Or.inr hmem), hverdict⟩
      case body =>
        rw [hpassed.body, posted_taken, lastValue_cons, Option.or_assoc]

/-- All verdicts of a vector are the same. -/
def OneVerdict (vector : List Item) : Prop :=
  ∀ a ∈ names vector, ∀ b ∈ names vector, IsVerdict a → IsVerdict b → a = b

/-- **Such items are taken.** -/
theorem passes {vector : List Item} {s : Loop} (hnames : ∀ name ∈ names vector, Admitted sub name)
    (htexts : ∀ text ∈ texts vector, Screened sub tokens text) (hone : OneVerdict vector)
    (hs : ∀ name ∈ names vector, IsVerdict name → s.verdict = "" ∨ s.verdict = name) :
    ∃ s', vector.foldlM (take sub tokens) s = .ok s' := by
  induction vector generalizing s with
  | nil => exact ⟨s, rfl⟩
  | cons item rest ih =>
      have hnames' := fun name hmem => hnames name (mem_names_cons.mpr (Or.inr hmem))
      have htexts' := fun text hmem => htexts text (mem_texts_cons.mpr (Or.inr hmem))
      have hone' : OneVerdict rest := fun a ha b hb =>
        hone a (mem_names_cons.mpr (Or.inr ha)) b (mem_names_cons.mpr (Or.inr hb))
      have htake : take sub tokens s item = .ok (taken s item) := by
        apply take_eq_ok_iff.mpr
        refine ⟨fun name hitem => ?_, fun text hitem => htexts text
          (mem_texts_cons.mpr (Or.inl hitem)), rfl⟩
        have hmem : name ∈ names (item :: rest) := mem_names_cons.mpr (Or.inl hitem)
        exact ⟨hnames name hmem, hs name hmem⟩
      have hnext : ∀ name ∈ names rest, IsVerdict name →
          (taken s item).verdict = "" ∨ (taken s item).verdict = name := by
        intro name hmem hverdict
        have hmem' : name ∈ names (item :: rest) := mem_names_cons.mpr (Or.inr hmem)
        rcases taken_verdict s item with ⟨name', hitem, hverdict', htaken⟩ | ⟨_, htaken⟩
        · right
          rw [htaken]
          exact hone _ (mem_names_cons.mpr (Or.inl hitem)) _ hmem' hverdict' hverdict
        · rw [htaken]
          exact hs name hmem' hverdict
      obtain ⟨s', hrest⟩ := ih hnames' htexts' hone' hnext
      exact ⟨s', by rw [List.foldlM_cons, bind_eq_ok_iff]; exact ⟨_, htake, hrest⟩⟩

/-! ## The body -/

/-- The body starts with the line, after leading whitespace. -/
def Opens (space : Char → Bool) (body line : String) : Prop :=
  line.toList <+: body.toList.dropWhile space

/-- The line that belongs to a verdict. -/
def line (verdict : String) : String := if verdict = "--approve" then approve else changes

theorem line_approve : line "--approve" = approve := if_pos rfl

theorem line_requestChanges : line "--request-changes" = changes := if_neg (by decide)

/-- There is a body, and it opens with the line of the verdict. -/
def Opened (space : Char → Bool) (sub : Sub) (vector : List Item) : Prop :=
  ∃ body, lastValue "--body" vector = some body ∧
    if sub = .review then ∃ verdict ∈ names vector, IsVerdict verdict ∧ Opens space body (line verdict)
    else Opens space body approve ∨ Opens space body changes

theorem prefix_trimmed_iff {body line : String} :
    line.toList <+: (trimmed space body).toList ↔ Opens space body line := by
  rw [trimmed, String.toList_ofList, Opens]

theorem check_eq_ok_iff {ε : Type} {c : Prop} [Decidable c] {e : ε} {done : Unit} :
    (if c then Except.ok () else Except.error e) = .ok done ↔ c := by
  by_cases hc : c
  · simp [hc]
  · simp [hc]

/-- **What the checks behind the loop let through.** -/
theorem checkPost_eq_ok_iff {vector : List Item} {s : Loop} {done : Unit}
    (h : Passed sub tokens {} vector s) :
    checkPost space sub s = .ok done ↔ (posts sub = true → Opened space sub vector) := by
  have hbody : posted s = lastValue "--body" vector := by
    rw [h.body]
    exact Option.or_none
  rw [checkPost]
  by_cases hposts : posts sub = true
  · rw [if_pos hposts]
    by_cases hnone : s.haveBody = false
    · rw [posted, hnone] at hbody
      rw [if_pos hnone]
      constructor
      · intro hok
        exact absurd hok (by simp)
      · intro hopened
        obtain ⟨body, hlast, _⟩ := hopened hposts
        exact absurd (hbody.trans hlast) (by simp)
    · rw [posted, if_pos (Bool.not_eq_false _ ▸ hnone)] at hbody
      have hopened : Opened space sub vector ↔
          if sub = .review then
            ∃ verdict ∈ names vector, IsVerdict verdict ∧ Opens space s.body (line verdict)
          else Opens space s.body approve ∨ Opens space s.body changes := by
        rw [Opened, ← hbody]
        simp
      rw [if_neg hnone, hopened, imp_iff_right hposts]
      by_cases hreview : sub = .review
      · rw [if_pos hreview, if_pos hreview]
        by_cases hverdict : s.verdict = ""
        · rw [if_pos hverdict]
          constructor
          · intro hok
            exact absurd hok (by simp)
          · rintro ⟨verdict, hmem, his, _⟩
            exact absurd ((h.verdict verdict hmem his).symm.trans hverdict) his.ne_empty
        · obtain ⟨hmem, his⟩ := h.given.resolve_left hverdict
          have hline : (∃ verdict ∈ names vector, IsVerdict verdict ∧
              Opens space s.body (line verdict)) ↔ Opens space s.body (line s.verdict) := by
            constructor
            · rintro ⟨verdict, hmem', his', hopens⟩
              rwa [h.verdict verdict hmem' his']
            · intro hopens
              exact ⟨s.verdict, hmem, his, hopens⟩
          rw [if_neg hverdict, hline]
          exact check_eq_ok_iff.trans prefix_trimmed_iff
      · rw [if_neg hreview, if_neg hreview]
        exact check_eq_ok_iff.trans (or_congr prefix_trimmed_iff prefix_trimmed_iff)
  · rw [if_neg hposts]
    simp [hposts]

/-! ## The script -/

/-- What a vector has to be like to get through. -/
structure Passable (space : Char → Bool) (sub : Sub) (tokens : Tokens) (args : List String) :
    Prop where
  names : ∀ name ∈ names (vector args), Admitted sub name
  texts : ∀ text ∈ texts (vector args), Screened sub tokens text
  oneVerdict : OneVerdict (vector args)
  opened : posts sub = true → Opened space sub (vector args)

theorem loop_ok_iff {args : List String} {s : Loop} :
    (vector args).foldlM (take sub tokens) {} = .ok s ↔
      ∃ s₁, args.foldlM (argument sub tokens) {} = .ok s₁ ∧ settled s₁ = s := by
  have hwaits : Waits sub {} none := ⟨rfl, by simp⟩
  have hloop : (args.foldlM (argument sub tokens) {}).map settled =
      (vector args).foldlM (take sub tokens) {} := loop_eq hwaits args
  rw [← hloop]
  cases args.foldlM (argument sub tokens) {} with
  | error e => simp [Except.map]
  | ok s₁ => simp [Except.map]

/-- **The vectors with which a script calls `gh`.** -/
theorem script_ok_iff {number : ℕ} {args : List String} :
    (∃ call, script space sub number tokens args = .ok call) ↔
      Passable space sub tokens args := by
  have hscript : (∃ call, script space sub number tokens args = .ok call) ↔
      ∃ s, (vector args).foldlM (take sub tokens) {} = .ok s ∧
        checkPost space sub s = .ok () := by
    simp only [script, bind_eq_ok_iff, loop_ok_iff]
    constructor
    · rintro ⟨_, s₁, hloop, _, hcheck, _⟩
      -- The checks behind the loop do not look at what it expects.
      exact ⟨settled s₁, ⟨s₁, hloop, rfl⟩, hcheck⟩
    · rintro ⟨_, ⟨s₁, hloop, rfl⟩, hcheck⟩
      exact ⟨_, s₁, hloop, (), hcheck, rfl⟩
  rw [hscript]
  constructor
  · rintro ⟨s, hloop, hcheck⟩
    have hpassed := passed hloop
    refine ⟨hpassed.names, hpassed.texts, ?_, (checkPost_eq_ok_iff hpassed).mp hcheck⟩
    intro a ha b hb hisa hisb
    rw [← hpassed.verdict a ha hisa, ← hpassed.verdict b hb hisb]
  · intro h
    have hempty : ({} : Loop).verdict = "" := rfl
    obtain ⟨s, hloop⟩ := passes h.names h.texts h.oneVerdict (fun _ _ _ => Or.inl hempty)
    exact ⟨s, hloop, (checkPost_eq_ok_iff (passed hloop)).mpr h.opened⟩

end Wrapper

end MailTransporter
