import Mathlib.Data.List.Basic
import Mathlib.Data.List.Infix

set_option autoImplicit false

/-! # Reading a vector of arguments

An argument vector consists of positional arguments and of flags with long names. A flag takes its
value from behind an equals sign or, if it is one of those that take a value, from the next argument
(`items`). `Table.read` is the parser of a program that knows some flags. It agrees with `items` on
every vector whose flags have long names and take a value in the same cases (`Table.read_spec`). -/

namespace Text

/-! ## One argument -/

/-- What stands before the first equals sign. -/
def nameOf (arg : String) : String := String.ofList (arg.toList.takeWhile (· != '='))

/-- What stands behind the first equals sign, if there is one. -/
def valueOf (arg : String) : Option String :=
  match arg.toList.dropWhile (· != '=') with
  | [] => none
  | _ :: rest => some (String.ofList rest)

/-- The argument starts with a dash. -/
def isDashed (arg : String) : Bool := arg.toList.head? == some '-'

/-- Two dashes and at least one letter more, which is not a third dash. -/
def isLong (name : String) : Bool :=
  match name.toList with
  | '-' :: '-' :: c :: _ => c != '-'
  | _ => false

/-- An argument without an equals sign is its own name. -/
theorem valueOf_eq_none_iff {arg : String} : valueOf arg = none ↔ nameOf arg = arg := by
  have hsplit := List.takeWhile_append_dropWhile (p := (· != '=')) (l := arg.toList)
  unfold valueOf nameOf
  rw [← String.toList_inj, String.toList_ofList]
  cases hdrop : arg.toList.dropWhile (· != '=') with
  | nil =>
      rw [hdrop, List.append_nil] at hsplit
      simp [hsplit]
  | cons c rest =>
      rw [hdrop] at hsplit
      have hlength := congrArg List.length hsplit
      rw [List.length_append, List.length_cons] at hlength
      have hne : arg.toList.takeWhile (· != '=') ≠ arg.toList := by
        intro heq
        rw [heq] at hlength
        omega
      simp [hne]

/-- A flag with a long name is neither empty nor a single dash nor the end of the flags. -/
theorem isDashed_of_isLong {arg : String} (h : isLong (nameOf arg) = true) :
    isDashed arg = true := by
  have hprefix := List.takeWhile_prefix (· != '=') (l := arg.toList)
  unfold isLong nameOf at h
  rw [String.toList_ofList] at h
  split at h
  · next c rest heq =>
      obtain ⟨back, hback⟩ := hprefix
      rw [heq] at hback
      simp [isDashed, ← hback]
  · exact absurd h (by simp)

/-! ## A vector -/

/-- A positional argument, or a flag with the value given to it. -/
inductive Item
  | positional (text : String)
  | flag (name : String) (value : Option String)
deriving DecidableEq

/-- The text an item brings along. -/
def Item.text : Item → Option String
  | .positional text => some text
  | .flag _ value => value

def Item.name : Item → Option String
  | .positional _ => none
  | .flag name _ => some name

/-- The text given to the flag `name`. -/
def Item.valueFor (name : String) : Item → Option String
  | .positional _ => none
  | .flag name' value => if name' = name then value else none

/-- The items of a vector; `pending` is a flag that waits for its value. -/
def items (takes : String → Bool) : Option String → List String → List Item
  | none, [] => []
  | some name, [] => [.flag name none]
  | some name, arg :: rest => .flag name (some arg) :: items takes none rest
  | none, arg :: rest =>
      if isDashed arg then
        if valueOf arg = none ∧ takes arg = true then items takes (some arg) rest
        else .flag (nameOf arg) (valueOf arg) :: items takes none rest
      else .positional arg :: items takes none rest

/-- The flags of a vector. -/
def names (vector : List Item) : List String := vector.filterMap Item.name

/-- Positional arguments and values. -/
def texts (vector : List Item) : List String := vector.filterMap Item.text

/-- The value of a flag that is given more than once is the last one. -/
def lastValue (name : String) (vector : List Item) : Option String :=
  (vector.filterMap (Item.valueFor name)).getLast?

/-! ## A program's parser -/

inductive Kind
  /-- It takes a value. -/
  | text
  /-- A boolean, which has a value only behind an equals sign. -/
  | switch
deriving DecidableEq

/-- What has been read: the values, the latest first, and the positional arguments. -/
structure Parsed where
  texts : List (String × String) := []
  switches : List (String × Bool) := []
  positional : List String := []
deriving DecidableEq

def Parsed.text (p : Parsed) (name : String) : Option String := p.texts.lookup name

def Parsed.on (p : Parsed) (name : String) : Bool := (p.switches.lookup name).getD false

/-- The spellings of a truth value. -/
def parseBool (text : String) : Option Bool :=
  if text ∈ ["1", "t", "T", "TRUE", "true", "True"] then some true
  else if text ∈ ["0", "f", "F", "FALSE", "false", "False"] then some false
  else none

/-- The flags a program knows, by their names with the dashes. How it reads on from an argument with
short flags is left open. -/
structure Table where
  kind : String → Option Kind
  short : String → List String → Parsed → Option Parsed

/-- The arguments are read from left to right; `none` says that the program rejects them. -/
def Table.read (t : Table) : Option String → Parsed → List String → Option Parsed
  | none, p, [] => some p
  -- A flag at the end lacks its value.
  | some _, _, [] => none
  | some name, p, value :: rest => t.read none { p with texts := (name, value) :: p.texts } rest
  | none, p, arg :: rest =>
      if isLong (nameOf arg) then
        match t.kind (nameOf arg), valueOf arg with
        | none, _ => none
        | some .text, some value =>
            t.read none { p with texts := (nameOf arg, value) :: p.texts } rest
        | some .text, none => t.read (some arg) p rest
        | some .switch, value =>
            match parseBool (value.getD "true") with
            | some b => t.read none { p with switches := (nameOf arg, b) :: p.switches } rest
            | none => none
      else if arg = "--" then some { p with positional := p.positional ++ rest }
      -- Two dashes without a name.
      else if "--".toList <+: arg.toList then none
      else if isDashed arg = true ∧ arg ≠ "-" then t.short arg rest p
      else t.read none { p with positional := p.positional ++ [arg] } rest

/-! ## Both readings agree -/

/-- The flags of a vector have long names, and those the program knows take a value in the same
cases. -/
structure Table.Fits (t : Table) (takes : String → Bool) (vector : List Item) : Prop where
  long : ∀ name ∈ names vector, isLong name = true
  kinds : ∀ name ∈ names vector, ∀ k, t.kind name = some k → (k = .text ↔ takes name = true)

variable {t : Table} {takes : String → Bool} {item : Item} {vector : List Item}

theorem mem_names_cons {name : String} :
    name ∈ names (item :: vector) ↔ item.name = some name ∨ name ∈ names vector := by
  simp [names]

theorem mem_texts_cons {text : String} :
    text ∈ texts (item :: vector) ↔ item.text = some text ∨ text ∈ texts vector := by
  simp [texts]

theorem lastValue_cons (name : String) :
    lastValue name (item :: vector) = (lastValue name vector).or (item.valueFor name) := by
  unfold lastValue
  rw [List.filterMap_cons]
  cases item.valueFor name with
  | none => simp
  | some value =>
      rw [List.getLast?_cons]
      cases (vector.filterMap (Item.valueFor name)).getLast? <;> rfl

/-- The last value of a flag is among the texts. -/
theorem mem_texts_of_lastValue {name value : String} (h : lastValue name vector = some value) :
    value ∈ texts vector := by
  obtain ⟨item, hitem, hvalue⟩ := List.mem_filterMap.mp (List.mem_of_getLast? h)
  apply List.mem_filterMap.mpr
  refine ⟨item, hitem, ?_⟩
  cases item with
  | positional text => exact absurd hvalue (by simp [Item.valueFor])
  | flag name' value' =>
      rw [Item.valueFor] at hvalue
      split_ifs at hvalue
      exact hvalue

/-- A flag that waits for its value is a flag of the vector. -/
theorem mem_names_pending (name : String) (args : List String) :
    name ∈ names (items takes (some name) args) := by
  cases args <;> exact mem_names_cons.mpr (Or.inl rfl)

/-- An argument that starts with a dash and is no value is a flag of the vector. -/
theorem mem_names_dashed {arg : String} (h : isDashed arg = true) (rest : List String) :
    nameOf arg ∈ names (items takes none (arg :: rest)) := by
  rw [items, if_pos h]
  by_cases hvalue : valueOf arg = none ∧ takes arg = true
  · rw [if_pos hvalue, valueOf_eq_none_iff.mp hvalue.1]
    exact mem_names_pending arg rest
  · rw [if_neg hvalue]
    exact mem_names_cons.mpr (Or.inl rfl)

theorem Table.Fits.tail (h : t.Fits takes (item :: vector)) : t.Fits takes vector where
  long name hname := h.long name (mem_names_cons.mpr (Or.inr hname))
  kinds name hname := h.kinds name (mem_names_cons.mpr (Or.inr hname))

/-- What a program that read `p` before makes of a vector. -/
structure Table.Reads (t : Table) (vector : List Item) (p p' : Parsed) : Prop where
  text : ∀ name, t.kind name = some .text →
    p'.text name = (lastValue name vector).or (p.text name)
  on : ∀ name, p'.on name = true → name ∈ names vector ∨ p.on name = true

/-- A value is set, and the rest is read. -/
theorem Table.Reads.cons_text {name value : String} {p p' : Parsed}
    (h : t.Reads vector { p with texts := (name, value) :: p.texts } p') :
    t.Reads (.flag name (some value) :: vector) p p' := by
  constructor
  · intro name' hkind
    rw [h.text name' hkind, lastValue_cons]
    by_cases heq : name = name'
    · subst heq
      simp [Item.valueFor, Parsed.text]
    · have hne : (name' == name) = false := beq_false_of_ne (Ne.symm heq)
      simp [Item.valueFor, Parsed.text, heq, List.lookup_cons, hne]
  · intro name' hon
    exact (h.on name' hon).imp_left (fun hname => mem_names_cons.mpr (Or.inr hname))

/-- A boolean is set, and the rest is read. -/
theorem Table.Reads.cons_switch {name : String} {value : Option String} {b : Bool} {p p' : Parsed}
    (hkind : t.kind name = some .switch)
    (h : t.Reads vector { p with switches := (name, b) :: p.switches } p') :
    t.Reads (.flag name value :: vector) p p' := by
  constructor
  · intro name' hkind'
    have hne : name ≠ name' := by
      intro heq
      rw [heq, hkind'] at hkind
      exact absurd hkind (by simp)
    rw [h.text name' hkind', lastValue_cons]
    simp [Item.valueFor, hne, Parsed.text]
  · intro name' hon
    rcases h.on name' hon with hname | hon
    · exact Or.inl (mem_names_cons.mpr (Or.inr hname))
    · by_cases heq : name = name'
      · exact Or.inl (mem_names_cons.mpr (Or.inl (congrArg some heq)))
      · have hne : (name' == name) = false := beq_false_of_ne (Ne.symm heq)
        right
        simpa [Parsed.on, List.lookup_cons, hne] using hon

/-- A positional argument is passed over. -/
theorem Table.Reads.cons_positional {arg : String} {p p' : Parsed}
    (h : t.Reads vector { p with positional := p.positional ++ [arg] } p') :
    t.Reads (.positional arg :: vector) p p' := by
  constructor
  · intro name hkind
    rw [h.text name hkind, lastValue_cons]
    simp [Item.valueFor, Parsed.text]
  · intro name hon
    exact (h.on name hon).imp_left (fun hname => mem_names_cons.mpr (Or.inr hname))

/-- **A program that takes a vector reads the items out of it.** -/
theorem Table.read_spec {pending : Option String} {p p' : Parsed} {args : List String}
    (hfits : t.Fits takes (items takes pending args)) (h : t.read pending p args = some p') :
    t.Reads (items takes pending args) p p' := by
  induction args generalizing pending p with
  | nil =>
      cases pending with
      | some name => exact absurd h (by simp [Table.read])
      | none =>
          rw [Table.read, Option.some.injEq] at h
          subst h
          exact ⟨fun name _ => by simp [items, lastValue], fun name hon => Or.inr hon⟩
  | cons arg rest ih =>
      cases pending with
      | some name => exact Table.Reads.cons_text (ih hfits.tail h)
      | none =>
          rw [Table.read] at h
          by_cases hlong : isLong (nameOf arg) = true
          · have hdashed := isDashed_of_isLong hlong
            have hkinds := hfits.kinds (nameOf arg) (mem_names_dashed hdashed rest)
            rw [if_pos hlong] at h
            rw [items, if_pos hdashed] at hfits ⊢
            cases hkind : t.kind (nameOf arg) with
            | none =>
                rw [hkind] at h
                exact absurd h (by simp)
            | some k =>
                cases k with
                | text =>
                    have htakes := (hkinds .text hkind).mp rfl
                    rw [hkind] at h
                    cases hvalue : valueOf arg with
                    | none =>
                        rw [hvalue] at h hfits
                        -- The flag waits for its value in both readings.
                        rw [valueOf_eq_none_iff.mp hvalue] at htakes
                        rw [if_pos ⟨rfl, htakes⟩] at hfits ⊢
                        exact ih hfits h
                    | some value =>
                        rw [hvalue] at h hfits
                        have hwaits : ¬(some value = none ∧ takes arg = true) := by simp
                        rw [if_neg hwaits] at hfits ⊢
                        exact Table.Reads.cons_text (ih hfits.tail h)
                | switch =>
                    have htakes : takes (nameOf arg) ≠ true := by
                      intro htakes
                      exact absurd ((hkinds .switch hkind).mpr htakes) (by simp)
                    have hwaits : ¬(valueOf arg = none ∧ takes arg = true) := by
                      rintro ⟨hnone, htrue⟩
                      rw [valueOf_eq_none_iff.mp hnone] at htakes
                      exact htakes htrue
                    rw [if_neg hwaits] at hfits ⊢
                    rw [hkind] at h
                    cases hbool : parseBool ((valueOf arg).getD "true") with
                    | none =>
                        simp only [hbool] at h
                        exact absurd h (by simp)
                    | some b =>
                        simp only [hbool] at h
                        exact Table.Reads.cons_switch hkind (ih hfits.tail h)
          · have hdashed : isDashed arg ≠ true := by
              intro hdashed
              exact hlong (hfits.long _ (mem_names_dashed hdashed rest))
            have hprefix : ¬"--".toList <+: arg.toList := by
              rintro ⟨back, hback⟩
              exact hdashed (by simp [isDashed, ← hback])
            have hend : arg ≠ "--" := by
              rintro rfl
              exact hprefix List.prefix_rfl
            rw [if_neg hlong, if_neg hend, if_neg hprefix, if_neg (fun hc => hdashed hc.1)] at h
            rw [items, if_neg hdashed] at hfits ⊢
            exact Table.Reads.cons_positional (ih hfits.tail h)

end Text
