import MailTransporter.Secrets
import Mathlib.Data.Rat.Defs

set_option autoImplicit false

/-! # Values from the environment (`secrets.py`)

What the settings are read from: the environment variables, the Secret Manager, and the readers of
the standard library for integers and JSON. Reading a secret registers it, also when the settings
are refused afterwards. -/

namespace MailTransporter

/-! ## Python values -/

/-- A `float`. -/
inductive PyFloat where
  | nan
  | infinite (negative : Bool)
  | finite (value : ℚ)
deriving DecidableEq

/-- What `json.loads` returns. The keys of a `dict` are looked up from the front. -/
inductive Json where
  | null
  | bool (value : Bool)
  | int (value : ℤ)
  | float (value : PyFloat)
  | str (value : String)
  | arr (items : List Json)
  | obj (members : List (String × Json))

/-- `bool(value)` -/
def Json.truthy : Json → Bool
  | .null => false
  | .bool value => value
  | .int value => decide (value ≠ 0)
  | .float value => decide (value ≠ .finite 0)
  | .str value => decide (value ≠ "")
  | .arr items => !items.isEmpty
  | .obj members => !members.isEmpty

/-- The name of the type in messages. -/
def Json.typeName : Json → String
  | .null => "NoneType"
  | .bool _ => "bool"
  | .int _ => "int"
  | .float _ => "float"
  | .str _ => "str"
  | .arr _ => "list"
  | .obj _ => "dict"

/-- `str.isspace` of a letter -/
def isSpace (c : Char) : Bool :=
  let n := c.toNat
  decide ((9 ≤ n ∧ n ≤ 13) ∨ (28 ≤ n ∧ n ≤ 32) ∨ n = 0x85 ∨ n = 0xa0 ∨ n = 0x1680 ∨
    (0x2000 ≤ n ∧ n ≤ 0x200a) ∨ n = 0x2028 ∨ n = 0x2029 ∨ n = 0x202f ∨ n = 0x205f ∨ n = 0x3000)

/-- `text.strip()` -/
def strip (text : String) : String :=
  String.ofList ((text.toList.dropWhile isSpace).reverse.dropWhile isSpace).reverse

/-- `text.rstrip("/")` -/
def rstripSlash (text : String) : String :=
  String.ofList (text.toList.reverse.dropWhile (fun c => decide (c = '/'))).reverse

/-- `value or default` for texts -/
def orElse (value default : String) : String := if value = "" then default else value

/-- A letter in the `repr` of a text in `quote`s; a letter beyond ASCII counts as printable. -/
def reprLetter (quote c : Char) : List Char :=
  if c = '\\' ∨ c = quote then ['\\', c]
  else if c = '\t' then ['\\', 't']
  else if c = '\n' then ['\\', 'n']
  else if c = '\r' then ['\\', 'r']
  else if c.toNat < 32 ∨ c.toNat = 127 then
    '\\' :: 'x' :: [Nat.digitChar (c.toNat / 16), Nat.digitChar (c.toNat % 16)]
  else [c]

/-- `repr(text)` -/
def strRepr (text : String) : String :=
  let quote := if '\'' ∈ text.toList ∧ '"' ∉ text.toList then '"' else '\''
  String.ofList (quote :: text.toList.flatMap (reprLetter quote) ++ [quote])

/-! ## Reading -/

/-- The exceptions that come out of reading the settings. -/
inductive SettingsError where
  | configError (text : String)
  | other (name text : String)
deriving DecidableEq

/-- The exceptions of `json.loads`. -/
inductive LoadError where
  | jsonDecodeError
  | other (name text : String)
deriving DecidableEq

/-- What the settings are read from. `int` reads an integer, `lower` is `str.lower`, and `loads` is
    `json.loads`. -/
structure Environ where
  get : String → Option String
  accessSecretVersion : String → String
  int : String → Option ℤ
  lower : String → String
  loads : String → Except LoadError Json

/-- Reading settings, which registers secrets. -/
abbrev Reading (α : Type) := ExceptT SettingsError (StateM Secrets.Registered) α

namespace Reading

/-- What a reading comes to, and the values that are registered then. -/
def outcome {α : Type} (m : Reading α) (registered : Secrets.Registered) :
    Except SettingsError α × Secrets.Registered :=
  m registered

variable {α β : Type} (registered : Secrets.Registered)

@[simp] theorem outcome_pure (a : α) :
    (pure a : Reading α).outcome registered = (.ok a, registered) := rfl

@[simp] theorem outcome_throw (e : SettingsError) :
    (throw e : Reading α).outcome registered = (.error e, registered) := rfl

@[simp] theorem outcome_lift (m : Except SettingsError α) :
    (liftM m : Reading α).outcome registered = (m, registered) := rfl

theorem outcome_bind (m : Reading α) (f : α → Reading β) :
    (m >>= f).outcome registered =
      match m.outcome registered with
      | (.ok a, registered') => (f a).outcome registered'
      | (.error e, registered') => (.error e, registered') := by
  show (ExceptT.bind m f) registered = _
  unfold outcome ExceptT.bind ExceptT.mk
  show (StateT.bind _ _) registered = _
  unfold StateT.bind
  show (let (a, s) := m registered; _) = _
  rcases m registered with ⟨a | a, s⟩ <;> rfl

/-- A sequence of readings that is accepted. -/
theorem outcome_bind_eq_ok {m : Reading α} {f : α → Reading β} {b : β}
    {registered'' : Secrets.Registered} :
    (m >>= f).outcome registered = (.ok b, registered'') ↔
      ∃ a registered', m.outcome registered = (.ok a, registered') ∧
        (f a).outcome registered' = (.ok b, registered'') := by
  rw [outcome_bind]
  rcases hm : m.outcome registered with ⟨e | a, registered'⟩
  · simp
  · simp

end Reading

namespace Environ

variable (e : Environ)

/-- `os.environ.get(name, default)` -/
def getD (name default : String) : String := (e.get name).getD default

def fetchSecret (resource : String) : String :=
  if Contains resource "/versions/" then e.accessSecretVersion resource
  else e.accessSecretVersion (rstripSlash resource ++ "/versions/latest")

/-- `register_secret`, for a text -/
def register (value : String) : Reading Unit :=
  modify (fun registered => Secrets.registerSecret registered (some value))

def resolveSecretEnv (name : String) : Reading String :=
  let value := e.getD name ""
  if value ≠ "" then do
    register (strip value)
    pure (strip value)
  else
    let secretRef := e.getD (name ++ "_SECRET") ""
    if secretRef ≠ "" then do
      let value := strip (e.fetchSecret secretRef)
      register value
      pure value
    else throw (.configError s!"Missing configuration: set {name} or {name}_SECRET")

def requireEnv (name : String) : Except SettingsError String :=
  let value := strip (e.getD name "")
  if value = "" then .error (.configError s!"Missing configuration: {name}") else .ok value

def envInt (name : String) (default : ℤ) : Except SettingsError ℤ :=
  let raw := strip (e.getD name "")
  if raw = "" then .ok default
  else
    match e.int raw with
    | some value => .ok value
    | none =>
        let got := strRepr raw
        .error (.configError s!"{name} must be an integer, got {got}")

end Environ

end MailTransporter
