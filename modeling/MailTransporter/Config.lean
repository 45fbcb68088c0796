import Mathlib.Data.Rat.Defs
import Mathlib.Data.List.Basic

set_option autoImplicit false

/-! # Settings (`config.py`, and the options of `forwarder.py`)

The three keywords the tool writes on messages come out of `keywords_from_env` validated, so
`Keywords` carries what that validation establishes: every keyword is an ASCII atom without a
backslash, and no two of them are equal when letter case is ignored. -/

namespace MailTransporter

/-- `str.lower`, on the ASCII text IMAP atoms are made of. -/
def lower (s : String) : String := String.ofList (s.toList.map Char.toLower)

/-- `str.isascii` -/
def isAscii (s : String) : Bool := s.toList.all (fun c => decide (c.val < 128))

/-- What `keyword_from_env` checks of an accepted keyword, as far as the tool relies on it. -/
structure IsKeyword (s : String) : Prop where
  ascii : isAscii s = true
  noBackslash : '\\' ∉ s.toList

instance (s : String) : Decidable (IsKeyword s) :=
  decidable_of_iff (isAscii s = true ∧ '\\' ∉ s.toList) ⟨fun h => ⟨h.1, h.2⟩, fun h => ⟨h.1, h.2⟩⟩

/-- The three keywords this tool writes on iCloud messages, validated. -/
structure Keywords where
  inserted : String
  failed : String
  unverified : String
  insertedOk : IsKeyword inserted
  failedOk : IsKeyword failed
  unverifiedOk : IsKeyword unverified
  inserted_ne_failed : lower inserted ≠ lower failed
  inserted_ne_unverified : lower inserted ≠ lower unverified
  failed_ne_unverified : lower failed ≠ lower unverified

def DEFAULT_INSERTED_KEYWORD : String := "$GmailInserted"
def DEFAULT_FAILED_KEYWORD : String := "$GmailFailed"
def DEFAULT_UNVERIFIED_KEYWORD : String := "$GmailUnverified"

def Keywords.default : Keywords where
  inserted := DEFAULT_INSERTED_KEYWORD
  failed := DEFAULT_FAILED_KEYWORD
  unverified := DEFAULT_UNVERIFIED_KEYWORD
  insertedOk := by decide
  failedOk := by decide
  unverifiedOk := by decide
  inserted_ne_failed := by decide
  inserted_ne_unverified := by decide
  failed_ne_unverified := by decide

/-- `quarantine_keywords` -/
def Keywords.quarantine (k : Keywords) : List String := [k.failed, k.unverified]

/-- `QUARANTINE_MODES` -/
inductive QuarantineMode where
  | keyword
  | folder
deriving DecidableEq, Repr

structure ForwarderOptions where
  label : Option String
  keywords : Keywords
  failedFolder : String
  unverifiedFolder : String
  quarantineMode : QuarantineMode
  timeBudgetSeconds : ℚ
  rejectionThreshold : ℤ

/-- The defaults of `ForwarderOptions`. -/
def ForwarderOptions.default : ForwarderOptions where
  label := some "iCloud"
  keywords := Keywords.default
  failedFolder := "Forward-Failed"
  unverifiedFolder := "Forward-Unverified"
  quarantineMode := .keyword
  timeBudgetSeconds := 480
  rejectionThreshold := 3

/-! ## Flags are case-insensitive atoms -/

/-- `keyword.lower() in {f.lower() for f in flags}` -/
def hasFlag (flags : List String) (flag : String) : Bool :=
  decide (lower flag ∈ flags.map lower)

@[simp] theorem hasFlag_nil (flag : String) : hasFlag [] flag = false := rfl

theorem hasFlag_iff (flags : List String) (flag : String) :
    hasFlag flags flag = true ↔ ∃ f ∈ flags, lower f = lower flag := by
  simp [hasFlag]

theorem hasFlag_congr (flags : List String) {f g : String} (h : lower f = lower g) :
    hasFlag flags f = hasFlag flags g := by
  unfold hasFlag
  rw [h]

@[simp] theorem hasFlag_append (flags flags' : List String) (flag : String) :
    hasFlag (flags ++ flags') flag = (hasFlag flags flag || hasFlag flags' flag) := by
  simp [hasFlag]

theorem hasFlag_singleton (f flag : String) :
    hasFlag [f] flag = true ↔ lower f = lower flag := by
  simp [hasFlag, eq_comm]

/-- Two reports of a flag set that differ at most in letter case and order. -/
def SameFlags (flags flags' : List String) : Prop :=
  ∀ flag, hasFlag flags flag = hasFlag flags' flag

theorem SameFlags.refl (flags : List String) : SameFlags flags flags := fun _ => rfl

/-- `imapclient.DELETED` -/
def deletedFlag : String := "\\Deleted"

/-- No letter has the backslash as its lower case. -/
theorem toLower_eq_backslash {c : Char} (h : c.toLower = '\\') : c = '\\' := by
  unfold Char.toLower at h
  split at h
  · next hc =>
    have hval : (c.val + 32).toNat = 92 := congrArg (fun d : Char => d.val.toNat) h
    have hlow := UInt32.le_iff_toNat_le.mp hc.1
    have hhigh := UInt32.le_iff_toNat_le.mp hc.2
    rw [UInt32.toNat_add] at hval
    simp at hval hlow hhigh
    omega
  · exact h

/-- A validated keyword is none of the system flags. -/
theorem IsKeyword.lower_ne {s t : String} (h : IsKeyword s) (ht : '\\' ∈ (lower t).toList) :
    lower s ≠ lower t := by
  intro he
  rw [← he] at ht
  simp only [lower, String.toList_ofList, List.mem_map] at ht
  obtain ⟨c, hc, hl⟩ := ht
  exact h.noBackslash (toLower_eq_backslash hl ▸ hc)

theorem IsKeyword.ne_deleted {s : String} (h : IsKeyword s) : lower s ≠ lower deletedFlag :=
  h.lower_ne (by decide)

end MailTransporter
