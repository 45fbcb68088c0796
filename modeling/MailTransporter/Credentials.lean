import MailTransporter.Settings

set_option autoImplicit false

/-! # Which credentials are accepted

The settings with credentials are either refused with a `ConfigError`, or their credentials are
texts that are not empty and registered for redaction, with these exceptions: a password of nothing
but whitespace is stripped after it has been found not to be empty, and the members of the JSON
document are only checked for whether they count as true. -/

namespace MailTransporter

open Reading Environ

/-! ## Reading a secret -/

namespace Secrets

theorem registerSecret_subset (registered : Registered) (value : Option String) :
    registered ⊆ registerSecret registered value := by
  intro secret hmem
  unfold registerSecret
  split
  · split
    · exact List.mem_insert_of_mem hmem
    · exact hmem
  · exact hmem

/-- A value of six or more letters is registered. -/
def IsRegistered (registered : Registered) (value : String) : Prop :=
  6 ≤ value.length → ∃ secret ∈ registered, secret.value = value

theorem IsRegistered.mono {registered registered' : Registered} {value : String}
    (h : IsRegistered registered value) (hsub : registered ⊆ registered') :
    IsRegistered registered' value := by
  intro hlong
  obtain ⟨secret, hmem, heq⟩ := h hlong
  exact ⟨secret, hsub hmem, heq⟩

theorem isRegistered_registerSecret (registered : Registered) (value : String) :
    IsRegistered (registerSecret registered (some value)) value := by
  intro hlong
  simp only [registerSecret, hlong]
  exact ⟨⟨value, hlong⟩, List.mem_insert_self, rfl⟩

end Secrets

open Secrets (IsRegistered registerSecret)

namespace Credentials

variable (e : Environ) (registered : Secrets.Registered)

/-- The value that stands for the secret `name`, stripped, if there is one. -/
def secretValue (name : String) : Option String :=
  if e.getD name "" ≠ "" then some (strip (e.getD name ""))
  else if e.getD (name ++ "_SECRET") "" ≠ "" then
    some (strip (e.fetchSecret (e.getD (name ++ "_SECRET") "")))
  else none

@[simp] theorem outcome_register (value : String) :
    (register value).outcome registered = (.ok (), registerSecret registered (some value)) := rfl

theorem resolveSecretEnv_outcome (name : String) :
    (e.resolveSecretEnv name).outcome registered =
      match secretValue e name with
      | some value => (.ok value, registerSecret registered (some value))
      | none => (.error (.configError s!"Missing configuration: set {name} or {name}_SECRET"),
          registered) := by
  unfold resolveSecretEnv secretValue
  by_cases hvalue : e.getD name "" = ""
  · by_cases hsecret : e.getD (name ++ "_SECRET") "" = ""
    · simp [hvalue, hsecret]
    · simp [hvalue, hsecret]
      rfl
  · simp [hvalue]
    rfl

/-- The variable is not set, or set to an integer. -/
def IsInt (name : String) : Prop :=
  strip (e.getD name "") = "" ∨ e.int (strip (e.getD name "")) ≠ none

theorem envInt_spec (name : String) (default : ℤ) :
    (IsInt e name ∧ ∃ value, e.envInt name default = .ok value) ∨
    (¬IsInt e name ∧ ∃ text, e.envInt name default = .error (.configError text)) := by
  unfold envInt IsInt
  by_cases hempty : strip (e.getD name "") = ""
  · simp [hempty]
  · cases hint : e.int (strip (e.getD name "")) with
    | none => simp [hempty, hint]
    | some value => simp [hempty, hint]

theorem requireEnv_spec (name : String) :
    (strip (e.getD name "") ≠ "" ∧ e.requireEnv name = .ok (strip (e.getD name ""))) ∨
    (strip (e.getD name "") = "" ∧ ∃ text, e.requireEnv name = .error (.configError text)) := by
  unfold requireEnv
  by_cases hempty : strip (e.getD name "") = ""
  · simp [hempty]
  · simp [hempty]

/-! ## The account of the mailbox -/

/-- A `ConfigError`, or settings whose texts are not empty and whose password is registered. -/
def ICloudSound : Except SettingsError ICloudSettings × Secrets.Registered → Prop
  | (.ok settings, registered) =>
      settings.user ≠ "" ∧ settings.password ≠ "" ∧ IsRegistered registered settings.password
  | (.error (.configError _), _) => True
  | (.error (.other _ _), _) => False

/-- The password is not blank, or the other settings are refused. -/
def ICloudChecked : Prop :=
  secretValue e "ICLOUD_PASSWORD" ≠ some "" ∨ strip (e.getD "ICLOUD_USER" "") = "" ∨
    ¬IsInt e "IMAP_PORT" ∨ ¬IsInt e "IMAP_TIMEOUT"

theorem icloud_sound_iff :
    ICloudSound ((ICloudSettings.fromEnv e).outcome registered) ↔ ICloudChecked e := by
  unfold ICloudSettings.fromEnv ICloudChecked
  simp only [outcome_bind, outcome_lift, resolveSecretEnv_outcome, outcome_pure]
  rcases requireEnv_spec e "ICLOUD_USER" with ⟨huser, hok⟩ | ⟨huser, text, herror⟩
  · cases hpassword : secretValue e "ICLOUD_PASSWORD" with
    | none => simp [hok, ICloudSound]
    | some password =>
        have hregistered := Secrets.isRegistered_registerSecret registered password
        rcases envInt_spec e "IMAP_PORT" 993 with ⟨hport, port, hp⟩ | ⟨hport, text, hp⟩
        · rcases envInt_spec e "IMAP_TIMEOUT" 60 with ⟨htimeout, timeout, ht⟩ | ⟨htimeout, text, ht⟩
          · simp [hok, hp, ht, ICloudSound, huser, hport, htimeout, hregistered]
          · simp [hok, hp, ht, ICloudSound, htimeout]
        · simp [hok, hp, ICloudSound, hport]
  · simp [herror, ICloudSound, huser]

/-! ## The account of Gmail -/

/-- The value is a text that is not empty. -/
def IsText (value : Json) : Prop := ∃ text, value = .str text ∧ text ≠ ""

/-- The value is a registered text that is not empty. -/
def IsSecretText (registered : Secrets.Registered) (value : Json) : Prop :=
  ∃ text, value = .str text ∧ text ≠ "" ∧ IsRegistered registered text

/-- A `ConfigError`, or settings whose credentials are texts that are not empty, those that are
    secret registered. -/
def GmailSound : Except SettingsError GmailSettings × Secrets.Registered → Prop
  | (.ok settings, registered) => IsText settings.clientId ∧
      IsSecretText registered settings.clientSecret ∧ IsSecretText registered settings.refreshToken
  | (.error (.configError _), _) => True
  | (.error (.other _ _), _) => False

/-- The value is a text. -/
def Json.IsStr (value : Json) : Prop := ∃ text, value = .str text

/-- One of the three members is missing or counts as false, or all three are texts. -/
def MembersChecked (members : List (String × Json)) : Prop :=
  GmailSettings.missing members ≠ [] ∨
    (Json.IsStr (GmailSettings.get members "client_id") ∧
      Json.IsStr (GmailSettings.get members "client_secret") ∧
      Json.IsStr (GmailSettings.get members "refresh_token"))

/-- The document is an object whose `installed` member, if there is one, is an object; and the
    members of the two together, those of the document first, are checked. -/
def DocumentChecked : Json → Prop
  | .obj members =>
      if ∃ member ∈ members, member.1 = "installed" then
        ∃ installed, GmailSettings.get members "installed" = .obj installed ∧
          MembersChecked
            (members.filter (fun member => decide (member.1 ≠ "installed")) ++ installed)
      else MembersChecked members
  | _ => False

/-- There is no document, or it is no JSON, or the document is checked. -/
def GmailChecked : Prop :=
  match secretValue e "GMAIL_OAUTH_JSON" with
  | none => True
  | some raw =>
      match e.loads raw with
      | .ok data => DocumentChecked data
      | .error .jsonDecodeError => True
      | .error (.other _ _) => False

theorem truthy_str (text : String) : (Json.str text).truthy = true ↔ text ≠ "" := by
  simp [Json.truthy]

theorem outcome_registerValue_str {text : String} (h : text ≠ "") :
    (GmailSettings.registerValue (.str text)).outcome registered =
      (.ok (), registerSecret registered (some text)) := by
  have htruthy := (truthy_str text).mpr h
  simp [GmailSettings.registerValue, htruthy]

/-- A value that is no text is left out or cannot be registered. -/
theorem outcome_registerValue_other {value : Json} (h : ¬Json.IsStr value) :
    (∃ name text, (GmailSettings.registerValue value).outcome registered =
      (.error (.other name text), registered)) ∨
    (GmailSettings.registerValue value).outcome registered = (.ok (), registered) := by
  unfold GmailSettings.registerValue
  split
  · cases value with
    | str text => exact absurd ⟨text, rfl⟩ h
    | arr items =>
        dsimp only
        split
        · exact Or.inl ⟨_, _, rfl⟩
        · exact Or.inr rfl
    | obj members =>
        dsimp only
        split
        · exact Or.inl ⟨_, _, rfl⟩
        · exact Or.inr rfl
    | _ => exact Or.inl ⟨_, _, rfl⟩
  · exact Or.inr rfl

/-- A document that is no object makes `from_env` raise something else. -/
theorem layout_other {data : Json} (h : ∀ members, data ≠ .obj members) :
    ∃ name text, GmailSettings.layout data = .error (.other name text) := by
  have hmerge : ∃ name text, GmailSettings.mergeInstalled data = .error (.other name text) := by
    cases data with
    | obj members => exact absurd rfl (h members)
    | _ => exact ⟨_, _, rfl⟩
  have hinstalled : (∃ found, GmailSettings.hasInstalled data = .ok found) ∨
      ∃ name text, GmailSettings.hasInstalled data = .error (.other name text) := by
    cases data with
    | obj members => exact absurd rfl (h members)
    | arr items => exact Or.inl ⟨_, rfl⟩
    | str text => exact Or.inl ⟨_, rfl⟩
    | _ => exact Or.inr ⟨_, _, rfl⟩
  unfold GmailSettings.layout
  rcases hinstalled with ⟨found, hok⟩ | ⟨name, text, herror⟩
  · rw [hok]
    cases found with
    | true => exact hmerge
    | false =>
        cases data with
        | obj members => exact absurd rfl (h members)
        | _ => exact ⟨_, _, rfl⟩
  · rw [herror]
    exact ⟨name, text, rfl⟩

theorem documentChecked_other {data : Json} (h : ∀ members, data ≠ .obj members) :
    ¬DocumentChecked data := by
  cases data with
  | obj members => exact absurd rfl (h members)
  | _ => exact id

/-- The two layouts of the document, and everything else. -/
theorem layout_spec (data : Json) :
    (∃ members, GmailSettings.layout data = .ok members ∧
      (DocumentChecked data ↔ MembersChecked members)) ∨
    (∃ name text, GmailSettings.layout data = .error (.other name text) ∧
      ¬DocumentChecked data) := by
  by_cases hobj : ∃ members, data = .obj members
  · obtain ⟨members, rfl⟩ := hobj
    unfold GmailSettings.layout
    cases hany : members.any (fun member => decide (member.1 = "installed")) with
    | true =>
        have hinstalled : ∃ member ∈ members, member.1 = "installed" := by
          simpa only [List.any_eq_true, decide_eq_true_eq] using hany
        simp only [GmailSettings.hasInstalled, hany, bind, Except.bind, if_true, DocumentChecked,
          hinstalled, GmailSettings.mergeInstalled]
        cases GmailSettings.get members "installed" with
        | obj installed =>
            left
            exact ⟨_, rfl, by simp⟩
        | _ =>
            right
            exact ⟨_, _, rfl, by simp⟩
    | false =>
        have hinstalled : ¬∃ member ∈ members, member.1 = "installed" := by
          rintro ⟨member, hmem, hname⟩
          have hfalse := List.any_eq_false.mp hany member hmem
          exact hfalse (decide_eq_true hname)
        left
        simp only [GmailSettings.hasInstalled, hany, bind, Except.bind, DocumentChecked, hinstalled]
        exact ⟨members, rfl, Iff.rfl⟩
  · right
    have hother : ∀ members, data ≠ .obj members := fun members heq => hobj ⟨members, heq⟩
    obtain ⟨name, text, herror⟩ := layout_other hother
    exact ⟨name, text, herror, documentChecked_other hother⟩

theorem truthy_of_not_missing {members : List (String × Json)}
    (h : GmailSettings.missing members = []) {key : String}
    (hkey : key ∈ ["client_id", "client_secret", "refresh_token"]) :
    (GmailSettings.get members key).truthy = true := by
  simpa using List.filter_eq_nil_iff.mp h key hkey

theorem isText_iff {value : Json} (h : value.truthy = true) : IsText value ↔ Json.IsStr value := by
  constructor
  · rintro ⟨text, heq, -⟩
    exact ⟨text, heq⟩
  · rintro ⟨text, rfl⟩
    exact ⟨text, rfl, (truthy_str text).mp h⟩

/-- The end of `from_json`. -/
theorem credentials_sound_iff (label : Option String) {clientId clientSecret refreshToken : Json}
    (hid : clientId.truthy = true) (hsecret : clientSecret.truthy = true)
    (htoken : refreshToken.truthy = true) :
    GmailSound ((do
      GmailSettings.registerValue clientSecret
      GmailSettings.registerValue refreshToken
      pure (GmailSettings.mk clientId clientSecret refreshToken label) :
        Reading GmailSettings).outcome registered) ↔
      Json.IsStr clientId ∧ Json.IsStr clientSecret ∧ Json.IsStr refreshToken := by
  simp only [outcome_bind, outcome_pure]
  by_cases hs : Json.IsStr clientSecret
  · obtain ⟨secret, rfl⟩ := hs
    have hsecret := (truthy_str secret).mp hsecret
    rw [outcome_registerValue_str registered hsecret]
    by_cases ht : Json.IsStr refreshToken
    · obtain ⟨token, rfl⟩ := ht
      have htoken := (truthy_str token).mp htoken
      simp only [outcome_registerValue_str _ htoken, GmailSound, isText_iff hid]
      have hregistered := (Secrets.isRegistered_registerSecret registered secret).mono
        (Secrets.registerSecret_subset _ (some token))
      have htext : IsSecretText (registerSecret (registerSecret registered (some secret))
          (some token)) (.str secret) := ⟨secret, rfl, hsecret, hregistered⟩
      have htext' : IsSecretText (registerSecret (registerSecret registered (some secret))
          (some token)) (.str token) :=
        ⟨token, rfl, htoken, Secrets.isRegistered_registerSecret _ token⟩
      have hstr : Json.IsStr (.str secret) := ⟨secret, rfl⟩
      have hstr' : Json.IsStr (.str token) := ⟨token, rfl⟩
      simp only [htext, htext', hstr, hstr']
    · have hnot : ∀ registered', ¬IsSecretText registered' refreshToken :=
        fun _ ⟨text, heq, _⟩ => ht ⟨text, heq⟩
      rcases outcome_registerValue_other (registerSecret registered (some secret)) ht with
        ⟨name, text, herror⟩ | hok
      · simp [herror, GmailSound, ht]
      · simp [hok, GmailSound, ht, hnot]
  · have hnot : ∀ registered', ¬IsSecretText registered' clientSecret :=
      fun _ ⟨text, heq, _⟩ => hs ⟨text, heq⟩
    rcases outcome_registerValue_other registered hs with ⟨name, text, herror⟩ | hok
    · simp [herror, GmailSound, hs]
    · simp only [hok, hs]
      by_cases ht : Json.IsStr refreshToken
      · obtain ⟨token, rfl⟩ := ht
        have htoken := (truthy_str token).mp htoken
        simp [outcome_registerValue_str _ htoken, GmailSound, hnot]
      · rcases outcome_registerValue_other registered ht with ⟨name, text, herror⟩ | hok'
        · simp [herror, GmailSound]
        · simp [hok', GmailSound, hnot]

/-- The settings out of the document. -/
theorem fromJson_sound_iff (data : Json) :
    GmailSound ((GmailSettings.fromJson e data).outcome registered) ↔ DocumentChecked data := by
  unfold GmailSettings.fromJson
  simp only [outcome_bind, outcome_lift]
  rcases layout_spec data with ⟨members, hok, hchecked⟩ | ⟨name, text, herror, hnot⟩
  · rw [hok, hchecked]
    unfold MembersChecked
    by_cases hmissing : GmailSettings.missing members = []
    · simp only [hmissing, ne_eq, not_true_eq_false, if_false, false_or, outcome_bind, outcome_pure]
      have hid : (GmailSettings.get members "client_id").truthy = true :=
        truthy_of_not_missing hmissing (by simp)
      have hsecret : (GmailSettings.get members "client_secret").truthy = true :=
        truthy_of_not_missing hmissing (by simp)
      have htoken : (GmailSettings.get members "refresh_token").truthy = true :=
        truthy_of_not_missing hmissing (by simp)
      generalize GmailSettings.get members "client_id" = clientId at hid ⊢
      generalize GmailSettings.get members "client_secret" = clientSecret at hsecret ⊢
      generalize GmailSettings.get members "refresh_token" = refreshToken at htoken ⊢
      have hcredentials := credentials_sound_iff registered
        (if strip (e.getD "GMAIL_LABEL" "iCloud") = "" then none
          else some (strip (e.getD "GMAIL_LABEL" "iCloud"))) hid hsecret htoken
      simp only [outcome_bind, outcome_pure] at hcredentials
      exact hcredentials
    · simp [hmissing, GmailSound]
  · simp [herror, GmailSound, hnot]

theorem gmail_sound_iff :
    GmailSound ((GmailSettings.fromEnv e).outcome registered) ↔ GmailChecked e := by
  unfold GmailSettings.fromEnv GmailChecked
  rw [outcome_bind, resolveSecretEnv_outcome]
  cases secretValue e "GMAIL_OAUTH_JSON" with
  | none => simp [GmailSound]
  | some raw =>
      dsimp only
      cases e.loads raw with
      | ok data => exact fromJson_sound_iff e _ data
      | error err =>
          cases err with
          | jsonDecodeError => simp [GmailSound]
          | other name text => simp [GmailSound]

/-! ## Main results -/

/-- **Which credentials are refused or valid.** The settings of the mailbox are sound exactly if the
    password is not blank, or they are refused for another reason; those of Gmail exactly if what is
    in the document is an object with texts, as far as it is not refused. -/
theorem credentials_iff (e : Environ) (registered : Secrets.Registered) :
    (ICloudSound ((ICloudSettings.fromEnv e).outcome registered) ↔ ICloudChecked e) ∧
    (GmailSound ((GmailSettings.fromEnv e).outcome registered) ↔ GmailChecked e) :=
  ⟨icloud_sound_iff e registered, gmail_sound_iff e registered⟩

/-- A blank password, and the document `[]`. -/
def blank : Environ where
  get := fun
    | "ICLOUD_USER" => some "me@icloud.com"
    | "ICLOUD_PASSWORD" => some " "
    | "GMAIL_OAUTH_JSON" => some "[]"
    | _ => none
  accessSecretVersion := fun _ => ""
  int := fun _ => none
  lower := lower
  loads := fun
    | "[]" => .ok (.arr [])
    | _ => .error .jsonDecodeError

/-- The settings of the mailbox have an empty password, and those of Gmail raise an
    `AttributeError`. -/
theorem blank_unsound :
    (∃ settings registered, (ICloudSettings.fromEnv blank).outcome [] = (.ok settings, registered) ∧
      settings.password = "") ∧
    (GmailSettings.fromEnv blank).outcome [] =
      (.error (.other "AttributeError" "'list' object has no attribute 'get'"), []) := by
  refine ⟨⟨_, _, rfl, ?_⟩, ?_⟩
  · decide
  · rfl

end Credentials

end MailTransporter
