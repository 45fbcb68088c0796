import MailTransporter.Config
import MailTransporter.Environ
import MailTransporter.Watcher

set_option autoImplicit false

/-! # The settings (`config.py`)

`keywords_from_env` and the `from_env` methods of the settings. `Keywords` carries what the validation
has established. The credentials that `GmailSettings` takes out of a JSON
document are whatever the document has there. -/

namespace MailTransporter

open Environ

/-! ## Keywords -/

/-- `RESERVED_KEYWORDS` -/
def RESERVED_KEYWORDS : List String :=
  ["$forwarded", "$junk", "$notjunk", "$mdnsent", "$phishing", "$important",
    "$label1", "$label2", "$label3", "$label4", "$label5",
    "$mailflagbit0", "$mailflagbit1", "$mailflagbit2",
    "junk", "nonjunk", "forwarded", "redirected"]

/-- The letters `keyword_from_env` looks for. -/
def refusedLetters : List Char := [' ', '(', ')', '\\', '{', '"', '%', '*', ']']

/-- The first check of `keyword_from_env`. -/
structure Plain (keyword : String) : Prop where
  notEmpty : keyword ≠ ""
  letters : ∀ c ∈ keyword.toList, c ∉ refusedLetters
  ascii : isAscii keyword = true

instance (keyword : String) : Decidable (Plain keyword) :=
  decidable_of_iff
    (keyword ≠ "" ∧ keyword.toList.all (fun c => decide (c ∉ refusedLetters)) = true ∧
      isAscii keyword = true)
    ⟨fun h => ⟨h.1, fun c hc => of_decide_eq_true (List.all_eq_true.mp h.2.1 c hc), h.2.2⟩,
      fun h => ⟨h.notEmpty, List.all_eq_true.mpr (fun c hc => decide_eq_true (h.letters c hc)),
        h.ascii⟩⟩

theorem Plain.isKeyword {keyword : String} (h : Plain keyword) : IsKeyword keyword where
  ascii := h.ascii
  noBackslash := fun hmem => h.letters '\\' hmem (by decide)

/-- The second check: the keyword is one that mail clients set themselves. -/
def isReserved (keyword : String) : Bool :=
  decide (lower keyword ∈ RESERVED_KEYWORDS) || decide ("\\".toList <+: (lower keyword).toList)

/-- A validated keyword. -/
abbrev Keyword := {keyword : String // IsKeyword keyword}

def keywordFromEnv (e : Environ) (name default reservedHint : String) :
    Except SettingsError Keyword :=
  let keyword := strip (e.getD name default)
  if h : Plain keyword then
    if isReserved keyword then
      let got := strRepr keyword
      .error (.configError
        s!"{name}={got} is a keyword mail clients set themselves; {reservedHint}")
    else .ok ⟨keyword, h.isKeyword⟩
  else .error (.configError s!"{name} must be a plain ASCII IMAP atom such as {default}")

/-- `_QUARANTINE_HINT` -/
def quarantineHint : String :=
  "existing mail carrying it would silently drop out of the forwarding queue"

/-- The (failed, unverified) keywords. -/
def quarantineKeywordsFromEnv (e : Environ) :
    Except SettingsError {pair : Keyword × Keyword // lower pair.1 ≠ lower pair.2} := do
  let failed ← keywordFromEnv e "FAILED_KEYWORD" DEFAULT_FAILED_KEYWORD quarantineHint
  let unverified ← keywordFromEnv e "UNVERIFIED_KEYWORD" DEFAULT_UNVERIFIED_KEYWORD quarantineHint
  if h : lower failed.1 = lower unverified.1 then
    let got := strRepr failed
    .error (.configError ("FAILED_KEYWORD and UNVERIFIED_KEYWORD must differ; one means the " ++
      s!"message is NOT in Gmail and the other that it IS, and both are {got}"))
  else .ok ⟨(failed, unverified), h⟩

def keywordsFromEnv (e : Environ) : Except SettingsError Keywords := do
  let inserted ← keywordFromEnv e "INSERTED_KEYWORD" DEFAULT_INSERTED_KEYWORD
    "existing mail carrying it would be trashed without being forwarded"
  let ⟨(failed, unverified), hdiffer⟩ ← quarantineKeywordsFromEnv e
  if h : lower inserted.1 ≠ lower failed.1 ∧ lower inserted.1 ≠ lower unverified.1 then
    .ok { inserted := inserted.1, failed := failed.1, unverified := unverified.1,
          insertedOk := inserted.2, failedOk := failed.2, unverifiedOk := unverified.2,
          inserted_ne_failed := h.1, inserted_ne_unverified := h.2,
          failed_ne_unverified := hdiffer }
  else
    let got := s!"{strRepr inserted}, {strRepr failed}, {strRepr unverified}"
    .error (.configError
      s!"INSERTED_KEYWORD, FAILED_KEYWORD and UNVERIFIED_KEYWORD must all differ; got {got}")

/-! ## Credentials -/

structure ICloudSettings where
  user : String
  password : String
  host : String
  port : ℤ
  timeout : ℤ

def ICloudSettings.fromEnv (e : Environ) : Reading ICloudSettings := do
  let user ← liftM (e.requireEnv "ICLOUD_USER")
  let password ← e.resolveSecretEnv "ICLOUD_PASSWORD"
  let port ← liftM (e.envInt "IMAP_PORT" 993)
  let timeout ← liftM (e.envInt "IMAP_TIMEOUT" 60)
  pure { user := user, password := password, host := e.getD "IMAP_HOST" "imap.mail.me.com",
         port := port, timeout := timeout }

structure GmailSettings where
  clientId : Json
  clientSecret : Json
  refreshToken : Json
  label : Option String

namespace GmailSettings

/-- `data.get(key)` of a `dict` -/
def get (members : List (String × Json)) (key : String) : Json :=
  (members.lookup key).getD .null

/-- `"installed" in data` -/
def hasInstalled : Json → Except SettingsError Bool
  | .obj members => .ok (members.any (fun member => decide (member.1 = "installed")))
  | .arr items => .ok (items.any (fun
      | .str text => decide (text = "installed")
      | _ => false))
  | .str text => .ok (decide (Contains text "installed"))
  | data =>
      let name := data.typeName
      .error (.other "TypeError" s!"argument of type '{name}' is not iterable")

/-- `{**data["installed"], **{k: v for k, v in data.items() if k != "installed"}}` -/
def mergeInstalled : Json → Except SettingsError (List (String × Json))
  | .obj members =>
      match get members "installed" with
      | .obj installed =>
          .ok (members.filter (fun member => decide (member.1 ≠ "installed")) ++ installed)
      | other =>
          let name := other.typeName
          .error (.other "TypeError" s!"'{name}' object is not a mapping")
  | .arr _ => .error (.other "TypeError" "list indices must be integers or slices, not str")
  | .str _ => .error (.other "TypeError" "string indices must be integers, not 'str'")
  | data =>
      let name := data.typeName
      .error (.other "TypeError" s!"'{name}' object is not subscriptable")

/-- The `dict` in either layout. What is no `dict` has no `get`. -/
def layout (data : Json) : Except SettingsError (List (String × Json)) := do
  if ← hasInstalled data then mergeInstalled data
  else
    match data with
    | .obj members => .ok members
    | data =>
        let name := data.typeName
        .error (.other "AttributeError" s!"'{name}' object has no attribute 'get'")

/-- `register_secret`, for a value of any type. -/
def registerValue (value : Json) : Reading Unit :=
  if value.truthy then
    match value with
    | .str text => register text
    | .arr items =>
        if 6 ≤ items.length then throw (.other "TypeError" "unhashable type: 'list'") else pure ()
    | .obj members =>
        if 6 ≤ members.length then throw (.other "TypeError" "unhashable type: 'dict'")
        else pure ()
    | value =>
        let name := value.typeName
        throw (.other "TypeError" s!"object of type '{name}' has no len()")
  else pure ()

/-- The keys without a value that counts as true. -/
def missing (members : List (String × Json)) : List String :=
  ["client_id", "client_secret", "refresh_token"].filter (fun key => !(get members key).truthy)

/-- `from_env` once the document has been read. -/
def fromJson (e : Environ) (data : Json) : Reading GmailSettings := do
  let members ← liftM (layout data)
  if missing members ≠ [] then
    let names := ", ".intercalate (missing members)
    throw (.configError s!"GMAIL_OAUTH_JSON is missing keys: {names}")
  else
    let label := strip (e.getD "GMAIL_LABEL" "iCloud")
    registerValue (get members "client_secret")
    registerValue (get members "refresh_token")
    pure { clientId := get members "client_id", clientSecret := get members "client_secret",
           refreshToken := get members "refresh_token",
           label := if label = "" then none else some label }

def fromEnv (e : Environ) : Reading GmailSettings := do
  let raw ← e.resolveSecretEnv "GMAIL_OAUTH_JSON"
  match e.loads raw with
  | .ok data => fromJson e data
  | .error .jsonDecodeError => throw (.configError "GMAIL_OAUTH_JSON is not valid JSON")
  | .error (.other name text) => throw (.other name text)

end GmailSettings

/-! ## The forwarder -/

def quarantineModeFromEnv (e : Environ) : Except SettingsError QuarantineMode :=
  let mode := orElse (e.lower (strip (e.getD "QUARANTINE_MODE" "keyword"))) "keyword"
  if mode = "keyword" then .ok .keyword
  else if mode = "folder" then .ok .folder
  else
    let got := strRepr mode
    .error (.configError s!"QUARANTINE_MODE must be one of keyword, folder; got {got}")

structure ForwarderSettings where
  icloud : ICloudSettings
  gmail : GmailSettings
  failedFolder : String
  unverifiedFolder : String
  keywords : Keywords
  quarantineMode : QuarantineMode
  timeBudgetSeconds : ℤ
  rejectionThreshold : ℤ

def ForwarderSettings.fromEnv (e : Environ) : Reading ForwarderSettings := do
  let keywords ← liftM (keywordsFromEnv e)
  let mode ← liftM (quarantineModeFromEnv e)
  let icloud ← ICloudSettings.fromEnv e
  let gmail ← GmailSettings.fromEnv e
  let timeBudgetSeconds ← liftM (e.envInt "TIME_BUDGET_SECONDS" 480)
  let rejectionThreshold ← liftM (e.envInt "REJECTION_THRESHOLD" 3)
  pure { icloud := icloud, gmail := gmail,
         failedFolder := e.getD "FAILED_FOLDER" "Forward-Failed",
         unverifiedFolder := e.getD "UNVERIFIED_FOLDER" "Forward-Unverified",
         keywords := keywords, quarantineMode := mode,
         timeBudgetSeconds := timeBudgetSeconds, rejectionThreshold := rejectionThreshold }

/-- What has been read where the settings of the forwarder are accepted. -/
theorem ForwarderSettings.fromEnv_eq_ok_iff {e : Environ} {registered registered' : Secrets.Registered}
    {s : ForwarderSettings} :
    (ForwarderSettings.fromEnv e).outcome registered = (.ok s, registered') ↔
      keywordsFromEnv e = .ok s.keywords ∧ quarantineModeFromEnv e = .ok s.quarantineMode ∧
      (∃ between, (ICloudSettings.fromEnv e).outcome registered = (.ok s.icloud, between) ∧
        (GmailSettings.fromEnv e).outcome between = (.ok s.gmail, registered')) ∧
      e.envInt "TIME_BUDGET_SECONDS" 480 = .ok s.timeBudgetSeconds ∧
      e.envInt "REJECTION_THRESHOLD" 3 = .ok s.rejectionThreshold ∧
      e.getD "FAILED_FOLDER" "Forward-Failed" = s.failedFolder ∧
      e.getD "UNVERIFIED_FOLDER" "Forward-Unverified" = s.unverifiedFolder := by
  simp only [ForwarderSettings.fromEnv, Reading.outcome_bind_eq_ok, Reading.outcome_lift,
    Reading.outcome_pure, Prod.mk.injEq]
  constructor
  · rintro ⟨keywords, _, ⟨hkeywords, rfl⟩, mode, _, ⟨hmode, rfl⟩, icloud, between, hicloud, gmail, _,
      hgmail, budget, _, ⟨hbudget, rfl⟩, threshold, _, ⟨hthreshold, rfl⟩, hs, rfl⟩
    cases hs
    exact ⟨hkeywords, hmode, ⟨between, hicloud, hgmail⟩, hbudget, hthreshold, rfl, rfl⟩
  · rintro ⟨hkeywords, hmode, ⟨between, hicloud, hgmail⟩, hbudget, hthreshold, hfailed, hunverified⟩
    refine ⟨_, _, ⟨hkeywords, rfl⟩, _, _, ⟨hmode, rfl⟩, _, between, hicloud, _, _, hgmail, _, _,
      ⟨hbudget, rfl⟩, _, _, ⟨hthreshold, rfl⟩, ?_, rfl⟩
    rw [hfailed, hunverified]

/-- The options `build_forwarder` hands to the `Forwarder`. -/
def ForwarderSettings.options (settings : ForwarderSettings) : ForwarderOptions where
  label := settings.gmail.label
  keywords := settings.keywords
  failedFolder := settings.failedFolder
  unverifiedFolder := settings.unverifiedFolder
  quarantineMode := settings.quarantineMode
  timeBudgetSeconds := settings.timeBudgetSeconds
  rejectionThreshold := settings.rejectionThreshold

/-! ## The watcher -/

/-- The whole `WatcherSettings`, of which the loop reads the first part. -/
structure WatcherConfig extends WatcherSettings where
  icloud : ICloudSettings
  forwarderUrl : String
  healthPort : ℤ
  healthStartupGrace : ℤ

def WatcherSettings.fromEnv (e : Environ) : Reading WatcherConfig := do
  let keywords ← liftM (keywordsFromEnv e)
  let icloud ← ICloudSettings.fromEnv e
  let forwarderUrl ← liftM (e.requireEnv "FORWARDER_URL")
  let retriggerInterval ← liftM (e.envInt "RETRIGGER_INTERVAL" 600)
  let idleTimeout ← liftM (e.envInt "IDLE_TIMEOUT" 240)
  let pollInterval ← liftM (e.envInt "POLL_INTERVAL" 60)
  let requestTimeout ← liftM (e.envInt "REQUEST_TIMEOUT" 900)
  let healthPort ← liftM (e.envInt "HEALTH_PORT" 8080)
  let healthStartupGrace ← liftM (e.envInt "HEALTH_STARTUP_GRACE" 300)
  pure { imapTimeout := icloud.timeout, quarantineKeywords := keywords.quarantine,
         retriggerInterval := retriggerInterval, idleTimeout := idleTimeout,
         pollInterval := pollInterval, requestTimeout := requestTimeout, icloud := icloud,
         forwarderUrl := rstripSlash forwarderUrl, healthPort := healthPort,
         healthStartupGrace := healthStartupGrace }

/-- The watcher skips the keywords it has read. -/
theorem WatcherSettings.fromEnv_keywords {e : Environ} {registered registered' : Secrets.Registered}
    {s : WatcherConfig} (h : (fromEnv e).outcome registered = (.ok s, registered')) :
    ∃ keywords, keywordsFromEnv e = .ok keywords ∧ s.quarantineKeywords = keywords.quarantine := by
  simp only [fromEnv, Reading.outcome_bind_eq_ok, Reading.outcome_lift, Reading.outcome_pure,
    Prod.mk.injEq] at h
  obtain ⟨keywords, _, ⟨hkeywords, rfl⟩, icloud, between, -, _, _, -, _, _, -, _, _, -, _, _, -, _, _,
    -, _, _, -, _, _, -, hs, -⟩ := h
  cases hs
  exact ⟨keywords, hkeywords, rfl⟩

end MailTransporter
