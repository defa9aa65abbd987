/-
What the Windows heads start with: Rust (`settings.rs`, `main.rs`, `nats_auth.rs`), C# (`WindowsSettings.cs`,
`NatsAuthSelection.cs`, `Program.cs`) and Go (`settings.go`, `tray.go`). A setting is the environment variable, else the
value of the settings file, else a default; the settings choose the identity and the NATS authentication.

The environment holds the variables that are set and are valid Unicode. A settings file is what a head decodes it to, so
one that is absent or malformed is the one that says nothing. The log level is left out.

- `resolvedOpt_eq_some`: a resolved setting is trimmed and not blank;
- `validate_eq_ok`: the configurations that Rust accepts;
- `startHost_eq`: Rust's start as its checks, one after the other; what it takes out of the settings with `expect` is
  there.

Premise: Rust, C# and Go decode the file on their own. C# and Go ignore the case of its names and C# skips a byte order
mark, Rust does neither, so what two heads make of one file is compared only where `Files.Alike`.
-/
import Mathlib.Tactic
import NotifyAgent.Core.Host

namespace NotifyAgent.Startup

open NotifyAgent.Text
open NotifyAgent.Host (AgentConfig)

/-- the fields of the settings file: `Settings` in Rust, `WindowsSettingsFile` in C# -/
structure Settings where
  natsUrl : Option Str
  subjectTemplate : Option Str
  ackSubject : Option Str
  natsCredsFile : Option Str
  natsAuthServiceUrl : Option Str
  natsAuthServiceScope : Option Str
  aadClientId : Option Str
  aadTenantId : Option Str
  deviceId : Option Str
deriving DecidableEq, Repr

/-- the identity provider, with what it is made of -/
inductive IdentityProvider where
  | deviceCode (clientId tenant deviceId : Str) (extraScopes : List Str)
  | windowsUsername (deviceId : Str)
deriving DecidableEq, Repr

inductive NatsAuthProvider where
  /-- the service at `url`, which gets an access token of the client for the scope -/
  | externalAuthService (url clientId tenant scope : Str)
  | credsFile (path : Str)
deriving DecidableEq, Repr

/-! ## Rust -/

section
variable (env : Str → Option Str)

def resolvedOpt (envVar : String) (fileValue : Option Str) : Option Str :=
  let ofFile := (fileValue.map trim).filter fun s => !s.isEmpty
  match env envVar.toList with
  | some v => if !(trim v).isEmpty then some (trim v) else ofFile
  | none => ofFile

def resolvedStr (envVar : String) (fileValue : Option Str) (default : String) : Str :=
  (resolvedOpt env envVar fileValue).getD default.toList

def agentConfig (settings : Settings) : AgentConfig where
  natsUrl := resolvedStr env "NOTIFY_NATS_URL" settings.natsUrl "nats://127.0.0.1:4222"
  subjectTemplate := resolvedStr env "NOTIFY_SUBJECT_TEMPLATE" settings.subjectTemplate "notify.user.{0}.desktop"
  ackSubject := resolvedStr env "NOTIFY_ACK_SUBJECT" settings.ackSubject "notify.ack.desktop"

structure NatsAuthConfig where
  authServiceUrl : Option Str
  authServiceScope : Option Str
  hasAadIdentity : Bool

def requiresClientId : Str :=
  "NOTIFY_NATS_AUTH_SERVICE_URL requires NOTIFY_AAD_CLIENT_ID (external NATS auth reuses AAD identity)".toList

def requiresScope : Str := "NOTIFY_NATS_AUTH_SERVICE_URL requires NOTIFY_NATS_AUTH_SERVICE_SCOPE".toList

def requiresHttps : Str :=
  "NOTIFY_NATS_AUTH_SERVICE_URL must use https (the AAD bearer token would otherwise be sent in cleartext)".toList

def validateAuthServiceConfig (config : NatsAuthConfig) : Except Str Unit :=
  match config.authServiceUrl with
  | none => .ok ()
  | some url =>
    if ¬ config.hasAadIdentity then .error requiresClientId
    else if ¬ config.authServiceScope.isSome then .error requiresScope
    else if ¬ "https://".toList <+: url then .error requiresHttps
    else .ok ()

/-- how a start ends early -/
inductive Stop where
  | error (text : Str)
  | panic (text : Str)
deriving DecidableEq, Repr

/-- `Option::expect` -/
def expect {α : Type} (o : Option α) (text : String) : Except Stop α :=
  match o with
  | some a => .ok a
  | none => .error (.panic text.toList)

/-- `Result::expect`, with the error as `Debug` shows it -/
def expectOk {α : Type} (r : Except Str α) (text : String) : Except Stop α :=
  match r with
  | .ok a => .ok a
  | .error e => .error (.panic (text.toList ++ ": ".toList ++ e))

/-- `?` -/
def orError {α : Type} : Except Str α → Except Stop α
  | .ok a => .ok a
  | .error text => .error (.error text)

/-- what the calls of `start_host` return that depend on more than the settings -/
structure World where
  /-- the directory of the application data -/
  localAppData : Except Str Unit
  /-- the HTTP client of `ImageCache::with_options` -/
  imageClient : Except Str Unit
  /-- the HTTP client of `AadTokenProvider::new` -/
  tokenClient : Except Str Unit
  /-- `device_id` past the setting: what the file of the device id holds, or what is written there -/
  storedDeviceId : Except Str Str
  /-- `ExternalAuthServiceAuth::new` -/
  authClient : Except Str Unit

/-- what `AgentHost::start` is called with -/
structure Wiring where
  config : AgentConfig
  identity : IdentityProvider
  auth : Option NatsAuthProvider
deriving DecidableEq, Repr

def deviceId (w : World) (settingsDeviceId : Option Str) : Except Stop Str :=
  match resolvedOpt env "NOTIFY_DEVICE_ID" settingsDeviceId with
  | some v => .ok v
  | none => orError w.storedDeviceId

/-- `WindowsToastRenderer::new` -/
def newRenderer (w : World) : Except Stop Unit := do
  orError w.localAppData
  expectOk w.imageClient "image cache HTTP client configuration is valid"

/-- `AadTokenProvider::new` -/
def newTokenProvider (w : World) : Except Stop Unit :=
  expectOk w.tokenClient "reqwest client builder with only a timeout set should not fail"

def startHost (w : World) (settings : Settings) : Except Stop Wiring := do
  let config := agentConfig env settings
  newRenderer w
  let clientId := resolvedOpt env "NOTIFY_AAD_CLIENT_ID" settings.aadClientId
  let tenant := resolvedStr env "NOTIFY_AAD_TENANT_ID" settings.aadTenantId "organizations"
  let authServiceUrl := resolvedOpt env "NOTIFY_NATS_AUTH_SERVICE_URL" settings.natsAuthServiceUrl
  let authServiceScope := resolvedOpt env "NOTIFY_NATS_AUTH_SERVICE_SCOPE" settings.natsAuthServiceScope
  let credsFile := resolvedOpt env "NOTIFY_NATS_CREDS_FILE" settings.natsCredsFile
  orError (validateAuthServiceConfig ⟨authServiceUrl, authServiceScope, clientId.isSome⟩)
  let extraScopes := match authServiceScope with
    | some scope => if authServiceUrl.isSome then [scope] else []
    | none => []
  let id ← deviceId env w settings.deviceId
  let identity := match clientId with
    | some clientId => IdentityProvider.deviceCode clientId tenant id extraScopes
    | none => IdentityProvider.windowsUsername id
  let auth ← match authServiceUrl with
    | some url => do
      let clientId ← expect clientId "validated above: auth service requires an AAD client id"
      let scope ← expect authServiceScope "validated above: auth service requires a scope"
      newTokenProvider w
      orError w.authClient
      pure (some (.externalAuthService url clientId tenant scope))
    | none => pure (credsFile.map .credsFile)
  return ⟨config, identity, auth⟩

end

/-! ## C# -/

/-- `PickOptional` -/
def pickOptional (env fileValue : Option Str) : Option Str :=
  let trimmedFile := fileValue.map trim
  let ofFile := trimmedFile.filter fun s => s.length > 0
  match env.map trim with
  | some trimmedEnv => if trimmedEnv.length > 0 then some trimmedEnv else ofFile
  | none => ofFile

/-- `Pick` -/
def pick (env fileValue : Option Str) (fallback : String) : Str := (pickOptional env fileValue).getD fallback.toList

structure ResolvedWindowsSettings where
  options : AgentConfig
  natsCredsFile : Option Str
  natsAuthServiceUrl : Option Str
  natsAuthServiceScope : Option Str
  aadClientId : Option Str
  aadTenantId : Str
  deviceId : Option Str

/-- `WindowsSettings.Resolve` -/
def resolve (file : Settings) (getEnv : Str → Option Str) : ResolvedWindowsSettings where
  options := {
    natsUrl := pick (getEnv "NOTIFY_NATS_URL".toList) file.natsUrl "nats://127.0.0.1:4222"
    subjectTemplate := pick (getEnv "NOTIFY_SUBJECT_TEMPLATE".toList) file.subjectTemplate "notify.user.{0}.desktop"
    ackSubject := pick (getEnv "NOTIFY_ACK_SUBJECT".toList) file.ackSubject "notify.ack.desktop" }
  natsCredsFile := pickOptional (getEnv "NOTIFY_NATS_CREDS_FILE".toList) file.natsCredsFile
  natsAuthServiceUrl := pickOptional (getEnv "NOTIFY_NATS_AUTH_SERVICE_URL".toList) file.natsAuthServiceUrl
  natsAuthServiceScope := pickOptional (getEnv "NOTIFY_NATS_AUTH_SERVICE_SCOPE".toList) file.natsAuthServiceScope
  aadClientId := pickOptional (getEnv "NOTIFY_AAD_CLIENT_ID".toList) file.aadClientId
  aadTenantId := pick (getEnv "NOTIFY_AAD_TENANT_ID".toList) file.aadTenantId "organizations"
  deviceId := pickOptional (getEnv "NOTIFY_DEVICE_ID".toList) file.deviceId

structure MsalIdentityProvider where
  clientId : Str
  tenantId : Str
  deviceIdOverride : Option Str
deriving DecidableEq, Repr

/-- the exceptions of `NatsAuthSelection.Select` -/
inductive Thrown where
  | invalidOperation (message : Str)
  /-- by `new Uri` -/
  | uriFormat
deriving DecidableEq, Repr

/-- `NatsAuthSelection.Select`; `scheme` is the scheme of `new Uri(_)`, none if that throws -/
def select (scheme : Str → Option Str) (authServiceUrl authServiceScope credsFile : Option Str)
    (msalIdentity : Option MsalIdentityProvider) : Except Thrown (Option NatsAuthProvider) :=
  match authServiceUrl.filter fun s => s.length > 0 with
  | some url =>
    match msalIdentity with
    | none => .error (.invalidOperation (requiresClientId ++ ['.']))
    | some msal =>
      match authServiceScope.filter fun s => s.length > 0 with
      | none => .error (.invalidOperation (requiresScope ++ ['.']))
      | some scope =>
        match scheme url with
        | none => .error .uriFormat
        | some s =>
          if s ≠ "https".toList then .error (.invalidOperation (requiresHttps ++ ['.']))
          else .ok (some (.externalAuthService url msal.clientId msal.tenantId scope))
  | none => .ok ((credsFile.filter fun s => s.length > 0).map .credsFile)

/-- what `AgentHost.StartAsync` is called with once the tray runs -/
structure Launch where
  options : AgentConfig
  /-- MSAL, else the account name with this device id override -/
  identity : MsalIdentityProvider ⊕ Option Str
  auth : Option NatsAuthProvider
deriving DecidableEq, Repr

/-- `Program.cs` up to `Application.Run` -/
def program (scheme : Str → Option Str) (file : Settings) (getEnv : Str → Option Str) : Except Thrown Launch := do
  let settings := resolve file getEnv
  let msalIdentity := (settings.aadClientId.filter fun s => s.length > 0).map fun clientId =>
    ⟨clientId, settings.aadTenantId, settings.deviceId⟩
  let identity := match msalIdentity with
    | some msal => Sum.inl msal
    | none => Sum.inr settings.deviceId
  let authProvider ← select scheme settings.natsAuthServiceUrl settings.natsAuthServiceScope settings.natsCredsFile
    msalIdentity
  return ⟨settings.options, identity, authProvider⟩

/-! ## Go -/

/-- Go's `Settings`; an absent field is empty -/
structure GoSettings where
  natsURL : Str
  subjectTemplate : Str
  ackSubject : Str
  natsCredsFile : Str
  deviceID : Str

def GoSettings.ofFile (file : Settings) : GoSettings where
  natsURL := file.natsUrl.getD []
  subjectTemplate := file.subjectTemplate.getD []
  ackSubject := file.ackSubject.getD []
  natsCredsFile := file.natsCredsFile.getD []
  deviceID := file.deviceId.getD []

/-- `os.Getenv` -/
def getenv (env : Str → Option Str) (key : String) : Str := (env key.toList).getD []

def isBlank (s : Str) : Bool := trim s = []

/-- `host.getEnvOr` -/
def getEnvOr (env : Str → Option Str) (key fallback : String) : Str :=
  let v := getenv env key
  if trim v = [] then fallback.toList else v

/-- `host.OptionsFromEnv` -/
def optionsFromEnv (env : Str → Option Str) : AgentConfig where
  natsUrl := getEnvOr env "NOTIFY_NATS_URL" "nats://127.0.0.1:4222"
  subjectTemplate := getEnvOr env "NOTIFY_SUBJECT_TEMPLATE" "notify.user.%s.desktop"
  ackSubject := getEnvOr env "NOTIFY_ACK_SUBJECT" "notify.ack.desktop"

/-- `ResolveHostOptions` for one field -/
def resolveHostOption (env : Str → Option Str) (key : String) (envOpt file : Str) : Str :=
  if isBlank (getenv env key) && !isBlank file then file else envOpt

def resolveHostOptions (env : Str → Option Str) (envOpts : AgentConfig) (s : GoSettings) : AgentConfig where
  natsUrl := resolveHostOption env "NOTIFY_NATS_URL" envOpts.natsUrl s.natsURL
  subjectTemplate := resolveHostOption env "NOTIFY_SUBJECT_TEMPLATE" envOpts.subjectTemplate s.subjectTemplate
  ackSubject := resolveHostOption env "NOTIFY_ACK_SUBJECT" envOpts.ackSubject s.ackSubject

/-- `ResolveCredsFile`, `ResolveDeviceID`: the variable, else what the file says, else nothing -/
def resolveOr (env : Str → Option Str) (key : String) (file : Str) : Str :=
  let v := getenv env key
  if !isBlank v then v
  else if isBlank file then []
  else file

def resolveCredsFile (env : Str → Option Str) (s : GoSettings) : Str :=
  resolveOr env "NOTIFY_NATS_CREDS_FILE" s.natsCredsFile

def resolveDeviceID (env : Str → Option Str) (s : GoSettings) : Str := resolveOr env "NOTIFY_DEVICE_ID" s.deviceID

/-- what `host.Start` is called with; the identity is the account name with this device id, empty for that of the
machine -/
structure GoLaunch where
  options : AgentConfig
  deviceID : Str
  /-- `natsauth.CredsFileAuth` -/
  credsFile : Option Str

/-- what each head decodes the settings file to -/
structure Files where
  rust : Settings
  csharp : Settings
  go : GoSettings

/-- the heads decode the settings file to the same values -/
structure Files.Alike (files : Files) : Prop where
  csharp : files.csharp = files.rust
  go : files.go = .ofFile files.rust

/-- `startAgent` up to `host.Start` -/
def startAgent (env : Str → Option Str) (s : GoSettings) : GoLaunch :=
  let credsPath := resolveCredsFile env s
  { options := resolveHostOptions env (optionsFromEnv env) s
    deviceID := resolveDeviceID env s
    credsFile := if trim credsPath ≠ [] then some credsPath else none }

/-! ## Resolved settings -/

section
variable {env : Str → Option Str} {envVar : String} {fileValue : Option Str} {v : Str}

/-- the variable if it is not blank, else what the file says if that is not blank -/
theorem resolvedOpt_eq (env : Str → Option Str) (key : String) (fileValue : Option Str) :
    resolvedOpt env key fileValue =
      if trim (getenv env key) ≠ [] then some (trim (getenv env key))
      else if trim (fileValue.getD []) ≠ [] then some (trim (fileValue.getD [])) else none := by
  have hnil : trim [] = [] := rfl
  have hfile : ((fileValue.map trim).filter fun s => !s.isEmpty) =
      if trim (fileValue.getD []) ≠ [] then some (trim (fileValue.getD [])) else none := by
    cases fileValue with
    | none => rfl
    | some s => by_cases hs : trim s = [] <;> simp [Option.filter, hs]
  simp only [resolvedOpt, getenv, hfile]
  split
  · rename_i v hkey
    by_cases hv : trim v = [] <;> simp [hkey, hv]
  · rename_i hkey
    simp [hkey, hnil]

/-- **A resolved setting** is trimmed and not blank. -/
theorem resolvedOpt_eq_some (h : resolvedOpt env envVar fileValue = some v) : trim v = v ∧ v ≠ [] := by
  rw [resolvedOpt_eq] at h
  split_ifs at h with henv hfile
  · rw [← Option.some.inj h]
    exact ⟨trimBy_trimBy _ _, henv⟩
  · rw [← Option.some.inj h]
    exact ⟨trimBy_trimBy _ _, hfile⟩

/-- C# picks what Rust resolves -/
theorem pickOptional_eq (env : Str → Option Str) (envVar : String) (fileValue : Option Str) :
    pickOptional (env envVar.toList) fileValue = resolvedOpt env envVar fileValue := by
  have hlength : ∀ s : Str, decide (s.length > 0) = !s.isEmpty := by
    intro s
    cases s <;> simp
  unfold pickOptional resolvedOpt
  simp only [hlength]
  cases env envVar.toList with
  | none => rfl
  | some v => simp [List.length_pos_iff]

theorem filter_resolvedOpt (env : Str → Option Str) (envVar : String) (fileValue : Option Str) :
    ((resolvedOpt env envVar fileValue).filter fun s => s.length > 0) = resolvedOpt env envVar fileValue := by
  cases h : resolvedOpt env envVar fileValue with
  | none => rfl
  | some v => simp [List.length_pos_iff.2 (resolvedOpt_eq_some h).2]

/-- Go leaves the white space around a setting -/
theorem trim_resolveOr (env : Str → Option Str) (key : String) (fileValue : Option Str) :
    trim (resolveOr env key (fileValue.getD [])) = (resolvedOpt env key fileValue).getD [] := by
  rw [resolvedOpt_eq, resolveOr]
  by_cases henv : trim (getenv env key) = []
  · by_cases hfile : trim (fileValue.getD []) = []
    · simp only [isBlank, henv, hfile]
      rfl
    · simp [isBlank, henv, hfile]
  · simp [isBlank, henv]

theorem trim_resolveHostOption (env : Str → Option Str) (key fallback : String) (fileValue : Option Str) :
    trim (resolveHostOption env key (getEnvOr env key fallback) (fileValue.getD [])) =
      (resolvedOpt env key fileValue).getD (trim fallback.toList) := by
  rw [resolvedOpt_eq, resolveHostOption, getEnvOr]
  by_cases henv : trim (getenv env key) = []
  · by_cases hfile : trim (fileValue.getD []) = [] <;> simp [isBlank, henv, hfile]
  · simp [isBlank, henv]

end

/-! ## The start in Rust -/

/-- what `start_host` validates -/
def authConfig (env : Str → Option Str) (settings : Settings) : NatsAuthConfig where
  authServiceUrl := resolvedOpt env "NOTIFY_NATS_AUTH_SERVICE_URL" settings.natsAuthServiceUrl
  authServiceScope := resolvedOpt env "NOTIFY_NATS_AUTH_SERVICE_SCOPE" settings.natsAuthServiceScope
  hasAadIdentity := (resolvedOpt env "NOTIFY_AAD_CLIENT_ID" settings.aadClientId).isSome

theorem validate_eq_ok {config : NatsAuthConfig} :
    validateAuthServiceConfig config = .ok () ↔ ∀ url, config.authServiceUrl = some url →
      config.hasAadIdentity = true ∧ config.authServiceScope.isSome ∧ "https://".toList <+: url := by
  unfold validateAuthServiceConfig
  cases config.authServiceUrl with
  | none => simp
  | some url =>
    simp only [Option.some.injEq, forall_eq']
    split_ifs with h1 h2 h3 <;> simp_all

/-- the authentication with the service, if its URL, the client and the scope are given, else with the file -/
def authOf (env : Str → Option Str) (settings : Settings) : Option NatsAuthProvider :=
  match resolvedOpt env "NOTIFY_NATS_AUTH_SERVICE_URL" settings.natsAuthServiceUrl,
      resolvedOpt env "NOTIFY_AAD_CLIENT_ID" settings.aadClientId,
      resolvedOpt env "NOTIFY_NATS_AUTH_SERVICE_SCOPE" settings.natsAuthServiceScope with
  | some url, some clientId, some scope =>
    some (.externalAuthService url clientId
      (resolvedStr env "NOTIFY_AAD_TENANT_ID" settings.aadTenantId "organizations")
      scope)
  | _, _, _ => (resolvedOpt env "NOTIFY_NATS_CREDS_FILE" settings.natsCredsFile).map .credsFile

/-- the scopes that the sign-in asks for beside its own -/
def extraScopes (env : Str → Option Str) (settings : Settings) : List Str :=
  match (authConfig env settings).authServiceUrl with
  | some _ => (authConfig env settings).authServiceScope.toList
  | none => []

def identityOf (env : Str → Option Str) (settings : Settings) (id : Str) : IdentityProvider :=
  match resolvedOpt env "NOTIFY_AAD_CLIENT_ID" settings.aadClientId with
  | some clientId =>
    .deviceCode clientId (resolvedStr env "NOTIFY_AAD_TENANT_ID" settings.aadTenantId "organizations") id
      (extraScopes env settings)
  | none => .windowsUsername id

theorem startHost_eq (env : Str → Option Str) (w : World) (settings : Settings) :
    startHost env w settings = (do
      newRenderer w
      orError (validateAuthServiceConfig (authConfig env settings))
      let id ← deviceId env w settings.deviceId
      match (authConfig env settings).authServiceUrl with
      | some _ => do
        newTokenProvider w
        orError w.authClient
      | none => pure ()
      return ⟨agentConfig env settings, identityOf env settings id, authOf env settings⟩) := by
  show (newRenderer w >>= fun _ => orError (validateAuthServiceConfig (authConfig env settings)) >>= fun _ => _) = _
  refine congrArg _ (funext fun _ => ?_)
  cases hvalidate : validateAuthServiceConfig (authConfig env settings) with
  | error text => rfl
  | ok _ =>
    have hconfig := validate_eq_ok.1 hvalidate
    simp only [authConfig] at hconfig
    show (deviceId env w settings.deviceId >>= fun id => _) = (deviceId env w settings.deviceId >>= fun id => _)
    refine congrArg _ (funext fun id => ?_)
    simp only [identityOf, authOf, extraScopes, authConfig]
    generalize resolvedOpt env "NOTIFY_NATS_AUTH_SERVICE_URL" settings.natsAuthServiceUrl = url at *
    generalize resolvedOpt env "NOTIFY_NATS_AUTH_SERVICE_SCOPE" settings.natsAuthServiceScope = scope at *
    generalize resolvedOpt env "NOTIFY_AAD_CLIENT_ID" settings.aadClientId = clientId at *
    cases url with
    | none => cases clientId <;> cases scope <;> rfl
    | some url =>
      obtain ⟨hclient, hscope, -⟩ := hconfig url rfl
      obtain ⟨clientId, rfl⟩ := Option.isSome_iff_exists.1 hclient
      obtain ⟨scope, rfl⟩ := Option.isSome_iff_exists.1 hscope
      rfl

/-! ## The start in C# -/

theorem pick_eq (env : Str → Option Str) (envVar : String) (fileValue : Option Str) (fallback : String) :
    pick (env envVar.toList) fileValue fallback = resolvedStr env envVar fileValue fallback := by
  rw [pick, pickOptional_eq, resolvedStr]

theorem resolve_eq (file : Settings) (env : Str → Option Str) :
    resolve file env = {
      options := agentConfig env file
      natsCredsFile := resolvedOpt env "NOTIFY_NATS_CREDS_FILE" file.natsCredsFile
      natsAuthServiceUrl := (authConfig env file).authServiceUrl
      natsAuthServiceScope := (authConfig env file).authServiceScope
      aadClientId := resolvedOpt env "NOTIFY_AAD_CLIENT_ID" file.aadClientId
      aadTenantId := resolvedStr env "NOTIFY_AAD_TENANT_ID" file.aadTenantId "organizations"
      deviceId := resolvedOpt env "NOTIFY_DEVICE_ID" file.deviceId } := by
  simp only [resolve, pick_eq, pickOptional_eq, agentConfig, authConfig]

/-- what C# launches if `Select` does not throw -/
def launchOf (env : Str → Option Str) (file : Settings) : Launch where
  options := agentConfig env file
  identity :=
    match resolvedOpt env "NOTIFY_AAD_CLIENT_ID" file.aadClientId with
    | some clientId => .inl ⟨clientId, resolvedStr env "NOTIFY_AAD_TENANT_ID" file.aadTenantId "organizations",
        resolvedOpt env "NOTIFY_DEVICE_ID" file.deviceId⟩
    | none => .inr (resolvedOpt env "NOTIFY_DEVICE_ID" file.deviceId)
  auth := authOf env file

/-- `Program.cs` throws what `Select` finds wrong, in the order of Rust's checks -/
theorem program_eq (scheme : Str → Option Str) (file : Settings) (env : Str → Option Str) :
    program scheme file env =
      match (authConfig env file).authServiceUrl, (authConfig env file).hasAadIdentity,
          (authConfig env file).authServiceScope with
      | none, _, _ => .ok (launchOf env file)
      | some _, false, _ => .error (.invalidOperation (requiresClientId ++ ['.']))
      | some _, true, none => .error (.invalidOperation (requiresScope ++ ['.']))
      | some url, true, some _ =>
        match scheme url with
        | none => .error .uriFormat
        | some s =>
          if s ≠ "https".toList then .error (.invalidOperation (requiresHttps ++ ['.']))
          else .ok (launchOf env file) := by
  simp only [program, resolve_eq, select, authConfig, filter_resolvedOpt, launchOf, authOf]
  generalize resolvedOpt env "NOTIFY_NATS_AUTH_SERVICE_URL" file.natsAuthServiceUrl = url
  generalize resolvedOpt env "NOTIFY_NATS_AUTH_SERVICE_SCOPE" file.natsAuthServiceScope = scope
  generalize resolvedOpt env "NOTIFY_AAD_CLIENT_ID" file.aadClientId = clientId
  rcases url with _ | url
  · cases clientId <;> rfl
  · rcases clientId with _ | clientId
    · rfl
    · rcases scope with _ | scope
      · rfl
      · simp only [Option.map_some, Option.isSome_some]
        rcases scheme url with _ | s
        · rfl
        · by_cases hs : s = "https".toList
          · simp only [hs, ne_eq, not_true_eq_false, if_false]
            rfl
          · simp only [hs, ne_eq, not_false_eq_true, if_true]
            rfl

end NotifyAgent.Startup
