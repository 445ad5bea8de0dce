import HedgedStore.Backend.Basic

/-! The secret key stays secret. All that is said of a configuration, from its own looks to what
the log is told of the backend, is said of it as well without its secret key, so configurations
that differ in the secret key alone are never told apart. -/
namespace HedgedStore

/-- All that is said of a configuration of a store. -/
structure Sayings where
  shown : Text.Shown
  /-- The whole configuration as it is shown, whatever is configured of the log. -/
  within : LoggingConfig → Text.Shown
  /-- What is wrong with it, and how that is reported. -/
  invalidity : Option (Invalidity × String)
  /-- Its credentials as they are shown, or why there are none. -/
  credentials : Except (CredentialsError × String) Text.Shown
  /-- The backend that is built from it, or why there is none. -/
  backend : Except (Failure × String) (Backend × Text.Shown)
  /-- What the log is told meanwhile. -/
  log : List LogEvent

namespace StoreConfig

/-- The configuration that still tells whether there is a secret key, and no more. -/
def redacted (config : StoreConfig) : StoreConfig :=
  { config with secretKey := config.secretKey.map fun _ => "" }

def withSecret (config : StoreConfig) (secret : String) : StoreConfig :=
  { config with secretKey := some secret }

/-- Collects what is said. How credentials are shown is not up to this library. -/
def sayings (showCredentials : Credentials → Text.Shown) (config : StoreConfig) : Sayings where
  shown := config.shown
  within logging := Config.shown ⟨config, logging⟩
  invalidity := config.invalidity?.map fun why => (why, why.report)
  credentials :=
    match config.credentials with
    | .ok credentials => .ok (Text.Shown.option (credentials.map showCredentials))
    | .error why => .error (why, why.message)
  backend :=
    match Backend.ofConfig config with
    | .ok backend => .ok (backend, backend.shown)
    | .error failure => .error (failure, failure.message)
  log :=
    match Backend.ofConfig config with
    | .ok _ => [Backend.creation config]
    | .error _ => []

variable {showCredentials : Credentials → Text.Shown} (config : StoreConfig)

@[simp] theorem shown_redacted : config.redacted.shown = config.shown := by
  cases secret : config.secretKey <;> simp [shown, redacted, secret]

@[simp] theorem invalidity?_redacted : config.redacted.invalidity? = config.invalidity? := rfl

@[simp] theorem creation_redacted :
    Backend.creation config.redacted = Backend.creation config := rfl

/-- The keys are there in either case, or one of them is missing in either case. -/
theorem credentials_redacted :
    config.redacted.credentials =
      config.credentials.map (Option.map fun keys => { keys with secretKey := "" }) := by
  cases access : config.accessKey <;> cases secret : config.secretKey <;>
    simp [credentials, redacted, access, secret, Except.map]

@[simp] theorem ofConfig_redacted : Backend.ofConfig config.redacted = Backend.ofConfig config := by
  simp only [Backend.ofConfig, invalidity?_redacted, credentials_redacted]
  cases config.credentials <;> rfl

theorem sayings_redacted
    (redacts : ∀ accessKey secret other,
      showCredentials ⟨accessKey, secret⟩ = showCredentials ⟨accessKey, other⟩) :
    config.redacted.sayings showCredentials = config.sayings showCredentials := by
  have shownAlike (keys : Option Credentials) :
      (keys.map fun keys => { keys with secretKey := "" }).map showCredentials =
        keys.map showCredentials := by
    cases keys with
    | none => rfl
    | some keys => exact congrArg some (redacts keys.accessKey "" keys.secretKey)
  simp only [sayings, Config.shown, shown_redacted, invalidity?_redacted, credentials_redacted,
    ofConfig_redacted, creation_redacted]
  cases config.credentials with
  | error why => rfl
  | ok keys => simp only [Except.map, shownAlike]

/-- Two configurations that differ in nothing but the contents of the secret key give rise to the
same texts throughout, provided that credentials are shown without their secret half. -/
theorem secret_unsaid
    (redacts : ∀ accessKey secret other,
      showCredentials ⟨accessKey, secret⟩ = showCredentials ⟨accessKey, other⟩)
    (secret other : String) :
    (config.withSecret secret).sayings showCredentials =
      (config.withSecret other).sayings showCredentials :=
  calc (config.withSecret secret).sayings showCredentials
    _ = (config.withSecret secret).redacted.sayings showCredentials :=
      (sayings_redacted _ redacts).symm
    _ = (config.withSecret other).redacted.sayings showCredentials := rfl
    _ = (config.withSecret other).sayings showCredentials := sayings_redacted _ redacts

/-- Credentials shown by their origin and access key. -/
def showAccessKey (credentials : Credentials) : Text.Shown :=
  .record "Credentials" [
    ("provider_name", .quoted "ctlog-s3-config"),
    ("access_key_id", .quoted credentials.accessKey),
    ("secret_access_key", .quoted "** redacted **")]

theorem secret_unsaid_of_full_keys :
    let config : StoreConfig := { region := "r", bucket := "b", accessKey := some "AKID" }
    (config.withSecret "hunter2").sayings showAccessKey =
      (config.withSecret "correct horse").sayings showAccessKey :=
  secret_unsaid _ (fun _ _ _ => rfl) "hunter2" "correct horse"

end StoreConfig

end HedgedStore
