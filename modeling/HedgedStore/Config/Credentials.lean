import HedgedStore.Config.Basic

/-! The keys that requests are signed with. Both halves come from the configuration, or neither
does and the surroundings have to provide them. -/
namespace HedgedStore

structure Credentials where
  accessKey : String
  secretKey : String
deriving DecidableEq, Repr

inductive CredentialsError where
  | missingSecretKey
  | missingAccessKey
deriving DecidableEq, Repr

def CredentialsError.message : CredentialsError → String
  | .missingSecretKey => "Missing credentials: access_key is set but secret_key is not"
  | .missingAccessKey => "Missing credentials: secret_key is set but access_key is not"

def StoreConfig.credentials (config : StoreConfig) :
    Except CredentialsError (Option Credentials) :=
  match config.accessKey, config.secretKey with
  | some accessKey, some secretKey => .ok (some ⟨accessKey, secretKey⟩)
  | none, none => .ok none
  | some _, none => .error .missingSecretKey
  | none, some _ => .error .missingAccessKey

end HedgedStore
