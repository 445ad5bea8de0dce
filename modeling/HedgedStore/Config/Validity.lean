import HedgedStore.Config.Basic
import HedgedStore.Text.Blank

/-! What a configuration must satisfy before a backend is built from it. -/
namespace HedgedStore

inductive Invalidity where
  | emptyRegion
  | emptyBucket
  | endpointScheme (endpoint : String)
  | zeroHedgeDelay
  | zeroAttempts
deriving DecidableEq, Repr

def Invalidity.message : Invalidity → String
  | .emptyRegion => "region cannot be empty"
  | .emptyBucket => "bucket cannot be empty"
  | .endpointScheme endpoint =>
    "Invalid endpoint '" ++ endpoint ++ "': must start with http:// or https://"
  | .zeroHedgeDelay => "hedge_delay_ms must be greater than zero"
  | .zeroAttempts => "max_attempts must be at least 1"

def Invalidity.report (why : Invalidity) : String := "Invalid configuration: " ++ why.message

/-- An address that says how to speak to its host. -/
def isHttpAddress (s : String) : Bool :=
  "http://".toList.isPrefixOf s.toList || "https://".toList.isPrefixOf s.toList

/-- The first thing that is wrong, in the order of the fields. -/
def StoreConfig.invalidity? (config : StoreConfig) : Option Invalidity :=
  if Text.isBlankText config.region then some .emptyRegion
  else if Text.isBlankText config.bucket then some .emptyBucket
  else match config.endpoint.filter fun endpoint => !isHttpAddress endpoint with
  | some endpoint => some (.endpointScheme endpoint)
  | none =>
    if config.hedgeDelayMs = 0 then some .zeroHedgeDelay
    else if config.maxAttempts = 0 then some .zeroAttempts
    else none

end HedgedStore
