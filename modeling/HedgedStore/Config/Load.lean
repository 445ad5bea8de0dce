import HedgedStore.Config.Fields
import HedgedStore.Config.Validity
import HedgedStore.FileFault
import HedgedStore.Yaml.Document

/-! Loading a configuration: one YAML document is read into fields, placeholders in the texts of the
store being replaced, and the outcome is checked. -/
namespace HedgedStore

inductive ConfigError where
  | unreadable (why : FileFault)
  | malformed (why : Yaml.Malformation)
  | undecodable (why : Yaml.Mismatch)
  | invalid (why : Invalidity)
deriving DecidableEq, Repr

def ConfigError.message : ConfigError → String
  | .unreadable why => "Failed to read config file: " ++ why.message
  | .malformed why => "Failed to parse config: " ++ why.message
  | .undecodable why => "Failed to parse config: " ++ why.message
  | .invalid why => why.report

def ConfigError.cause : ConfigError → Option String
  | .unreadable why => some why.message
  | .malformed why => some why.message
  | .undecodable why => some why.message
  | .invalid _ => none

namespace Config

/-- Reads a configuration. A text without any token stands for an empty mapping. -/
def parse (environment : Environment) (text : String) : Except ConfigError Config :=
  match Yaml.document? text.toList with
  | .error why => .error (.malformed why)
  | .ok root =>
    match Config.ofNode environment (root.getD (.scalar none .empty)) with
    | .error why => .error (.undecodable why)
    | .ok config => .ok config

def validate (config : Config) : Except ConfigError Config :=
  match config.store.invalidity? with
  | some why => .error (.invalid why)
  | none => .ok config

def load (environment : Environment) (text : String) : Except ConfigError Config := do
  validate (← parse environment text)

/-- Loads a configuration from the bytes of a file, if there is such a file. -/
def loadFile (environment : Environment) (file : Except FileFault (List UInt8)) :
    Except ConfigError Config :=
  match file with
  | .error why => .error (.unreadable why)
  | .ok bytes =>
    match String.fromUTF8? ⟨bytes.toArray⟩ with
    | none => .error (.unreadable .notText)
    | some text => load environment text

end Config

end HedgedStore
