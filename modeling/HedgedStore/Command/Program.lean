import HedgedStore.Backend.Session
import HedgedStore.Command.Report
import HedgedStore.Command.World

/-! The program as a whole. It reads the words that it is called with, its configuration and its
files, does one task over a link to the store, and tells what came of it. -/
namespace HedgedStore.Command

structure Outcome where
  stdout : Bytes := []
  log : List LogEvent := []
  jsonLog : Bool := false
  metrics : String := ""
  error : Option ProgramError := none
deriving Repr

def Outcome.exitCode (outcome : Outcome) : Nat := (outcome.error.map (·.exitCode)).getD 0

def info (message : String) (fields : LogFields) : LogEvent :=
  { level := .info, target := "ctlog_s3", message, fields }

/-- What a task brings: bytes to write out, and an event that tells that it is done. -/
structure Product where
  stdout : Bytes := []
  event : Option LogEvent := none

section

variable {σ : Type} {m : Type → Type} [Monad m]

/-- A call's result with the session after it, and what is made of success. -/
def called {α β : Type} (session : Session σ)
    (call : Except Summary.Fault (Except Failure α × Session σ)) (product : α → β) :
    Except ProgramError β × Session σ :=
  match call with
  | .error fault => (.error (.clock fault), session)
  | .ok (.error failure, session) => (.error (.backend failure), session)
  | .ok (.ok a, session) => (.ok (product a), session)

def perform (world : World m) (session : Session σ) :
    Task → m (Except ProgramError Product × Session σ)
  | .put key file contentType compress immutable => do
    match ← world.contents file with
    | .error why => return (.error (.unreadable file why), session)
    | .ok data =>
      let options : UploadOptions := { contentType, compress, immutable }
      return called session (session.upload key data options) fun _ =>
        { event := some (info "uploaded" [("key", .plain key)]) }
  | .get key output => do
    let (result, session) := called session (session.fetch key) id
    match result, output with
    | .error why, _ => return (.error why, session)
    | .ok data, none => return (.ok { stdout := data }, session)
    | .ok data, some path =>
      match ← world.save path data with
      | .error why => return (.error (.unwritable path why), session)
      | .ok () => return (.ok {}, session)
  | .list start =>
    return called session (session.list start) fun keys =>
      { stdout := (String.join (keys.map (· ++ "\n"))).toUTF8.toList }
  | .copy source target =>
    return called session (session.copy source target) fun _ =>
      { event := some (info "copied" [("from", .plain source), ("to", .plain target)]) }
  | .remove key =>
    return called session (session.delete key) fun _ =>
      { event := some (info "deleted" [("key", .plain key)]) }

/-- The filter of the log. One in the environment goes before the level that is configured, unless
it is not well formed. -/
def chooseFilter (environment : Environment) (level : String) :
    Except LogFilter.Fault LogFilter :=
  match (environment "RUST_LOG").map LogFilter.parse with
  | some (.ok filter) => .ok filter
  | some (.error .splitCharacter) => .error .splitCharacter
  | _ => LogFilter.parse level

def metricsText (session : Session σ) : Except ProgramError String :=
  match session.metrics.gather (StoreMetrics.register {}).2 session.now with
  | .error fault => .error (.clock fault)
  | .ok (families, _) => .ok (Exposition.text families)

def work (world : World m) (invocation : Invocation) (config : Config) (session : Session σ) :
    m Outcome := do
  let jsonLog := invocation.jsonLogs || config.logging.json
  let (result, session) ← perform world session invocation.task
  let log := session.log.reverse
  match result with
  | .error error => return { log, jsonLog, error := some error }
  | .ok product =>
    let done : Outcome :=
      { stdout := product.stdout, log := log ++ product.event.toList, jsonLog }
    if invocation.metrics then
      match metricsText session with
      | .ok metrics => return { done with metrics }
      | .error error => return { done with error := some error }
    else return done

def opening (config : Config) : LogEvent :=
  info ("Starting " ++ programName ++ " v" ++ programVersion ++ " against bucket " ++
    config.store.bucket) []

def start (world : World m) (link : Link σ) (store : σ) (now : Instant)
    (invocation : Invocation) (config : Config) : m Outcome := do
  match Backend.ofConfig config.store with
  | .error failure =>
    return { jsonLog := invocation.jsonLogs || config.logging.json
             error := some (.backend failure) }
  | .ok backend =>
    match Session.create config.store backend link store now with
    | .error fault => return { error := some (.clock fault) }
    | .ok session => work world invocation config session

/-- Runs the program. Only events that its filter admits are shown. -/
def run (world : World m) (link : Link σ) (store : σ) (now : Instant) (words : List String) :
    m Outcome := do
  match readInvocation words with
  | .error (.tell text) => return { stdout := text.toUTF8.toList }
  | .error (.guide text) => return { error := some (.guide text) }
  | .error (.error why) => return { error := some (.usage why) }
  | .ok invocation =>
    match Config.loadFile world.environment (← world.contents invocation.config) with
    | .error why => return { error := some (.config invocation.config why) }
    | .ok config =>
      match chooseFilter world.environment (invocation.logLevel.getD config.logging.level) with
      | .error why => return { error := some (.filter why) }
      | .ok filter =>
        let outcome ← start world link store now invocation config
        return { outcome with log := (opening config :: outcome.log).filter filter.admits }

end

end HedgedStore.Command
