import HedgedStore.Proofs.Config.Decoding
import HedgedStore.Proofs.Yaml.Aliases

/-! The texts of a configuration. In every document, also one with aliases, the texts of the store
are the expansions of the scalars that the document gives for them; the level of the log is its
scalar as it stands. -/
namespace HedgedStore

open Yaml (Node Place Layout Required Optional Slot)

variable {environment : Environment}

theorem StoreConfig.told_of_ofPlace {p : Place} {config : StoreConfig}
    (read : ofPlace environment p = .ok config) :
    Told environment (p.root.followed p.node) config := by
  have empty (field : StoreField) : StoreDraft.get {} field = none := by cases field <;> rfl
  obtain ⟨draft, drafted, finished⟩ := bind_eq_ok.mp read
  refine StoreDraft.told_of_finish (fun field => ?_) finished
  exact (StoreDraft.layout environment).slot_of_readRecord (StoreField.Reads environment) empty
    (fun field path node v valued => StoreDraft.value_eq_ok.mp valued) drafted field

theorem LoggingConfig.told_of_ofPlace {p : Place} {config : LoggingConfig}
    (read : ofPlace p = .ok config) : Told (p.root.followed p.node) config := by
  have empty (field : LoggingField) : LoggingDraft.get {} field = none := by cases field <;> rfl
  obtain ⟨draft, drafted, rfl⟩ := map_eq_ok.mp read
  have slots := LoggingDraft.layout.slot_of_readRecord LoggingField.Reads empty
    (fun field path node v valued => LoggingDraft.value_eq_ok.mp valued) drafted
  exact ⟨(slots .level).optional "info", (slots .json).optional false⟩

namespace Config

/-- What a document says of a configuration behind its aliases. -/
structure ToldBehind (environment : Environment) (root : Node) (config : Config) : Prop where
  store : Required (fun node => StoreConfig.Told environment (root.followed node))
    (root.found ["s3"]) config.store
  logging : Optional (fun node => LoggingConfig.Told (root.followed node)) {}
    (root.found ["logging"]) config.logging

/-- Which value of a field the node behind an alias says. -/
def ReadsBehind (environment : Environment) (root : Node) :
    (field : ConfigField) → Node → field.Value → Prop
  | .store => fun node => StoreConfig.Told environment (root.followed node)
  | .logging => fun node => LoggingConfig.Told (root.followed node)

theorem told_of_ofNode {root : Node} {config : Config} (read : ofNode environment root = .ok config) :
    ToldBehind environment root config := by
  have empty (field : ConfigField) : ConfigDraft.get {} field = none := by cases field <;> rfl
  obtain ⟨draft, drafted, finished⟩ := bind_eq_ok.mp read
  obtain ⟨store, required, finished⟩ := bind_eq_ok.mp finished
  obtain rfl := Except.ok.inj finished
  have reads (field : ConfigField) (path : List Yaml.Step) (node : Node) (v : field.Value)
      (valued : ConfigDraft.value environment field ⟨root, path, node⟩ = .ok v) :
      ReadsBehind environment root field (root.behind node) v := by
    cases field with
    | store =>
      change StoreConfig.Told environment (root.followed (root.behind node)) v
      rw [Node.followed_behind]
      exact StoreConfig.told_of_ofPlace valued
    | logging =>
      change LoggingConfig.Told (root.followed (root.behind node)) v
      rw [Node.followed_behind]
      exact LoggingConfig.told_of_ofPlace valued
  have slots := (ConfigDraft.layout environment).slot_of_readRecord (p := ⟨root, [], root⟩)
    (ReadsBehind environment root) empty reads drafted
  constructor
  · rw [Node.found_singleton]
    exact Yaml.slot_some.mp (StoreDraft.require_eq_ok.mp required ▸ slots .store)
  · rw [Node.found_singleton]
    exact (slots .logging).optional {}

/-- Every text of the store is the expansion of the scalar at its place in the document, and the
level of the log is such a scalar unexpanded; or the document gives nothing there, and it is the
default. -/
structure TextsTold (environment : Environment) (root : Node) (config : Config) : Prop where
  region : Required (IsExpanded environment) (root.found ["s3", "region"]) config.store.region
  bucket : Required (IsExpanded environment) (root.found ["s3", "bucket"]) config.store.bucket
  endpoint : Optional (Node.OrNull (IsExpanded environment)) none (root.found ["s3", "endpoint"])
    config.store.endpoint
  keyPrefix : Optional (IsExpanded environment) "" (root.found ["s3", "key_prefix"])
    config.store.keyPrefix
  accessKey : Optional (Node.OrNull (IsExpanded environment)) none
    (root.found ["s3", "access_key"]) config.store.accessKey
  secretKey : Optional (Node.OrNull (IsExpanded environment)) none
    (root.found ["s3", "secret_key"]) config.store.secretKey
  level : Optional Node.IsText "info" (root.found ["logging", "level"]) config.logging.level

theorem ToldBehind.texts {root : Node} {config : Config}
    (told : ToldBehind environment root config) : TextsTold environment root config := by
  obtain ⟨node, only, store⟩ := told.store
  have below (name : String) :
      root.found ["s3", name] = (root.followed node).valuesAt name := by
    rw [Node.found_pair, only, List.flatMap_singleton]
  refine {
    region := ?_, bucket := ?_, endpoint := ?_, keyPrefix := ?_, accessKey := ?_, secretKey := ?_
    level := ?_ }
  · exact below "region" ▸ store.region
  · exact below "bucket" ▸ store.bucket
  · exact below "endpoint" ▸ store.endpoint
  · exact below "key_prefix" ▸ store.keyPrefix
  · exact below "access_key" ▸ store.accessKey
  · exact below "secret_key" ▸ store.secretKey
  · rw [Node.found_pair]
    obtain ⟨absent, default⟩ | ⟨node, only, logging⟩ := told.logging
    · rw [absent, default]
      exact .inl ⟨rfl, rfl⟩
    · rw [only, List.flatMap_singleton]
      exact logging.level

/-- A configuration that was loaded has the texts that its document tells. -/
theorem load_tells_texts {text : String} {config : Config}
    (loaded : load environment text = .ok config) :
    ∃ root, Yaml.document? text.toList = .ok (some root) ∧ TextsTold environment root config := by
  obtain ⟨parsed, read, checked⟩ := bind_eq_ok.mp loaded
  have same : parsed = config := by
    unfold validate at checked
    split at checked
    · cases checked
    · exact Except.ok.inj checked
  subst same
  unfold parse at read
  cases document : Yaml.document? text.toList with
  | error why =>
    rw [document] at read
    cases read
  | ok root =>
    simp only [document] at read
    have made : ofNode environment (root.getD (.scalar none .empty)) = .ok parsed := by
      split at read
      · cases read
      · rename_i made
        cases read
        exact made
    cases root with
    | some root => exact ⟨root, rfl, (told_of_ofNode made).texts⟩
    | none => cases made

/-- A document whose texts are plain, quoted and behind an alias. -/
def mixedText : String :=
  "s3:\n  region: &home $\x7bREGION:-eu\x7d\n  bucket: \"tiles-$\x7bSTAGE\x7d\"\n" ++
  "  key_prefix: *home\nlogging:\n  level: '$\x7bLEVEL:-debug\x7d'\n"

def stageOnly : Environment := fun name => if name = "STAGE" then some "dev" else none

def mixedConfig : Config where
  store := { region := "eu", bucket := "tiles-dev", keyPrefix := "eu" }
  logging := { level := "$\x7bLEVEL:-debug\x7d" }

theorem load_mixedText :
    load stageOnly mixedText = .ok mixedConfig ∧
      ∃ root, Yaml.document? mixedText.toList = .ok (some root) ∧
        TextsTold stageOnly root mixedConfig := by
  have loaded : load stageOnly mixedText = .ok mixedConfig := by decide +kernel
  exact ⟨loaded, load_tells_texts loaded⟩

def levelText : String :=
  "s3:\n  region: r\n  bucket: b\nlogging:\n  level: $\x7bCTLOG_LEVEL:-debug\x7d\n"

def levelRoot : Node :=
  .mapping none [
    (scalar "s3", .mapping none [(scalar "region", scalar "r"), (scalar "bucket", scalar "b")]),
    (scalar "logging", .mapping none [(scalar "level", scalar "$\x7bCTLOG_LEVEL:-debug\x7d")])]
where
  scalar (s : String) : Node := .scalar none ⟨s, .plain, none⟩

def levelConfig : Config where
  store := { region := "r", bucket := "b" }
  logging := { level := "$\x7bCTLOG_LEVEL:-debug\x7d" }

/-- The level of the log is left out of expansion. -/
theorem level_not_expanded :
    ¬ ∀ (environment : Environment) (text : String) (config : Config) (root : Node),
      load environment text = .ok config → Yaml.document? text.toList = .ok (some root) →
        Optional (IsExpanded environment) "info" (root.found ["logging", "level"])
          config.logging.level := by
  intro expanded
  have loaded : load (fun _ => none) levelText = .ok levelConfig := by decide +kernel
  have document : Yaml.document? levelText.toList = .ok (some levelRoot) := by decide +kernel
  have found : levelRoot.found ["logging", "level"] =
      [.scalar none ⟨"$\x7bCTLOG_LEVEL:-debug\x7d", .plain, none⟩] := rfl
  have told := expanded _ _ _ _ loaded document
  rw [found] at told
  obtain ⟨given, -⟩ | ⟨node, only, text, ⟨slot, s, rfl, rfl⟩, same⟩ := told
  · cases given
  · cases only
    exact absurd same (by decide)

end Config

end HedgedStore
