import HedgedStore.Config.Load
import HedgedStore.Proofs.Yaml.Record
import HedgedStore.Proofs.Yaml.Scalars
import Mathlib.Logic.Relation

/-! What a document says of a configuration, told field by field. Loading gives just the
configuration that the document says, if it is valid; so neither the order of the entries of a
mapping matters nor what is said of unknown keys. -/
namespace HedgedStore

open Yaml (Node Place Mismatch Layout Required Optional Slot)

/-! Aliases. -/

namespace Yaml.Node

def isAlias : Node → Bool
  | reference _ => true
  | _ => false

/-- No node of a document is an alias. -/
def Unaliased (root : Node) : Prop := ∀ node ∈ root.subnodes, node.isAlias = false

instance (root : Node) : Decidable root.Unaliased :=
  inferInstanceAs (Decidable (∀ node ∈ root.subnodes, node.isAlias = false))

/-- A mapping with scalar keys whose known keys have no aliases as values. -/
structure Direct (known : List String) (node : Node) : Prop where
  keys : node.HasScalarKeys
  values : ∀ name ∈ known, ∀ value ∈ node.valuesAt name, value.isAlias = false

theorem mem_subnodes_self (node : Node) : node ∈ node.subnodes := by
  cases node <;> simp [subnodes]

theorem subset_entryNodes {entries : List (Node × Node)} {entry : Node × Node}
    (member : entry ∈ entries) : entry.2.subnodes ⊆ entryNodes entries := by
  induction entries with
  | nil => cases member
  | cons first entries ih =>
    intro node below
    simp only [entryNodes, List.mem_append]
    rcases List.mem_cons.mp member with rfl | member
    · exact .inl (.inr below)
    · exact .inr (ih member below)

theorem Unaliased.isAlias_eq_false {root : Node} (unaliased : root.Unaliased) :
    root.isAlias = false :=
  unaliased root root.mem_subnodes_self

theorem Unaliased.value {root value : Node} {name : String} (unaliased : root.Unaliased)
    (member : value ∈ root.valuesAt name) : value.Unaliased := by
  cases root with
  | mapping slot entries =>
    obtain ⟨entry, listed, rfl⟩ := List.mem_map.mp member
    have below := subset_entryNodes (List.mem_filter.mp listed).1
    exact fun node inside => unaliased node (by simp [subnodes, below inside])
  | _ => cases member

theorem Unaliased.direct {root : Node} (unaliased : root.Unaliased) (known : List String)
    (keys : root.HasScalarKeys) : root.Direct known :=
  ⟨keys, fun _ _ _ member => (unaliased.value member).isAlias_eq_false⟩

theorem target_eq (root : Node) (path : List Step) {node : Node} (direct : node.isAlias = false) :
    (⟨root, path, node⟩ : Place).target = node := by
  cases node with
  | reference slot => cases direct
  | _ => rfl

end Yaml.Node

/-- A text whose placeholders have given way to their values. -/
def IsExpanded (environment : Environment) (node : Node) (value : String) : Prop :=
  ∃ text, node.IsText text ∧ expand environment text = value

theorem expandedText_eq_ok {environment : Environment} {p : Place} {value : String} :
    expandedText environment p = .ok value ↔ IsExpanded environment p.target value := by
  simp only [expandedText, map_eq_ok, Place.text_eq_ok, IsExpanded]

/-! The store. -/

/-- What a mapping says of the store: a value for each field, or its default. -/
structure StoreConfig.Told (environment : Environment) (node : Node) (config : StoreConfig) :
    Prop where
  region : Required (IsExpanded environment) (node.valuesAt "region") config.region
  bucket : Required (IsExpanded environment) (node.valuesAt "bucket") config.bucket
  endpoint : Optional (Node.OrNull (IsExpanded environment)) none (node.valuesAt "endpoint")
    config.endpoint
  keyPrefix : Optional (IsExpanded environment) "" (node.valuesAt "key_prefix") config.keyPrefix
  accessKey : Optional (Node.OrNull (IsExpanded environment)) none (node.valuesAt "access_key")
    config.accessKey
  secretKey : Optional (Node.OrNull (IsExpanded environment)) none (node.valuesAt "secret_key")
    config.secretKey
  forcePathStyle : Optional Node.IsBool false (node.valuesAt "force_path_style")
    config.forcePathStyle
  conditionalWrites : Optional (Node.OrNull Node.IsBool) none (node.valuesAt "conditional_writes")
    config.conditionalWrites
  hedgeDelayMs : Optional (fun value (n : UInt64) => value.IsWord (2 ^ 64) n.toNat) 75
    (node.valuesAt "hedge_delay_ms") config.hedgeDelayMs
  maxBackoffMs : Optional (fun value (n : UInt64) => value.IsWord (2 ^ 64) n.toNat) 5
    (node.valuesAt "max_backoff_ms") config.maxBackoffMs
  maxAttempts : Optional (fun value (n : UInt32) => value.IsWord (2 ^ 32) n.toNat) 3
    (node.valuesAt "max_attempts") config.maxAttempts

namespace StoreField

def Value : StoreField → Type
  | region | bucket | keyPrefix => String
  | endpoint | accessKey | secretKey => Option String
  | forcePathStyle => Bool
  | conditionalWrites => Option Bool
  | hedgeDelayMs | maxBackoffMs => UInt64
  | maxAttempts => UInt32

/-- Which value of a field a node says. -/
def Reads (environment : Environment) : (field : StoreField) → Node → field.Value → Prop
  | region | bucket | keyPrefix => IsExpanded environment
  | endpoint | accessKey | secretKey => Node.OrNull (IsExpanded environment)
  | forcePathStyle => Node.IsBool
  | conditionalWrites => Node.OrNull Node.IsBool
  | hedgeDelayMs | maxBackoffMs => fun node (n : UInt64) => node.IsWord (2 ^ 64) n.toNat
  | maxAttempts => fun node (n : UInt32) => node.IsWord (2 ^ 32) n.toNat

theorem ofName?_eq_some (s : String) (field : StoreField) :
    StoreField.ofName? s = some field ↔ field.name = s := by
  constructor
  · intro found
    simpa using List.find?_some found
  · rintro rfl
    cases field <;> decide

end StoreField

namespace StoreDraft

def get (draft : StoreDraft) : (field : StoreField) → Option field.Value
  | .region => draft.region
  | .bucket => draft.bucket
  | .endpoint => draft.endpoint
  | .keyPrefix => draft.keyPrefix
  | .accessKey => draft.accessKey
  | .secretKey => draft.secretKey
  | .forcePathStyle => draft.forcePathStyle
  | .conditionalWrites => draft.conditionalWrites
  | .hedgeDelayMs => draft.hedgeDelayMs
  | .maxBackoffMs => draft.maxBackoffMs
  | .maxAttempts => draft.maxAttempts

def ofValues (values : (field : StoreField) → Option field.Value) : StoreDraft where
  region := values .region
  bucket := values .bucket
  endpoint := values .endpoint
  keyPrefix := values .keyPrefix
  accessKey := values .accessKey
  secretKey := values .secretKey
  forcePathStyle := values .forcePathStyle
  conditionalWrites := values .conditionalWrites
  hedgeDelayMs := values .hedgeDelayMs
  maxBackoffMs := values .maxBackoffMs
  maxAttempts := values .maxAttempts

def value (environment : Environment) (field : StoreField) (p : Place) :
    Except Mismatch field.Value :=
  match field with
  | .region | .bucket | .keyPrefix => expandedText environment p
  | .endpoint | .accessKey | .secretKey => p.option (expandedText environment)
  | .forcePathStyle => p.bool
  | .conditionalWrites => p.option Place.bool
  | .hedgeDelayMs | .maxBackoffMs => p.word64
  | .maxAttempts => p.word32

def layout (environment : Environment) :
    Layout StoreField.ofName? StoreDraft.has (StoreDraft.read environment) where
  name := StoreField.name
  Value := StoreField.Value
  get := get
  ofValues := ofValues
  value := value environment
  fieldOf_eq_some := StoreField.ofName?_eq_some
  ofValues_get _ := rfl
  get_ofValues _ field := by cases field <;> rfl
  has_eq _ field := by cases field <;> rfl
  read_eq _ field _ := by cases field <;> rfl

theorem value_eq_ok {environment : Environment} {field : StoreField} {p : Place} {v : field.Value} :
    value environment field p = .ok v ↔ field.Reads environment p.target v := by
  have optional {v : Option String} : p.option (expandedText environment) = .ok v ↔
      p.target.OrNull (IsExpanded environment) v :=
    Place.option_eq_ok fun _ => expandedText_eq_ok
  cases field with
  | region | bucket | keyPrefix => exact expandedText_eq_ok
  | endpoint | accessKey | secretKey => exact optional
  | forcePathStyle => exact Place.bool_eq_ok
  | conditionalWrites => exact Place.option_eq_ok fun _ => Place.bool_eq_ok
  | hedgeDelayMs | maxBackoffMs => exact Place.word_eq_ok
  | maxAttempts => exact Place.word32_eq_ok

theorem require_eq_ok {α : Type} {p : Place} {name : String} {held : Option α} {a : α} :
    p.require name held = .ok a ↔ held = some a := by
  cases held with
  | none => exact iff_of_false nofun nofun
  | some b => simp [Place.require]

theorem finish_eq_ok {draft : StoreDraft} {p : Place} {config : StoreConfig} :
    draft.finish p = .ok config ↔
      draft.region = some config.region ∧ draft.bucket = some config.bucket ∧
      draft.endpoint.getD none = config.endpoint ∧ draft.keyPrefix.getD "" = config.keyPrefix ∧
      draft.accessKey.getD none = config.accessKey ∧ draft.secretKey.getD none = config.secretKey ∧
      draft.forcePathStyle.getD false = config.forcePathStyle ∧
      draft.conditionalWrites.getD none = config.conditionalWrites ∧
      draft.hedgeDelayMs.getD 75 = config.hedgeDelayMs ∧
      draft.maxBackoffMs.getD 5 = config.maxBackoffMs ∧
      draft.maxAttempts.getD 3 = config.maxAttempts := by
  simp only [finish, bind_eq_ok, require_eq_ok, pure_eq_ok, Except.ok.injEq]
  constructor
  · rintro ⟨region, hasRegion, bucket, hasBucket, rfl⟩
    exact ⟨hasRegion, hasBucket, rfl, rfl, rfl, rfl, rfl, rfl, rfl, rfl, rfl⟩
  · obtain ⟨_, _, _, _, _, _, _, _, _, _, _⟩ := config
    rintro ⟨hasRegion, hasBucket, rfl, rfl, rfl, rfl, rfl, rfl, rfl, rfl, rfl⟩
    exact ⟨_, hasRegion, _, hasBucket, rfl⟩

theorem told_of_finish {environment : Environment} {node : Node} {p : Place} {draft : StoreDraft}
    {config : StoreConfig} (slots : ∀ field : StoreField,
      Slot (field.Reads environment) (node.valuesAt field.name) (draft.get field))
    (finished : draft.finish p = .ok config) : StoreConfig.Told environment node config := by
  obtain ⟨region, bucket, endpoint, keyPrefix, accessKey, secretKey, forcePathStyle,
    conditionalWrites, hedgeDelayMs, maxBackoffMs, maxAttempts⟩ := finish_eq_ok.mp finished
  exact {
    region := Yaml.slot_some.mp (region ▸ slots .region)
    bucket := Yaml.slot_some.mp (bucket ▸ slots .bucket)
    endpoint := endpoint ▸ (slots .endpoint).optional none
    keyPrefix := keyPrefix ▸ (slots .keyPrefix).optional ""
    accessKey := accessKey ▸ (slots .accessKey).optional none
    secretKey := secretKey ▸ (slots .secretKey).optional none
    forcePathStyle := forcePathStyle ▸ (slots .forcePathStyle).optional false
    conditionalWrites := conditionalWrites ▸ (slots .conditionalWrites).optional none
    hedgeDelayMs := hedgeDelayMs ▸ (slots .hedgeDelayMs).optional (75 : UInt64)
    maxBackoffMs := maxBackoffMs ▸ (slots .maxBackoffMs).optional (5 : UInt64)
    maxAttempts := maxAttempts ▸ (slots .maxAttempts).optional (3 : UInt32) }

end StoreDraft

namespace StoreConfig

def names : List String := StoreField.all.map StoreField.name

theorem name_mem_names (field : StoreField) : field.name ∈ names := by
  cases field <;> decide

theorem ofPlace_eq_ok {environment : Environment} {p : Place} (direct : p.node.Direct names)
    {config : StoreConfig} :
    ofPlace environment p = .ok config ↔ Told environment p.node config := by
  have reads (field : StoreField) (node : Node) (member : node ∈ p.node.valuesAt field.name)
      (path : List Yaml.Step) (v : field.Value) :
      StoreDraft.value environment field ⟨p.root, path, node⟩ = .ok v ↔
        field.Reads environment node v := by
    have target := Node.target_eq p.root path (direct.values _ (name_mem_names field) node member)
    exact StoreDraft.value_eq_ok.trans (by rw [target])
  have empty (field : StoreField) : StoreDraft.get {} field = none := by cases field <;> rfl
  have drafts (draft : StoreDraft) : p.readRecord "S3Config" StoreField.ofName? StoreDraft.has
      (StoreDraft.read environment) {} = .ok draft ↔ ∀ field : StoreField,
        Slot (field.Reads environment) (p.node.valuesAt field.name) (draft.get field) :=
    (StoreDraft.layout environment).readRecord_eq_ok (StoreField.Reads environment) empty
      direct.keys reads
  simp only [ofPlace, bind_eq_ok, drafts]
  constructor
  · rintro ⟨draft, slots, finished⟩
    exact StoreDraft.told_of_finish slots finished
  · -- the draft that says so has the values that are given, and none in the place of a default
    intro told
    have ⟨endpoint, slotEndpoint, isEndpoint⟩ := told.endpoint.slot
    have ⟨keyPrefix, slotKeyPrefix, isKeyPrefix⟩ := told.keyPrefix.slot
    have ⟨accessKey, slotAccessKey, isAccessKey⟩ := told.accessKey.slot
    have ⟨secretKey, slotSecretKey, isSecretKey⟩ := told.secretKey.slot
    have ⟨forcePathStyle, slotForcePathStyle, isForcePathStyle⟩ := told.forcePathStyle.slot
    have ⟨conditionalWrites, slotConditionalWrites, isConditionalWrites⟩ :=
      told.conditionalWrites.slot
    have ⟨hedgeDelayMs, slotHedgeDelayMs, isHedgeDelayMs⟩ := told.hedgeDelayMs.slot
    have ⟨maxBackoffMs, slotMaxBackoffMs, isMaxBackoffMs⟩ := told.maxBackoffMs.slot
    have ⟨maxAttempts, slotMaxAttempts, isMaxAttempts⟩ := told.maxAttempts.slot
    refine ⟨⟨some config.region, some config.bucket, endpoint, keyPrefix, accessKey, secretKey,
      forcePathStyle, conditionalWrites, hedgeDelayMs, maxBackoffMs, maxAttempts⟩, ?_,
      StoreDraft.finish_eq_ok.mpr ⟨rfl, rfl, isEndpoint, isKeyPrefix, isAccessKey, isSecretKey,
        isForcePathStyle, isConditionalWrites, isHedgeDelayMs, isMaxBackoffMs, isMaxAttempts⟩⟩
    intro field
    cases field with
    | region => exact Yaml.slot_some.mpr told.region
    | bucket => exact Yaml.slot_some.mpr told.bucket
    | endpoint => exact slotEndpoint
    | keyPrefix => exact slotKeyPrefix
    | accessKey => exact slotAccessKey
    | secretKey => exact slotSecretKey
    | forcePathStyle => exact slotForcePathStyle
    | conditionalWrites => exact slotConditionalWrites
    | hedgeDelayMs => exact slotHedgeDelayMs
    | maxBackoffMs => exact slotMaxBackoffMs
    | maxAttempts => exact slotMaxAttempts

end StoreConfig

/-! The log. -/

/-- What a mapping says of the log. -/
structure LoggingConfig.Told (node : Node) (config : LoggingConfig) : Prop where
  level : Optional Node.IsText "info" (node.valuesAt "level") config.level
  json : Optional Node.IsBool false (node.valuesAt "json") config.json

namespace LoggingField

def name : LoggingField → String
  | level => "level"
  | json => "json"

def Value : LoggingField → Type
  | level => String
  | json => Bool

def Reads : (field : LoggingField) → Node → field.Value → Prop
  | level => Node.IsText
  | json => Node.IsBool

theorem ofName?_eq_some (s : String) (field : LoggingField) :
    LoggingField.ofName? s = some field ↔ field.name = s := by
  cases field <;> grind [LoggingField.ofName?, name]

end LoggingField

namespace LoggingDraft

def get (draft : LoggingDraft) : (field : LoggingField) → Option field.Value
  | .level => draft.level
  | .json => draft.json

def value (field : LoggingField) (p : Place) : Except Mismatch field.Value :=
  match field with
  | .level => p.text
  | .json => p.bool

def layout : Layout LoggingField.ofName? LoggingDraft.has LoggingDraft.read where
  name := LoggingField.name
  Value := LoggingField.Value
  get := get
  ofValues values := ⟨values .level, values .json⟩
  value := value
  fieldOf_eq_some := LoggingField.ofName?_eq_some
  ofValues_get _ := rfl
  get_ofValues _ field := by cases field <;> rfl
  has_eq _ field := by cases field <;> rfl
  read_eq _ field _ := by cases field <;> rfl

theorem value_eq_ok {field : LoggingField} {p : Place} {v : field.Value} :
    value field p = .ok v ↔ field.Reads p.target v := by
  cases field with
  | level => exact Place.text_eq_ok
  | json => exact Place.bool_eq_ok

end LoggingDraft

namespace LoggingConfig

def names : List String := ["level", "json"]

theorem ofPlace_eq_ok {p : Place} (direct : p.node.Direct names) {config : LoggingConfig} :
    ofPlace p = .ok config ↔ Told p.node config := by
  have reads (field : LoggingField) (node : Node) (member : node ∈ p.node.valuesAt field.name)
      (path : List Yaml.Step) (v : field.Value) :
      LoggingDraft.value field ⟨p.root, path, node⟩ = .ok v ↔ field.Reads node v := by
    have named : field.name ∈ names := by cases field <;> decide
    have target := Node.target_eq p.root path (direct.values _ named node member)
    exact LoggingDraft.value_eq_ok.trans (by rw [target])
  have empty (field : LoggingField) : LoggingDraft.get {} field = none := by cases field <;> rfl
  have drafts (draft : LoggingDraft) : p.readRecord "LoggingConfig" LoggingField.ofName?
      LoggingDraft.has LoggingDraft.read {} = .ok draft ↔ ∀ field : LoggingField,
        Slot field.Reads (p.node.valuesAt field.name) (draft.get field) :=
    LoggingDraft.layout.readRecord_eq_ok LoggingField.Reads empty direct.keys reads
  simp only [ofPlace, map_eq_ok, drafts]
  constructor
  · rintro ⟨draft, slots, rfl⟩
    exact ⟨(slots .level).optional "info", (slots .json).optional false⟩
  · rintro ⟨level, json⟩
    have ⟨level, slotLevel, isLevel⟩ := level.slot
    have ⟨json, slotJson, isJson⟩ := json.slot
    refine ⟨⟨level, json⟩, fun field => ?_, ?_⟩
    · cases field with
      | level => exact slotLevel
      | json => exact slotJson
    · obtain ⟨_, _⟩ := config
      subst isLevel isJson
      rfl

end LoggingConfig

/-! The whole configuration. -/

/-- What a document says of a configuration. -/
structure Config.Told (environment : Environment) (root : Node) (config : Config) : Prop where
  store : Required (StoreConfig.Told environment) (root.valuesAt "s3") config.store
  logging : Optional LoggingConfig.Told {} (root.valuesAt "logging") config.logging

namespace ConfigField

def name : ConfigField → String
  | store => "s3"
  | logging => "logging"

def Value : ConfigField → Type
  | store => StoreConfig
  | logging => LoggingConfig

def Reads (environment : Environment) : (field : ConfigField) → Node → field.Value → Prop
  | store => StoreConfig.Told environment
  | logging => LoggingConfig.Told

/-- The names of the fields below a field. -/
def below : ConfigField → List String
  | store => StoreConfig.names
  | logging => LoggingConfig.names

theorem ofName?_eq_some (s : String) (field : ConfigField) :
    ConfigField.ofName? s = some field ↔ field.name = s := by
  cases field <;> grind [ConfigField.ofName?, name]

end ConfigField

namespace ConfigDraft

def get (draft : ConfigDraft) : (field : ConfigField) → Option field.Value
  | .store => draft.store
  | .logging => draft.logging

def value (environment : Environment) (field : ConfigField) (p : Place) :
    Except Mismatch field.Value :=
  match field with
  | .store => StoreConfig.ofPlace environment p
  | .logging => LoggingConfig.ofPlace p

def layout (environment : Environment) :
    Layout ConfigField.ofName? ConfigDraft.has (ConfigDraft.read environment) where
  name := ConfigField.name
  Value := ConfigField.Value
  get := get
  ofValues values := ⟨values .store, values .logging⟩
  value := value environment
  fieldOf_eq_some := ConfigField.ofName?_eq_some
  ofValues_get _ := rfl
  get_ofValues _ field := by cases field <;> rfl
  has_eq _ field := by cases field <;> rfl
  read_eq _ field _ := by cases field <;> rfl

theorem value_eq_ok {environment : Environment} {field : ConfigField} {p : Place} {v : field.Value}
    (direct : p.node.Direct field.below) :
    value environment field p = .ok v ↔ field.Reads environment p.node v := by
  cases field with
  | store => exact StoreConfig.ofPlace_eq_ok direct
  | logging => exact LoggingConfig.ofPlace_eq_ok direct

end ConfigDraft

namespace Config

def names : List String := ["s3", "logging"]

/-- A document whose top level, store and log are mappings with scalar keys and without aliases as
values of their fields. -/
structure Direct (root : Node) : Prop where
  keys : root.HasScalarKeys
  values : ∀ field : ConfigField, ∀ node ∈ root.valuesAt field.name, node.Direct field.below

theorem ofNode_eq_ok {environment : Environment} {root : Node} (direct : Direct root)
    {config : Config} : ofNode environment root = .ok config ↔ Told environment root config := by
  have empty (field : ConfigField) : ConfigDraft.get {} field = none := by cases field <;> rfl
  have drafts (draft : ConfigDraft) : (⟨root, [], root⟩ : Place).readRecord "Config"
      ConfigField.ofName? ConfigDraft.has (ConfigDraft.read environment) {} = .ok draft ↔
        ∀ field : ConfigField,
          Slot (field.Reads environment) (root.valuesAt field.name) (draft.get field) :=
    (ConfigDraft.layout environment).readRecord_eq_ok (ConfigField.Reads environment) empty
      direct.keys fun field node member path v =>
        ConfigDraft.value_eq_ok (direct.values field node member)
  simp only [ofNode, bind_eq_ok, drafts, StoreDraft.require_eq_ok, pure_eq_ok, Except.ok.injEq]
  constructor
  · rintro ⟨draft, slots, store, hasStore, rfl⟩
    exact ⟨Yaml.slot_some.mp (hasStore ▸ slots .store), (slots .logging).optional {}⟩
  · rintro ⟨store, logging⟩
    have ⟨logging, slotLogging, isLogging⟩ := logging.slot
    refine ⟨⟨some config.store, logging⟩, fun field => ?_, config.store, rfl, ?_⟩
    · cases field with
      | store => exact Yaml.slot_some.mpr store
      | logging => exact slotLogging
    · rw [isLogging]

theorem load_eq_ok {environment : Environment} {text : String} {root : Node}
    (document : Yaml.document? text.toList = .ok (some root)) (direct : Direct root)
    {config : Config} :
    load environment text = .ok config ↔
      Told environment root config ∧ config.store.invalidity? = none := by
  have parsed (config : Config) :
      parse environment text = .ok config ↔ Told environment root config := by
    rw [← ofNode_eq_ok direct, parse, document]
    dsimp only [Option.getD_some]
    cases ofNode environment root with
    | error why => exact iff_of_false nofun nofun
    | ok config => simp
  have validated (config next : Config) :
      validate config = .ok next ↔ config = next ∧ config.store.invalidity? = none := by
    unfold validate
    cases config.store.invalidity? with
    | some why => exact iff_of_false nofun nofun
    | none => simp
  simp only [load, bind_eq_ok, parsed, validated]
  constructor
  · rintro ⟨config, told, rfl, valid⟩
    exact ⟨told, valid⟩
  · rintro ⟨told, valid⟩
    exact ⟨config, told, rfl, valid⟩

end Config

end HedgedStore
