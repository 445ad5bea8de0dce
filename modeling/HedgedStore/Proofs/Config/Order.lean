import HedgedStore.Proofs.Config.Decoding

/-! Documents that differ in the order of entries and in what they say of unknown keys. Each change
of that kind leaves what a document says of a configuration, and so does any number of them. -/
namespace HedgedStore

open Yaml (Node Differ Required Optional)

/-! The changes. -/

/-- A change to the mapping of the store: its entries in another order, or an entry of an unknown
key. -/
def StoreConfig.Edit : Node → Node → Prop := Yaml.Edit names fun _ _ _ => False

/-- The same for the mapping of the log. -/
def LoggingConfig.Edit : Node → Node → Prop := Yaml.Edit names fun _ _ _ => False

/-- A change to a document: at the top level, or within the mapping of the store or of the log. -/
def Config.Edit : Node → Node → Prop :=
  Yaml.Edit names fun name node other =>
    name = "s3" ∧ StoreConfig.Edit node other ∨ name = "logging" ∧ LoggingConfig.Edit node other

/-! One change. -/

namespace Yaml

theorem Differ.symm {nodes others : List Node} (differ : Differ (fun _ _ => False) nodes others) :
    Differ (fun _ _ => False) others nodes := by
  cases differ with
  | order perm => exact .order perm.symm
  | value changes => exact changes.elim

theorem Node.Direct.edit {known : List String} {node other : Node} (direct : node.Direct known)
    (edit : Yaml.Edit known (fun _ _ _ => False) node other) : other.Direct known where
  keys := edit.hasScalarKeys direct.keys
  values name asked :=
    (edit.valuesAt asked).keeps (fun _ _ => False.elim) (direct.values name asked)

end Yaml

variable {environment : Environment} {node other root : Node}

theorem StoreConfig.Told.of_differ {config : StoreConfig}
    (differ : ∀ name ∈ names, Differ (fun _ _ => False) (node.valuesAt name) (other.valuesAt name))
    (told : Told environment node config) : Told environment other config := by
  have required {α : Type} {Reads : Node → α → Prop} {a : α} {name : String} (asked : name ∈ names)
      (said : Required Reads (node.valuesAt name) a) : Required Reads (other.valuesAt name) a :=
    ((differ name asked).required_iff fun _ _ => False.elim).mp said
  have optional {α : Type} {Reads : Node → α → Prop} {default a : α} {name : String}
      (asked : name ∈ names) (said : Optional Reads default (node.valuesAt name) a) :
      Optional Reads default (other.valuesAt name) a :=
    ((differ name asked).optional_iff fun _ _ => False.elim).mp said
  exact {
    region := required (name_mem_names .region) told.region
    bucket := required (name_mem_names .bucket) told.bucket
    endpoint := optional (name_mem_names .endpoint) told.endpoint
    keyPrefix := optional (name_mem_names .keyPrefix) told.keyPrefix
    accessKey := optional (name_mem_names .accessKey) told.accessKey
    secretKey := optional (name_mem_names .secretKey) told.secretKey
    forcePathStyle := optional (name_mem_names .forcePathStyle) told.forcePathStyle
    conditionalWrites := optional (name_mem_names .conditionalWrites) told.conditionalWrites
    hedgeDelayMs := optional (name_mem_names .hedgeDelayMs) told.hedgeDelayMs
    maxBackoffMs := optional (name_mem_names .maxBackoffMs) told.maxBackoffMs
    maxAttempts := optional (name_mem_names .maxAttempts) told.maxAttempts }

theorem StoreConfig.Edit.told_iff (edit : StoreConfig.Edit node other) {config : StoreConfig} :
    Told environment node config ↔ Told environment other config :=
  ⟨.of_differ fun _ asked => edit.valuesAt asked,
    .of_differ fun _ asked => (edit.valuesAt asked).symm⟩

theorem LoggingConfig.Edit.told_iff (edit : LoggingConfig.Edit node other)
    {config : LoggingConfig} : Told node config ↔ Told other config := by
  have same {α : Type} {Reads : Node → α → Prop} {default a : α} {name : String}
      (asked : name ∈ names) : Optional Reads default (node.valuesAt name) a ↔
        Optional Reads default (other.valuesAt name) a :=
    (edit.valuesAt asked).optional_iff fun _ _ => False.elim
  have level : "level" ∈ names := by decide
  have json : "json" ∈ names := by decide
  constructor
  · rintro ⟨toldLevel, toldJson⟩
    exact ⟨(same level).mp toldLevel, (same json).mp toldJson⟩
  · rintro ⟨toldLevel, toldJson⟩
    exact ⟨(same level).mpr toldLevel, (same json).mpr toldJson⟩

namespace Config

theorem Edit.direct (edit : Config.Edit root other) (direct : Direct root) : Direct other where
  keys := edit.hasScalarKeys direct.keys
  values field := by
    have asked : field.name ∈ names := by cases field <;> decide
    refine (edit.valuesAt asked).keeps ?_ (direct.values field)
    -- the value of a known key is changed by a change of its own kind
    intro node changed changes direct
    cases field with
    | store =>
      obtain ⟨-, changes⟩ | ⟨other, -⟩ := changes
      · exact Node.Direct.edit direct changes
      · exact absurd other (by decide)
    | logging =>
      obtain ⟨other, -⟩ | ⟨-, changes⟩ := changes
      · exact absurd other (by decide)
      · exact Node.Direct.edit direct changes

theorem Edit.told_iff (edit : Config.Edit root other) {config : Config} :
    Told environment root config ↔ Told environment other config := by
  have store : Required (StoreConfig.Told environment) (root.valuesAt "s3") config.store ↔
      Required (StoreConfig.Told environment) (other.valuesAt "s3") config.store := by
    refine (edit.valuesAt (by decide)).required_iff ?_
    rintro node changed (⟨-, changes⟩ | ⟨other, -⟩)
    · exact changes.told_iff
    · exact absurd other (by decide)
  have logging : Optional LoggingConfig.Told {} (root.valuesAt "logging") config.logging ↔
      Optional LoggingConfig.Told {} (other.valuesAt "logging") config.logging := by
    refine (edit.valuesAt (by decide)).optional_iff ?_
    rintro node changed (⟨other, -⟩ | ⟨-, changes⟩)
    · exact absurd other (by decide)
    · exact changes.told_iff
  constructor
  · rintro ⟨toldStore, toldLogging⟩
    exact ⟨store.mp toldStore, logging.mp toldLogging⟩
  · rintro ⟨toldStore, toldLogging⟩
    exact ⟨store.mpr toldStore, logging.mpr toldLogging⟩

/-- Any number of changes leaves what a document says of a configuration. -/
theorem told_of_edits (environment : Environment)
    (edits : Relation.ReflTransGen Config.Edit root other) (direct : Direct root) :
    Direct other ∧ ∀ config, Told environment root config ↔ Told environment other config := by
  induction edits with
  | refl => exact ⟨direct, fun _ => .rfl⟩
  | tail _ edit ih => exact ⟨edit.direct ih.1, fun config => (ih.2 config).trans edit.told_iff⟩

/-- A document without aliases whose top level, store and log are mappings with scalar keys. -/
structure Laid (root : Node) : Prop where
  unaliased : root.Unaliased
  keys : root.HasScalarKeys
  store : ∀ node ∈ root.valuesAt "s3", node.HasScalarKeys
  logging : ∀ node ∈ root.valuesAt "logging", node.HasScalarKeys

theorem Laid.direct (laid : Laid root) : Direct root where
  keys := laid.keys
  values field node member := by
    have unaliased : node.Unaliased := laid.unaliased.value member
    cases field with
    | store => exact unaliased.direct _ (laid.store node member)
    | logging => exact unaliased.direct _ (laid.logging node member)

/-- A configuration is loaded just where the document says a valid one, and a document with the
entries of its mappings in another order and with more entries of unknown keys loads the same, or
neither of them loads. -/
theorem load_ignores_order_and_unknown_keys (environment : Environment) {text : String}
    {root : Node} (document : Yaml.document? text.toList = .ok (some root)) (laid : Laid root) :
    (∀ config, load environment text = .ok config ↔
      Told environment root config ∧ config.store.invalidity? = none) ∧
    ∀ (changed : String) (other : Node), Yaml.document? changed.toList = .ok (some other) →
      Relation.ReflTransGen Config.Edit root other →
        (load environment changed).toOption = (load environment text).toOption := by
  refine ⟨fun config => load_eq_ok document laid.direct, fun changed other document' edits => ?_⟩
  have ⟨direct, told⟩ := told_of_edits environment edits laid.direct
  have same (config : Config) :
      load environment changed = .ok config ↔ load environment text = .ok config := by
    rw [load_eq_ok document' direct, load_eq_ok document laid.direct, told]
  exact Option.ext fun config => by rw [toOption_eq_some, toOption_eq_some, same]

/-- A plain scalar without a tag. -/
def plain (text : String) : Node := .scalar none ⟨text, .plain, none⟩

def plainText : String :=
  "s3:\n  region: r\n  bucket: b\n  hedge_delay_ms: 0x1F\nlogging:\n  level: warn\n"

def plainRoot : Node :=
  .mapping none [
    (plain "s3", .mapping none [(plain "region", plain "r"), (plain "bucket", plain "b"),
      (plain "hedge_delay_ms", plain "0x1F")]),
    (plain "logging", .mapping none [(plain "level", plain "warn")])]

/-- The same in another order and with two more entries, one of them below a known key. -/
def changedText : String :=
  "logging:\n  level: warn\nnotes: [1, ~]\ns3:\n  hedge_delay_ms: 0x1F\n  owner: x\n" ++
    "  bucket: b\n  region: r\n"

def changedRoot : Node :=
  .mapping none [
    (plain "logging", .mapping none [(plain "level", plain "warn")]),
    (plain "notes", .sequence none [plain "1", plain "~"]),
    (plain "s3", .mapping none [(plain "hedge_delay_ms", plain "0x1F"), (plain "owner", plain "x"),
      (plain "bucket", plain "b"), (plain "region", plain "r")])]

theorem edits_changedRoot : Relation.ReflTransGen Config.Edit plainRoot changedRoot := by
  let log := (plain "logging", Node.mapping none [(plain "level", plain "warn")])
  let notes := (plain "notes", Node.sequence none [plain "1", plain "~"])
  let region := (plain "region", plain "r")
  let bucket := (plain "bucket", plain "b")
  let delay := (plain "hedge_delay_ms", plain "0x1F")
  have turned : Config.Edit plainRoot
      (.mapping none [log, (plain "s3", .mapping none [region, bucket, delay])]) :=
    .reorder (List.Perm.swap ..)
  have noted : Config.Edit
      (.mapping none [log, (plain "s3", .mapping none [region, bucket, delay])])
      (.mapping none [log, notes, (plain "s3", .mapping none [region, bucket, delay])]) :=
    .insert rfl (by decide) _ [log] _
  have moved : Config.Edit
      (.mapping none [log, notes, (plain "s3", .mapping none [region, bucket, delay])])
      (.mapping none [log, notes, (plain "s3", .mapping none [delay, bucket, region])]) :=
    .within rfl (.inl ⟨rfl, .reorder (by decide)⟩) [log, notes] []
  have owned : Config.Edit
      (.mapping none [log, notes, (plain "s3", .mapping none [delay, bucket, region])])
      changedRoot :=
    .within rfl (.inl ⟨rfl, .insert rfl (by decide) _ [delay] _⟩) [log, notes] []
  exact .head turned (.head noted (.head moved (.single owned)))

theorem load_changedText :
    Yaml.document? plainText.toList = .ok (some plainRoot) ∧ Laid plainRoot ∧
      Yaml.document? changedText.toList = .ok (some changedRoot) ∧
      Relation.ReflTransGen Config.Edit plainRoot changedRoot ∧
      (load (fun _ => none) changedText).toOption = some {
        store := { region := "r", bucket := "b", hedgeDelayMs := 31 }
        logging := { level := "warn" } } := by
  have document : Yaml.document? plainText.toList = .ok (some plainRoot) := by decide +kernel
  have changed : Yaml.document? changedText.toList = .ok (some changedRoot) := by decide +kernel
  have laid : Laid plainRoot := ⟨by decide, by decide, by decide, by decide⟩
  have loaded : (load (fun _ => none) plainText).toOption = some {
      store := { region := "r", bucket := "b", hedgeDelayMs := 31 }
      logging := { level := "warn" } } := by decide +kernel
  refine ⟨document, laid, changed, edits_changedRoot, ?_⟩
  rw [(load_ignores_order_and_unknown_keys _ document laid).2 _ _ changed edits_changedRoot, loaded]

def taggedText : String := "s3:\n  region: r\n  bucket: b\n  access_key: !!null foo\n"

def taggedStore : Node :=
  .mapping none [(plain "region", plain "r"), (plain "bucket", plain "b"),
    (plain "access_key", .scalar none ⟨"foo", .plain, some Yaml.nullTag⟩)]

/-- Not any scalar will do for an optional text: one with the tag of null has to be written as
null. -/
theorem tagged_null_is_no_text :
    Yaml.document? taggedText.toList = .ok (some (.mapping none [(plain "s3", taggedStore)])) ∧
      Laid (.mapping none [(plain "s3", taggedStore)]) ∧
      taggedStore.valuesAt "region" = [plain "r"] ∧ taggedStore.valuesAt "bucket" = [plain "b"] ∧
      taggedStore.valuesAt "access_key" = [.scalar none ⟨"foo", .plain, some Yaml.nullTag⟩] ∧
      (∀ name ∈ StoreConfig.names, name ∉ ["region", "bucket", "access_key"] →
        taggedStore.valuesAt name = []) ∧
      ({ region := "r", bucket := "b", accessKey := some "foo" } : StoreConfig).invalidity? = none ∧
      load (fun _ => none) taggedText = .error (.undecodable
        ⟨[.field "s3"], .wrongValue (.text "foo") (.tagged "null")⟩) :=
  ⟨by decide +kernel, ⟨by decide, by decide, by decide, by decide⟩, by decide, by decide, by decide,
    by decide, by decide, by decide +kernel⟩

end Config

end HedgedStore
