import HedgedStore.Config.Load
import HedgedStore.Proofs.Steps

/-! The environment fills in texts and does nothing else. Two readings of one document, each in an
environment of its own, go alike: what one of them refuses the other refuses for the same reason,
and where they come to an end their configurations differ in the expanded texts only. -/
namespace HedgedStore

open Yaml (Mismatch Place)

/-! Reading records. -/

namespace Yaml.Place

variable {α β φ ρ τ : Type}

/-- Whether a value is absent shows before it is read. -/
theorem option_alike {R : α → β → Prop} {read : Place → Except Mismatch α}
    {other : Place → Except Mismatch β} {p : Place} (alike : Alike R (read p) (other p)) :
    Alike (fun a b => a.isSome = b.isSome) (p.option read) (p.option other) := by
  have present : Alike (fun a b => a.isSome = b.isSome) ((read p).map some) ((other p).map some) :=
    alike.map fun _ _ _ => rfl
  unfold option
  split
  · split
    · exact present
    · split
      · split
        · exact .ok rfl
        · exact present
      · split
        · exact present
        · split
          · exact .ok rfl
          · exact .error _
  · exact present

section Record

variable {R : ρ → τ → Prop} {has : ρ → φ → Bool} {has' : τ → φ → Bool}
  {read : ρ → φ → Place → Except Mismatch ρ} {read' : τ → φ → Place → Except Mismatch τ}

theorem readEntry_alike (holds : ∀ r t field, R r t → has r field = has' t field)
    (reads : ∀ r t field p, R r t → Alike R (read r field p) (read' t field p)) (p : Place)
    {r : ρ} {t : τ} (related : R r t) (fieldOf : String → Option φ) (entry : Node × Node) :
    Alike R (p.readEntry fieldOf has read r entry) (p.readEntry fieldOf has' read' t entry) := by
  unfold readEntry
  generalize ({ p with node := entry.1 } : Place).target = key
  cases key with
  | scalar slot s =>
    simp only [pure_eq_ok, ok_bind]
    cases fieldOf s.text with
    | none => exact .ok related
    | some field =>
      simp only [holds r t field related]
      cases has' t field with
      | true => exact .error _
      | false => exact reads r t field _ related
  | sequence slot items => exact .error _
  | mapping slot entries => exact .error _
  | reference slot => exact .error _

/-- Two ways of reading a mapping go alike if they read every field alike. -/
theorem readRecord_alike (holds : ∀ r t field, R r t → has r field = has' t field)
    (reads : ∀ r t field p, R r t → Alike R (read r field p) (read' t field p)) (p : Place)
    (recordName : String) {r : ρ} {t : τ} (related : R r t) (fieldOf : String → Option φ) :
    Alike R (p.readRecord recordName fieldOf has read r)
      (p.readRecord recordName fieldOf has' read' t) := by
  have listed := Alike.same (R := (· = ·)) (fun _ => rfl) (p.entries recordName)
  refine listed.bind ?_
  rintro entries _ rfl
  exact .foldlM (fun r t entry related => readEntry_alike holds reads p related fieldOf entry) related
    entries

end Record

/-- A field is missed alike if it was given alike. -/
theorem require_alike {R : α → β → Prop} (p : Place) (name : String) {a : Option α} {b : Option β}
    (given : Option.Rel R a b) : Alike R (p.require name a) (p.require name b) := by
  cases given with
  | some related => exact .ok related
  | none => exact .error _

end Yaml.Place

/-! The store's part. -/

/-- Two drafts hold the same but for what their texts say. -/
structure StoreDraft.SameShape (d e : StoreDraft) : Prop where
  region : d.region.isSome = e.region.isSome
  bucket : d.bucket.isSome = e.bucket.isSome
  endpoint : d.endpoint.map Option.isSome = e.endpoint.map Option.isSome
  keyPrefix : d.keyPrefix.isSome = e.keyPrefix.isSome
  accessKey : d.accessKey.map Option.isSome = e.accessKey.map Option.isSome
  secretKey : d.secretKey.map Option.isSome = e.secretKey.map Option.isSome
  forcePathStyle : d.forcePathStyle = e.forcePathStyle
  conditionalWrites : d.conditionalWrites = e.conditionalWrites
  hedgeDelayMs : d.hedgeDelayMs = e.hedgeDelayMs
  maxBackoffMs : d.maxBackoffMs = e.maxBackoffMs
  maxAttempts : d.maxAttempts = e.maxAttempts

/-- Two configurations of a store are the same but for what their expanded texts say. -/
structure StoreConfig.SameShape (c d : StoreConfig) : Prop where
  endpoint : c.endpoint.isSome = d.endpoint.isSome
  accessKey : c.accessKey.isSome = d.accessKey.isSome
  secretKey : c.secretKey.isSome = d.secretKey.isSome
  forcePathStyle : c.forcePathStyle = d.forcePathStyle
  conditionalWrites : c.conditionalWrites = d.conditionalWrites
  hedgeDelayMs : c.hedgeDelayMs = d.hedgeDelayMs
  maxBackoffMs : c.maxBackoffMs = d.maxBackoffMs
  maxAttempts : c.maxAttempts = d.maxAttempts

theorem expandedText_alike (first second : Environment) (p : Place) :
    Alike (fun _ _ => True) (expandedText first p) (expandedText second p) :=
  (Alike.same (R := (· = ·)) (fun _ => rfl) p.text).map fun _ _ _ => trivial

namespace StoreDraft

variable {d e : StoreDraft}

theorem isSome_map_isSome {α : Type} (v : Option (Option α)) :
    (v.map Option.isSome).isSome = v.isSome := Option.isSome_map

theorem SameShape.has (same : d.SameShape e) (field : StoreField) : d.has field = e.has field := by
  have optional {v w : Option (Option String)} (h : v.map Option.isSome = w.map Option.isSome) :
      v.isSome = w.isSome := by
    rw [← isSome_map_isSome v, h, isSome_map_isSome]
  cases field with
  | region => exact same.region
  | bucket => exact same.bucket
  | endpoint => exact optional same.endpoint
  | keyPrefix => exact same.keyPrefix
  | accessKey => exact optional same.accessKey
  | secretKey => exact optional same.secretKey
  | forcePathStyle => exact congrArg Option.isSome same.forcePathStyle
  | conditionalWrites => exact congrArg Option.isSome same.conditionalWrites
  | hedgeDelayMs => exact congrArg Option.isSome same.hedgeDelayMs
  | maxBackoffMs => exact congrArg Option.isSome same.maxBackoffMs
  | maxAttempts => exact congrArg Option.isSome same.maxAttempts

theorem SameShape.read (same : d.SameShape e) (first second : Environment) (field : StoreField)
    (p : Place) : Alike SameShape (d.read first field p) (e.read second field p) := by
  have text := expandedText_alike first second p
  have optional := Place.option_alike text
  have plain {α : Type} (run : Except Mismatch α) : Alike (· = ·) run run :=
    .same (fun _ => rfl) run
  cases field with
  | region => exact text.map fun _ _ _ => { same with region := rfl }
  | bucket => exact text.map fun _ _ _ => { same with bucket := rfl }
  | endpoint => exact optional.map fun _ _ h => { same with endpoint := congrArg some h }
  | keyPrefix => exact text.map fun _ _ _ => { same with keyPrefix := rfl }
  | accessKey => exact optional.map fun _ _ h => { same with accessKey := congrArg some h }
  | secretKey => exact optional.map fun _ _ h => { same with secretKey := congrArg some h }
  | forcePathStyle =>
    exact (plain _).map fun _ _ h => { same with forcePathStyle := congrArg some h }
  | conditionalWrites =>
    exact (plain _).map fun _ _ h => { same with conditionalWrites := congrArg some h }
  | hedgeDelayMs => exact (plain _).map fun _ _ h => { same with hedgeDelayMs := congrArg some h }
  | maxBackoffMs => exact (plain _).map fun _ _ h => { same with maxBackoffMs := congrArg some h }
  | maxAttempts => exact (plain _).map fun _ _ h => { same with maxAttempts := congrArg some h }

theorem SameShape.finish (same : d.SameShape e) (p : Place) :
    Alike StoreConfig.SameShape (d.finish p) (e.finish p) := by
  have given {v w : Option String} (h : v.isSome = w.isSome) :
      Option.Rel (fun _ _ => True) v w := by
    cases v <;> cases w
    · exact .none
    · cases h
    · cases h
    · exact .some trivial
  -- What was left out is absent in both, whatever was written for the other one.
  have optional {v w : Option (Option String)} (h : v.map Option.isSome = w.map Option.isSome) :
      (v.getD none).isSome = (w.getD none).isSome := by
    cases v <;> cases w
    · rfl
    · cases h
    · cases h
    · exact Option.some.inj h
  refine (Place.require_alike p _ (given same.region)).bind fun region region' _ => ?_
  refine (Place.require_alike p _ (given same.bucket)).bind fun bucket bucket' _ => ?_
  exact .ok {
    endpoint := optional same.endpoint
    accessKey := optional same.accessKey
    secretKey := optional same.secretKey
    forcePathStyle := congrArg (·.getD false) same.forcePathStyle
    conditionalWrites := congrArg (·.getD none) same.conditionalWrites
    hedgeDelayMs := congrArg (·.getD 75) same.hedgeDelayMs
    maxBackoffMs := congrArg (·.getD 5) same.maxBackoffMs
    maxAttempts := congrArg (·.getD 3) same.maxAttempts }

end StoreDraft

theorem StoreConfig.ofPlace_alike (first second : Environment) (p : Place) :
    Alike StoreConfig.SameShape (ofPlace first p) (ofPlace second p) := by
  have blank : StoreDraft.SameShape {} {} := ⟨rfl, rfl, rfl, rfl, rfl, rfl, rfl, rfl, rfl, rfl, rfl⟩
  have reads (d e field place) (same : StoreDraft.SameShape d e) :=
    same.read first second field place
  have drafts := Place.readRecord_alike (fun _ _ field same => same.has field) reads p "S3Config"
    blank
  exact (drafts _).bind fun _ _ same => same.finish p

/-! The whole configuration. -/

/-- Two drafts hold stores of the same shape, and the same for the log. -/
structure ConfigDraft.SameShape (d e : ConfigDraft) : Prop where
  store : Option.Rel StoreConfig.SameShape d.store e.store
  logging : d.logging = e.logging

/-- Two configurations are the same but for what the expanded texts of the store say. -/
structure Config.SameShape (config other : Config) : Prop where
  store : config.store.SameShape other.store
  logging : config.logging = other.logging

namespace ConfigDraft

variable {d e : ConfigDraft}

theorem SameShape.has (same : d.SameShape e) (field : ConfigField) : d.has field = e.has field := by
  cases field with
  | store =>
    have given := same.store
    unfold ConfigDraft.has
    revert given
    cases d.store <;> cases e.store <;> intro given
    · rfl
    · cases given
    · cases given
    · rfl
  | logging => exact congrArg Option.isSome same.logging

theorem SameShape.read (same : d.SameShape e) (first second : Environment) (field : ConfigField)
    (p : Place) : Alike SameShape (d.read first field p) (e.read second field p) := by
  cases field with
  | store =>
    exact (StoreConfig.ofPlace_alike first second p).map fun _ _ h =>
      { same with store := .some h }
  | logging =>
    exact (Alike.same (R := (· = ·)) (fun _ => rfl) (LoggingConfig.ofPlace p)).map fun _ _ h =>
      { same with logging := congrArg some h }

end ConfigDraft

namespace Config

theorem ofNode_alike (first second : Environment) (root : Yaml.Node) :
    Alike SameShape (ofNode first root) (ofNode second root) := by
  have blank : ConfigDraft.SameShape {} {} := ⟨.none, rfl⟩
  have reads (d e field place) (same : ConfigDraft.SameShape d e) :=
    same.read first second field place
  have drafts := Place.readRecord_alike (fun _ _ field same => same.has field) reads
    ⟨root, [], root⟩ "Config" blank
  refine (drafts _).bind fun d e same => ?_
  refine (Place.require_alike _ _ same.store).bind fun store other h => ?_
  exact .ok ⟨h, congrArg (·.getD {}) same.logging⟩

theorem parse_alike (first second : Environment) (text : String) :
    Alike SameShape (parse first text) (parse second text) := by
  unfold parse
  cases Yaml.document? text.toList with
  | error why => exact .error _
  | ok root =>
    have read := ofNode_alike first second (root.getD (.scalar none .empty))
    rcases read.outcomes with ⟨config, other, done, done', same⟩ | ⟨why, failed, failed'⟩
    · simp only [done, done']
      exact .ok same
    · simp only [failed, failed']
      exact .error _

/-- The texts that are expanded say the same. -/
structure SameTexts (config other : Config) : Prop where
  region : config.store.region = other.store.region
  bucket : config.store.bucket = other.store.bucket
  endpoint : config.store.endpoint = other.store.endpoint
  keyPrefix : config.store.keyPrefix = other.store.keyPrefix
  accessKey : config.store.accessKey = other.store.accessKey
  secretKey : config.store.secretKey = other.store.secretKey

theorem SameShape.eq_of_texts {config other : Config} (same : config.SameShape other)
    (texts : config.SameTexts other) : config = other := by
  obtain ⟨⟨_, _, _, _, _, _, _, _, _, _, _⟩, _⟩ := config
  obtain ⟨⟨_, _, _, _, _, _, _, _, _, _, _⟩, _⟩ := other
  obtain ⟨⟨-, -, -, rfl, rfl, rfl, rfl, rfl⟩, rfl⟩ := same
  obtain ⟨rfl, rfl, rfl, rfl, rfl, rfl⟩ := texts
  rfl

/-- The refusal of a document that does not say a configuration. -/
def parseError? : Except ConfigError Config → Option ConfigError
  | .error (.malformed why) => some (.malformed why)
  | .error (.undecodable why) => some (.undecodable why)
  | _ => none

theorem parseError_load (environment : Environment) (text : String) :
    parseError? (load environment text) = parseError? (parse environment text) := by
  unfold load
  cases parse environment text with
  | error why => rfl
  | ok config =>
    rw [ok_bind, validate]
    split <;> rfl

/-- What the variables hold decides nothing but what the expanded texts say, and by them whether the
configuration is valid. -/
theorem environment_fills_texts (first second : Environment) (text : String) :
    parseError? (load first text) = parseError? (load second text) ∧
      Alike (fun config other => config.SameShape other ∧
          (config.SameTexts other → load first text = load second text))
        (parse first text) (parse second text) := by
  have alike := parse_alike first second text
  rw [parseError_load, parseError_load]
  rcases alike.outcomes with ⟨config, other, done, done', same⟩ | ⟨why, failed, failed'⟩
  · refine ⟨by rw [done, done']; rfl, ?_⟩
    rw [done, done']
    refine .ok ⟨same, fun texts => ?_⟩
    rw [load, load, done, done', same.eq_of_texts texts]
  · rw [failed, failed']
    exact ⟨rfl, .error why⟩

end Config

end HedgedStore
