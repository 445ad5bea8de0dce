import HedgedStore.Metrics.StoreMetrics
import Mathlib.Data.List.Nodup

/-! Descriptions handed to a registry one after another. Each goes in as long as its name is free.
The first one whose name is taken is refused and ends it: those before it stay in the registry, and
those behind it are not handed over. -/
namespace HedgedStore

namespace Registry

variable {registry : Registry} {d : Description} {ds before after : List Description}

/-- The registry with these descriptions registered, too, in this order. -/
def extended (registry : Registry) (ds : List Description) : Registry :=
  ⟨ds.reverse ++ registry.descriptions⟩

/-- None of these names is taken. -/
def Free (registry : Registry) (ds : List Description) : Prop :=
  ∀ d ∈ ds, registry.knows d.name = false

/-- The first of these descriptions whose name is taken, with those before it. -/
structure FirstTaken (registry : Registry) (ds before : List Description) (d : Description) :
    Prop where
  listed : ∃ after, ds = before ++ d :: after
  free : registry.Free before
  taken : registry.knows d.name = true

theorem extended_extended :
    (registry.extended [d]).extended ds = registry.extended (d :: ds) := by
  simp [extended]

theorem extended_eq_self_iff : registry.extended ds = registry ↔ ds = [] := by
  constructor
  · intro same
    have together : ds.reverse ++ registry.descriptions = registry.descriptions :=
      congrArg descriptions same
    exact List.reverse_eq_nil_iff.mp (List.append_left_eq_self.mp together)
  · rintro rfl
    rfl

theorem knows_extended {name : String} : (registry.extended ds).knows name = true ↔
    (∃ d ∈ ds, d.name = name) ∨ registry.knows name = true := by
  simp [knows, extended]

theorem register_of_taken (taken : registry.knows d.name = true) :
    registry.register d = .error ⟨d.name⟩ := if_pos taken

theorem register_of_free (free : registry.knows d.name = false) :
    registry.register d = .ok (registry.extended [d]) := by
  unfold register
  rw [free]
  rfl

theorem registerAll_of_taken (taken : registry.knows d.name = true) :
    registry.registerAll (d :: after) = (.error ⟨d.name⟩, registry) := by
  rw [registerAll, register_of_taken taken]

theorem registerAll_of_free (free : registry.knows d.name = false) :
    registry.registerAll (d :: after) = (registry.extended [d]).registerAll after := by
  rw [registerAll, register_of_free free]

/-- A description that goes in takes no name but its own. -/
theorem Free.extended (free : registry.Free ds) (apart : d.name ∉ ds.map (·.name)) :
    (registry.extended [d]).Free ds := by
  intro e member
  apply Bool.eq_false_iff.mpr
  intro known
  rcases knows_extended.mp known with ⟨other, own, same⟩ | earlier
  · obtain rfl := List.mem_singleton.mp own
    exact apart (List.mem_map.mpr ⟨e, member, same.symm⟩)
  · exact Bool.eq_false_iff.mp (free e member) earlier

theorem registerAll_append (apart : (before.map (·.name)).Nodup) (free : registry.Free before) :
    registry.registerAll (before ++ after) = (registry.extended before).registerAll after := by
  -- Each description finds the registry as those before it have left it.
  induction before generalizing registry with
  | nil => rfl
  | cons d rest ih =>
    obtain ⟨own, others⟩ := List.nodup_cons.mp apart
    have first : registry.knows d.name = false := free d List.mem_cons_self
    have later : registry.Free rest := fun e member => free e (List.mem_cons_of_mem d member)
    calc registry.registerAll (d :: rest ++ after)
      _ = (registry.extended [d]).registerAll (rest ++ after) := registerAll_of_free first
      _ = ((registry.extended [d]).extended rest).registerAll after :=
        ih others (later.extended own)
      _ = (registry.extended (d :: rest)).registerAll after := by rw [extended_extended]

theorem free_or_firstTaken (registry : Registry) (ds : List Description) :
    registry.Free ds ∨ ∃ before d, registry.FirstTaken ds before d := by
  cases found : ds.find? fun d => registry.knows d.name with
  | none =>
    left
    intro d member
    exact Bool.eq_false_iff.mpr (List.find?_eq_none.mp found d member)
  | some d =>
    obtain ⟨taken, before, after, listed, free⟩ := List.find?_eq_some_iff_append.mp found
    right
    refine ⟨before, d, ⟨after, listed⟩, ?_, taken⟩
    intro e member
    simpa using free e member

theorem Free.registerAll (apart : (ds.map (·.name)).Nodup) (free : registry.Free ds) :
    registry.registerAll ds = (.ok (), registry.extended ds) := by
  rw [← List.append_nil ds, registerAll_append apart free, List.append_nil]
  rfl

theorem FirstTaken.registerAll (apart : (ds.map (·.name)).Nodup)
    (first : registry.FirstTaken ds before d) :
    registry.registerAll ds = (.error ⟨d.name⟩, registry.extended before) := by
  obtain ⟨⟨after, rfl⟩, free, taken⟩ := first
  rw [List.map_append] at apart
  rw [registerAll_append apart.of_append_left free]
  exact registerAll_of_taken (knows_extended.mpr (.inr taken))

/-- Whatever is refused, a registry only grows. -/
theorem registerAll_extends (registry : Registry) (ds : List Description) :
    ∃ gone, (registry.registerAll ds).2 = registry.extended gone := by
  induction ds generalizing registry with
  | nil => exact ⟨[], rfl⟩
  | cons d rest ih =>
    cases known : registry.knows d.name with
    | true => exact ⟨[], congrArg Prod.snd (registerAll_of_taken known)⟩
    | false =>
      obtain ⟨gone, left⟩ := ih (registry.extended [d])
      refine ⟨d :: gone, ?_⟩
      rw [registerAll_of_free known, left, extended_extended]

/-- What goes in first is not taken out again. -/
theorem registerAll_keeps_first (ds : List Description) (free : registry.knows d.name = false) :
    ∃ gone, (registry.registerAll (d :: ds)).2 = registry.extended (d :: gone) := by
  obtain ⟨gone, left⟩ := registerAll_extends (registry.extended [d]) ds
  refine ⟨gone, ?_⟩
  rw [registerAll_of_free free, left, extended_extended]

theorem registerAll_eq_self_iff :
    (registry.registerAll (d :: ds)).2 = registry ↔ registry.knows d.name = true := by
  constructor
  · intro same
    cases known : registry.knows d.name with
    | true => rfl
    | false =>
      obtain ⟨gone, left⟩ := registerAll_keeps_first ds known
      have nothing : d :: gone = [] := extended_eq_self_iff.mp (left.symm.trans same)
      exact absurd nothing (List.cons_ne_nil d gone)
  · intro known
    rw [registerAll_of_taken known]

theorem registerAll_knows : (registry.registerAll (d :: ds)).2.knows d.name = true := by
  cases known : registry.knows d.name with
  | true => rwa [registerAll_of_taken known]
  | false =>
    obtain ⟨gone, left⟩ := registerAll_keeps_first ds known
    rw [left]
    exact knows_extended.mpr (.inl ⟨d, List.mem_cons_self, rfl⟩)

end Registry

namespace StoreMetrics

theorem names_apart : (descriptions.map (·.name)).Nodup := by decide

/-- The metrics go into a registry up to the first one whose name is taken there. Where that is not
the very first, a refused registration leaves something behind. -/
theorem registration_stops_at_first_taken (registry : Registry) :
    ((registry.Free descriptions ∧
        register registry = (.ok (), registry.extended descriptions)) ∨
      ∃ before d, registry.FirstTaken descriptions before d ∧
        register registry = (.error ⟨d.name⟩, registry.extended before)) ∧
    ((register registry).2 = registry ↔ registry.knows requestsDescription.name = true) := by
  constructor
  · rcases registry.free_or_firstTaken descriptions with free | ⟨before, d, first⟩
    · exact .inl ⟨free, free.registerAll names_apart⟩
    · exact .inr ⟨before, d, first, first.registerAll names_apart⟩
  · exact Registry.registerAll_eq_self_iff

/-- The sizes are the third. Where their name is taken, the first two have gone in before. -/
theorem refused_registration_leaves_two :
    let registry : Registry := ⟨[uploadSizesForm.description]⟩
    register registry = (.error ⟨"s3_upload_size_bytes"⟩,
      ⟨[durationsForm.description, requestsDescription, uploadSizesForm.description]⟩) ∧
    (register registry).2 ≠ registry := by
  decide

/-- Handed to the same registry again, they are refused at the first one, and nothing changes. -/
theorem register_again (registry : Registry) :
    register (register registry).2 =
      (.error ⟨requestsDescription.name⟩, (register registry).2) :=
  Registry.registerAll_of_taken Registry.registerAll_knows

end StoreMetrics

end HedgedStore
