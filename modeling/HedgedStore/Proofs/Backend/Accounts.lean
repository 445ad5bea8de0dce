import HedgedStore.Proofs.Backend.Session
import HedgedStore.Proofs.Backend.Traffic
import HedgedStore.Proofs.Hedge.Accounting
import HedgedStore.Proofs.Summary.Rotation

/-! What the metrics say about the uploads of a backend. Whatever operations overlap in whatever
way, the accounts are a matter of how far each upload has come: one that reached its race was
compressed, one whose race is over was measured, and each hedge was counted where it was made and
where it was adopted. Other operations leave no trace in them. -/
namespace HedgedStore

def Failure.isCompress : Failure → Bool
  | compress _ _ => true
  | _ => false

theorem Backend.refused_isCompress (operation : Operation) (key : String) (why : Refusal) :
    (refused operation key why).isCompress = false := rfl

namespace Effect

def size? : Effect → Option Nat
  | measure (.uploadSize bytes) => some bytes
  | _ => none

def isRatio : Effect → Bool
  | measure (.compressRatio _) => true
  | _ => false

/-- The effect is none that uploads are accounted by. -/
def isAloof : Effect → Bool
  | tell _ | measure (.answered _ _ _) => true
  | _ => false

theorem aloof_nil : ∀ effect ∈ ([] : List Effect), effect.isAloof = true :=
  fun _ mem => absurd mem List.not_mem_nil

end Effect

/-- The accounts of the uploads of a backend. -/
structure Accounts where
  /-- The sizes of the bodies, in the order in which they were measured. -/
  sizes : List Nat := []
  ratios : Nat := 0
  hedges : Nat := 0
  wins : Nat := 0

namespace Accounts

def after (accounts : Accounts) (effects : List Effect) : Accounts where
  sizes := accounts.sizes ++ effects.filterMap Effect.size?
  ratios := accounts.ratios + effects.countP Effect.isRatio
  hedges := accounts.hedges + effects.count (.measure .hedgeLaunched)
  wins := accounts.wins + effects.count (.measure .hedgeAdopted)

/-- The sum of the sizes, as the numbers come in. -/
def sum (sizes : List Nat) : Binary64 :=
  sizes.foldl (fun sum bytes => sum.add (.ofUInt64 bytes.toUInt64)) .zero

variable (accounts : Accounts)

theorem after_nil : accounts.after [] = accounts := by
  simp [after]

theorem after_aloof {effect : Effect} (aloof : effect.isAloof = true) :
    accounts.after [effect] = accounts := by
  cases effect with
  | tell event => simp [after, List.filterMap_cons, Effect.size?, Effect.isRatio]
  | measure measurement =>
    cases measurement with
    | answered method status elapsed =>
      simp [after, List.filterMap_cons, Effect.size?, Effect.isRatio]
    | uploadSize | compressRatio | hedgeLaunched | hedgeAdopted => cases aloof

theorem after_uploadSize (bytes : Nat) : accounts.after [.measure (.uploadSize bytes)] =
    { accounts with sizes := accounts.sizes ++ [bytes] } := by
  simp [after, Effect.size?, Effect.isRatio]

theorem after_compressRatio (ratio : Binary64) : accounts.after [.measure (.compressRatio ratio)] =
    { accounts with ratios := accounts.ratios + 1 } := by
  simp [after, Effect.size?, Effect.isRatio]

theorem after_hedgeLaunched : accounts.after [.measure .hedgeLaunched] =
    { accounts with hedges := accounts.hedges + 1 } := by
  simp [after, Effect.size?, Effect.isRatio]

theorem after_hedgeAdopted : accounts.after [.measure .hedgeAdopted] =
    { accounts with wins := accounts.wins + 1 } := by
  simp [after, Effect.size?, Effect.isRatio]

theorem after_cons (effect : Effect) (effects : List Effect) :
    accounts.after (effect :: effects) = (accounts.after [effect]).after effects := by
  simp only [after, Accounts.mk.injEq]
  refine ⟨?_, ?_, ?_, ?_⟩
  · rw [List.append_assoc, ← List.filterMap_append]
    rfl
  · rw [Nat.add_assoc, ← List.countP_append]
    rfl
  · rw [Nat.add_assoc, ← List.count_append]
    rfl
  · rw [Nat.add_assoc, ← List.count_append]
    rfl

end Accounts

/-- The metrics say what the accounts say. -/
structure StoreMetrics.Shows (metrics : StoreMetrics) (accounts : Accounts) : Prop where
  sizes : metrics.uploadSizes.window.count = accounts.sizes.length
  sum : metrics.uploadSizes.window.sum = Accounts.sum accounts.sizes
  ratios : metrics.compressRatios.window.count = accounts.ratios
  hedges : metrics.hedges.total = accounts.hedges
  wins : metrics.hedgeWins.total = accounts.wins

/-- What is accounted for uploads is the same in both. -/
structure StoreMetrics.Agrees (metrics other : StoreMetrics) : Prop where
  sizes : metrics.uploadSizes = other.uploadSizes
  ratios : metrics.compressRatios = other.compressRatios
  hedges : metrics.hedges = other.hedges
  wins : metrics.hedgeWins = other.hedgeWins

namespace StoreMetrics

variable {metrics later : StoreMetrics} {accounts : Accounts} {now : Instant} {word : Nat}

theorem create_shows (created : create now = .ok metrics) : metrics.Shows {} := by
  obtain ⟨sizes, made_sizes, created⟩ := bind_eq_ok.mp created
  obtain ⟨ratios, made_ratios, created⟩ := bind_eq_ok.mp created
  obtain rfl := Except.ok.inj created
  obtain ⟨sizes_count, sizes_sum⟩ := Summary.Window.create_totals (Summary.create_eq_ok made_sizes).2
  obtain ⟨ratios_count, -⟩ := Summary.Window.create_totals (Summary.create_eq_ok made_ratios).2
  exact ⟨sizes_count, sizes_sum, ratios_count, rfl, rfl⟩

theorem measure_shows (shows : metrics.Shows accounts) {measurement : Measurement}
    (measured : metrics.measure now word measurement = .ok later) :
    later.Shows (accounts.after [.measure measurement]) := by
  cases measurement with
  | answered method status elapsed =>
    obtain ⟨durations, -, measured⟩ := bind_eq_ok.mp measured
    obtain rfl := Except.ok.inj measured
    rw [accounts.after_aloof rfl]
    exact ⟨shows.sizes, shows.sum, shows.ratios, shows.hedges, shows.wins⟩
  | uploadSize bytes =>
    obtain ⟨sizes, observed, measured⟩ := bind_eq_ok.mp measured
    obtain rfl := Except.ok.inj measured
    obtain ⟨count, sum⟩ := Summary.observe_totals observed
    rw [accounts.after_uploadSize]
    refine ⟨?_, ?_, shows.ratios, shows.hedges, shows.wins⟩
    · rw [count, shows.sizes, List.length_append]
      rfl
    · rw [sum, shows.sum, Accounts.sum, Accounts.sum, List.foldl_append]
      rfl
  | compressRatio ratio =>
    obtain ⟨ratios, observed, measured⟩ := bind_eq_ok.mp measured
    obtain rfl := Except.ok.inj measured
    obtain ⟨count, -⟩ := Summary.observe_totals observed
    rw [accounts.after_compressRatio]
    exact ⟨shows.sizes, shows.sum, by rw [count, shows.ratios], shows.hedges, shows.wins⟩
  | hedgeLaunched =>
    obtain rfl := Except.ok.inj measured
    rw [accounts.after_hedgeLaunched]
    exact ⟨shows.sizes, shows.sum, shows.ratios, congrArg (· + 1) shows.hedges, shows.wins⟩
  | hedgeAdopted =>
    obtain rfl := Except.ok.inj measured
    rw [accounts.after_hedgeAdopted]
    exact ⟨shows.sizes, shows.sum, shows.ratios, shows.hedges, congrArg (· + 1) shows.wins⟩

end StoreMetrics

namespace Session

open Summary (Fault)

variable {σ : Type} {session next : Session σ} {accounts : Accounts}

theorem happen_shows (shows : session.metrics.Shows accounts) {effect : Effect}
    (happened : session.happen (0, effect) = .ok next) :
    next.metrics.Shows (accounts.after [effect]) := by
  cases effect with
  | tell event =>
    obtain rfl := Except.ok.inj happened
    rw [accounts.after_aloof rfl]
    exact shows
  | measure measurement =>
    obtain ⟨metrics, measured, happened⟩ := bind_eq_ok.mp happened
    obtain rfl := Except.ok.inj happened
    exact StoreMetrics.measure_shows shows measured

theorem foldlM_happen_shows (shows : session.metrics.Shows accounts) {effects : List Effect}
    (happened : (effects.map fun effect => (0, effect)).foldlM happen session = .ok next) :
    next.metrics.Shows (accounts.after effects) := by
  induction effects generalizing session accounts with
  | nil =>
    obtain rfl := Except.ok.inj happened
    rwa [Accounts.after_nil]
  | cons effect effects ih =>
    obtain ⟨mid, first, rest⟩ := bind_eq_ok.mp happened
    rw [Accounts.after_cons]
    exact ih (happen_shows shows first) rest

theorem happen_agrees {effect : Effect} (aloof : effect.isAloof = true)
    (happened : session.happen (0, effect) = .ok next) : next.metrics.Agrees session.metrics := by
  cases effect with
  | tell event =>
    obtain rfl := Except.ok.inj happened
    exact ⟨rfl, rfl, rfl, rfl⟩
  | measure measurement =>
    obtain ⟨metrics, measured, happened⟩ := bind_eq_ok.mp happened
    obtain rfl := Except.ok.inj happened
    cases measurement with
    | answered method status elapsed =>
      obtain ⟨durations, -, measured⟩ := bind_eq_ok.mp measured
      obtain rfl := Except.ok.inj measured
      exact ⟨rfl, rfl, rfl, rfl⟩
    | uploadSize | compressRatio | hedgeLaunched | hedgeAdopted => cases aloof

theorem foldlM_happen_agrees {effects : List Effect}
    (aloof : ∀ effect ∈ effects, effect.isAloof = true)
    (happened : (effects.map fun effect => (0, effect)).foldlM happen session = .ok next) :
    next.metrics.Agrees session.metrics := by
  induction effects generalizing session with
  | nil =>
    obtain rfl := Except.ok.inj happened
    exact ⟨rfl, rfl, rfl, rfl⟩
  | cons effect effects ih =>
    obtain ⟨mid, first, rest⟩ := bind_eq_ok.mp happened
    have here := happen_agrees (aloof effect (by simp)) first
    have later := ih (fun other member => aloof other (by simp [member])) rest
    exact ⟨later.sizes.trans here.sizes, later.ratios.trans here.ratios,
      later.hedges.trans here.hedges, later.wins.trans here.wins⟩

end Session

end HedgedStore
