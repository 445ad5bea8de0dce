import Mathlib.Data.List.Forall2

/-! Steps that can fail, one after another: they come to an end if each of them does, and two runs
go alike if each step of one goes like that of the other. -/
namespace HedgedStore

variable {α β ε : Type}

@[simp]
theorem pure_eq_ok (a : α) : (pure a : Except ε α) = .ok a := rfl

@[simp]
theorem ok_bind (a : α) (f : α → Except ε β) : (Except.ok a >>= f) = f a := rfl

@[simp]
theorem error_bind (why : ε) (f : α → Except ε β) : (Except.error why >>= f) = .error why := rfl

theorem bind_eq_ok {x : Except ε α} {f : α → Except ε β} {b : β} :
    x >>= f = .ok b ↔ ∃ a, x = .ok a ∧ f a = .ok b := by
  cases x with
  | error why => simp
  | ok a => simp

theorem bind_eq_error {x : Except ε α} {f : α → Except ε β} {why : ε} :
    x >>= f = .error why ↔ x = .error why ∨ ∃ a, x = .ok a ∧ f a = .error why := by
  cases x with
  | error other => simp
  | ok a => simp

theorem map_eq_ok {x : Except ε α} {f : α → β} {b : β} :
    x.map f = .ok b ↔ ∃ a, x = .ok a ∧ f a = b := by
  cases x with
  | error why => exact iff_of_false nofun nofun
  | ok a => simp [Except.map]

theorem toOption_eq_some {x : Except ε α} {a : α} : x.toOption = some a ↔ x = .ok a := by
  cases x with
  | error why => exact iff_of_false nofun nofun
  | ok b => simp [Except.toOption]

theorem mapM_eq_ok {f : α → Except ε β} {as : List α} {bs : List β}
    (h : List.Forall₂ (fun a b => f a = .ok b) as bs) : as.mapM f = .ok bs := by
  induction h with
  | nil => rfl
  | cons first _ ih => rw [List.mapM_cons, first, ok_bind, ih, ok_bind, pure_eq_ok]

theorem forall₂_of_mapM {f : α → Except ε β} {as : List α} {bs : List β} (h : as.mapM f = .ok bs) :
    List.Forall₂ (fun a b => f a = .ok b) as bs := by
  induction as generalizing bs with
  | nil =>
    obtain rfl := Except.ok.inj h
    exact .nil
  | cons a as ih =>
    rw [List.mapM_cons] at h
    obtain ⟨b, first, h⟩ := bind_eq_ok.mp h
    obtain ⟨rest, mapped, h⟩ := bind_eq_ok.mp h
    obtain rfl := Except.ok.inj h
    exact .cons first (ih mapped)

theorem mapM_eq_error {f : α → Except ε β} {as : List α} {why : ε} (h : as.mapM f = .error why) :
    ∃ a ∈ as, f a = .error why := by
  induction as with
  | nil => cases h
  | cons a as ih =>
    rw [List.mapM_cons] at h
    cases first : f a with
    | error e =>
      rw [first, error_bind] at h
      obtain rfl := Except.error.inj h
      exact ⟨a, List.mem_cons_self, first⟩
    | ok b =>
      rw [first, ok_bind] at h
      cases rest : as.mapM f with
      | error e =>
        rw [rest, error_bind] at h
        obtain rfl := Except.error.inj h
        obtain ⟨other, mem, failed⟩ := ih rest
        exact ⟨other, List.mem_cons_of_mem a mem, failed⟩
      | ok bs =>
        rw [rest] at h
        cases h

/-- The first failure counts. -/
theorem mapM_eq_error_iff {f : α → Except ε β} {as : List α} {why : ε} :
    as.mapM f = .error why ↔ ∃ before a after, as = before ++ a :: after ∧
      (∀ earlier ∈ before, ∃ b, f earlier = .ok b) ∧ f a = .error why := by
  constructor
  · intro failed
    induction as with
    | nil => cases failed
    | cons a as ih =>
      rw [List.mapM_cons] at failed
      rcases bind_eq_error.mp failed with first | ⟨b, first, later⟩
      · exact ⟨[], a, as, rfl, nofun, first⟩
      · rcases bind_eq_error.mp later with rest | ⟨bs, -, impossible⟩
        · obtain ⟨before, bad, after, rfl, good, failed⟩ := ih rest
          exact ⟨a :: before, bad, after, rfl, List.forall_mem_cons.mpr ⟨⟨b, first⟩, good⟩, failed⟩
        · cases impossible
  · rintro ⟨before, a, after, rfl, good, failed⟩
    induction before with
    | nil => rw [List.nil_append, List.mapM_cons, failed, error_bind]
    | cons earlier before ih =>
      obtain ⟨⟨b, first⟩, good⟩ := List.forall_mem_cons.mp good
      rw [List.cons_append, List.mapM_cons, first, ok_bind, ih good, error_bind]

theorem mapM_returns {f : α → Except ε β} {as : List α} (each : ∀ a ∈ as, ∃ b, f a = .ok b) :
    ∃ bs, as.mapM f = .ok bs := by
  cases mapped : as.mapM f with
  | ok bs => exact ⟨bs, rfl⟩
  | error why =>
    obtain ⟨a, member, failed⟩ := mapM_eq_error mapped
    obtain ⟨b, done⟩ := each a member
    cases failed.symm.trans done

/-- What is set to one that looks the same leaves the list looking the same. -/
theorem map_set_of_eq {f : α → β} {items : List α} {place : Nat} {item next : α}
    (placed : items[place]? = some item) (same : f next = f item) :
    (items.set place next).map f = items.map f := by
  obtain ⟨inside, rfl⟩ := List.getElem?_eq_some_iff.mp placed
  rw [List.map_set, same, ← List.getElem_map f, List.set_getElem_self]
  simpa using inside

section Run

variable {σ : Type} {step : σ → α → Except ε σ} {state last : σ} {as : List α}

theorem foldlM_keeps {P : σ → Prop}
    (keeps : ∀ state a next, P state → step state a = .ok next → P next)
    (first : P state) (ran : as.foldlM step state = .ok last) : P last := by
  induction as generalizing state with
  | nil =>
    obtain rfl := Except.ok.inj ran
    exact first
  | cons a as ih =>
    obtain ⟨next, stepped, ran⟩ := bind_eq_ok.mp ran
    exact ih (keeps state a next first stepped) ran

/-- What is left to do may count in whether a step can be taken. -/
theorem foldlM_returns {P : σ → List α → Prop}
    (steps : ∀ state a as, P state (a :: as) → ∃ next, step state a = .ok next ∧ P next as)
    (first : P state as) : ∃ last, as.foldlM step state = .ok last := by
  induction as generalizing state with
  | nil => exact ⟨state, rfl⟩
  | cons a as ih =>
    obtain ⟨next, stepped, rest⟩ := steps state a as first
    obtain ⟨last, ran⟩ := ih rest
    exact ⟨last, bind_eq_ok.mpr ⟨next, stepped, ran⟩⟩

end Run

/-- Two runs go alike: both fail, and in the same way, or they come to related values. -/
inductive Alike {α β ε : Type} (R : α → β → Prop) : Except ε α → Except ε β → Prop where
  | ok {a : α} {b : β} (related : R a b) : Alike R (.ok a) (.ok b)
  | error (why : ε) : Alike R (.error why) (.error why)

namespace Alike

variable {α β γ δ ε ι : Type} {R : α → β → Prop} {S : γ → δ → Prop}

theorem same {R : α → α → Prop} (refl : ∀ a, R a a) (run : Except ε α) : Alike R run run := by
  cases run with
  | ok a => exact .ok (refl a)
  | error why => exact .error why

theorem outcomes {run : Except ε α} {other : Except ε β} (alike : Alike R run other) :
    (∃ a b, run = .ok a ∧ other = .ok b ∧ R a b) ∨
      ∃ why, run = .error why ∧ other = .error why := by
  cases alike with
  | ok related => exact .inl ⟨_, _, rfl, rfl, related⟩
  | error why => exact .inr ⟨why, rfl, rfl⟩

theorem map {run : Except ε α} {other : Except ε β} {f : α → γ} {g : β → δ}
    (alike : Alike R run other) (maps : ∀ a b, R a b → S (f a) (g b)) :
    Alike S (run.map f) (other.map g) := by
  cases alike with
  | ok related => exact .ok (maps _ _ related)
  | error why => exact .error why

theorem bind {run : Except ε α} {other : Except ε β} {f : α → Except ε γ} {g : β → Except ε δ}
    (alike : Alike R run other) (onward : ∀ a b, R a b → Alike S (f a) (g b)) :
    Alike S (run >>= f) (other >>= g) := by
  cases alike with
  | ok related => exact onward _ _ related
  | error why => exact .error why

theorem foldlM {f : α → ι → Except ε α} {g : β → ι → Except ε β}
    (steps : ∀ a b i, R a b → Alike R (f a i) (g b i)) {a : α} {b : β} (first : R a b)
    (items : List ι) : Alike R (items.foldlM f a) (items.foldlM g b) := by
  induction items generalizing a b with
  | nil => exact .ok first
  | cons i items ih =>
    rw [List.foldlM_cons, List.foldlM_cons]
    exact (steps a b i first).bind fun _ _ related => ih related

end Alike

end HedgedStore
