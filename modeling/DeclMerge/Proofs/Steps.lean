import Mathlib.Data.List.Forall2

/-!
# Computations that may fail, step by step

A computation that goes through several steps succeeds exactly if each step does. The same holds
for a step that is made for each element of a list.

## Main results

* `bind_eq_ok_iff` — two steps, one after the other
* `mapM_eq_ok_iff`, `mapM_eq_some_iff` — one step for each element
* `foldlM_induction` — what every step keeps, the whole run keeps
-/

namespace DeclMerge

variable {ε α β σ : Type}

theorem bind_eq_ok_iff {x : Except ε α} {f : α → Except ε β} {b : β} :
    x >>= f = .ok b ↔ ∃ a, x = .ok a ∧ f a = .ok b := by
  cases x <;> simp [bind, Except.bind]

theorem mapM_eq_ok_iff {f : α → Except ε β} {as : List α} {bs : List β} :
    as.mapM f = .ok bs ↔ List.Forall₂ (fun a b => f a = .ok b) as bs := by
  induction as generalizing bs with
  | nil => cases bs <;> simp [pure, Except.pure]
  | cons a as ih =>
    rw [List.mapM_cons, bind_eq_ok_iff]
    constructor
    · rintro ⟨b, hb, h⟩
      obtain ⟨rest, hrest, hcons⟩ := bind_eq_ok_iff.mp h
      cases hcons
      exact .cons hb (ih.mp hrest)
    · rintro (_ | ⟨hb, hrest⟩)
      exact ⟨_, hb, bind_eq_ok_iff.mpr ⟨_, ih.mpr hrest, rfl⟩⟩

theorem mapM_eq_some_iff {f : α → Option β} {as : List α} {bs : List β} :
    as.mapM f = some bs ↔ List.Forall₂ (fun a b => f a = some b) as bs := by
  induction as generalizing bs with
  | nil => cases bs <;> simp
  | cons a as ih =>
    rw [List.mapM_cons]
    constructor
    · intro h
      obtain ⟨b, hb, h⟩ := Option.bind_eq_some_iff.mp h
      obtain ⟨rest, hrest, hcons⟩ := Option.bind_eq_some_iff.mp h
      cases hcons
      exact .cons hb (ih.mp hrest)
    · rintro (_ | ⟨hb, hrest⟩)
      simp [hb, ih.mpr hrest]

/-- If each step succeeds and keeps what holds of the elements passed so far, so does the run. A
step knows where in the list it is made. -/
theorem foldlM_induction {f : σ → α → Except ε σ} (motive : List α → σ → Prop) {s : σ}
    (start : motive [] s) (as : List α)
    (step : ∀ done a rest s, as = done ++ a :: rest → motive done s →
      ∃ s', f s a = .ok s' ∧ motive (done ++ [a]) s') :
    ∃ s', as.foldlM f s = .ok s' ∧ motive as s' := by
  suffices h : ∀ rest done s, motive done s → as = done ++ rest →
      ∃ s', rest.foldlM f s = .ok s' ∧ motive as s' from h as [] s start rfl
  intro rest
  induction rest with
  | nil => exact fun done s hs has => ⟨s, rfl, by rwa [has, List.append_nil]⟩
  | cons a rest ih =>
    intro done s hs has
    obtain ⟨t, ht, hkept⟩ := step done a rest s has hs
    obtain ⟨s', hs', hrun⟩ := ih (done ++ [a]) t hkept (by simpa using has)
    refine ⟨s', ?_, hrun⟩
    rw [List.foldlM_cons]
    exact bind_eq_ok_iff.mpr ⟨t, ht, hs'⟩

end DeclMerge
