import Mathlib.Data.Nat.Init

/-!
# Loops

A `while` loop is its body, `body : σ → σ ⊕ ρ`: `Sum.inl` goes round again with
a new state, `Sum.inr` leaves with a result. `Lib.loop` runs it for at most the
given number of turns.

* `Lib.Terminates`: some number of turns is enough.
* `Lib.terminates_of_measure`: a measure that every further turn lowers.
* `Lib.not_terminates_of_trap`: a set of states that the loop never leaves.
* `Lib.loop_result`: what an invariant says of the result.
-/

namespace Lib

variable {σ ρ : Type*}

/-- Run the loop for at most `fuel` turns. -/
def loop (body : σ → σ ⊕ ρ) : ℕ → σ → Option ρ
  | 0, _ => none
  | fuel + 1, s =>
    match body s with
    | .inl s' => loop body fuel s'
    | .inr r => some r

/-- The loop leaves with `r`. -/
def Returns (body : σ → σ ⊕ ρ) (s : σ) (r : ρ) : Prop := ∃ fuel, loop body fuel s = some r

/-- The loop leaves. -/
def Terminates (body : σ → σ ⊕ ρ) (s : σ) : Prop := ∃ r, Returns body s r

/-- The loop comes from `s` to `s'` by going round, at least zero times. -/
inductive Turns (body : σ → σ ⊕ ρ) : σ → σ → Prop where
  | refl (s : σ) : Turns body s s
  | tail {s t t' : σ} : Turns body s t → body t = .inl t' → Turns body s t'

theorem loop_inl {body : σ → σ ⊕ ρ} {s s' : σ} (h : body s = .inl s') (fuel : ℕ) :
    loop body (fuel + 1) s = loop body fuel s' := by
  simp only [loop, h]

theorem loop_inr {body : σ → σ ⊕ ρ} {s : σ} {r : ρ} (h : body s = .inr r) (fuel : ℕ) :
    loop body (fuel + 1) s = some r := by
  simp only [loop, h]

/-- The result does not depend on the number of turns allowed. -/
theorem loop_mono {body : σ → σ ⊕ ρ} {r : ρ} :
    ∀ {fuel : ℕ} {s : σ}, loop body fuel s = some r →
      ∀ {fuel' : ℕ}, fuel ≤ fuel' → loop body fuel' s = some r := by
  intro fuel
  induction fuel with
  | zero => intro s h; simp [loop] at h
  | succ fuel ih =>
    intro s h fuel' hle
    obtain ⟨k, rfl⟩ : ∃ k, fuel' = k + 1 := ⟨fuel' - 1, by omega⟩
    cases hb : body s with
    | inl s' =>
      rw [loop_inl hb] at h ⊢
      exact ih h (by omega)
    | inr r' =>
      rw [loop_inr hb] at h ⊢
      exact h

/-- A loop leaves with one result only. -/
theorem Returns.unique {body : σ → σ ⊕ ρ} {s : σ} {r r' : ρ}
    (h : Returns body s r) (h' : Returns body s r') : r = r' := by
  rcases h with ⟨n, hn⟩
  rcases h' with ⟨m, hm⟩
  have h1 := loop_mono hn (Nat.le_max_left n m)
  have h2 := loop_mono hm (Nat.le_max_right n m)
  exact Option.some.inj (h1.symm.trans h2)

theorem Returns.of_inr {body : σ → σ ⊕ ρ} {s : σ} {r : ρ} (h : body s = .inr r) :
    Returns body s r := ⟨1, loop_inr h 0⟩

theorem Returns.of_inl {body : σ → σ ⊕ ρ} {s s' : σ} {r : ρ} (h : body s = .inl s')
    (hr : Returns body s' r) : Returns body s r := by
  rcases hr with ⟨n, hn⟩
  exact ⟨n + 1, (loop_inl h n).trans hn⟩

/-- A loop leaves if every turn that goes round again keeps `I` and lowers `μ`. -/
theorem terminates_of_measure {body : σ → σ ⊕ ρ} (I : σ → Prop) (μ : σ → ℕ)
    (hturn : ∀ s s', I s → body s = .inl s' → I s' ∧ μ s' < μ s) :
    ∀ s, I s → Terminates body s := by
  intro s
  induction hn : μ s using Nat.strong_induction_on generalizing s with
  | _ n ih =>
    intro hI
    cases hb : body s with
    | inr r => exact ⟨r, Returns.of_inr hb⟩
    | inl s' =>
      rcases hturn s s' hI hb with ⟨hI', hlt⟩
      rcases ih (μ s') (hn ▸ hlt) s' rfl hI' with ⟨r, hr⟩
      exact ⟨r, Returns.of_inl hb hr⟩

/-- A loop that never leaves a set of states never leaves at all. -/
theorem not_terminates_of_trap {body : σ → σ ⊕ ρ} (T : σ → Prop)
    (hturn : ∀ s, T s → ∃ s', body s = .inl s' ∧ T s') :
    ∀ s, T s → ¬ Terminates body s := by
  have hnone : ∀ fuel s, T s → loop body fuel s = none := by
    intro fuel
    induction fuel with
    | zero => intro s _; rfl
    | succ fuel ih =>
      intro s hT
      rcases hturn s hT with ⟨s', hb, hT'⟩
      rw [loop_inl hb]
      exact ih s' hT'
  rintro s hT ⟨r, fuel, hr⟩
  rw [hnone fuel s hT] at hr
  cases hr

/-- What every further turn keeps holds at every turn. -/
theorem Turns.inv {body : σ → σ ⊕ ρ} (I : σ → Prop) (hkeep : ∀ s s', I s → body s = .inl s' → I s')
    {s s' : σ} (h : Turns body s s') (hI : I s) : I s' := by
  induction h with
  | refl => exact hI
  | tail _ hb ih => exact hkeep _ _ ih hb

/-- The result of a loop: `I` holds at every turn, and leaving from it gives `Q`. -/
theorem loop_result {body : σ → σ ⊕ ρ} (I : σ → Prop) (Q : ρ → Prop)
    (hkeep : ∀ s s', I s → body s = .inl s' → I s')
    (hexit : ∀ s r, I s → body s = .inr r → Q r) :
    ∀ {s : σ} {r : ρ}, I s → Returns body s r → Q r := by
  rintro s r hI ⟨fuel, hr⟩
  induction fuel generalizing s with
  | zero => simp [loop] at hr
  | succ fuel ih =>
    cases hb : body s with
    | inl s' =>
      rw [loop_inl hb] at hr
      exact ih (hkeep s s' hI hb) hr
    | inr r' =>
      rw [loop_inr hb] at hr
      cases hr
      exact hexit s r hI hb

end Lib
