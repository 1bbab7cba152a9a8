import Mathlib.Data.Nat.Init

/-!
# Loops around loops

The body of an outer loop runs loops of its own and so returns only if it is
given enough turns: `body fuel s` is `none` while they are too few. What goes
round and what leaves is as for `Lib.loop`.

* `Lib.Settled`: more turns for the body never change what it returns.
* `Lib.Finishes`: enough turns for both, and the outer loop leaves.
* `Lib.nestedLoop_result`: the invariant rule for what the outer loop returns.
* `Lib.finishes_of_measure`: a measure that every iteration which goes round lowers.
* `Lib.not_finishes_of_trap`, `Lib.not_finishes_of_stuck`: a set of states that the
  loop never leaves, and a body that never returns.
-/

namespace Lib

variable {σ ρ : Type*}

/-- Run the outer loop for at most `turns` turns, its body with `fuel`. -/
def nestedLoop (body : ℕ → σ → Option (σ ⊕ ρ)) (fuel : ℕ) : ℕ → σ → Option ρ
  | 0, _ => none
  | turns + 1, s =>
    match body fuel s with
    | none => none
    | some (.inl s') => nestedLoop body fuel turns s'
    | some (.inr r) => some r

/-- What the body returns, it returns with more fuel as well. -/
def Settled (body : ℕ → σ → Option (σ ⊕ ρ)) : Prop :=
  ∀ fuel fuel' s r, fuel ≤ fuel' → body fuel s = some r → body fuel' s = some r

/-- One iteration from `s` returns `r`. -/
def Iterates (body : ℕ → σ → Option (σ ⊕ ρ)) (s : σ) (r : σ ⊕ ρ) : Prop :=
  ∃ fuel, body fuel s = some r

/-- The outer loop leaves. -/
def Finishes (body : ℕ → σ → Option (σ ⊕ ρ)) (s : σ) : Prop :=
  ∃ fuel turns r, nestedLoop body fuel turns s = some r

/-- The outer loop comes from `s` to `s'` by going round, at least zero times. -/
inductive Rounds (body : ℕ → σ → Option (σ ⊕ ρ)) : σ → σ → Prop where
  | refl (s : σ) : Rounds body s s
  | tail {s t t' : σ} : Rounds body s t → Iterates body t (.inl t') → Rounds body s t'

section

variable {body : ℕ → σ → Option (σ ⊕ ρ)}

theorem nestedLoop_inl {fuel : ℕ} {s s' : σ} (h : body fuel s = some (.inl s')) (turns : ℕ) :
    nestedLoop body fuel (turns + 1) s = nestedLoop body fuel turns s' := by
  simp only [nestedLoop, h]

theorem nestedLoop_inr {fuel : ℕ} {s : σ} {r : ρ} (h : body fuel s = some (.inr r)) (turns : ℕ) :
    nestedLoop body fuel (turns + 1) s = some r := by
  simp only [nestedLoop, h]

theorem nestedLoop_none {fuel : ℕ} {s : σ} (h : body fuel s = none) (turns : ℕ) :
    nestedLoop body fuel turns s = none := by
  cases turns with
  | zero => rfl
  | succ turns => simp only [nestedLoop, h]

/-- One iteration returns one thing only. -/
theorem Iterates.unique (hb : Settled body) {s : σ} {r r' : σ ⊕ ρ} (h : Iterates body s r)
    (h' : Iterates body s r') : r = r' := by
  rcases h with ⟨n, hn⟩
  rcases h' with ⟨m, hm⟩
  have h1 := hb n (max n m) s r (Nat.le_max_left n m) hn
  have h2 := hb m (max n m) s r' (Nat.le_max_right n m) hm
  exact Option.some.inj (h1.symm.trans h2)

theorem nestedLoop_mono (hb : Settled body) {fuel fuel' : ℕ} (hle : fuel ≤ fuel') {r : ρ} :
    ∀ {turns : ℕ} {s : σ}, nestedLoop body fuel turns s = some r →
      nestedLoop body fuel' turns s = some r := by
  intro turns
  induction turns with
  | zero => intro s h; cases h
  | succ turns ih =>
    intro s h
    cases hr : body fuel s with
    | none =>
      rw [nestedLoop_none hr] at h
      cases h
    | some r' =>
      have hr' := hb fuel fuel' s r' hle hr
      cases r' with
      | inl s' =>
        rw [nestedLoop_inl hr] at h
        rw [nestedLoop_inl hr']
        exact ih h
      | inr r' =>
        rw [nestedLoop_inr hr] at h
        rw [nestedLoop_inr hr']
        exact h

/-- More turns never change what the outer loop returns. -/
theorem nestedLoop_turns {fuel turns turns' : ℕ} (hle : turns ≤ turns') {s : σ} {r : ρ}
    (hrun : nestedLoop body fuel turns s = some r) : nestedLoop body fuel turns' s = some r := by
  induction turns generalizing turns' s with
  | zero => cases hrun
  | succ turns ih =>
    rcases Nat.exists_eq_add_of_le' (Nat.lt_of_lt_of_le (Nat.succ_pos turns) hle) with ⟨k, rfl⟩
    cases hbody : body fuel s with
    | none =>
      rw [nestedLoop_none hbody] at hrun
      cases hrun
    | some next =>
      cases next with
      | inl s' =>
        rw [nestedLoop_inl hbody] at hrun ⊢
        exact ih (by omega) hrun
      | inr r' =>
        rw [nestedLoop_inr hbody] at hrun ⊢
        exact hrun

theorem Finishes.of_inr {s : σ} {r : ρ} (h : Iterates body s (.inr r)) : Finishes body s := by
  rcases h with ⟨fuel, h⟩
  exact ⟨fuel, 1, r, nestedLoop_inr h 0⟩

theorem Finishes.of_inl (hb : Settled body) {s s' : σ} (h : Iterates body s (.inl s'))
    (hs : Finishes body s') : Finishes body s := by
  rcases h with ⟨n, hn⟩
  rcases hs with ⟨m, turns, r, hm⟩
  have hbody := hb n (max n m) s _ (Nat.le_max_left n m) hn
  have hrest := nestedLoop_mono hb (Nat.le_max_right n m) hm
  exact ⟨max n m, turns + 1, r, (nestedLoop_inl hbody turns).trans hrest⟩

/-- The outer loop leaves if every iteration returns, and lowers `μ` when it goes round. -/
theorem finishes_of_measure (hb : Settled body) (I : σ → Prop) (μ : σ → ℕ)
    (hturn : ∀ s, I s → ∃ r, Iterates body s r ∧ ∀ s', r = .inl s' → I s' ∧ μ s' < μ s) :
    ∀ s, I s → Finishes body s := by
  intro s
  induction hn : μ s using Nat.strong_induction_on generalizing s with
  | _ n ih =>
    intro hI
    rcases hturn s hI with ⟨r, hr, hnext⟩
    cases r with
    | inr r => exact Finishes.of_inr hr
    | inl s' =>
      rcases hnext s' rfl with ⟨hI', hlt⟩
      exact Finishes.of_inl hb hr (ih (μ s') (hn ▸ hlt) s' rfl hI')

/-- A loop that never leaves a set of states never leaves at all. -/
theorem not_finishes_of_trap (hb : Settled body) (T : σ → Prop)
    (hturn : ∀ s, T s → ∃ s', Iterates body s (.inl s') ∧ T s') :
    ∀ s, T s → ¬ Finishes body s := by
  rintro s hT ⟨fuel, turns, r, hr⟩
  induction turns generalizing s with
  | zero => cases hr
  | succ turns ih =>
    rcases hturn s hT with ⟨s', hs', hT'⟩
    cases hf : body fuel s with
    | none =>
      rw [nestedLoop_none hf] at hr
      cases hr
    | some r' =>
      cases Iterates.unique hb hs' ⟨fuel, hf⟩
      rw [nestedLoop_inl hf] at hr
      exact ih s' hT' hr

theorem not_finishes_of_stuck {s : σ} (h : ∀ fuel, body fuel s = none) : ¬ Finishes body s := by
  rintro ⟨fuel, turns, r, hr⟩
  rw [nestedLoop_none (h fuel)] at hr
  cases hr

/-- Induction over the outer loop: what going round keeps, up to what leaving gives. -/
theorem nestedLoop_result {I : σ → Prop} {Q : ρ → Prop}
    (hround : ∀ s s', I s → Iterates body s (.inl s') → I s')
    (hleave : ∀ s r, I s → Iterates body s (.inr r) → Q r) {fuel turns : ℕ} {s : σ} {r : ρ}
    (hI : I s) (hrun : nestedLoop body fuel turns s = some r) : Q r := by
  induction turns generalizing s with
  | zero => cases hrun
  | succ turns ih =>
    cases hbody : body fuel s with
    | none =>
      rw [nestedLoop_none hbody] at hrun
      cases hrun
    | some next =>
      cases next with
      | inl s' =>
        rw [nestedLoop_inl hbody] at hrun
        exact ih (hround s s' hI ⟨fuel, hbody⟩) hrun
      | inr r' =>
        rw [nestedLoop_inr hbody] at hrun
        cases hrun
        exact hleave s r hI ⟨fuel, hbody⟩

/-- What every further iteration keeps holds at every iteration. -/
theorem Rounds.inv (I : σ → Prop) (hkeep : ∀ s s', I s → Iterates body s (.inl s') → I s')
    {s s' : σ} (h : Rounds body s s') (hI : I s) : I s' := by
  induction h with
  | refl => exact hI
  | tail _ hb ih => exact hkeep _ _ ih hb

end

end Lib
