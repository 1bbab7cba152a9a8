import Mathlib.Data.List.Infix
import Mathlib.Tactic.SplitIfs

/-!
# Programs whose attempts may fail

A program on a state makes attempts one after the other. An attempt that the state does not
accept, or that fails from outside, leaves the state; its result goes into a log, and may decide
how the program goes on.

* `Lib.Faulty`: such programs, as a monad.
* `Lib.Steady`: how the log of a program depends on the failures, kept by `bind` and loops.
* `Lib.Steady.all_true_iff`: all attempts succeed iff they would without failures, and none of
  these fails.
* `Lib.Steady.forM`: the rule for a loop.
-/

namespace Lib

/-- A state, and the results of the attempts so far. -/
structure Logged (σ : Type) where
  state : σ
  results : List Bool

/-- The attempts that fail, by their number, and a state with its log. -/
def Faulty (σ β : Type) : Type := (ℕ → Bool) → Logged σ → β × Logged σ

namespace Faulty

variable {σ β γ : Type}

instance : Monad (Faulty σ) where
  pure b := fun _ s => (b, s)
  bind f g := fun fails s => g (f fails s).1 fails (f fails s).2

/-- What a program reads of the state. -/
def read (f : σ → β) : Faulty σ β := fun _ s => (f s.state, s)

/-- A change that is no attempt. -/
def modify (f : σ → σ) : Faulty σ Unit := fun _ s => ((), ⟨f s.state, s.results⟩)

/-- One attempt, and whether it succeeded. -/
def attempt (accepts : σ → Bool) (effect : σ → σ) : Faulty σ Bool := fun fails s =>
  let ok := accepts s.state && !fails s.results.length
  (ok, ⟨if ok then effect s.state else s.state, s.results ++ [ok]⟩)

/-- A loop over a list. -/
def forEach {α : Type} (l : List α) (f : α → Faulty σ Unit) : Faulty σ Unit :=
  l.foldr (fun a rest => f a >>= fun _ => rest) (pure ())

/-- No attempt fails from outside. -/
def never : ℕ → Bool := fun _ => false

@[simp] theorem pure_apply (b : β) (fails : ℕ → Bool) (s : Logged σ) :
    (pure b : Faulty σ β) fails s = (b, s) := rfl

@[simp] theorem bind_apply (f : Faulty σ β) (g : β → Faulty σ γ) (fails : ℕ → Bool)
    (s : Logged σ) : (f >>= g) fails s = g (f fails s).1 fails (f fails s).2 := rfl

/-- What the state becomes without failures. -/
def run (f : Faulty σ β) (s : σ) : β × Logged σ := f never ⟨s, []⟩

end Faulty

open Faulty

/-- The log grows; without a failure among the attempts that the program makes when nothing
fails, it does the same; with one, the log shows a failure. -/
structure Steady {σ β : Type} (f : Faulty σ β) : Prop where
  extends_log : ∀ fails s, s.results <+: (f fails s).2.results
  same : ∀ fails s, (∀ i, s.results.length ≤ i → i < (f never s).2.results.length →
    fails i = false) → f fails s = f never s
  shows : ∀ fails s i, s.results.length ≤ i → i < (f never s).2.results.length →
    fails i = true → ∃ r ∈ (f fails s).2.results.drop s.results.length, r = false

namespace Steady

variable {σ β γ : Type}

theorem pure (b : β) : Steady (Pure.pure b : Faulty σ β) where
  extends_log _ s := List.prefix_refl s.results
  same _ _ _ := rfl
  shows _ _ _ hlow hhigh _ := absurd hhigh (Nat.not_lt.2 hlow)

theorem read (f : σ → β) : Steady (Faulty.read f) where
  extends_log _ s := List.prefix_refl s.results
  same _ _ _ := rfl
  shows _ _ _ hlow hhigh _ := absurd hhigh (Nat.not_lt.2 hlow)

theorem modify (f : σ → σ) : Steady (Faulty.modify f) where
  extends_log _ s := List.prefix_refl s.results
  same _ _ _ := rfl
  shows _ _ _ hlow hhigh _ := absurd hhigh (Nat.not_lt.2 hlow)

theorem attempt (accepts : σ → Bool) (effect : σ → σ) : Steady (Faulty.attempt accepts effect) where
  extends_log _ s := List.prefix_append s.results _
  same fails s h := by
    have hlength : s.results.length < (Faulty.attempt accepts effect never s).2.results.length := by
      unfold Faulty.attempt
      simp
    unfold Faulty.attempt
    rw [h s.results.length (Nat.le_refl _) hlength]
    rfl
  shows fails s i hlow hhigh hfails := by
    have hi : i = s.results.length := by
      unfold Faulty.attempt at hhigh
      simp only [List.length_append, List.length_singleton] at hhigh
      omega
    subst hi
    refine ⟨false, ?_, rfl⟩
    unfold Faulty.attempt
    rw [List.drop_left, hfails, List.mem_singleton]
    simp

theorem bind {f : Faulty σ β} {g : β → Faulty σ γ} (hf : Steady f) (hg : ∀ b, Steady (g b)) :
    Steady (f >>= g) where
  extends_log fails s :=
    (hf.extends_log fails s).trans ((hg (f fails s).1).extends_log fails (f fails s).2)
  same fails s h := by
    have hlog := ((hg (f never s).1).extends_log never (f never s).2).length_le
    have hfirst : f fails s = f never s :=
      hf.same fails s fun i hlow hhigh => h i hlow (Nat.lt_of_lt_of_le hhigh hlog)
    rw [bind_apply, bind_apply, hfirst]
    refine (hg _).same fails _ fun i hlow hhigh => h i ?_ hhigh
    exact Nat.le_trans (hf.extends_log never s).length_le hlow
  shows fails s i hlow hhigh hfails := by
    rw [bind_apply]
    have hlog := (hg (f fails s).1).extends_log fails (f fails s).2
    by_cases hfirst : ∃ j, s.results.length ≤ j ∧ j < (f never s).2.results.length ∧ fails j = true
    · -- the first program fails, and the second leaves the log of it
      rcases hfirst with ⟨j, hj, hj', hfailsj⟩
      rcases hf.shows fails s j hj hj' hfailsj with ⟨r, hr, hfalse⟩
      exact ⟨r, (hlog.drop s.results.length).subset hr, hfalse⟩
    · -- the first program is as without failures
      have hnone : ∀ j, s.results.length ≤ j → j < (f never s).2.results.length →
          fails j = false :=
        fun j hj hj' => Bool.eq_false_iff.2 fun hfailsj => hfirst ⟨j, hj, hj', hfailsj⟩
      have hsame : f fails s = f never s := hf.same fails s hnone
      have hi : (f never s).2.results.length ≤ i := by
        by_contra hlt
        exact hfirst ⟨i, hlow, Nat.not_le.1 hlt, hfails⟩
      rw [hsame]
      rcases (hg (f never s).1).shows fails (f never s).2 i hi hhigh hfails with ⟨r, hr, hfalse⟩
      refine ⟨r, ?_, hfalse⟩
      have hdrop := List.drop_drop (i := (f never s).2.results.length - s.results.length)
        (j := s.results.length) (l := (g (f never s).1 fails (f never s).2).2.results)
      have hle := (hf.extends_log never s).length_le
      rw [Nat.add_sub_cancel' hle] at hdrop
      rw [← hdrop] at hr
      exact List.mem_of_mem_drop hr

theorem ite {c : Prop} [Decidable c] {f g : Faulty σ β} (hf : Steady f) (hg : Steady g) :
    Steady (if c then f else g) := by
  split_ifs
  · exact hf
  · exact hg

/-- The rule for a loop. -/
theorem forEach {α : Type} {f : α → Faulty σ Unit} (hf : ∀ a, Steady (f a)) (l : List α) :
    Steady (Faulty.forEach l f) := by
  induction l with
  | nil => exact Steady.pure ()
  | cons a l ih => exact (hf a).bind fun _ => ih

/-- All attempts succeed iff all would without failures from outside, and none of those fails. -/
theorem all_true_iff {f : Faulty σ β} (hf : Steady f) (fails : ℕ → Bool) (s : σ) :
    (∀ r ∈ (f fails ⟨s, []⟩).2.results, r = true) ↔
      (∀ r ∈ (f.run s).2.results, r = true) ∧
        ∀ i < (f.run s).2.results.length, fails i = false := by
  constructor
  · intro hall
    have hnone : ∀ i < (f.run s).2.results.length, fails i = false := by
      intro i hi
      refine Bool.eq_false_iff.2 fun hfails => ?_
      rcases hf.shows fails ⟨s, []⟩ i (Nat.zero_le i) hi hfails with ⟨r, hr, hfalse⟩
      rw [hall r (List.mem_of_mem_drop hr)] at hfalse
      cases hfalse
    refine ⟨?_, hnone⟩
    have hsame := hf.same fails ⟨s, []⟩ fun i _ hi => hnone i hi
    unfold Faulty.run
    rw [← hsame]
    exact hall
  · rintro ⟨hall, hnone⟩
    rw [hf.same fails ⟨s, []⟩ fun i _ hi => hnone i hi]
    exact hall

end Steady

end Lib
