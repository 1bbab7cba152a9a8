import DeviceClient.Lib.Run
import Mathlib.Data.Fintype.Basic

/-!
# Waking up a worker

A worker looks at its sources of work one after the other and waits when it has found all of
them idle; a call makes one of them pending and broadcasts then. Between what the worker has
looked at and the wait a broadcast reaches nobody.

* `View.Lost`: the worker waits beside a pending source and nobody will wake it.
* `View.Heard`: what a broadcast has to find, so that none is lost.
* `View.Inv`: a source that the worker has found idle is pending only while there is a
  broadcast to come, or another source will keep the worker from waiting.
-/

namespace Lib

namespace WakeUp

variable {κ ι : Type*}

/-- A worker and the calls, with the sources `ι` of work and the threads `κ` of the calls. -/
structure View (κ ι : Type*) where
  pending : ι → Bool
  /-- The worker has found the source idle since it was last awake. -/
  idle : ι → Bool
  blocked : Bool
  /-- The call of the thread has its broadcast before it. -/
  toCome : κ → Bool

namespace View

/-- The worker waits, and will wait for longer than it should. -/
def Lost (v : View κ ι) : Prop :=
  v.blocked = true ∧ (∀ t, v.toCome t = false) ∧ ∃ i, v.pending i = true

/-- A source that the worker has not looked at keeps it from waiting. -/
def Detained (v : View κ ι) : Prop :=
  ∃ i, v.pending i = true ∧ v.idle i = false

/-- The broadcast of `t` reaches the worker, or need not: what the worker has found idle still
is, or another broadcast follows, or the worker will not wait. -/
def Heard (v : View κ ι) (t : κ) : Prop :=
  v.blocked = true ∨ (∀ i, v.idle i = true → v.pending i = false) ∨
    (∃ u, u ≠ t ∧ v.toCome u = true) ∨ v.Detained

instance [Fintype κ] [Fintype ι] (v : View κ ι) : Decidable v.Lost :=
  inferInstanceAs (Decidable (_ ∧ _ ∧ _))

instance [Fintype κ] [DecidableEq κ] [Fintype ι] (v : View κ ι) (t : κ) :
    Decidable (v.Heard t) :=
  inferInstanceAs (Decidable (_ ∨ _ ∨ _ ∨ ∃ _, _))

structure Inv (v : View κ ι) : Prop where
  blocked : v.blocked = true → ∀ i, v.idle i = true
  heard : ∀ i, v.idle i = true → v.pending i = true →
    (∃ t, v.toCome t = true) ∨ v.Detained

variable {v w : View κ ι}

theorem Inv.not_lost (h : Inv v) : ¬ v.Lost := by
  rintro ⟨hblocked, htoCome, i, hpending⟩
  have hidle := h.blocked hblocked
  rcases h.heard i (hidle i) hpending with ⟨t, ht⟩ | ⟨j, -, hj⟩
  · exact Bool.false_ne_true ((htoCome t).symm.trans ht)
  · exact Bool.false_ne_true (hj.symm.trans (hidle j))

/-! ## The steps -/

/-- The worker is awake and has looked at nothing. -/
theorem inv_of_awake (hblocked : w.blocked = false) (hidle : ∀ i, w.idle i = false) :
    Inv w where
  blocked h := absurd (hblocked.symm.trans h) Bool.false_ne_true
  heard i h := absurd ((hidle i).symm.trans h) Bool.false_ne_true

/-- A step of a call that has its broadcast still before it. -/
theorem Inv.of_toCome (h : Inv v) (hblocked : w.blocked = v.blocked)
    (hidle : w.idle = v.idle) {t : κ} (ht : w.toCome t = true) : Inv w where
  blocked hw := by
    rw [hblocked] at hw
    rw [hidle]
    exact h.blocked hw
  heard _ _ _ := Or.inl ⟨t, ht⟩

/-- A step that leaves the sources as they are and takes no broadcast back. -/
theorem Inv.mono (h : Inv v) (hblocked : w.blocked = v.blocked) (hidle : w.idle = v.idle)
    (hpending : w.pending = v.pending)
    (htoCome : ∀ t, v.toCome t = true → w.toCome t = true) : Inv w where
  blocked hw := by
    rw [hblocked] at hw
    rw [hidle]
    exact h.blocked hw
  heard i hi hp := by
    rw [hidle] at hi
    rw [hpending] at hp
    rcases h.heard i hi hp with ⟨t, ht⟩ | ⟨j, hjp, hji⟩
    · exact Or.inl ⟨t, htoCome t ht⟩
    · exact Or.inr ⟨j, by rw [hpending]; exact hjp, by rw [hidle]; exact hji⟩

/-- The worker finds a source idle, or goes on to its wait. -/
theorem Inv.look (h : Inv v) (hpending : w.pending = v.pending)
    (htoCome : w.toCome = v.toCome)
    (hnew : ∀ i, w.idle i = true → v.idle i = true ∨ v.pending i = false)
    (hblocked : w.blocked = true → ∀ i, w.idle i = true) : Inv w where
  blocked := hblocked
  heard i hi hp := by
    rw [hpending] at hp
    have hold : v.idle i = true := by
      rcases hnew i hi with hold | hclear
      · exact hold
      · exact absurd (hclear.symm.trans hp) Bool.false_ne_true
    rcases h.heard i hold hp with ⟨t, ht⟩ | ⟨j, hjp, hji⟩
    · exact Or.inl ⟨t, by rw [htoCome]; exact ht⟩
    · refine Or.inr ⟨j, by rw [hpending]; exact hjp, Bool.eq_false_iff.2 fun hw => ?_⟩
      rcases hnew j hw with hold | hclear
      · exact Bool.false_ne_true (hji.symm.trans hold)
      · exact Bool.false_ne_true (hclear.symm.trans hjp)

/-- A broadcast that is heard, while the worker does not wait. -/
theorem inv_of_heard {t : κ} (hheard : v.Heard t)
    (hawake : v.blocked = false) (hblocked : w.blocked = false) (hidle : w.idle = v.idle)
    (hpending : w.pending = v.pending) (htoCome : ∀ u, u ≠ t → w.toCome u = v.toCome u) :
    Inv w where
  blocked hw := absurd (hblocked.symm.trans hw) Bool.false_ne_true
  heard i hi hp := by
    rw [hidle] at hi
    rw [hpending] at hp
    rcases hheard with hb | hclear | ⟨u, hu, hto⟩ | ⟨j, hjp, hji⟩
    · exact absurd (hawake.symm.trans hb) Bool.false_ne_true
    · exact absurd ((hclear i hi).symm.trans hp) Bool.false_ne_true
    · exact Or.inl ⟨u, by rw [htoCome u hu]; exact hto⟩
    · exact Or.inr ⟨j, by rw [hpending]; exact hjp, by rw [hidle]; exact hji⟩

end View

end WakeUp

end Lib
