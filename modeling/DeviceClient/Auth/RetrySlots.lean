import DeviceClient.Auth.ActivationBackoff
import Mathlib.Algebra.Order.Ring.Int

/-!
# The slots of the retry times

The states of `CActivationBackoff` that draw their retry times: each failure takes the next
slot, and the limits of the slots add up in an `int`.

* `slotsKept_iff`: how many failures the slots are right for.
-/

namespace DeviceClient

namespace BackOffStates

open Lib

/-- The object behind a number of failures, of what `rand` returns for each of them. -/
def afterFailures (b : BackOffStates) (rand : ℕ → ℤ) : ℕ → BackOffStates
  | 0 => b
  | n + 1 => (afterFailures b rand n).activationFailed (rand n)

/-- `rand` returns a number from 0 to `RAND_MAX`. -/
def IsRand (rand : ℕ → ℤ) : Prop := ∀ n, 0 ≤ rand n ∧ rand n < 2 ^ 31

theorem isRand_const {draw : ℤ} (hlow : 0 ≤ draw) (hhigh : draw < 2 ^ 31) :
    IsRand fun _ => draw := fun _ => ⟨hlow, hhigh⟩

/-- The slot of a failure follows that of the one before, the retry time lies in it, and
the retry times go up from the start of the state. -/
structure SlotKept (b b' : BackOffStates) : Prop where
  follows : b'.nRetrySlotMin = b.nRetrySlotMax
  drawn : b'.llStartTime + b'.nRetrySlotMin ≤ b'.llNextTime ∧
    (b'.llNextTime : ℤ) ≤ b'.llStartTime + b'.nRetrySlotMax
  ordered : b.llNextTime ≤ b'.llNextTime
  notBefore : b'.llStartTime ≤ b'.llNextTime

/-- Every result on the way through a failure is one of its type, and the range that is
drawn from is not empty. -/
structure NoOverflow (rand : ℤ) (b : BackOffStates) : Prop where
  attempts : b.nAttempts + 1 < 2 ^ 31
  slotMax : b.nRetrySlotMax + b.lnFreq < 2 ^ 31
  range : 0 < b.lnFreq + 1 ∧ b.lnFreq + 1 < 2 ^ 31
  time : b.llStartTime + (b.nRetrySlotMax + rand % (b.lnFreq + 1)) < 2 ^ 64

/-- The first failures of a state, whatever is drawn. -/
def SlotsKept (b : BackOffStates) (n : ℕ) : Prop :=
  ∀ rand, IsRand rand → ∀ m < n,
    NoOverflow (rand m) (b.afterFailures rand m) ∧
      SlotKept (b.afterFailures rand m) (b.afterFailures rand (m + 1))

/-- The last slot ends in an `int`, and at a time of the clock. -/
def SlotsFit (cfg : BackoffConfig) (eState : BackoffState) (ullNow n : ℕ) : Prop :=
  n = 0 ∨ (n < 2 ^ 31 ∧ eState.slotStart + n * eState.freq cfg < 2 ^ 31 ∧
    eState.freq cfg + 1 < 2 ^ 31 ∧
    ullNow + (eState.slotStart + n * eState.freq cfg) < 2 ^ 64)

/-! ## One failure -/

/-- A number is drawn from its range. -/
theorem rngGet_eq {rand nMin lnFreq : ℤ} (hrand : 0 ≤ rand) (hmin : 0 ≤ nMin)
    (hfreq : 0 ≤ lnFreq) (hrange : lnFreq + 1 < 2 ^ 31) (hmax : nMin + lnFreq < 2 ^ 31) :
    rngGet rand nMin (nMin + lnFreq) = nMin + rand % (lnFreq + 1) := by
  have hwidth : toInt32 (nMin + lnFreq - nMin) = lnFreq := by
    rw [add_sub_cancel_left]
    exact toInt32_of_fits (by omega) (by omega)
  have hrangeInt : toInt32 (lnFreq + 1) = lnFreq + 1 := toInt32_of_fits (by omega) hrange
  have hbelow : rand % (lnFreq + 1) < lnFreq + 1 := Int.emod_lt_of_pos rand (by omega)
  have hnonneg : 0 ≤ rand % (lnFreq + 1) := Int.emod_nonneg rand (by omega)
  unfold rngGet
  rw [hwidth, hrangeInt, Int.tmod_eq_emod_of_nonneg hrand]
  exact toInt32_of_fits (by omega) (by omega)

/-- A failure without overflow. -/
theorem activationFailed_eq {b : BackOffStates} {rand : ℤ}
    (hrandom : b.eCurrBackoffState.fixed = false) (hattempts : 0 ≤ b.nAttempts)
    (hmax : 0 ≤ b.nRetrySlotMax) (hfreq : 0 ≤ b.lnFreq) (hrand : 0 ≤ rand)
    (h : NoOverflow rand b) :
    b.activationFailed rand = { b with
      nAttempts := b.nAttempts + 1
      nRetrySlotMin := b.nRetrySlotMax
      nRetrySlotMax := b.nRetrySlotMax + b.lnFreq
      llNextTime :=
        (b.llStartTime + (b.nRetrySlotMax + rand % (b.lnFreq + 1))).toNat } := by
  have hnonneg : 0 ≤ rand % (b.lnFreq + 1) := Int.emod_nonneg rand (by omega)
  have htime := h.time
  have hslot := h.slotMax
  have hcount := h.attempts
  unfold activationFailed getNextRetryTime
  dsimp only
  rw [hrandom, if_neg Bool.false_ne_true, toInt32_of_fits (by omega) hcount,
    toInt32_of_fits (by omega) hslot, rngGet_eq hrand hmax hfreq h.range.2 hslot,
    Int.emod_eq_of_lt (by omega) htime]

/-! ## Failures in a row -/

/-- The object behind `n` failures, none of which has overflown. -/
structure Exact (cfg : BackoffConfig) (eState : BackoffState) (ullNow n : ℕ)
    (b : BackOffStates) : Prop where
  state : b.eCurrBackoffState = eState
  freq : b.lnFreq = eState.freq cfg
  start : b.llStartTime = ullNow
  attempts : b.nAttempts = n
  slotMax : b.nRetrySlotMax = eState.slotStart + n * eState.freq cfg
  next : ullNow ≤ b.llNextTime ∧ (b.llNextTime : ℤ) ≤ ullNow + b.nRetrySlotMax

theorem slotStart_nonneg (eState : BackoffState) : 0 ≤ eState.slotStart := by
  cases eState <;> decide

theorem exact_new (cfg : BackoffConfig) (eState : BackoffState) (ullNow : ℕ) :
    Exact cfg eState ullNow 0 (.new cfg eState ullNow) := by
  refine ⟨rfl, rfl, rfl, rfl, ?_, le_refl _, ?_⟩
  · show eState.slotStart = eState.slotStart + 0 * eState.freq cfg
    rw [Int.zero_mul, Int.add_zero]
  · exact Int.le_add_of_nonneg_right (slotStart_nonneg eState)

section Failures

variable {cfg : BackoffConfig} {eState : BackoffState} {ullNow n : ℕ} {b : BackOffStates}
  {rand : ℤ} (hrandom : eState.fixed = false) (hfreq : 0 ≤ eState.freq cfg)
include hfreq

theorem Exact.slotMax_nonneg (h : Exact cfg eState ullNow n b) : 0 ≤ b.nRetrySlotMax := by
  have hstart := slotStart_nonneg eState
  have hmul : 0 ≤ (n : ℤ) * eState.freq cfg := Int.mul_nonneg (Int.natCast_nonneg n) hfreq
  rw [h.slotMax]
  omega

/-- A failure within the last slot that fits does not overflow. -/
theorem Exact.noOverflow {m : ℕ} (h : Exact cfg eState ullNow m b) (hm : m < n)
    (hfit : SlotsFit cfg eState ullNow n) : NoOverflow rand b := by
  have hmul : ((m + 1 : ℕ) : ℤ) * eState.freq cfg ≤ n * eState.freq cfg :=
    Int.mul_le_mul_of_nonneg_right (by omega) hfreq
  rw [Int.natCast_succ, Int.add_mul, Int.one_mul] at hmul
  have hstate := h.state
  have hattempts := h.attempts
  have hslot := h.slotMax
  have hstart := h.start
  have hlnFreq := h.freq
  rcases hfit with hzero | ⟨hcount, hmax, hrange, htime⟩
  · omega
  have hbelow : rand % (b.lnFreq + 1) < b.lnFreq + 1 := Int.emod_lt_of_pos rand (by omega)
  exact ⟨by omega, by omega, by omega, by omega⟩

include hrandom

/-- One more failure without overflow: its slot, and what is left behind it. -/
theorem Exact.activationFailed (h : Exact cfg eState ullNow n b) (hrand : 0 ≤ rand)
    (hok : NoOverflow rand b) :
    SlotKept b (b.activationFailed rand) ∧
      Exact cfg eState ullNow (n + 1) (b.activationFailed rand) := by
  have hmax : 0 ≤ b.nRetrySlotMax := h.slotMax_nonneg hfreq
  have hlnFreq : 0 ≤ b.lnFreq := h.freq ▸ hfreq
  have hattempts : 0 ≤ b.nAttempts := h.attempts ▸ Int.natCast_nonneg n
  have hfailed := activationFailed_eq (h.state ▸ hrandom) hattempts hmax hlnFreq hrand hok
  have hbelow : rand % (b.lnFreq + 1) < b.lnFreq + 1 := Int.emod_lt_of_pos rand hok.range.1
  have hnonneg : 0 ≤ rand % (b.lnFreq + 1) := Int.emod_nonneg rand (by omega)
  have hstart := h.start
  have hnext := h.next
  rw [hfailed]
  refine ⟨⟨rfl, ?_, ?_, ?_⟩, h.state, h.freq, h.start, ?_, ?_, ?_⟩
  · dsimp only
    omega
  · dsimp only
    omega
  · dsimp only
    omega
  · show b.nAttempts + 1 = ((n + 1 : ℕ) : ℤ)
    rw [h.attempts, Int.natCast_succ]
  · show b.nRetrySlotMax + b.lnFreq = eState.slotStart + ((n + 1 : ℕ) : ℤ) * eState.freq cfg
    rw [h.slotMax, h.freq, Int.natCast_succ, Int.add_mul, Int.one_mul, Int.add_assoc]
  · dsimp only
    omega

/-- The failures of a state in a row, as far as the slots fit. -/
theorem exact_afterFailures (hfit : SlotsFit cfg eState ullNow n) {draws : ℕ → ℤ}
    (hdraws : IsRand draws) : ∀ m ≤ n,
      Exact cfg eState ullNow m ((BackOffStates.new cfg eState ullNow).afterFailures draws m) := by
  intro m
  induction m with
  | zero => exact fun _ => exact_new cfg eState ullNow
  | succ m ih =>
    intro hm
    have hexact := ih (by omega)
    have hok : NoOverflow (draws m) _ := hexact.noOverflow hfreq (by omega) hfit
    exact (hexact.activationFailed hrandom hfreq (hdraws m).1 hok).2

/-- The failures of a state in a row, as far as none of them overflows. -/
theorem exact_of_slotsKept (hkept : SlotsKept (.new cfg eState ullNow) n) {draws : ℕ → ℤ}
    (hdraws : IsRand draws) : ∀ m ≤ n,
      Exact cfg eState ullNow m ((BackOffStates.new cfg eState ullNow).afterFailures draws m) := by
  intro m
  induction m with
  | zero => exact fun _ => exact_new cfg eState ullNow
  | succ m ih =>
    intro hm
    have hok := (hkept draws hdraws m (by omega)).1
    exact ((ih (by omega)).activationFailed hrandom hfreq (hdraws m).1 hok).2

end Failures

/-- The slots of the first `n` failures are right, whatever is drawn, if and only if the
last of them ends in an `int` and within the clock. -/
theorem slotsKept_iff (cfg : BackoffConfig) (eState : BackoffState) (ullNow n : ℕ)
    (hrandom : eState.fixed = false) (hfreq : 0 ≤ eState.freq cfg) :
    SlotsKept (.new cfg eState ullNow) n ↔ SlotsFit cfg eState ullNow n := by
  constructor
  · intro hkept
    cases n with
    | zero => exact Or.inl rfl
    | succ n =>
      right
      have hzero := isRand_const (le_refl 0) (by decide)
      have hexact := exact_of_slotsKept hrandom hfreq hkept hzero n (by omega)
      have hok := (hkept _ hzero n (by omega)).1
      have hattempts := hok.attempts
      have hslot := hok.slotMax
      have hrange := hok.range.2
      rw [hexact.attempts] at hattempts
      rw [hexact.slotMax, hexact.freq] at hslot
      rw [hexact.freq] at hrange
      -- the end of the last slot can be drawn
      have hall := isRand_const hfreq (by omega)
      have htop := exact_of_slotsKept hrandom hfreq hkept hall n (by omega)
      have htime := (hkept _ hall n (by omega)).1.time
      rw [htop.slotMax, htop.freq, htop.start, Int.emod_eq_of_lt hfreq (by omega)] at htime
      have hsucc : ((n + 1 : ℕ) : ℤ) * eState.freq cfg = n * eState.freq cfg + eState.freq cfg := by
        rw [Int.natCast_succ, Int.add_mul, Int.one_mul]
      rw [hsucc]
      exact ⟨by omega, by omega, hrange, by omega⟩
  · intro hfit draws hdraws m hm
    have hexact := exact_afterFailures hrandom hfreq hfit hdraws m (by omega)
    have hok : NoOverflow (draws m) _ := hexact.noOverflow hfreq hm hfit
    exact ⟨hok, (hexact.activationFailed hrandom hfreq (hdraws m).1 hok).1⟩

/-- The configuration without values. -/
def defaultConfig : BackoffConfig := .read (fun _ => none) fun _ => none

/-- The ten failures of the high frequency, by default. -/
theorem slotsKept_highFreq : SlotsKept (.new defaultConfig .eHIGH_FREQ 0) 10 :=
  (slotsKept_iff defaultConfig .eHIGH_FREQ 0 10 rfl (by decide)).2 (Or.inr (by decide))

/-- The low frequency has no limit of attempts: after some 24 days its slots leave the
range of `int`. -/
theorem not_slotsKept_lowFreq : ¬ SlotsKept (.new defaultConfig .eLOW_FREQ 0) 2983 := by
  intro hkept
  have hzero := isRand_const (le_refl 0) (by decide)
  have hexact := exact_of_slotsKept rfl (by decide) hkept hzero 2982 (by omega)
  have hslot := (hkept _ hzero 2982 (by omega)).1.slotMax
  rw [hexact.slotMax, hexact.freq] at hslot
  exact absurd hslot (by decide)

end BackOffStates

end DeviceClient
