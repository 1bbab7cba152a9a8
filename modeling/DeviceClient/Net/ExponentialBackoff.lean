import DeviceClient.Lib.Run
import DeviceClient.Net.HttpResponse
import Mathlib.Algebra.Order.Ring.Int

/-!
# The exponential backoff

`CExponentialBackoff` answers an error of the server or of time with a random time whose
bound doubles with every failure, up to a maximum. The bound is a product of doubles that
is turned into an `int`. What C++ leaves undefined is `none`.

* `productToInt`, `rngGet`: the arithmetic.
* `count_next`: the counter is the number of failures since the last success.
* `bounded_iff`: when one answer is within its bound.
* `along_bounded_iff`: the same of every run.
-/

namespace DeviceClient

/-- `CExponentialBackoff`. -/
structure ExponentialBackoff where
  nSuccessTime : ℤ
  nFailureRetryTime : ℤ
  nMaxRetryTime : ℤ
  nRetryCount : ℕ
deriving DecidableEq, Repr

def MAX_BACKOFF_RETRY_TIMEOUT : ℤ := 300

namespace ExponentialBackoff

/-! ## Arithmetic -/

/-- The number is one of an `int`. -/
def FitsInt (n : ℤ) : Prop := -2 ^ 31 ≤ n ∧ n < 2 ^ 31

instance (n : ℤ) : Decidable (FitsInt n) := inferInstanceAs (Decidable (_ ∧ _))

/-- `(int)(m_nFailureRetryTime * pow(2, m_nRetryCount))`. The product of doubles is exact as
far as it can fit; from 1024 on the power is infinite, and zero times it is no number. -/
def productToInt (nFailureRetryTime : ℤ) (nRetryCount : ℕ) : Option ℤ :=
  if nFailureRetryTime = 0 then if nRetryCount < 1024 then some 0 else none
  else if FitsInt (nFailureRetryTime * 2 ^ nRetryCount) then
    some (nFailureRetryTime * 2 ^ nRetryCount)
  else none

/-- `CRNG::Get` without a least number, of what `rand` returns. -/
def rngGet (rand : ℕ) (nMax : ℤ) : Option ℤ :=
  if FitsInt (nMax + 1) ∧ nMax + 1 ≠ 0 then some ((rand : ℤ).tmod (nMax + 1)) else none

/-! ## The object -/

/-- The constructor. -/
def new (nSuccessTime nFailureTime nMaxRetryTime : ℤ) : ExponentialBackoff :=
  ⟨nSuccessTime, nFailureTime, nMaxRetryTime, 0⟩

/-- `CalculateBackOffRetryTime`. -/
def calculateBackOffRetryTime (rand : ℕ) (b : ExponentialBackoff) :
    Option (ℤ × ExponentialBackoff) :=
  (productToInt b.nFailureRetryTime b.nRetryCount).bind fun nNextRetryTime =>
    if FitsInt (b.nRetryCount + 1) then
      (rngGet rand (if b.nMaxRetryTime < nNextRetryTime then b.nMaxRetryTime
        else nNextRetryTime)).map fun nNextRetryTime =>
          (nNextRetryTime, { b with nRetryCount := b.nRetryCount + 1 })
    else none

/-- The errors that the backoff counts. -/
def Counts (eErrorCode : HttpErrorCode) : Prop :=
  eErrorCode = .eERR_SERVER ∨ eErrorCode = .eERR_TIMEOUT

instance (eErrorCode : HttpErrorCode) : Decidable (Counts eErrorCode) :=
  inferInstanceAs (Decidable (_ ∨ _))

/-- `GetNextRetryTime`. -/
def getNextRetryTime (eErrorCode : HttpErrorCode) (rand : ℕ) (b : ExponentialBackoff) :
    Option (ℤ × ExponentialBackoff) :=
  if eErrorCode = .eERR_OK then some (b.nSuccessTime, { b with nRetryCount := 0 })
  else if Counts eErrorCode then b.calculateBackOffRetryTime rand
  -- no failure of the server
  else some (b.nFailureRetryTime, b)

/-! ## Runs -/

inductive Call
  | getNextRetryTime (eErrorCode : HttpErrorCode) (rand : ℕ)
  | resetCounter
  | setSuccessTime (nSuccessTime : ℤ)
  | setFailureTime (nFailureTime : ℤ)
  | setMaxRetryTime (nMaxRetryTime : ℤ)

/-- The object, and how many failures in a row there have been. -/
structure History where
  backoff : ExponentialBackoff
  failures : ℕ
deriving DecidableEq

def next (h : History) : Call → Option History
  | .getNextRetryTime eErrorCode rand =>
    (h.backoff.getNextRetryTime eErrorCode rand).map fun r =>
      { backoff := r.2
        failures := if eErrorCode = .eERR_OK then 0
          else if Counts eErrorCode then h.failures + 1 else h.failures }
  | .resetCounter => some ⟨{ h.backoff with nRetryCount := 0 }, 0⟩
  | .setSuccessTime nSuccessTime =>
    some { h with backoff := { h.backoff with nSuccessTime := nSuccessTime } }
  | .setFailureTime nFailureTime =>
    some { h with backoff := { h.backoff with nFailureRetryTime := nFailureTime } }
  | .setMaxRetryTime nMaxRetryTime =>
    some { h with backoff := { h.backoff with nMaxRetryTime := nMaxRetryTime } }

/-- The bound behind the failures so far. -/
def bound (h : History) : ℤ :=
  min (h.backoff.nFailureRetryTime * 2 ^ h.failures) h.backoff.nMaxRetryTime

/-- The time for a failure that counts lies between zero and the bound, which it can reach. -/
def Bounded (h : History) : Call → Prop
  | .getNextRetryTime eErrorCode rand => Counts eErrorCode →
    ∃ nNextRetryTime b, h.backoff.getNextRetryTime eErrorCode rand = some (nNextRetryTime, b) ∧
      0 ≤ nNextRetryTime ∧ nNextRetryTime ≤ bound h ∧ (rand = bound h → nNextRetryTime = bound h)
  | _ => True

/-- At a failure that counts, neither time is negative, the product fits in an `int`, and the
bound is below the greatest one. A time of zero is doubled less than 1024 times. -/
def Fits (h : History) : Call → Prop
  | .getNextRetryTime eErrorCode _ => Counts eErrorCode →
    0 ≤ h.backoff.nFailureRetryTime ∧ 0 ≤ h.backoff.nMaxRetryTime ∧
      h.backoff.nFailureRetryTime * 2 ^ h.failures < 2 ^ 31 ∧ bound h < 2 ^ 31 - 1 ∧
      (h.backoff.nFailureRetryTime = 0 → h.failures < 1024)
  | _ => True

/-- The counter is the number of failures. -/
def Counted (h : History) : Prop := h.backoff.nRetryCount = h.failures

/-! ## One answer -/

theorem productToInt_eq_some_iff {nFailureRetryTime : ℤ} {nRetryCount : ℕ} {n : ℤ} :
    productToInt nFailureRetryTime nRetryCount = some n ↔
      n = nFailureRetryTime * 2 ^ nRetryCount ∧ FitsInt n ∧
        (nFailureRetryTime = 0 → nRetryCount < 1024) := by
  unfold productToInt
  by_cases hzero : nFailureRetryTime = 0
  · rw [if_pos hzero, hzero, Int.zero_mul]
    by_cases hfew : nRetryCount < 1024
    · rw [if_pos hfew, Option.some.injEq]
      refine ⟨?_, fun h => h.1.symm⟩
      rintro rfl
      exact ⟨rfl, by decide, fun _ => hfew⟩
    · rw [if_neg hfew]
      exact iff_of_false (by simp) fun h => hfew (h.2.2 rfl)
  · rw [if_neg hzero]
    by_cases hfits : FitsInt (nFailureRetryTime * 2 ^ nRetryCount)
    · rw [if_pos hfits, Option.some.injEq]
      refine ⟨?_, fun h => h.1.symm⟩
      rintro rfl
      exact ⟨rfl, hfits, fun h => absurd h hzero⟩
    · rw [if_neg hfits]
      refine iff_of_false (by simp) ?_
      rintro ⟨rfl, hfits', -⟩
      exact hfits hfits'

theorem rngGet_eq_some_iff {rand : ℕ} {nMax n : ℤ} :
    rngGet rand nMax = some n ↔
      n = (rand : ℤ).tmod (nMax + 1) ∧ FitsInt (nMax + 1) ∧ nMax + 1 ≠ 0 := by
  unfold rngGet
  by_cases hfits : FitsInt (nMax + 1) ∧ nMax + 1 ≠ 0
  · rw [if_pos hfits, Option.some.injEq]
    exact ⟨fun h => ⟨h.symm, hfits⟩, fun h => h.1.symm⟩
  · rw [if_neg hfits]
    exact iff_of_false (by simp) fun h => hfits h.2

/-- The time behind `k` failures is a remainder by the bound. -/
theorem calculateBackOffRetryTime_eq_some_iff {h : History} (hcount : Counted h) {rand : ℕ}
    {nNextRetryTime : ℤ} :
    (∃ b, h.backoff.calculateBackOffRetryTime rand = some (nNextRetryTime, b)) ↔
      FitsInt (h.backoff.nFailureRetryTime * 2 ^ h.failures) ∧
        (h.backoff.nFailureRetryTime = 0 → h.failures < 1024) ∧ FitsInt (h.failures + 1) ∧
        FitsInt (bound h + 1) ∧ bound h + 1 ≠ 0 ∧
        nNextRetryTime = (rand : ℤ).tmod (bound h + 1) := by
  have hmin : ∀ n : ℤ, n = h.backoff.nFailureRetryTime * 2 ^ h.failures →
      (if h.backoff.nMaxRetryTime < n then h.backoff.nMaxRetryTime else n) = bound h := by
    intro n hn
    unfold bound
    rw [hn, min_def]
    split_ifs <;> omega
  unfold Counted at hcount
  unfold calculateBackOffRetryTime
  constructor
  · rintro ⟨b, heq⟩
    obtain ⟨n, hproduct, heq⟩ := Option.bind_eq_some_iff.1 heq
    obtain ⟨hn, hfits, hzero⟩ := productToInt_eq_some_iff.1 hproduct
    rw [hcount] at hn hzero heq
    split at heq
    · next hnext =>
      obtain ⟨t, hrng, ht⟩ := Option.map_eq_some_iff.1 heq
      rw [hmin n hn] at hrng
      obtain ⟨htime, hrange, hpos⟩ := rngGet_eq_some_iff.1 hrng
      cases ht
      exact ⟨hn ▸ hfits, hzero, hnext, hrange, hpos, htime⟩
    · cases heq
  · rintro ⟨hfits, hzero, hnext, hrange, hpos, htime⟩
    have hproduct : productToInt h.backoff.nFailureRetryTime h.backoff.nRetryCount =
        some (h.backoff.nFailureRetryTime * 2 ^ h.failures) := by
      rw [hcount]
      exact productToInt_eq_some_iff.2 ⟨rfl, hfits, hzero⟩
    have hrng : rngGet rand (bound h) = some nNextRetryTime :=
      rngGet_eq_some_iff.2 ⟨htime, hrange, hpos⟩
    rw [hproduct, Option.bind_some, hcount, if_pos hnext, hmin _ rfl, hrng]
    exact ⟨_, rfl⟩

/-- A time that is doubled within the range of an `int` is not doubled often. -/
theorem failures_lt {nFailureRetryTime : ℤ} {k : ℕ} (hfail : 0 ≤ nFailureRetryTime)
    (hproduct : nFailureRetryTime * 2 ^ k < 2 ^ 31) (hzero : nFailureRetryTime = 0 → k < 1024) :
    k < 1024 := by
  rcases hfail.eq_or_lt with heq | hpos
  · exact hzero heq.symm
  · by_contra hmany
    have hpow : (2 : ℤ) ^ 31 ≤ 2 ^ k := pow_le_pow_right₀ (by decide) (by omega)
    have hle : (2 : ℤ) ^ k ≤ nFailureRetryTime * 2 ^ k :=
      le_mul_of_one_le_left (pow_pos (by decide) _).le (by omega)
    omega

/-- At a failure that counts the time is within the bound iff the arithmetic fits. -/
theorem bounded_iff {h : History} (hcount : Counted h) (call : Call) :
    Bounded h call ↔ Fits h call := by
  cases call with
  | getNextRetryTime eErrorCode rand =>
    refine forall_congr' fun hcounts => ?_
    have hne : eErrorCode ≠ .eERR_OK := by
      rintro rfl
      exact absurd hcounts (by decide)
    have hcalculate : h.backoff.getNextRetryTime eErrorCode rand =
        h.backoff.calculateBackOffRetryTime rand := by
      unfold getNextRetryTime
      rw [if_neg hne, if_pos hcounts]
    have hpow : (0 : ℤ) < 2 ^ h.failures := pow_pos (by decide) _
    have hbound : bound h = min (h.backoff.nFailureRetryTime * 2 ^ h.failures)
      h.backoff.nMaxRetryTime := rfl
    rw [hcalculate]
    constructor
    · rintro ⟨nNextRetryTime, b, heq, hlow, hhigh, -⟩
      obtain ⟨hfits, hzero, -, hrange, -, -⟩ :=
        (calculateBackOffRetryTime_eq_some_iff hcount).1 ⟨b, heq⟩
      have hproduct : 0 ≤ h.backoff.nFailureRetryTime * 2 ^ h.failures := by omega
      refine ⟨?_, by omega, hfits.2, ?_, hzero⟩
      · exact nonneg_of_mul_nonneg_left hproduct hpow
      · have hlt := hrange.2
        omega
    · rintro ⟨hfail, hmax, hproduct, hlt, hzero⟩
      have hfew := failures_lt hfail hproduct hzero
      have hnonneg : 0 ≤ h.backoff.nFailureRetryTime * 2 ^ h.failures :=
        mul_nonneg hfail hpow.le
      obtain ⟨b, heq⟩ := (@calculateBackOffRetryTime_eq_some_iff h hcount rand
        ((rand : ℤ).tmod (bound h + 1))).2
          ⟨⟨by omega, hproduct⟩, hzero, ⟨by omega, by omega⟩, ⟨by omega, by omega⟩, by omega, rfl⟩
      have hlow : 0 ≤ (rand : ℤ).tmod (bound h + 1) := Int.tmod_nonneg _ (Int.natCast_nonneg rand)
      have hhigh : (rand : ℤ).tmod (bound h + 1) < bound h + 1 := Int.tmod_lt_of_pos _ (by omega)
      refine ⟨_, b, heq, hlow, by omega, fun hrand => ?_⟩
      rw [hrand]
      exact Int.tmod_eq_of_lt (by omega) (by omega)
  | _ => exact Iff.rfl

/-! ## Every run -/

/-- The counter and the failures in a row go on together. -/
theorem counted_next {h h' : History} {call : Call} (hcount : Counted h)
    (hnext : next h call = some h') : Counted h' := by
  cases call with
  | getNextRetryTime eErrorCode rand =>
    obtain ⟨⟨t, b⟩, heq, rfl⟩ := Option.map_eq_some_iff.1 hnext
    unfold getNextRetryTime at heq
    unfold Counted
    dsimp only
    by_cases hok : eErrorCode = .eERR_OK
    · rw [if_pos hok] at heq ⊢
      cases heq
      rfl
    · rw [if_neg hok] at heq ⊢
      by_cases hcounts : Counts eErrorCode
      · rw [if_pos hcounts] at heq ⊢
        unfold calculateBackOffRetryTime at heq
        obtain ⟨n, -, heq⟩ := Option.bind_eq_some_iff.1 heq
        split at heq
        · obtain ⟨t', -, heq⟩ := Option.map_eq_some_iff.1 heq
          cases heq
          exact congrArg (· + 1) hcount
        · cases heq
      · rw [if_neg hcounts] at heq ⊢
        cases heq
        exact hcount
  | resetCounter =>
    cases hnext
    rfl
  | setSuccessTime _ | setFailureTime _ | setMaxRetryTime _ =>
    cases hnext
    exact hcount

/-- In a run every time for a failure that counts is within its bound iff the arithmetic fits
at every such failure. -/
theorem along_bounded_iff (nSuccessTime nFailureTime nMaxRetryTime : ℤ) (calls : List Call) :
    Lib.Along next Bounded ⟨new nSuccessTime nFailureTime nMaxRetryTime, 0⟩ calls ↔
      Lib.Along next Fits ⟨new nSuccessTime nFailureTime nMaxRetryTime, 0⟩ calls :=
  ⟨Lib.Along.imp_inv (fun _ _ _ hcount _ hnext => counted_next hcount hnext)
      (fun _ call hcount => (bounded_iff hcount call).1) rfl,
    Lib.Along.imp_inv (fun _ _ _ hcount _ hnext => counted_next hcount hnext)
      (fun _ call hcount => (bounded_iff hcount call).2) rfl⟩

/-- With the times of the MQTT client, the product does not fit behind thirty failures. -/
theorem not_bounded_outage :
    ∃ h, Lib.exec next ⟨new 0 2 MAX_BACKOFF_RETRY_TIMEOUT, 0⟩
        (List.replicate 30 (.getNextRetryTime .eERR_SERVER 7)) = some h ∧
      h.failures = 30 ∧ ¬ Bounded h (.getNextRetryTime .eERR_SERVER 7) := by
  refine ⟨⟨⟨0, 2, MAX_BACKOFF_RETRY_TIMEOUT, 30⟩, 30⟩, by decide +kernel, rfl, ?_⟩
  intro hbounded
  obtain ⟨nNextRetryTime, b, heq, -⟩ := hbounded (Or.inl rfl)
  have hnone : getNextRetryTime .eERR_SERVER 7 ⟨0, 2, MAX_BACKOFF_RETRY_TIMEOUT, 30⟩ = none := by
    decide +kernel
  exact absurd (hnone.symm.trans heq) (by simp)

end ExponentialBackoff

end DeviceClient
