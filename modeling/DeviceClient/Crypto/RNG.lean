import DeviceClient.Auth.RetrySlots
import DeviceClient.Net.ExponentialBackoff

/-!
# Random numbers

`CRNG` seeds `rand` with the clock and a key, and takes the remainder by the number of values of
a range. That number is computed in an `int`. What C++ leaves undefined is `none`.

* `seed_eq_seed_iff`: two times with one seed.
* `get_inRange_iff`: the ranges that a number is drawn from.
* `get_eq_rngGet`, `getTo_eq`: the arithmetic of the two backoffs is this one.
-/

namespace DeviceClient

namespace RNG

open ExponentialBackoff (FitsInt productToInt)

def INT_MAX : ℤ := 2 ^ 31 - 1

def RAND_MAX : ℤ := 2 ^ 31 - 1

/-- What `rand` returns first behind an `srand`. -/
structure Rand where
  first : BitVec 32 → ℕ
  le_max : ∀ unSeed, (first unSeed : ℤ) ≤ RAND_MAX

/-! ## The code -/

/-- A byte of the key, which C++ extends by its sign: `unSeed` and `nShift` behind it. -/
def mixByte (s : BitVec 32 × ℕ) (ch : BitVec 8) : BitVec 32 × ℕ :=
  (s.1 ^^^ (ch.signExtend 32 <<< (s.2 * 8)), if 4 ≤ s.2 + 1 then 0 else s.2 + 1)

/-- The seed, of what `time` returns. -/
def seed (strSeedKey : List (BitVec 8)) (time : ℤ) : BitVec 32 :=
  (strSeedKey.foldl mixByte (BitVec.ofInt 32 time, 0)).1

/-- `Get`. -/
def get (rand : Rand) (strSeedKey : List (BitVec 8)) (time nMin nMax : ℤ) : Option ℤ :=
  if FitsInt (nMax - nMin) ∧ FitsInt (nMax - nMin + 1) ∧ nMax - nMin + 1 ≠ 0 then
    let nRandom := nMin + (rand.first (seed strSeedKey time) : ℤ).tmod (nMax - nMin + 1)
    if FitsInt nRandom then some nRandom else none
  else none

/-- `Get` without a least number. -/
def getTo (rand : Rand) (strSeedKey : List (BitVec 8)) (time nMax : ℤ) : Option ℤ :=
  get rand strSeedKey time 0 nMax

/-- `GetString`. -/
def getString (rand : Rand) (strSeedKey : List (BitVec 8)) (time nMin nMax : ℤ) : Option String :=
  (get rand strSeedKey time nMin nMax).map toString

/-- `GetString` without a least number. -/
def getStringTo (rand : Rand) (strSeedKey : List (BitVec 8)) (time nMax : ℤ) : Option String :=
  getString rand strSeedKey time 0 nMax

/-! ## The seed -/

/-- The shift stays within an `unsigned int`. -/
theorem shift_foldl_lt (strSeedKey : List (BitVec 8)) {s : BitVec 32 × ℕ} (hs : s.2 < 4) :
    (strSeedKey.foldl mixByte s).2 < 4 := by
  induction strSeedKey generalizing s with
  | nil => exact hs
  | cons ch strSeedKey ih =>
    refine ih ?_
    unfold mixByte
    dsimp only
    split_ifs <;> omega

/-- What is under the key stays under it. -/
theorem foldl_xor (strSeedKey : List (BitVec 8)) (under unSeed : BitVec 32) (nShift : ℕ) :
    strSeedKey.foldl mixByte (under ^^^ unSeed, nShift) =
      (under ^^^ (strSeedKey.foldl mixByte (unSeed, nShift)).1,
        (strSeedKey.foldl mixByte (unSeed, nShift)).2) := by
  induction strSeedKey generalizing unSeed nShift with
  | nil => rfl
  | cons ch strSeedKey ih =>
    rw [List.foldl_cons, List.foldl_cons, mixByte, BitVec.xor_assoc]
    exact ih _ _

theorem seed_eq_xor (strSeedKey : List (BitVec 8)) (time : ℤ) :
    seed strSeedKey time = BitVec.ofInt 32 time ^^^ seed strSeedKey 0 := by
  have hfold := foldl_xor strSeedKey (BitVec.ofInt 32 time) 0#32 0
  rw [BitVec.xor_zero] at hfold
  exact congrArg Prod.fst hfold

/-- With one key, two times have one seed iff an `unsigned int` cannot tell them apart. -/
theorem seed_eq_seed_iff (strSeedKey : List (BitVec 8)) (time time' : ℤ) :
    seed strSeedKey time = seed strSeedKey time' ↔
      BitVec.ofInt 32 time = BitVec.ofInt 32 time' := by
  rw [seed_eq_xor strSeedKey time, seed_eq_xor strSeedKey time']
  exact BitVec.xor_left_inj _

/-! ## The range -/

variable {rand : Rand} {strSeedKey : List (BitVec 8)} {time nMin nMax nRandom : ℤ}

theorem get_eq_some_iff :
    get rand strSeedKey time nMin nMax = some nRandom ↔
      nRandom = nMin + (rand.first (seed strSeedKey time) : ℤ).tmod (nMax - nMin + 1) ∧
      FitsInt (nMax - nMin) ∧ FitsInt (nMax - nMin + 1) ∧ nMax - nMin + 1 ≠ 0 ∧
      FitsInt nRandom := by
  unfold get
  dsimp only
  split_ifs with hrange hsum
  · constructor
    · rintro ⟨⟩
      exact ⟨rfl, hrange.1, hrange.2.1, hrange.2.2, hsum⟩
    · rintro ⟨rfl, -⟩
      rfl
  · refine iff_of_false (fun h => by cases h) ?_
    rintro ⟨rfl, -, -, -, hfits⟩
    exact hsum hfits
  · refine iff_of_false (fun h => by cases h) ?_
    rintro ⟨-, hwidth, hsize, hne, -⟩
    exact hrange ⟨hwidth, hsize, hne⟩

/-- A remainder by the number of values of a range. -/
theorem remainder_mem (draw : ℕ) (hle : nMin ≤ nMax) :
    0 ≤ (draw : ℤ).tmod (nMax - nMin + 1) ∧
      (draw : ℤ).tmod (nMax - nMin + 1) < nMax - nMin + 1 := by
  rw [Int.tmod_eq_emod_of_nonneg (Int.natCast_nonneg draw)]
  exact ⟨Int.emod_nonneg _ (by omega), Int.emod_lt_of_pos _ (by omega)⟩

theorem get_of_lt (hmin : FitsInt nMin) (hmax : FitsInt nMax) (hle : nMin ≤ nMax)
    (hwidth : nMax - nMin < INT_MAX) :
    get rand strSeedKey time nMin nMax =
        some (nMin + (rand.first (seed strSeedKey time) : ℤ).tmod (nMax - nMin + 1)) ∧
      nMin ≤ nMin + (rand.first (seed strSeedKey time) : ℤ).tmod (nMax - nMin + 1) ∧
      nMin + (rand.first (seed strSeedKey time) : ℤ).tmod (nMax - nMin + 1) ≤ nMax := by
  unfold INT_MAX at hwidth
  obtain ⟨hnonneg, hlt⟩ := remainder_mem (rand.first (seed strSeedKey time)) hle
  have hlow := hmin.1
  have hhigh := hmax.2
  refine ⟨get_eq_some_iff.2 ⟨rfl, ⟨?_, ?_⟩, ⟨?_, ?_⟩, ?_, ?_, ?_⟩, ?_, ?_⟩ <;> omega

theorem lt_of_get (h : get rand strSeedKey time nMin nMax = some nRandom) :
    nMax - nMin < INT_MAX := by
  obtain ⟨-, -, hsize, -⟩ := get_eq_some_iff.1 h
  have hlt := hsize.2
  unfold INT_MAX
  omega

/-- A number is drawn from a range, without overflow and by no zero divisor, iff the ends of the
range are less than `INT_MAX` apart. -/
theorem get_inRange_iff (rand : Rand) (strSeedKey : List (BitVec 8)) (time : ℤ)
    {nMin nMax : ℤ} (hmin : FitsInt nMin) (hmax : FitsInt nMax) (hle : nMin ≤ nMax) :
    (∃ nRandom, get rand strSeedKey time nMin nMax = some nRandom ∧
      nMin ≤ nRandom ∧ nRandom ≤ nMax) ↔ nMax - nMin < INT_MAX := by
  constructor
  · rintro ⟨nRandom, hget, -⟩
    exact lt_of_get hget
  · intro hwidth
    exact ⟨_, get_of_lt hmin hmax hle hwidth⟩

/-- `rand` that always returns zero. -/
def zeroRand : Rand := ⟨fun _ => 0, fun _ => by decide⟩

theorem get_inRange_qualifier :
    ∃ nRandom, get zeroRand [] 0 0 10000 = some nRandom ∧ 0 ≤ nRandom ∧ nRandom ≤ 10000 :=
  (get_inRange_iff zeroRand [] 0 (by decide) (by decide) (by decide)).2 (by decide)

/-- The number of values up to `INT_MAX` is no `int`. -/
theorem not_inRange_encryptionSeed :
    ¬ ∃ nRandom, get zeroRand [] 0 0 INT_MAX = some nRandom ∧
      0 ≤ nRandom ∧ nRandom ≤ INT_MAX := by
  rintro ⟨nRandom, hget, -⟩
  exact absurd (lt_of_get hget) (by decide)

/-! ## The callers -/

/-- The seed of the encryption, for which `CLocalConfig` asks up to `INT_MAX`. -/
theorem getStringTo_intMax (rand : Rand) (strSeedKey : List (BitVec 8)) (time : ℤ) :
    getStringTo rand strSeedKey time INT_MAX = none := by
  unfold getStringTo getString
  cases hget : get rand strSeedKey time 0 INT_MAX with
  | none => rfl
  | some nRandom => exact absurd (lt_of_get hget) (by decide)

/-- Where an `int` wraps around, `rand` itself is returned there. -/
theorem rngGet_intMax {draw : ℤ} (hlow : 0 ≤ draw) (hhigh : draw ≤ RAND_MAX) :
    rngGet draw 0 INT_MAX = draw := by
  have hsize : Lib.toInt32 (Lib.toInt32 (INT_MAX - 0) + 1) = -2 ^ 31 := by decide
  unfold RAND_MAX at hhigh
  unfold rngGet
  rw [hsize, Int.tmod_neg, Int.tmod_eq_of_lt hlow (by omega), Int.zero_add]
  exact Lib.toInt32_of_fits (by omega) (by omega)

/-- The number of a qualifier, which `CIgniteActivationAPI` asks for up to 10000. -/
theorem getStringTo_qualifier (rand : Rand) (strSeedKey : List (BitVec 8)) (time : ℤ) :
    ∃ nRandom : ℤ, getStringTo rand strSeedKey time 10000 = some (toString nRandom) ∧
      0 ≤ nRandom ∧ nRandom ≤ 10000 := by
  have hmin : FitsInt 0 := by decide
  have hmax : FitsInt 10000 := by decide
  obtain ⟨hget, hmem⟩ := @get_of_lt rand strSeedKey time _ _ hmin hmax (by decide) (by decide)
  unfold getStringTo getString
  rw [hget]
  exact ⟨_, rfl, hmem⟩

/-- What is drawn from a slot is what the backoff of the activation has for it. -/
theorem get_eq_rngGet (h : get rand strSeedKey time nMin nMax = some nRandom) :
    rngGet (rand.first (seed strSeedKey time)) nMin nMax = nRandom := by
  obtain ⟨rfl, hwidth, hsize, -, hfits⟩ := get_eq_some_iff.1 h
  unfold rngGet
  rw [Lib.toInt32_of_fits hwidth.1 hwidth.2, Lib.toInt32_of_fits hsize.1 hsize.2]
  exact Lib.toInt32_of_fits hfits.1 hfits.2

/-- A slot without overflow is drawn from. -/
theorem get_of_noOverflow {b : BackOffStates} {draw : ℤ} (hmin : 0 ≤ b.nRetrySlotMax)
    (h : b.NoOverflow draw) :
    ∃ nRandom, get rand strSeedKey time b.nRetrySlotMax (b.nRetrySlotMax + b.lnFreq) =
        some nRandom ∧ b.nRetrySlotMax ≤ nRandom ∧ nRandom ≤ b.nRetrySlotMax + b.lnFreq := by
  have hslot := h.slotMax
  have hrange := h.range
  refine ⟨_, get_of_lt ⟨?_, ?_⟩ ⟨?_, hslot⟩ ?_ ?_⟩
  · omega
  · omega
  · omega
  · omega
  · unfold INT_MAX
    omega

/-- What is drawn for the exponential backoff. -/
theorem getTo_eq (hmin : 0 ≤ nMax) :
    getTo rand strSeedKey time nMax =
      ExponentialBackoff.rngGet (rand.first (seed strSeedKey time)) nMax := by
  obtain ⟨hnonneg, hlt⟩ := remainder_mem (rand.first (seed strSeedKey time)) hmin
  unfold getTo
  ext nRandom
  rw [get_eq_some_iff, ExponentialBackoff.rngGet_eq_some_iff, Int.zero_add]
  rw [Int.sub_zero] at hnonneg hlt ⊢
  constructor
  · rintro ⟨rfl, -, hsize, hne, -⟩
    exact ⟨rfl, hsize, hne⟩
  · rintro ⟨rfl, hsize, hne⟩
    have hhigh := hsize.2
    exact ⟨rfl, ⟨by omega, by omega⟩, hsize, hne, by omega, by omega⟩

end RNG

end DeviceClient
