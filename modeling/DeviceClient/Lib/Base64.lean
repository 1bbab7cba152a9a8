import Mathlib.Data.List.Basic
import Mathlib.Data.List.TakeWhile

/-!
# Bytes in groups of six bits

Three bytes are four sextets; a last group of one or two bytes is two or three sextets,
whose lowest bits are zero.

* `octets_sextets`: the bytes come back.
* `octets_take_sextets`: the first sextets are the first bytes.
* `decode_encode_take`, `decode_encode`: the same for texts that are decoded by another
  alphabet.
-/

namespace Lib

namespace Base64

/-- The sextets of bytes. -/
def sextets : List ℕ → List ℕ
  | a :: b :: c :: rest => a / 4 :: (a % 4 * 16 + b / 16) :: (b % 16 * 4 + c / 64) :: c % 64 ::
      sextets rest
  | [a, b] => [a / 4, a % 4 * 16 + b / 16, b % 16 * 4]
  | [a] => [a / 4, a % 4 * 16]
  | [] => []

/-- The bytes that sextets fill. -/
def octets : List ℕ → List ℕ
  | p :: q :: r :: s :: rest => (p * 4 + q / 16) :: (q % 16 * 16 + r / 4) :: (r % 4 * 64 + s) ::
      octets rest
  | [p, q, r] => [p * 4 + q / 16, q % 16 * 16 + r / 4]
  | [p, q] => [p * 4 + q / 16]
  | _ => []

theorem sextets_lt {bytes : List ℕ} (h : ∀ b ∈ bytes, b < 256) : ∀ v ∈ sextets bytes, v < 64 := by
  fun_induction sextets bytes with
  | case1 a b c rest ih =>
    simp only [List.forall_mem_cons] at h ⊢
    obtain ⟨ha, hb, hc, hrest⟩ := h
    exact ⟨by omega, by omega, by omega, by omega, ih hrest⟩
  | case2 a b =>
    simp only [List.forall_mem_cons] at h ⊢
    obtain ⟨ha, hb, _⟩ := h
    exact ⟨by omega, by omega, by omega, nofun⟩
  | case3 a =>
    simp only [List.forall_mem_cons] at h ⊢
    exact ⟨by omega, by omega, nofun⟩
  | case4 => nofun

theorem length_sextets (bytes : List ℕ) :
    (sextets bytes).length = (4 * bytes.length + 2) / 3 := by
  fun_induction sextets bytes with
  | case1 a b c rest ih =>
    simp only [List.length_cons, ih]
    omega
  | case2 a b => simp
  | case3 a => simp
  | case4 => rfl

theorem length_octets (values : List ℕ) : (octets values).length = values.length * 6 / 8 := by
  fun_induction octets values with
  | case1 p q r s rest ih =>
    simp only [List.length_cons, ih]
    omega
  | case2 p q r => simp
  | case3 p q => simp
  | case4 values hfour hthree htwo =>
    match values with
    | [] => rfl
    | [p] => simp
    | [p, q] => exact absurd rfl (htwo p q)
    | [p, q, r] => exact absurd rfl (hthree p q r)
    | p :: q :: r :: s :: rest => exact absurd rfl (hfour p q r s rest)

/-- All values and more. -/
theorem octets_take_of_length_le {values : List ℕ} {n : ℕ} (h : values.length ≤ n) :
    octets (values.take n) = (octets values).take (n * 6 / 8) := by
  rw [List.take_of_length_le h, List.take_of_length_le]
  rw [length_octets]
  omega

/-- The first values fill the first bytes. -/
theorem octets_take (values : List ℕ) (n : ℕ) :
    octets (values.take n) = (octets values).take (n * 6 / 8) := by
  by_cases hlen : values.length ≤ n
  · exact octets_take_of_length_le hlen
  · induction n using Nat.strongRecOn generalizing values with
    | ind n ih =>
      match n, values with
      | 0, values => rfl
      | 1, p :: q :: rest =>
        show [] = (octets (p :: q :: rest)).take 0
        rw [List.take_zero]
      | 2, p :: q :: r :: rest =>
        cases rest <;> rfl
      | 3, p :: q :: r :: s :: rest => rfl
      | n + 4, p :: q :: r :: s :: rest =>
        -- the first group is complete
        have hcount : (n + 4) * 6 / 8 = n * 6 / 8 + 3 := by omega
        rw [hcount]
        show _ :: _ :: _ :: octets (rest.take n) = _ :: _ :: _ :: (octets rest).take (n * 6 / 8)
        by_cases hrest : rest.length ≤ n
        · rw [octets_take_of_length_le hrest]
        · rw [ih n (by omega) rest hrest]
      | n + 1, [] => simp at hlen
      | n + 1, [_] => simp at hlen
      | n + 2, [_, _] => simp at hlen
      | n + 3, [_, _, _] => simp at hlen

/-- The first sextets fill the first bytes. -/
theorem octets_take_sextets {bytes : List ℕ} (h : ∀ b ∈ bytes, b < 256) (n : ℕ) :
    octets ((sextets bytes).take n) = bytes.take (n * 6 / 8) := by
  fun_induction sextets bytes generalizing n with
  | case1 a b c rest ih =>
    simp only [List.forall_mem_cons] at h
    obtain ⟨ha, hb, hc, hrest⟩ := h
    match n with
    | 0 => rfl
    | 1 => rfl
    | 2 =>
      show [a / 4 * 4 + (a % 4 * 16 + b / 16) / 16] = [a]
      congr 1
      omega
    | 3 =>
      show [a / 4 * 4 + (a % 4 * 16 + b / 16) / 16,
        (a % 4 * 16 + b / 16) % 16 * 16 + (b % 16 * 4 + c / 64) / 4] = [a, b]
      congr 1
      · omega
      · congr 1
        omega
    | n + 4 =>
      -- the first group is complete
      have hcount : (n + 4) * 6 / 8 = n * 6 / 8 + 3 := by omega
      rw [hcount]
      show (a / 4 * 4 + (a % 4 * 16 + b / 16) / 16) ::
        ((a % 4 * 16 + b / 16) % 16 * 16 + (b % 16 * 4 + c / 64) / 4) ::
        ((b % 16 * 4 + c / 64) % 4 * 64 + c % 64) :: octets ((sextets rest).take n) =
        a :: b :: c :: rest.take (n * 6 / 8)
      rw [ih hrest n]
      congr 1
      · omega
      · congr 1
        · omega
        · congr 1
          omega
  | case2 a b =>
    simp only [List.forall_mem_cons] at h
    obtain ⟨ha, hb, _⟩ := h
    match n with
    | 0 => rfl
    | 1 => rfl
    | 2 =>
      show [a / 4 * 4 + (a % 4 * 16 + b / 16) / 16] = [a]
      congr 1
      omega
    | n + 3 =>
      rw [List.take_of_length_le (by simp), List.take_of_length_le (by simp; omega)]
      show [a / 4 * 4 + (a % 4 * 16 + b / 16) / 16,
        (a % 4 * 16 + b / 16) % 16 * 16 + b % 16 * 4 / 4] = [a, b]
      congr 1
      · omega
      · congr 1
        omega
  | case3 a =>
    simp only [List.forall_mem_cons] at h
    match n with
    | 0 => rfl
    | 1 => rfl
    | n + 2 =>
      rw [List.take_of_length_le (by simp), List.take_of_length_le (by simp; omega)]
      show [a / 4 * 4 + a % 4 * 16 / 16] = [a]
      congr 1
      omega
  | case4 => rw [List.take_nil, List.take_nil]; rfl

theorem octets_sextets {bytes : List ℕ} (h : ∀ b ∈ bytes, b < 256) :
    octets (sextets bytes) = bytes := by
  have hall := octets_take_sextets h ((sextets bytes).length + 2 * bytes.length)
  rw [List.take_of_length_le (by omega), List.take_of_length_le (by omega)] at hall
  exact hall

/-! ## The letters of the sextets -/

/-- An alphabet: a letter for each sextet, from which the sextet comes back. -/
structure Alphabet where
  letter : ℕ → Char
  value : Char → Option ℕ
  value_letter : ∀ v < 64, value (letter v) = some v

namespace Alphabet

/-- The letters of a list, in their order. -/
def ofLetters (letters : List Char) (h : ∀ v < 64, letters.idxOf (letters.getD v ' ') = v)
    (hlength : 64 ≤ letters.length) : Alphabet where
  letter v := letters.getD v ' '
  value c := if c ∈ letters then some (letters.idxOf c) else none
  value_letter v hv := by
    have hmem : letters.getD v ' ' ∈ letters := by
      rw [List.getD_eq_getElem?_getD, List.getElem?_eq_getElem (by omega), Option.getD_some]
      exact List.getElem_mem _
    rw [if_pos hmem, h v hv]

/-- A letter of one alphabet is the same letter of the other, or none of it. -/
def Agrees (known alphabet : Alphabet) : Prop :=
  ∀ v < 64, known.value (alphabet.letter v) = some v ∨ known.value (alphabet.letter v) = none

theorem agrees_self (alphabet : Alphabet) : alphabet.Agrees alphabet :=
  fun v hv => Or.inl (alphabet.value_letter v hv)

end Alphabet

/-- The text of bytes, without padding. -/
def encode (alphabet : Alphabet) (bytes : List ℕ) : List Char :=
  (sextets bytes).map alphabet.letter

/-- The text up to the first character that is no letter. -/
def letters (alphabet : Alphabet) (text : List Char) : List Char :=
  text.takeWhile fun c => (alphabet.value c).isSome

/-- The bytes of that text. -/
def decode (alphabet : Alphabet) (text : List Char) : List ℕ :=
  octets ((letters alphabet text).filterMap alphabet.value)

theorem filterMap_letters {known alphabet : Alphabet} (hagrees : known.Agrees alphabet)
    {values : List ℕ} (h : ∀ v ∈ values, v < 64) :
    (letters known (values.map alphabet.letter)).filterMap known.value =
      values.take (letters known (values.map alphabet.letter)).length := by
  unfold letters
  induction values with
  | nil => rfl
  | cons v rest ih =>
    simp only [List.forall_mem_cons] at h
    obtain ⟨hv, hrest⟩ := h
    rw [List.map_cons, List.takeWhile_cons]
    rcases hagrees v hv with hvalue | hvalue
    · rw [hvalue, Option.isSome_some, if_pos rfl, List.filterMap_cons_some hvalue,
        List.length_cons, List.take_succ_cons, ih hrest]
    · rw [hvalue, Option.isSome_none, if_neg Bool.false_ne_true]
      rfl

/-- What is decoded by another alphabet are the first bytes. -/
theorem decode_encode_take {known alphabet : Alphabet} (hagrees : known.Agrees alphabet)
    {bytes : List ℕ} (h : ∀ b ∈ bytes, b < 256) :
    decode known (encode alphabet bytes) =
      bytes.take ((letters known (encode alphabet bytes)).length * 6 / 8) := by
  unfold decode encode
  rw [filterMap_letters hagrees (sextets_lt h)]
  exact octets_take_sextets h _

/-- All of them, if it knows each letter of the text. -/
theorem decode_encode {known alphabet : Alphabet} (hagrees : known.Agrees alphabet)
    {bytes : List ℕ} (h : ∀ b ∈ bytes, b < 256)
    (hknown : ∀ c ∈ encode alphabet bytes, (known.value c).isSome = true) :
    decode known (encode alphabet bytes) = bytes := by
  have hall : letters known (encode alphabet bytes) = encode alphabet bytes :=
    List.takeWhile_eq_self_iff.2 hknown
  have htake := filterMap_letters hagrees (sextets_lt h)
  unfold decode
  unfold encode at hall ⊢
  rw [htake, hall, List.length_map, List.take_length, octets_sextets h]

end Base64

end Lib
