import DeviceClient.Lib.Int32
import DeviceClient.Util.Base64Decode

/-!
# Base64 there and back

`CIgniteFileUtils::Base64Encode`, and `Base64Decode` with the counter that it has the length
of the text in, an integer of 32 bits. `none` is the overflow of a counter.

* `base64Encode_eq`: the letters of the groups of six bits, and the padding.
* `base64DecodeInt_eq`: the letters that are read.
* `base64DecodeInt_append_iff`: the lengths for which what follows the letters does not matter.
* `base64_round_trip`: all of it.
-/

namespace DeviceClient

namespace FileUtils

open Lib

/-! ## Encoding -/

/-- `ucstrCharArray`: the six-bit groups of three bytes. -/
def encodeGroup : List ℕ → List ℕ
  | [b₀, b₁, b₂] => [b₀ / 4, b₀ % 4 * 16 + b₁ / 16, b₁ % 16 * 4 + b₂ / 64, b₂ % 64]
  | _ => []

/-- `g_strBase64Chars[...]`. -/
def base64Char (value : ℕ) : Char := strBase64Chars.getD value ' '

/-- The bytes behind the last group of three, padded with zeros; and the padding of the text. -/
def encodeRest (group : List ℕ) : List Char :=
  if group ≠ [] then
    ((encodeGroup (group ++ List.replicate (3 - group.length) 0)).take
      (group.length + 1)).map base64Char ++ List.replicate (3 - group.length) '='
  else []

/-- The loop of `Base64Encode`, with the group that is not full. -/
def encodeLoop : List ℕ → List ℕ → List Char
  | group, [] => encodeRest group
  | group, b :: rest =>
    if group.length = 2 then (encodeGroup (group ++ [b])).map base64Char ++ encodeLoop [] rest
    else encodeLoop (group ++ [b]) rest

/-- `Base64Encode`. -/
def base64Encode (puchBytesToEncode : List UInt8) : List Char :=
  encodeLoop [] (puchBytesToEncode.map UInt8.toNat)

/-- A byte string, as `Base64Decode` returns one. -/
def byteText (bytes : List UInt8) : List Char := bytes.map fun b => Char.ofNat b.toNat

/-- The letters that are missing in the last group. -/
def padding (length : ℕ) : List Char := List.replicate ((3 - length % 3) % 3) '='

theorem encodeLoop_eq {group : List ℕ} (hlength : group.length < 3) (bytes : List ℕ) :
    encodeLoop group bytes = (Base64.sextets (group ++ bytes)).map base64Char ++
      padding (group.length + bytes.length) := by
  induction bytes generalizing group with
  | nil =>
    unfold encodeLoop encodeRest
    match group with
    | [] => rfl
    | [b₀] => simp [encodeGroup, Base64.sextets, padding]
    | [b₀, b₁] => simp [encodeGroup, Base64.sextets, padding]
    | _ :: _ :: _ :: _ =>
      simp only [List.length_cons] at hlength
      omega
  | cons b rest ih =>
    unfold encodeLoop
    by_cases hfull : group.length = 2
    · -- the group is full with this byte
      rw [if_pos hfull, ih (by decide)]
      match group, hfull with
      | [b₀, b₁], _ =>
        have hpad : padding (([] : List ℕ).length + rest.length) =
            padding ([b₀, b₁].length + (b :: rest).length) := by
          unfold padding
          congr 1
          simp only [List.length_cons, List.length_nil]
          omega
        rw [hpad, ← List.append_assoc]
        rfl
    · rw [if_neg hfull, ih (by simp; omega), List.append_assoc]
      have hsum : (group ++ [b]).length + rest.length = group.length + (b :: rest).length := by
        simp only [List.length_append, List.length_cons, List.length_nil]
        omega
      rw [hsum]
      rfl

/-- The bytes as numbers. -/
def byteValues (bytes : List UInt8) : List ℕ := bytes.map UInt8.toNat

theorem byteValues_lt (bytes : List UInt8) : ∀ b ∈ byteValues bytes, b < 256 := by
  intro b hb
  obtain ⟨byte, _, rfl⟩ := List.mem_map.1 hb
  exact byte.toNat_lt

theorem base64Encode_eq (bytes : List UInt8) :
    base64Encode bytes =
      Base64.encode standardAlphabet (byteValues bytes) ++ padding bytes.length := by
  unfold base64Encode
  rw [encodeLoop_eq (by decide)]
  show _ ++ padding (0 + (bytes.map UInt8.toNat).length) = _
  rw [Nat.zero_add, List.length_map]
  rfl

theorem length_base64Encode (bytes : List UInt8) :
    (base64Encode bytes).length = 4 * ((bytes.length + 2) / 3) := by
  rw [base64Encode_eq]
  unfold Base64.encode padding byteValues
  rw [List.length_append, List.length_map, Base64.length_sextets, List.length_map,
    List.length_replicate]
  omega

theorem letter_mem {v : ℕ} (h : v < 64) : standardAlphabet.letter v ∈ strBase64Chars := by
  have hall : ∀ v < 64, strBase64Chars.getD v ' ' ∈ strBase64Chars := by decide +kernel
  exact hall v h

theorem mem_of_mem_encode {bytes : List UInt8} :
    ∀ c ∈ Base64.encode standardAlphabet (byteValues bytes), c ∈ strBase64Chars := by
  intro c hc
  obtain ⟨v, hv, rfl⟩ := List.mem_map.1 hc
  exact letter_mem (Base64.sextets_lt (byteValues_lt bytes) v hv)

/-- The characters of the alphabet at the beginning of a text. -/
def leadingLetters (text : List Char) : List Char := text.takeWhile (· ∈ strBase64Chars)

theorem leadingLetters_eq (text : List Char) :
    leadingLetters text = Base64.letters standardAlphabet text := by
  unfold leadingLetters Base64.letters
  congr 1
  funext c
  rw [value_standard]
  split <;> simp [*]

/-- Letters in front of another character. -/
theorem leadingLetters_append {text tail : List Char}
    (htail : ∀ c ∈ tail.head?, c ∉ strBase64Chars) :
    leadingLetters (text ++ tail) = leadingLetters text := by
  unfold leadingLetters
  induction text with
  | nil =>
    cases tail with
    | nil => rfl
    | cons c tail => exact List.takeWhile_cons_of_neg (by simpa using htail c rfl)
  | cons c text ih =>
    rw [List.cons_append, List.takeWhile_cons, List.takeWhile_cons, ih]

theorem decode_append {text tail : List Char} (htail : ∀ c ∈ tail.head?, c ∉ strBase64Chars) :
    base64Decode (text ++ tail) = base64Decode text := by
  rw [base64Decode_eq, base64Decode_eq]
  unfold Base64.decode
  rw [← leadingLetters_eq, ← leadingLetters_eq, leadingLetters_append htail]

theorem head_padding (length : ℕ) : ∀ c ∈ (padding length).head?, c ∉ strBase64Chars := by
  intro c hc
  have hmem := List.mem_of_mem_head? hc
  rw [List.eq_of_mem_replicate hmem]
  decide

/-- The bytes come back. -/
theorem base64Decode_base64Encode (bytes : List UInt8) :
    base64Decode (base64Encode bytes) = byteText bytes := by
  have hknown : ∀ c ∈ Base64.encode standardAlphabet (byteValues bytes),
      (standardAlphabet.value c).isSome = true := by
    intro c hc
    rw [value_standard, if_pos (mem_of_mem_encode c hc)]
    rfl
  rw [base64Encode_eq, decode_append (head_padding _), base64Decode_eq,
    Base64.decode_encode (Base64.Alphabet.agrees_self _) (byteValues_lt bytes) hknown]
  exact List.map_map

/-! ## Decoding with counters -/

/-- The loop of `Base64Decode` with `nInputlength` and `nIndex`; behind the text stands a zero
byte. -/
def decodeIntLoop (nInputlength : ℤ) (nIndex : ℕ) (group : List Char) :
    List Char → Option (List ℕ)
  | [] => if nInputlength = -2 ^ 31 then none else some (decodeRest group)
  | c :: rest =>
    if nInputlength = -2 ^ 31 then none
    else if nInputlength ≠ 0 ∧ c ≠ '=' ∧ isBase64 c then
      if nIndex = 2 ^ 31 - 1 then none
      else if group.length = 3 then
        (decodeIntLoop (nInputlength - 1) (nIndex + 1) [] rest).map
          (decodeGroup (group ++ [c]) ++ ·)
      else decodeIntLoop (nInputlength - 1) (nIndex + 1) (group ++ [c]) rest
    else some (decodeRest group)

/-- `Base64Decode`, with the length in an `int`. -/
def base64DecodeInt (rstrEncodedString : List Char) : Option (List Char) :=
  (decodeIntLoop (toInt32 rstrEncodedString.length) 0 [] rstrEncodedString).map
    (List.map Char.ofNat)

/-- The number of letters that are read: of `letters` letters in front of the first other
character, with the length `nInputlength`. A negative length is counted down until it
overflows. -/
def lettersRead (nInputlength : ℤ) (letters : ℕ) : Option ℕ :=
  if 0 ≤ nInputlength then some (min letters nInputlength.toNat)
  else if (letters : ℤ) < nInputlength + 2 ^ 31 then some letters
  else none

theorem lettersRead_succ {nInputlength : ℤ} (hne : nInputlength ≠ 0) (letters : ℕ) :
    lettersRead nInputlength (letters + 1) =
      (lettersRead (nInputlength - 1) letters).map (· + 1) := by
  unfold lettersRead
  by_cases hpos : 0 ≤ nInputlength
  · rw [if_pos hpos, if_pos (by omega), Option.map_some]
    congr 1
    omega
  · rw [if_neg hpos, if_neg (show ¬0 ≤ nInputlength - 1 by omega)]
    by_cases hlt : (letters : ℤ) < nInputlength - 1 + 2 ^ 31
    · rw [if_pos hlt, if_pos (by push_cast; omega), Option.map_some]
    · rw [if_neg hlt, if_neg (by push_cast; omega), Option.map_none]

theorem lettersRead_zero {nInputlength : ℤ} (hlow : -2 ^ 31 < nInputlength) :
    lettersRead nInputlength 0 = some 0 := by
  unfold lettersRead
  by_cases hpos : 0 ≤ nInputlength
  · rw [if_pos hpos, Nat.zero_min]
  · rw [if_neg hpos, if_pos (by push_cast; omega)]

theorem lettersRead_min {nInputlength : ℤ} (hmin : nInputlength = -2 ^ 31) (letters : ℕ) :
    lettersRead nInputlength letters = none := by
  unfold lettersRead
  rw [if_neg (by omega), if_neg (by omega)]

theorem decodeLoop_of_full {group : List Char} {c : Char} (hc : c ≠ '=' ∧ isBase64 c = true)
    (hfull : group.length = 3) (rest : List Char) :
    decodeLoop group (c :: rest) = decodeGroup (group ++ [c]) ++ decodeLoop [] rest := by
  rw [decodeLoop, if_pos hc, if_pos hfull]

theorem decodeLoop_of_not_full {group : List Char} {c : Char} (hc : c ≠ '=' ∧ isBase64 c = true)
    (hfull : group.length ≠ 3) (rest : List Char) :
    decodeLoop group (c :: rest) = decodeLoop (group ++ [c]) rest := by
  rw [decodeLoop, if_pos hc, if_neg hfull]

/-- The counters only say how many of the letters are read. -/
theorem decodeIntLoop_eq {nInputlength : ℤ} {nIndex : ℕ} (hlow : -2 ^ 31 ≤ nInputlength)
    (hhigh : nIndex + nInputlength < 2 ^ 31) (hneg : nInputlength < 0 → nIndex + nInputlength < 0)
    (group text : List Char) :
    decodeIntLoop nInputlength nIndex group text =
      (lettersRead nInputlength (leadingLetters text).length).map
        fun count => decodeLoop group (text.take count) := by
  unfold leadingLetters
  induction text generalizing nInputlength nIndex group with
  | nil =>
    unfold decodeIntLoop
    by_cases hmin : nInputlength = -2 ^ 31
    · rw [if_pos hmin, lettersRead_min hmin]
      rfl
    · rw [if_neg hmin, List.takeWhile_nil, List.length_nil, lettersRead_zero (by omega)]
      rfl
  | cons c rest ih =>
    unfold decodeIntLoop
    by_cases hmin : nInputlength = -2 ^ 31
    · rw [if_pos hmin, lettersRead_min hmin]
      rfl
    · rw [if_neg hmin]
      by_cases hzero : nInputlength = 0
      · rw [if_neg (fun hread => hread.1 hzero), hzero]
        unfold lettersRead
        rw [if_pos (le_refl 0), Int.toNat_zero, Nat.min_zero]
        rfl
      · rw [List.takeWhile_cons]
        by_cases hc : c ∈ strBase64Chars
        · have hrec := fun group => @ih (nInputlength - 1) (nIndex + 1) (by omega)
            (by push_cast; omega) (fun h => by push_cast; omega) group
          have hletter := (isBase64_iff c).2 hc
          rw [if_pos ⟨hzero, hletter⟩, if_neg (by omega), if_pos (decide_eq_true hc),
            List.length_cons, lettersRead_succ hzero, Option.map_map, hrec, hrec]
          by_cases hfull : group.length = 3
          · rw [if_pos hfull, Option.map_map]
            congr 1
            funext count
            exact (decodeLoop_of_full hletter hfull _).symm
          · rw [if_neg hfull]
            congr 1
            funext count
            exact (decodeLoop_of_not_full hletter hfull _).symm
        · rw [if_neg (fun hread => hc ((isBase64_iff c).1 hread.2)), decide_eq_false hc,
            if_neg Bool.false_ne_true, List.length_nil, lettersRead_zero (by omega)]
          rfl

theorem base64DecodeInt_eq (text : List Char) :
    base64DecodeInt text =
      (lettersRead (toInt32 text.length) (leadingLetters text).length).map
        fun count => base64Decode (text.take count) := by
  have hlow : -2 ^ 31 ≤ toInt32 text.length := neg_le_toInt32 _
  have hhigh := toInt32_lt text.length
  unfold base64DecodeInt
  rw [decodeIntLoop_eq hlow (by push_cast; omega) (fun h => by push_cast; omega), Option.map_map]
  rfl

/-! ## The letters that are read -/

theorem mem_of_mem_leadingLetters {text : List Char} {c : Char} (h : c ∈ leadingLetters text) :
    c ∈ strBase64Chars := by
  have himp := List.mem_takeWhile_imp (p := (fun c => decide (c ∈ strBase64Chars))) h
  exact of_decide_eq_true himp

/-- The bytes of the letters at the beginning. -/
theorem base64Decode_eq_octets (text : List Char) :
    base64Decode text = (Base64.octets ((leadingLetters text).map findChar)).map Char.ofNat := by
  have hvalues : ∀ letters : List Char, (∀ c ∈ letters, c ∈ strBase64Chars) →
      letters.filterMap standardAlphabet.value = letters.map findChar := by
    intro letters h
    rw [← List.filterMap_eq_map]
    refine List.filterMap_congr fun c hc => ?_
    rw [value_standard, if_pos (h c hc)]
    rfl
  rw [base64Decode_eq]
  unfold Base64.decode
  rw [← leadingLetters_eq, hvalues]
  exact fun c hc => mem_of_mem_leadingLetters hc

theorem leadingLetters_take {text : List Char} {count : ℕ}
    (h : count ≤ (leadingLetters text).length) :
    leadingLetters (text.take count) = (leadingLetters text).take count := by
  have hsplit : text.take count = (leadingLetters text).take count := by
    have hleading := List.prefix_iff_eq_take.1
      (List.takeWhile_prefix (p := (fun c => decide (c ∈ strBase64Chars))) (l := text))
    change leadingLetters text = text.take (leadingLetters text).length at hleading
    rw [hleading, List.take_take, min_eq_left h]
  rw [hsplit]
  exact List.takeWhile_eq_self_iff.2 fun c hc =>
    decide_eq_true (mem_of_mem_leadingLetters (List.mem_of_mem_take hc))

/-- Fewer letters give fewer bytes. -/
theorem base64Decode_take {text : List Char} {count : ℕ}
    (h : count ≤ (leadingLetters text).length) :
    base64Decode (text.take count) = (base64Decode text).take (count * 6 / 8) := by
  rw [base64Decode_eq_octets, base64Decode_eq_octets, leadingLetters_take h, List.map_take,
    Base64.octets_take, List.map_take]

theorem length_base64Decode (text : List Char) :
    (base64Decode text).length = (leadingLetters text).length * 6 / 8 := by
  rw [base64Decode_eq_octets, List.length_map, Base64.length_octets, List.length_map]

theorem base64Decode_take_eq_iff {text : List Char} {count count' : ℕ}
    (h : count ≤ (leadingLetters text).length) (h' : count' ≤ (leadingLetters text).length) :
    base64Decode (text.take count) = base64Decode (text.take count') ↔
      count * 6 / 8 = count' * 6 / 8 := by
  rw [base64Decode_take h, base64Decode_take h', List.take_eq_take_iff, length_base64Decode,
    min_eq_left (by omega), min_eq_left (by omega)]

theorem lettersRead_le {nInputlength : ℤ} {letters count : ℕ}
    (h : lettersRead nInputlength letters = some count) : count ≤ letters := by
  unfold lettersRead at h
  by_cases hpos : 0 ≤ nInputlength
  · rw [if_pos hpos] at h
    rw [← Option.some.inj h]
    exact min_le_left _ _
  · rw [if_neg hpos] at h
    by_cases hlt : (letters : ℤ) < nInputlength + 2 ^ 31
    · rw [if_pos hlt] at h
      exact le_of_eq (Option.some.inj h).symm
    · rw [if_neg hlt] at h
      cases h

/-- A text whose length fits is decoded as a whole. -/
theorem base64DecodeInt_of_lt {text : List Char} (h : text.length < 2 ^ 31) :
    base64DecodeInt text = some (base64Decode text) := by
  have hfits : toInt32 text.length = text.length := toInt32_of_fits (by omega) (by exact_mod_cast h)
  have hle : (leadingLetters text).length ≤ text.length := (List.takeWhile_prefix _).length_le
  rw [base64DecodeInt_eq, hfits]
  unfold lettersRead
  rw [if_pos (by omega), Option.map_some, Int.toNat_natCast, min_eq_left hle,
    base64Decode_take (le_refl _), List.take_of_length_le (le_of_eq (length_base64Decode text))]

/-- Both lengths are read as counts that make the same number of bytes of the letters. -/
def SameBytes (nInputlength nInputlength' : ℤ) (letters : ℕ) : Prop :=
  ∃ count ∈ lettersRead nInputlength letters, ∃ count' ∈ lettersRead nInputlength' letters,
    count * 6 / 8 = count' * 6 / 8

/-- What follows behind another character changes nothing iff the counters allow it. -/
theorem base64DecodeInt_append_iff {text : List Char} {c : Char} (hc : c ∉ strBase64Chars)
    (tail : List Char) :
    (∃ bytes, base64DecodeInt text = some bytes ∧
        base64DecodeInt (text ++ c :: tail) = some bytes) ↔
      SameBytes (toInt32 text.length) (toInt32 (text ++ c :: tail).length)
        (leadingLetters text).length := by
  have hletters : leadingLetters (text ++ c :: tail) = leadingLetters text := by
    refine leadingLetters_append fun c' hc' => ?_
    rw [List.head?_cons, Option.mem_some_iff] at hc'
    exact hc' ▸ hc
  have htake : ∀ count, count ≤ (leadingLetters text).length →
      (text ++ c :: tail).take count = text.take count := by
    intro count hcount
    refine List.take_append_of_le_length (le_trans hcount ?_)
    exact (List.takeWhile_prefix _).length_le
  rw [base64DecodeInt_eq, base64DecodeInt_eq, hletters]
  unfold SameBytes
  constructor
  · rintro ⟨bytes, hbytes, hbytes'⟩
    obtain ⟨count, hcount, heq⟩ := Option.map_eq_some_iff.1 hbytes
    obtain ⟨count', hcount', heq'⟩ := Option.map_eq_some_iff.1 hbytes'
    have hle := lettersRead_le hcount
    have hle' := lettersRead_le hcount'
    rw [htake count' hle', ← heq] at heq'
    exact ⟨count, hcount, count', hcount', (base64Decode_take_eq_iff hle hle').1 heq'.symm⟩
  · rintro ⟨count, hcount, count', hcount', hsame⟩
    have hle := lettersRead_le hcount
    have hle' := lettersRead_le hcount'
    refine ⟨base64Decode (text.take count), ?_, ?_⟩
    · rw [hcount, Option.map_some]
    · rw [hcount', Option.map_some, htake count' hle',
        (base64Decode_take_eq_iff hle hle').2 hsame]

/-! ## There and back -/

/-- What has fewer than 2^29 bytes comes back, in letters and at most two `=`; and behind the
letters of a text nothing matters, for the lengths that the counters allow. -/
theorem base64_round_trip (bytes : List UInt8) (text : List Char) {c : Char}
    (hc : c ∉ strBase64Chars) (tail : List Char) :
    (bytes.length < 2 ^ 29 →
      base64DecodeInt (base64Encode bytes) = some (byteText bytes) ∧
      (base64Encode bytes).length = 4 * ((bytes.length + 2) / 3) ∧
      ∃ letters count, base64Encode bytes = letters ++ List.replicate count '=' ∧ count ≤ 2 ∧
        ∀ c ∈ letters, c ∈ strBase64Chars) ∧
    ((∃ decoded, base64DecodeInt text = some decoded ∧
        base64DecodeInt (text ++ c :: tail) = some decoded) ↔
      SameBytes (toInt32 text.length) (toInt32 (text ++ c :: tail).length)
        (leadingLetters text).length) := by
  refine ⟨fun h => ⟨?_, length_base64Encode bytes, ?_⟩, base64DecodeInt_append_iff hc tail⟩
  · have hlt : (base64Encode bytes).length < 2 ^ 31 := by
      rw [length_base64Encode]
      omega
    rw [base64DecodeInt_of_lt hlt, base64Decode_base64Encode]
  · exact ⟨_, _, base64Encode_eq bytes, by omega, mem_of_mem_encode⟩

theorem base64_round_trip_two :
    base64DecodeInt (base64Encode [72, 85]) = some ['H', 'U'] ∧
      base64Encode [72, 85] = "SFU=".toList ∧
      SameBytes (toInt32 ['S', 'F', 'U'].length) (toInt32 (['S', 'F', 'U'] ++ ['=']).length)
        (leadingLetters ['S', 'F', 'U']).length := by
  have htrip := @base64_round_trip [72, 85] ['S', 'F', 'U'] '=' (by decide) []
  refine ⟨(htrip.1 (by decide)).1, by decide +kernel, htrip.2.1 ⟨['H', 'U'], ?_, ?_⟩⟩
  · decide +kernel
  · decide +kernel

theorem lettersRead_of_nonneg {nInputlength : ℤ} (h : 0 ≤ nInputlength) (letters : ℕ) :
    lettersRead nInputlength letters = some (min letters nInputlength.toNat) :=
  if_pos h

/-- Letters whose number counts as 0 or 4, with what stands behind them. -/
theorem base64DecodeInt_replicate {n m : ℕ} (hm : toInt32 ((n : ℤ) + m) = m) (hle : m ≤ n)
    {tail : List Char} (hlength : tail.length = m) (htail : ∀ c ∈ tail.head?, c ∉ strBase64Chars) :
    base64DecodeInt (List.replicate n 'A' ++ tail) =
      some (base64Decode (List.replicate m 'A')) := by
  have hall : leadingLetters (List.replicate n 'A') = List.replicate n 'A' := by
    refine List.takeWhile_eq_self_iff.2 fun c hc => ?_
    rw [List.eq_of_mem_replicate hc]
    decide
  rw [base64DecodeInt_eq, leadingLetters_append htail, hall, List.length_append,
    List.length_replicate, hlength]
  push_cast
  rw [hm, lettersRead_of_nonneg (by omega), Option.map_some, Int.toNat_natCast, min_eq_right hle,
    List.take_append_of_le_length (by rw [List.length_replicate]; exact hle), List.take_replicate,
    min_eq_left hle]

/-- The lengths of the texts below. -/
theorem base64DecodeInt_of_wrap {n : ℕ} (h : n = 2 ^ 32) :
    base64DecodeInt (List.replicate n 'A') = some [] ∧
      base64DecodeInt (List.replicate n 'A' ++ '=' :: ['=', '=', '=']) =
        some ['\x00', '\x00', '\x00'] := by
  have hzero : toInt32 ((n : ℤ) + (0 : ℕ)) = (0 : ℕ) := by
    rw [h]
    decide
  have hfour : toInt32 ((n : ℤ) + (4 : ℕ)) = (4 : ℕ) := by
    rw [h]
    decide
  have hnone := base64DecodeInt_replicate hzero (Nat.zero_le n) (List.length_nil (α := Char))
    (fun c hc => (by cases hc))
  rw [List.append_nil] at hnone
  have hletters : base64Decode (List.replicate 4 'A') = ['\x00', '\x00', '\x00'] := by
    decide +kernel
  have hpadding : ∀ c ∈ (List.replicate 4 '=').head?, c ∉ strBase64Chars := by
    intro c hc
    rw [List.eq_of_mem_replicate (List.mem_of_mem_head? hc)]
    decide
  rw [← hletters]
  exact ⟨hnone, base64DecodeInt_replicate hfour (by omega) rfl hpadding⟩

/-- A text of 2^32 letters counts as empty; with four characters more, four letters are read. -/
theorem base64DecodeInt_wraps :
    '=' ∉ strBase64Chars ∧
      base64DecodeInt (List.replicate (2 ^ 32) 'A') = some [] ∧
      base64DecodeInt (List.replicate (2 ^ 32) 'A' ++ '=' :: ['=', '=', '=']) =
        some ['\x00', '\x00', '\x00'] :=
  ⟨by decide, base64DecodeInt_of_wrap rfl⟩

end FileUtils

end DeviceClient
