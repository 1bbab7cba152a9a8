import DeviceClient.Lib.Base64
import Mathlib.Data.Bool.AllAny

/-!
# Base64

`CIgniteFileUtils::Base64Decode`. A byte of a text is the character of its number. The
decoder knows the letters of the standard alphabet; tokens are written with those that
stand in a URL.

* `base64Decode_eq`: the loop is the decoding of groups of six bits.
* `base64Decode_urlEncode`: a text in URL letters is decoded up to the first `-` or `_`.
-/

namespace DeviceClient

namespace FileUtils

open Lib

/-- The letters and digits of `g_strBase64Chars`. -/
def strLettersAndDigits : List Char := [
    'A', 'B', 'C', 'D', 'E', 'F', 'G', 'H', 'I', 'J', 'K', 'L', 'M',
    'N', 'O', 'P', 'Q', 'R', 'S', 'T', 'U', 'V', 'W', 'X', 'Y', 'Z',
    'a', 'b', 'c', 'd', 'e', 'f', 'g', 'h', 'i', 'j', 'k', 'l', 'm',
    'n', 'o', 'p', 'q', 'r', 's', 't', 'u', 'v', 'w', 'x', 'y', 'z',
    '0', '1', '2', '3', '4', '5', '6', '7', '8', '9']

/-- `g_strBase64Chars`. -/
def strBase64Chars : List Char := strLettersAndDigits ++ ['+', '/']

/-- `is_base64`. -/
def isBase64 (uchBaseChar : Char) : Bool :=
  uchBaseChar.isAlphanum || uchBaseChar = '+' || uchBaseChar = '/'

/-- `find` in the letters, as an `unsigned char`; `npos` becomes 255. -/
def findChar (c : Char) : ℕ := if c ∈ strBase64Chars then strBase64Chars.idxOf c else 255

/-- `Decode`: the three bytes of four characters. -/
def decodeGroup : List Char → List ℕ
  | [c₀, c₁, c₂, c₃] =>
    [(findChar c₀ * 4 + findChar c₁ / 16 % 4) % 256,
      (findChar c₁ % 16 * 16 + findChar c₂ / 4 % 16) % 256,
      (findChar c₂ % 4 * 64 + findChar c₃) % 256]
  | _ => []

/-- The characters behind the last group of four, padded with zeros. -/
def decodeRest (group : List Char) : List ℕ :=
  (decodeGroup (group ++ List.replicate (4 - group.length) '\x00')).take (group.length - 1)

/-- The loop of `Base64Decode`, with the group that is not full. -/
def decodeLoop : List Char → List Char → List ℕ
  | group, [] => decodeRest group
  | group, c :: rest =>
    if c ≠ '=' ∧ isBase64 c then
      if group.length = 3 then decodeGroup (group ++ [c]) ++ decodeLoop [] rest
      else decodeLoop (group ++ [c]) rest
    else decodeRest group

/-- `Base64Decode`. -/
def base64Decode (rstrEncodedString : List Char) : List Char :=
  (decodeLoop [] rstrEncodedString).map Char.ofNat

/-! ## The loop -/

/-- The letters of the decoder. -/
def standardAlphabet : Base64.Alphabet :=
  Base64.Alphabet.ofLetters strBase64Chars (by decide +kernel) (by decide)

/-- The letters that stand in a URL. -/
def urlAlphabet : Base64.Alphabet :=
  Base64.Alphabet.ofLetters (strLettersAndDigits ++ ['-', '_']) (by decide +kernel) (by decide)

/-- What holds of the characters below 128 holds of a character below 128. -/
theorem of_ascii {p : Char → Prop} (h : ∀ n < 128, p (Char.ofNat n)) {c : Char}
    (hc : c.toNat < 128) : p c := by
  have hchar := h c.toNat hc
  rw [Char.ofNat_toNat] at hchar
  exact hchar

/-- Letters and digits are ASCII characters. -/
theorem toNat_lt_of_isAlphanum {c : Char} (h : c.isAlphanum = true) : c.toNat < 128 := by
  have hranges : ((decide ('A'.val ≤ c.val ∧ c.val ≤ 'Z'.val) ||
      (decide ('a'.val ≤ c.val) && decide (c.val ≤ 'z'.val))) ||
      (decide ('0'.val ≤ c.val) && decide (c.val ≤ '9'.val))) = true := h
  have hz : 'Z'.val.toNat = 90 ∧ 'z'.val.toNat = 122 ∧ '9'.val.toNat = 57 := by decide
  simp only [Bool.or_eq_true, Bool.and_eq_true, decide_eq_true_eq, UInt32.le_iff_toNat_le]
    at hranges
  show c.val.toNat < 128
  omega

theorem isBase64_iff (c : Char) : (c ≠ '=' ∧ isBase64 c = true) ↔ c ∈ strBase64Chars := by
  by_cases hc : c.toNat < 128
  · exact @of_ascii (fun c => (c ≠ '=' ∧ isBase64 c = true) ↔ c ∈ strBase64Chars)
      (by decide +kernel) c hc
  · constructor
    · rintro ⟨_, hbase⟩
      apply absurd _ hc
      unfold isBase64 at hbase
      rw [Bool.or_eq_true, Bool.or_eq_true, decide_eq_true_eq, decide_eq_true_eq] at hbase
      rcases hbase with (halphanum | rfl) | rfl
      · exact toNat_lt_of_isAlphanum halphanum
      · decide
      · decide
    · intro hmem
      have hall : ∀ c ∈ strBase64Chars, c.toNat < 128 :=
        List.all_iff_forall_prop.1 (by decide)
      exact absurd (hall c hmem) hc

theorem value_standard (c : Char) :
    standardAlphabet.value c = if c ∈ strBase64Chars then some (findChar c) else none := by
  show (if c ∈ strBase64Chars then some (strBase64Chars.idxOf c) else none) = _
  unfold findChar
  split <;> rfl

theorem findChar_lt {c : Char} (h : c ∈ strBase64Chars) : findChar c < 64 := by
  unfold findChar
  rw [if_pos h]
  exact List.idxOf_lt_length_of_mem h

theorem decodeGroup_eq {c₀ c₁ c₂ c₃ : Char} (h₀ : c₀ ∈ strBase64Chars)
    (h₁ : c₁ ∈ strBase64Chars) (h₂ : c₂ ∈ strBase64Chars) (h₃ : c₃ ∈ strBase64Chars) :
    decodeGroup [c₀, c₁, c₂, c₃] =
      Base64.octets [findChar c₀, findChar c₁, findChar c₂, findChar c₃] := by
  have hlt₀ := findChar_lt h₀
  have hlt₁ := findChar_lt h₁
  have hlt₂ := findChar_lt h₂
  have hlt₃ := findChar_lt h₃
  show [(findChar c₀ * 4 + findChar c₁ / 16 % 4) % 256,
    (findChar c₁ % 16 * 16 + findChar c₂ / 4 % 16) % 256,
    (findChar c₂ % 4 * 64 + findChar c₃) % 256] =
    [findChar c₀ * 4 + findChar c₁ / 16, findChar c₁ % 16 * 16 + findChar c₂ / 4,
      findChar c₂ % 4 * 64 + findChar c₃]
  congr 1
  · omega
  · congr 1
    · omega
    · congr 1
      omega

/-- The padding of the last group is in no byte of it. -/
theorem decodeRest_eq {group : List Char} (hlength : group.length < 4)
    (h : ∀ c ∈ group, c ∈ strBase64Chars) :
    decodeRest group = Base64.octets (group.map findChar) := by
  match group with
  | [] => rfl
  | [c₀] => rfl
  | [c₀, c₁] =>
    have hlt₀ := findChar_lt (h c₀ (by simp))
    have hlt₁ := findChar_lt (h c₁ (by simp))
    show [(findChar c₀ * 4 + findChar c₁ / 16 % 4) % 256] = [findChar c₀ * 4 + findChar c₁ / 16]
    congr 1
    omega
  | [c₀, c₁, c₂] =>
    have hlt₀ := findChar_lt (h c₀ (by simp))
    have hlt₁ := findChar_lt (h c₁ (by simp))
    have hlt₂ := findChar_lt (h c₂ (by simp))
    show [(findChar c₀ * 4 + findChar c₁ / 16 % 4) % 256,
      (findChar c₁ % 16 * 16 + findChar c₂ / 4 % 16) % 256] =
      [findChar c₀ * 4 + findChar c₁ / 16, findChar c₁ % 16 * 16 + findChar c₂ / 4]
    congr 1
    · omega
    · congr 1
      omega
  | _ :: _ :: _ :: _ :: _ => simp at hlength; omega

theorem decodeLoop_eq {group chars : List Char} (hlength : group.length < 4)
    (h : ∀ c ∈ group, c ∈ strBase64Chars) :
    decodeLoop group chars = Base64.octets (group.map findChar ++
      (Base64.letters standardAlphabet chars).filterMap standardAlphabet.value) := by
  induction chars generalizing group with
  | nil =>
    rw [decodeLoop, decodeRest_eq hlength h]
    show _ = Base64.octets (group.map findChar ++ [])
    rw [List.append_nil]
  | cons c rest ih =>
    unfold decodeLoop Base64.letters
    rw [List.takeWhile_cons, value_standard]
    by_cases hc : c ∈ strBase64Chars
    · have hvalue : standardAlphabet.value c = some (findChar c) := by
        rw [value_standard, if_pos hc]
      rw [if_pos ((isBase64_iff c).2 hc), if_pos hc, Option.isSome_some, if_pos rfl,
        List.filterMap_cons_some hvalue]
      have hnext : ∀ c' ∈ group ++ [c], c' ∈ strBase64Chars := by
        intro c' hc'
        rcases List.mem_append.1 hc' with hc' | hc'
        · exact h c' hc'
        · rw [List.mem_singleton.1 hc']
          exact hc
      by_cases hfull : group.length = 3
      · -- the group is full with this character
        rw [if_pos hfull, ih (by decide) (List.forall_mem_nil _)]
        match group, hfull with
        | [c₀, c₁, c₂], _ =>
          show decodeGroup [c₀, c₁, c₂, c] ++ _ = _
          rw [decodeGroup_eq (hnext c₀ (by simp)) (hnext c₁ (by simp)) (hnext c₂ (by simp)) hc]
          rfl
      · rw [if_neg hfull, ih (by simp; omega) hnext, List.map_append, List.append_assoc]
        rfl
    · have hstop : ¬(c ≠ '=' ∧ isBase64 c = true) := fun hbase => hc ((isBase64_iff c).1 hbase)
      rw [if_neg hstop, if_neg hc, Option.isSome_none, if_neg Bool.false_ne_true,
        decodeRest_eq hlength h]
      show _ = Base64.octets (group.map findChar ++ [])
      rw [List.append_nil]

theorem base64Decode_eq (chars : List Char) :
    base64Decode chars = (Base64.decode standardAlphabet chars).map Char.ofNat := by
  unfold base64Decode Base64.decode
  rw [decodeLoop_eq (by decide) (List.forall_mem_nil _)]
  rfl

/-! ## Texts in URL letters -/

theorem standard_agrees_url : standardAlphabet.Agrees urlAlphabet := by
  unfold Base64.Alphabet.Agrees
  decide +kernel

/-- The text in URL letters of a byte string. -/
def urlEncode (text : List Char) : List Char :=
  Base64.encode urlAlphabet (text.map Char.toNat)

/-- The characters of the text that the decoder reads. -/
def readable (text : List Char) : ℕ :=
  (Base64.letters standardAlphabet (urlEncode text)).length * 6 / 8

theorem base64Decode_urlEncode {text : List Char} (h : ∀ c ∈ text, c.toNat < 256) :
    base64Decode (urlEncode text) = text.take (readable text) := by
  have hbytes : ∀ b ∈ text.map Char.toNat, b < 256 := by
    intro b hb
    obtain ⟨c, hc, rfl⟩ := List.mem_map.1 hb
    exact h c hc
  unfold readable
  rw [base64Decode_eq]
  unfold urlEncode
  rw [Base64.decode_encode_take standard_agrees_url hbytes, ← List.map_take, List.map_map]
  exact List.map_id'' (fun c => Char.ofNat_toNat c) _

theorem length_urlEncode (text : List Char) :
    (urlEncode text).length = (4 * text.length + 2) / 3 := by
  unfold urlEncode Base64.encode
  rw [List.length_map, Base64.length_sextets, List.length_map]

/-- The separator of a token is none of the letters. -/
theorem dot_not_mem_urlEncode {text : List Char} (h : ∀ c ∈ text, c.toNat < 256) :
    '.' ∉ urlEncode text := by
  intro hmem
  obtain ⟨v, hv, hdot⟩ := List.mem_map.1 hmem
  have hbytes : ∀ b ∈ text.map Char.toNat, b < 256 := by
    intro b hb
    obtain ⟨c, hc, rfl⟩ := List.mem_map.1 hb
    exact h c hc
  have hall : ∀ v < 64, urlAlphabet.letter v ≠ '.' := by decide
  exact hall v (Base64.sextets_lt hbytes v hv) hdot

end FileUtils

end DeviceClient
