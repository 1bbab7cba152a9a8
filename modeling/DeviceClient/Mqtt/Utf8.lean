import DeviceClient.Mqtt.Packet

/-!
# Strings of the protocol

`mosquitto_validate_utf8` goes over a text that ends in a NUL and checks it code point by code
point. The topics of publishes and of messages that arrive go through it.

* `validateUtf8_iff`: it accepts the encodings of the characters that are neither control
  characters nor noncharacters, and nothing else.
-/

namespace DeviceClient

namespace Mqtt

/-! ## The function -/

/-- The length of a sequence and the bits of its first byte. -/
def firstByte (b : UInt8) : Option (ℕ × ℕ) :=
  if b = 0 then none
  else if b ≤ 0x7F then some (1, b.toNat)
  else if b &&& 0xE0 = 0xC0 then
    if b = 0xC0 ∨ b = 0xC1 then none else some (2, (b &&& 0x1F).toNat)
  else if b &&& 0xF0 = 0xE0 then some (3, (b &&& 0x0F).toNat)
  else if b &&& 0xF8 = 0xF0 then
    if b > 0xF4 then none else some (4, (b &&& 0x07).toNat)
  else none

/-- The continuation bytes of a sequence. The text ends in a NUL, which is none. -/
def continuation : ℕ → ℕ → List UInt8 → Option (ℕ × List UInt8)
  | 0, codepoint, rest => some (codepoint, rest)
  | _ + 1, _, [] => none
  | n + 1, codepoint, b :: rest =>
    if b &&& 0xC0 ≠ 0x80 then none
    else continuation n (codepoint <<< 6 ||| (b &&& 0x3F).toNat) rest

/-- The checks on a whole code point. -/
def codepointOk (codelen codepoint : ℕ) : Bool :=
  !(0xD800 ≤ codepoint && codepoint ≤ 0xDFFF) &&
  !(codelen == 3 && codepoint < 0x0800) &&
  !(codelen == 4 && (codepoint < 0x10000 || codepoint > 0x10FFFF)) &&
  !(0xFDD0 ≤ codepoint && codepoint ≤ 0xFDEF) &&
  !(codepoint &&& 0xFFFF == 0xFFFE || codepoint &&& 0xFFFF == 0xFFFF) &&
  !(codepoint ≤ 0x001F || (0x007F ≤ codepoint && codepoint ≤ 0x009F))

/-- One turn of the loop: what is left after the code point. -/
def nextCodepoint (b : UInt8) (rest : List UInt8) : Option (List UInt8) :=
  match firstByte b with
  | none => none
  | some (codelen, bits) =>
    -- the test `i == len - codelen + 1` sees a text that is one byte short, the NUL the others
    if rest.length + 2 = codelen then none
    else
      match continuation (codelen - 1) bits rest with
      | none => none
      | some (codepoint, rest') => if codepointOk codelen codepoint then some rest' else none

/-- The loop, as many turns as there are bytes at most. -/
def validLoop : ℕ → List UInt8 → Bool
  | _, [] => true
  | 0, _ :: _ => false
  | fuel + 1, b :: rest =>
    match nextCodepoint b rest with
    | none => false
    | some rest' => validLoop fuel rest'

/-- `mosquitto_validate_utf8`, on the bytes before the NUL. -/
def validateUtf8 (str : List UInt8) : MosqErr :=
  if str.length > 65536 then .inval
  else if validLoop str.length str then .success
  else .malformedUtf8

/-! ## Bits -/

theorem forall_byte {P : UInt8 → Prop} (h : ∀ i : Fin 256, P (UInt8.ofNat i.val)) (b : UInt8) :
    P b := by
  have hb := h ⟨b.toNat, b.toNat_lt⟩
  rwa [UInt8.ofNat_toNat] at hb

theorem isTwo_iff (b : UInt8) : b &&& 0xE0 = 0xC0 ↔ 192 ≤ b.toNat ∧ b.toNat < 224 :=
  forall_byte (P := fun b => b &&& 0xE0 = 0xC0 ↔ 192 ≤ b.toNat ∧ b.toNat < 224)
    (by decide +kernel) b

theorem isThree_iff (b : UInt8) : b &&& 0xF0 = 0xE0 ↔ 224 ≤ b.toNat ∧ b.toNat < 240 :=
  forall_byte (P := fun b => b &&& 0xF0 = 0xE0 ↔ 224 ≤ b.toNat ∧ b.toNat < 240)
    (by decide +kernel) b

theorem isFour_iff (b : UInt8) : b &&& 0xF8 = 0xF0 ↔ 240 ≤ b.toNat ∧ b.toNat < 248 :=
  forall_byte (P := fun b => b &&& 0xF8 = 0xF0 ↔ 240 ≤ b.toNat ∧ b.toNat < 248)
    (by decide +kernel) b

theorem isContinuation_iff (b : UInt8) : b &&& 0xC0 = 0x80 ↔ 128 ≤ b.toNat ∧ b.toNat < 192 :=
  forall_byte (P := fun b => b &&& 0xC0 = 0x80 ↔ 128 ≤ b.toNat ∧ b.toNat < 192)
    (by decide +kernel) b

/-- A mask of the low `k` bits. -/
theorem toNat_and_mask (b mask : UInt8) (k : ℕ) (h : mask.toNat = 2 ^ k - 1) :
    (b &&& mask).toNat = b.toNat % 2 ^ k := by
  rw [UInt8.toNat_and, h, Nat.and_two_pow_sub_one_eq_mod]

/-- `firstByte` by the ranges of the byte. -/
theorem firstByte_eq (b : UInt8) : firstByte b =
    if b.toNat = 0 then none
    else if b.toNat ≤ 127 then some (1, b.toNat)
    else if 194 ≤ b.toNat ∧ b.toNat < 224 then some (2, b.toNat % 32)
    else if 224 ≤ b.toNat ∧ b.toNat < 240 then some (3, b.toNat % 16)
    else if 240 ≤ b.toNat ∧ b.toNat ≤ 244 then some (4, b.toNat % 8)
    else none := by
  have hzero : b = 0 ↔ b.toNat = 0 := by rw [← UInt8.toNat_inj]; rfl
  have hle : b ≤ 0x7F ↔ b.toNat ≤ 127 := UInt8.le_iff_toNat_le
  have hc0 : b = 0xC0 ↔ b.toNat = 192 := by rw [← UInt8.toNat_inj]; rfl
  have hc1 : b = 0xC1 ↔ b.toNat = 193 := by rw [← UInt8.toNat_inj]; rfl
  have hf4 : b > 0xF4 ↔ 244 < b.toNat := UInt8.lt_iff_toNat_lt
  have h32 := toNat_and_mask b 0x1F 5 rfl
  have h16 := toNat_and_mask b 0x0F 4 rfl
  have h8 := toNat_and_mask b 0x07 3 rfl
  unfold firstByte
  rw [h32, h16, h8]
  simp only [hzero, hle, isTwo_iff, isThree_iff, isFour_iff, hc0, hc1, hf4]
  norm_num only
  split_ifs <;> first | rfl | omega

theorem continuation_cons (n codepoint : ℕ) (b : UInt8) (rest : List UInt8) :
    continuation (n + 1) codepoint (b :: rest) =
      if 128 ≤ b.toNat ∧ b.toNat < 192 then continuation n (codepoint * 64 + b.toNat % 64) rest
      else none := by
  have hlow := toNat_and_mask b 0x3F 6 rfl
  have hmod : b.toNat % 2 ^ 6 < 2 ^ 6 := Nat.mod_lt _ (by decide)
  have hor : codepoint <<< 6 ||| b.toNat % 2 ^ 6 = codepoint * 64 + b.toNat % 64 := by
    rw [Nat.shiftLeft_eq, Nat.mul_comm, ← Nat.two_pow_add_eq_or_of_lt hmod, Nat.mul_comm]
    rfl
  rw [continuation, hlow, hor]
  by_cases h : b &&& 0xC0 = 0x80
  · rw [if_neg (not_not.2 h), if_pos ((isContinuation_iff b).1 h)]
  · rw [if_pos h, if_neg fun h' => h ((isContinuation_iff b).2 h')]

/-! ## Characters -/

/-- Neither a control character nor a noncharacter. -/
structure Allowed (n : ℕ) : Prop where
  not_control : ¬(n ≤ 0x1F ∨ 0x7F ≤ n ∧ n ≤ 0x9F)
  not_block : ¬(0xFDD0 ≤ n ∧ n ≤ 0xFDEF)
  not_end : n % 65536 ≠ 0xFFFE ∧ n % 65536 ≠ 0xFFFF

theorem codepointOk_iff (codelen n : ℕ) : codepointOk codelen n = true ↔
    ¬(0xD800 ≤ n ∧ n ≤ 0xDFFF) ∧ ¬(codelen = 3 ∧ n < 0x800) ∧
      ¬(codelen = 4 ∧ (n < 0x10000 ∨ 0x10FFFF < n)) ∧ Allowed n := by
  have hmask : n &&& 0xFFFF = n % 65536 := Nat.and_two_pow_sub_one_eq_mod n 16
  unfold codepointOk
  rw [hmask]
  simp only [Bool.and_eq_true, Bool.not_eq_true', Bool.and_eq_false_iff, Bool.or_eq_false_iff,
    decide_eq_false_iff_not, beq_eq_false_iff_ne]
  constructor
  · rintro ⟨⟨⟨⟨⟨h1, h2⟩, h3⟩, h4⟩, h5⟩, h6⟩
    refine ⟨by omega, by omega, ?_, ⟨by omega, by omega, h5⟩⟩
    omega
  · rintro ⟨h1, h2, h3, ⟨h6, h4, h5⟩⟩
    refine ⟨⟨⟨⟨⟨by omega, by omega⟩, ?_⟩, by omega⟩, h5⟩, by omega⟩
    omega

theorem exists_char {n : ℕ} (h : ¬(0xD800 ≤ n ∧ n ≤ 0xDFFF)) (hlt : n < 0x110000) :
    ∃ c : Char, c.val.toNat = n := by
  have hvalid : n.isValidChar := by
    unfold Nat.isValidChar
    omega
  exact ⟨Char.ofNatAux n hvalid, rfl⟩

theorem char_range (c : Char) :
    c.val.toNat < 0xD800 ∨ 0xDFFF < c.val.toNat ∧ c.val.toNat < 0x110000 :=
  c.valid

/-- A byte that is given by its value. -/
theorem ofNat_eq_byte {n : ℕ} {b : UInt8} (h : n = b.toNat) : UInt8.ofNat n = b := by
  rw [h, UInt8.ofNat_toNat]

/-- A sequence whose first byte is known. -/
theorem nextCodepoint_of_first {b : UInt8} {codelen bits : ℕ}
    (hfirst : firstByte b = some (codelen, bits)) {rest rest' : List UInt8} :
    nextCodepoint b rest = some rest' ↔
      rest.length + 2 ≠ codelen ∧
        ∃ codepoint, continuation (codelen - 1) bits rest = some (codepoint, rest') ∧
          codepointOk codelen codepoint = true := by
  unfold nextCodepoint
  rw [hfirst]
  dsimp only
  constructor
  · intro h
    split_ifs at h with hlength
    split at h
    · cases h
    case h_2 codepoint rest1 hcontinuation =>
      split_ifs at h with hok
      cases h
      exact ⟨hlength, codepoint, hcontinuation, hok⟩
  · rintro ⟨hlength, codepoint, hcontinuation, hok⟩
    rw [if_neg hlength, hcontinuation]
    dsimp only
    rw [if_pos hok]

theorem continuation_zero_iff {bits codepoint : ℕ} {rest rest' : List UInt8} :
    continuation 0 bits rest = some (codepoint, rest') ↔ codepoint = bits ∧ rest = rest' := by
  unfold continuation
  rw [Option.some.injEq, Prod.mk.injEq, eq_comm]

/-- One more continuation byte. -/
theorem continuation_succ_iff {n bits codepoint : ℕ} {rest rest' : List UInt8} :
    continuation (n + 1) bits rest = some (codepoint, rest') ↔
      ∃ b rest1, rest = b :: rest1 ∧ (128 ≤ b.toNat ∧ b.toNat < 192) ∧
        continuation n (bits * 64 + b.toNat % 64) rest1 = some (codepoint, rest') := by
  constructor
  · intro h
    rcases rest with - | ⟨b, rest1⟩
    · cases h
    · rw [continuation_cons] at h
      split_ifs at h with hb
      exact ⟨b, rest1, rfl, hb, h⟩
  · rintro ⟨b, rest1, rfl, hb, h⟩
    rw [continuation_cons, if_pos hb, h]

theorem utf8EncodeChar_eq (c : Char) {n : ℕ} (hn : c.val.toNat = n) :
    String.utf8EncodeChar c =
      if n ≤ 0x7f then [.ofNat n]
      else if n ≤ 0x7ff then [.ofNat (n / 64 % 0x20 + 0xc0), .ofNat (n % 0x40 + 0x80)]
      else if n ≤ 0xffff then
        [.ofNat (n / 4096 % 0x10 + 0xe0), .ofNat (n / 64 % 0x40 + 0x80), .ofNat (n % 0x40 + 0x80)]
      else
        [.ofNat (n / 262144 % 0x08 + 0xf0), .ofNat (n / 4096 % 0x40 + 0x80),
          .ofNat (n / 64 % 0x40 + 0x80), .ofNat (n % 0x40 + 0x80)] := by
  subst hn
  rfl

/-- What is in front of the rest is a character that is allowed. -/
theorem nextCodepoint_sound {b : UInt8} {rest rest' : List UInt8}
    (h : nextCodepoint b rest = some rest') :
    ∃ c : Char, Allowed c.val.toNat ∧ b :: rest = String.utf8EncodeChar c ++ rest' := by
  have hfirst := firstByte_eq b
  split_ifs at hfirst with hzero hone htwo hthree hfour
  · rw [nextCodepoint, hfirst] at h
    cases h
  · obtain ⟨-, n, hn, hok⟩ := (nextCodepoint_of_first hfirst).1 h
    obtain ⟨rfl, rfl⟩ := continuation_zero_iff.1 hn
    obtain ⟨hsurrogate, -, -, hallowed⟩ := (codepointOk_iff _ _).1 hok
    obtain ⟨c, hc⟩ := exists_char hsurrogate (by omega)
    refine ⟨c, hc ▸ hallowed, ?_⟩
    rw [utf8EncodeChar_eq c hc, if_pos hone, ofNat_eq_byte rfl]
    rfl
  · obtain ⟨-, n, hn, hok⟩ := (nextCodepoint_of_first hfirst).1 h
    obtain ⟨b1, rest1, rfl, hb1, hn⟩ := continuation_succ_iff.1 hn
    obtain ⟨rfl, rfl⟩ := continuation_zero_iff.1 hn
    obtain ⟨hsurrogate, -, -, hallowed⟩ := (codepointOk_iff _ _).1 hok
    obtain ⟨c, hc⟩ := exists_char hsurrogate (by omega)
    refine ⟨c, hc ▸ hallowed, ?_⟩
    rw [utf8EncodeChar_eq c hc, if_neg (by omega), if_pos (by omega),
      ofNat_eq_byte (b := b) (by omega), ofNat_eq_byte (b := b1) (by omega)]
    rfl
  · obtain ⟨-, n, hn, hok⟩ := (nextCodepoint_of_first hfirst).1 h
    obtain ⟨b1, rest1, rfl, hb1, hn⟩ := continuation_succ_iff.1 hn
    obtain ⟨b2, rest2, rfl, hb2, hn⟩ := continuation_succ_iff.1 hn
    obtain ⟨rfl, rfl⟩ := continuation_zero_iff.1 hn
    obtain ⟨hsurrogate, hlong, -, hallowed⟩ := (codepointOk_iff _ _).1 hok
    obtain ⟨c, hc⟩ := exists_char hsurrogate (by omega)
    refine ⟨c, hc ▸ hallowed, ?_⟩
    rw [utf8EncodeChar_eq c hc, if_neg (by omega), if_neg (by omega), if_pos (by omega),
      ofNat_eq_byte (b := b) (by omega), ofNat_eq_byte (b := b1) (by omega),
      ofNat_eq_byte (b := b2) (by omega)]
    rfl
  · obtain ⟨-, n, hn, hok⟩ := (nextCodepoint_of_first hfirst).1 h
    obtain ⟨b1, rest1, rfl, hb1, hn⟩ := continuation_succ_iff.1 hn
    obtain ⟨b2, rest2, rfl, hb2, hn⟩ := continuation_succ_iff.1 hn
    obtain ⟨b3, rest3, rfl, hb3, hn⟩ := continuation_succ_iff.1 hn
    obtain ⟨rfl, rfl⟩ := continuation_zero_iff.1 hn
    obtain ⟨hsurrogate, -, hlong, hallowed⟩ := (codepointOk_iff _ _).1 hok
    obtain ⟨c, hc⟩ := exists_char hsurrogate (by omega)
    refine ⟨c, hc ▸ hallowed, ?_⟩
    rw [utf8EncodeChar_eq c hc, if_neg (by omega), if_neg (by omega), if_neg (by omega),
      ofNat_eq_byte (b := b) (by omega), ofNat_eq_byte (b := b1) (by omega),
      ofNat_eq_byte (b := b2) (by omega), ofNat_eq_byte (b := b3) (by omega)]
    rfl
  · rw [nextCodepoint, hfirst] at h
    cases h

theorem toNat_ofNat_byte {n : ℕ} (h : n < 256) : (UInt8.ofNat n).toNat = n := by
  rw [UInt8.toNat_ofNat']
  omega

/-- A character that is allowed is gone over, whatever follows it. -/
theorem nextCodepoint_complete {c : Char} (hallowed : Allowed c.val.toNat) (rest : List UInt8) :
    ∃ b rest1, String.utf8EncodeChar c ++ rest = b :: rest1 ∧
      nextCodepoint b rest1 = some rest := by
  obtain ⟨n, hn⟩ : ∃ n, c.val.toNat = n := ⟨_, rfl⟩
  have hrange := char_range c
  rw [hn] at hallowed hrange
  have hcontrol := hallowed.not_control
  have hok : ∀ codelen, ¬(codelen = 3 ∧ n < 0x800) → ¬(codelen = 4 ∧ n < 0x10000) →
      codepointOk codelen n = true := by
    intro codelen hthree hfour
    rw [codepointOk_iff]
    exact ⟨by omega, hthree, by omega, hallowed⟩
  rw [utf8EncodeChar_eq c hn]
  split_ifs with hone htwo hthree
  · refine ⟨_, _, rfl, ?_⟩
    have hb : (UInt8.ofNat n).toNat = n := toNat_ofNat_byte (by omega)
    have hfirst : firstByte (UInt8.ofNat n) = some (1, n) := by
      rw [firstByte_eq, hb, if_neg (by omega), if_pos (by omega)]
    refine (nextCodepoint_of_first hfirst).2 ⟨by omega, n, ?_, hok 1 (by omega) (by omega)⟩
    exact continuation_zero_iff.2 ⟨rfl, rfl⟩
  · refine ⟨_, _, rfl, ?_⟩
    have hb := toNat_ofNat_byte (n := n / 64 % 0x20 + 0xc0) (by omega)
    have hb1 := toNat_ofNat_byte (n := n % 0x40 + 0x80) (by omega)
    have hfirst : firstByte (UInt8.ofNat (n / 64 % 0x20 + 0xc0)) = some (2, n / 64) := by
      rw [firstByte_eq, hb, if_neg (by omega), if_neg (by omega), if_pos (by omega)]
      congr 2
      omega
    refine (nextCodepoint_of_first hfirst).2 ⟨?_, n, ?_, hok 2 (by omega) (by omega)⟩
    · simp
    · refine continuation_succ_iff.2 ⟨_, _, rfl, by omega, continuation_zero_iff.2 ⟨?_, rfl⟩⟩
      omega
  · refine ⟨_, _, rfl, ?_⟩
    have hb := toNat_ofNat_byte (n := n / 4096 % 0x10 + 0xe0) (by omega)
    have hb1 := toNat_ofNat_byte (n := n / 64 % 0x40 + 0x80) (by omega)
    have hb2 := toNat_ofNat_byte (n := n % 0x40 + 0x80) (by omega)
    have hfirst : firstByte (UInt8.ofNat (n / 4096 % 0x10 + 0xe0)) = some (3, n / 4096) := by
      rw [firstByte_eq, hb, if_neg (by omega), if_neg (by omega), if_neg (by omega),
        if_pos (by omega)]
      congr 2
      omega
    refine (nextCodepoint_of_first hfirst).2 ⟨?_, n, ?_, hok 3 (by omega) (by omega)⟩
    · simp
    · refine continuation_succ_iff.2 ⟨_, _, rfl, by omega, ?_⟩
      refine continuation_succ_iff.2 ⟨_, _, rfl, by omega, continuation_zero_iff.2 ⟨?_, rfl⟩⟩
      omega
  · refine ⟨_, _, rfl, ?_⟩
    have hb := toNat_ofNat_byte (n := n / 262144 % 0x08 + 0xf0) (by omega)
    have hb1 := toNat_ofNat_byte (n := n / 4096 % 0x40 + 0x80) (by omega)
    have hb2 := toNat_ofNat_byte (n := n / 64 % 0x40 + 0x80) (by omega)
    have hb3 := toNat_ofNat_byte (n := n % 0x40 + 0x80) (by omega)
    have hfirst : firstByte (UInt8.ofNat (n / 262144 % 0x08 + 0xf0)) = some (4, n / 262144) := by
      rw [firstByte_eq, hb, if_neg (by omega), if_neg (by omega), if_neg (by omega),
        if_neg (by omega), if_pos (by omega)]
      congr 2
      omega
    refine (nextCodepoint_of_first hfirst).2 ⟨?_, n, ?_, hok 4 (by omega) (by omega)⟩
    · simp
    · refine continuation_succ_iff.2 ⟨_, _, rfl, by omega, ?_⟩
      refine continuation_succ_iff.2 ⟨_, _, rfl, by omega, ?_⟩
      refine continuation_succ_iff.2 ⟨_, _, rfl, by omega, continuation_zero_iff.2 ⟨?_, rfl⟩⟩
      omega

/-! ## Texts -/

theorem length_nextCodepoint {b : UInt8} {rest rest' : List UInt8}
    (h : nextCodepoint b rest = some rest') : rest'.length ≤ rest.length := by
  obtain ⟨c, -, heq⟩ := nextCodepoint_sound h
  have hlength := congrArg List.length heq
  have hsize := c.utf8Size_pos
  rw [List.length_append, String.length_utf8EncodeChar, List.length_cons] at hlength
  omega

theorem validLoop_iff {fuel : ℕ} {l : List UInt8} (hfuel : l.length ≤ fuel) :
    validLoop fuel l = true ↔
      ∃ cs : List Char, (∀ c ∈ cs, Allowed c.val.toNat) ∧ l = cs.flatMap String.utf8EncodeChar := by
  induction fuel generalizing l with
  | zero =>
    rw [List.length_eq_zero_iff.1 (Nat.le_zero.1 hfuel)]
    exact iff_of_true rfl ⟨[], by simp, rfl⟩
  | succ fuel ih =>
    rcases l with - | ⟨b, rest⟩
    · exact iff_of_true rfl ⟨[], by simp, rfl⟩
    · rw [List.length_cons] at hfuel
      unfold validLoop
      constructor
      · intro h
        split at h
        · cases h
        case h_2 rest' hnext =>
          have hlength := length_nextCodepoint hnext
          obtain ⟨cs, hcs, rfl⟩ := (ih (by omega)).1 h
          obtain ⟨c, hc, heq⟩ := nextCodepoint_sound hnext
          refine ⟨c :: cs, ?_, heq⟩
          rintro d hd
          rcases List.mem_cons.1 hd with rfl | hd
          · exact hc
          · exact hcs d hd
      · rintro ⟨cs, hcs, heq⟩
        rcases cs with - | ⟨c, cs⟩
        · cases heq
        · rw [List.flatMap_cons] at heq
          obtain ⟨b', rest1, hsplit, hnext⟩ :=
            nextCodepoint_complete (hcs c List.mem_cons_self) (cs.flatMap String.utf8EncodeChar)
          rw [hsplit] at heq
          cases heq
          have hlength := length_nextCodepoint hnext
          rw [hnext]
          exact (ih (by omega)).2 ⟨cs, fun d hd => hcs d (List.mem_cons_of_mem c hd), rfl⟩

/-- A text is accepted iff it is not too long and the encoding of characters that are neither
control characters (so it holds no NUL) nor noncharacters: no overlong sequence, no surrogate,
nothing cut off. -/
theorem validateUtf8_iff (str : List UInt8) :
    validateUtf8 str = .success ↔ str.length ≤ 65536 ∧
      ∃ cs : List Char, (∀ c ∈ cs, Allowed c.val.toNat) ∧
        str = cs.flatMap String.utf8EncodeChar := by
  rw [← validLoop_iff (Nat.le_refl str.length)]
  unfold validateUtf8
  split_ifs with hlong hvalid
  · exact iff_of_false (by decide) fun h => absurd h.1 (by omega)
  · exact iff_of_true rfl ⟨by omega, hvalid⟩
  · exact iff_of_false (by decide) fun h => hvalid h.2

end Mqtt

end DeviceClient
