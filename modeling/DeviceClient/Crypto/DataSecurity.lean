import DeviceClient.Lib.Int32
import DeviceClient.Util.Base64Decode

/-!
# Stored payloads

`CIgniteDataSecurity` with `CAesGcm`, `CAes` and `CBase64`: what is stored is encrypted by
AES-GCM without a tag, and what is read may also be of the older AES-CBC. Strings of the
program are bytes, those in base64 characters. The calls of OpenSSL are parameters.

* `decode_paddedBase64`: a text is decoded if an `int` counts its characters.
* `decrypt_eq_gcm`: what is decoded is taken as AES-GCM, whatever it is, and has the length
  of the cipher text.
* `decrypt_stored_iff`: what is encrypted comes back up to a length; what was stored in the
  older format does not.
-/

namespace DeviceClient

/-- What `CBase64` has from OpenSSL: the text of bytes, and the bytes that are read of a
text, at most so many. -/
structure Base64Bio where
  write : List UInt8 → List Char
  read : List Char → ℕ → List UInt8

/-- What `CAesGcm` and `CAes` have from OpenSSL, of a key and an IV; `none` is a call that
fails. -/
structure Evp where
  gcmEncrypt (strKey strIV plain : List UInt8) : Option (List UInt8)
  gcmDecrypt (strKey strIV cipher : List UInt8) : Option (List UInt8)
  cbcEncrypt (strKey strIV plain : List UInt8) : Option (List UInt8)
  cbcDecrypt (strKey strIV cipher : List UInt8) : Option (List UInt8)

/-- `CIgniteDataSecurity`. -/
structure IgniteDataSecurity where
  strKey : List UInt8
  strIV : List UInt8

/-- How an encryption fails: by its return code, or by the exception of a string that is
made with a negative length. -/
inductive EncryptFailure where
  | eGCM_FAILURE
  | lengthError
  deriving DecidableEq

open Lib (toInt32)

/-! ## Base64 -/

namespace CBase64

variable (bio : Base64Bio)

/-- `Encode`. -/
def encode (pchData : List UInt8) (nLen : ℤ) : Except EncryptFailure (List Char) :=
  if nLen ≤ 0 then .ok []
  else
    let pchOutput := bio.write (pchData.take nLen.toNat)
    let nLenoutput := toInt32 pchOutput.length
    if nLenoutput < 0 then .error .lengthError else .ok (pchOutput.take nLenoutput.toNat)

/-- `rnLenoutput`. -/
def lenOutput (strInput : List Char) : ℤ :=
  let rnLenoutput := (toInt32 strInput.length * 3).tdiv 4
  if ['=', '='].isSuffixOf strInput then rnLenoutput - 2
  else if ['='].isSuffixOf strInput then rnLenoutput - 1
  else rnLenoutput

/-- `Decode`; `none` is null. -/
def decode (strInput : List Char) : Option (List UInt8) :=
  if strInput = [] then none
  else
    let strInput := (strInput.filter (· ≠ '\n')).filter (· ≠ '\r')
    let pchOutput := bio.read strInput (lenOutput strInput).toNat
    if (pchOutput.length : ℤ) = lenOutput strInput then some pchOutput else none

end CBase64

namespace IgniteDataSecurity

variable (bio : Base64Bio) (evp : Evp) (s : IgniteDataSecurity)

/-! ## AES-GCM -/

/-- `GcmEncrypt` without a tag. -/
def gcmEncrypt (rstrPlaintext : List UInt8) : Except EncryptFailure (List Char) :=
  if rstrPlaintext = [] then .error .eGCM_FAILURE
  else
    let nPlaintTextLen := toInt32 rstrPlaintext.length
    -- the allocation throws, which is caught
    if nPlaintTextLen < 0 then .error .eGCM_FAILURE
    else
      match evp.gcmEncrypt s.strKey s.strIV (rstrPlaintext.take nPlaintTextLen.toNat) with
      | none => .error .eGCM_FAILURE
      | some cipher =>
        match CBase64.encode bio cipher cipher.length with
        | .error e => .error e
        | .ok strBase64ciphertext =>
          if strBase64ciphertext = [] then .error .eGCM_FAILURE else .ok strBase64ciphertext

/-- `GcmDecrypt`; `none` is `eGCM_FAILURE`. There is no tag to check. -/
def gcmDecrypt (rstrBase64enctext : List Char) : Option (List UInt8) :=
  match CBase64.decode bio rstrBase64enctext with
  | none => none
  | some cipher => evp.gcmDecrypt s.strKey s.strIV cipher

/-! ## AES-CBC -/

/-- `CAes::Encrypt`, which the older format was written with. -/
def cbcEncrypt (strPlaintext : List UInt8) : Except EncryptFailure (List Char) :=
  if strPlaintext = [] then .ok []
  else
    let nInlen := toInt32 strPlaintext.length
    -- the allocation fails
    if nInlen < 0 ∨ 2 ^ 31 ≤ nInlen + 16 then .ok []
    else
      match evp.cbcEncrypt s.strKey s.strIV (strPlaintext.take nInlen.toNat) with
      | none => .ok []
      | some cipher => CBase64.encode bio cipher cipher.length

/-- `CAes::Decrypt`. -/
def cbcDecrypt (strBase64enctext : List Char) : List UInt8 :=
  if strBase64enctext = [] then []
  else
    match CBase64.decode bio strBase64enctext with
    | none => []
    | some cipher => (evp.cbcDecrypt s.strKey s.strIV cipher).getD []

/-! ## `CIgniteDataSecurity` -/

/-- `Encrypt`. -/
def encrypt (rstrPlaintext : List UInt8) : Except EncryptFailure (List Char) :=
  if rstrPlaintext = [] then .ok []
  else
    match gcmEncrypt bio evp s rstrPlaintext with
    | .ok strEncryptedText => .ok strEncryptedText
    | .error .eGCM_FAILURE => .ok []
    | .error .lengthError => .error .lengthError

/-- `Decrypt`. -/
def decrypt (rstrBase64enctext : List Char) : List UInt8 :=
  if rstrBase64enctext = [] then []
  else
    match gcmDecrypt bio evp s rstrBase64enctext with
    | some strDecryptedText => strDecryptedText
    | none => cbcDecrypt bio evp s rstrBase64enctext

end IgniteDataSecurity

/-! ## What OpenSSL does -/

/-- The text of bytes: groups of four letters, the last one filled up. -/
def paddedBase64 (bytes : List UInt8) : List Char :=
  Lib.Base64.encode FileUtils.standardAlphabet (bytes.map UInt8.toNat) ++
    List.replicate ((3 - bytes.length % 3) % 3) '='

/-- Base64 in one line. -/
structure BioSpec (bio : Base64Bio) : Prop where
  write : ∀ bytes, bio.write bytes = paddedBase64 bytes
  read : ∀ bytes n, bio.read (paddedBase64 bytes) n = bytes.take n

/-- AES-GCM without a tag is a bijection that keeps the length, and AES-CBC comes back with
its padding to whole blocks. -/
structure EvpSpec (evp : Evp) (strKey strIV : List UInt8) : Prop where
  gcmEncrypt : ∀ plain, ∃ cipher, evp.gcmEncrypt strKey strIV plain = some cipher ∧
    cipher.length = plain.length ∧ evp.gcmDecrypt strKey strIV cipher = some plain
  gcmDecrypt : ∀ cipher, ∃ plain, evp.gcmDecrypt strKey strIV cipher = some plain ∧
    plain.length = cipher.length ∧ evp.gcmEncrypt strKey strIV plain = some cipher
  cbcEncrypt : ∀ plain, ∃ cipher, evp.cbcEncrypt strKey strIV plain = some cipher ∧
    cipher.length = 16 * (plain.length / 16 + 1) ∧
    evp.cbcDecrypt strKey strIV cipher = some plain

/-! ## A cipher -/

/-- Base64 by the table. -/
def Base64Bio.table : Base64Bio where
  write := paddedBase64
  read text n :=
    ((Lib.Base64.decode FileUtils.standardAlphabet text).map UInt8.ofNat).take n

/-- A key stream of one byte; blocks are filled up with their number of missing bytes. -/
def Evp.xorCipher : Evp where
  gcmEncrypt _ _ plain := some (plain.map (· ^^^ 0x5a))
  gcmDecrypt _ _ cipher := some (cipher.map (· ^^^ 0x5a))
  cbcEncrypt _ _ plain :=
    let missing := 16 - plain.length % 16
    some ((plain ++ List.replicate missing (UInt8.ofNat missing)).map (· ^^^ 0x5a))
  cbcDecrypt _ _ cipher :=
    let filled := cipher.map (· ^^^ 0x5a)
    filled.getLast?.map fun missing => filled.take (filled.length - missing.toNat)

/-! ## Texts in base64 -/

theorem length_paddedBase64 (bytes : List UInt8) :
    (paddedBase64 bytes).length = 4 * ((bytes.length + 2) / 3) := by
  unfold paddedBase64 Lib.Base64.encode
  rw [List.length_append, List.length_map, Lib.Base64.length_sextets, List.length_map,
    List.length_replicate]
  omega

/-- The letters of the alphabet are none of the characters that mean something else. -/
theorem letter_ne : ∀ v < 64, FileUtils.standardAlphabet.letter v ≠ '=' ∧
    FileUtils.standardAlphabet.letter v ≠ '\n' ∧
    FileUtils.standardAlphabet.letter v ≠ '\r' := by decide +kernel

theorem mem_encode_ne {bytes : List UInt8} {c : Char}
    (h : c ∈ Lib.Base64.encode FileUtils.standardAlphabet (bytes.map UInt8.toNat)) :
    c ≠ '=' ∧ c ≠ '\n' ∧ c ≠ '\r' := by
  have hbytes : ∀ b ∈ bytes.map UInt8.toNat, b < 256 := by
    intro b hb
    rcases List.mem_map.1 hb with ⟨byte, -, rfl⟩
    exact UInt8.toNat_lt byte
  rcases List.mem_map.1 h with ⟨v, hv, rfl⟩
  exact letter_ne v (Lib.Base64.sextets_lt hbytes v hv)

/-- There is nothing to remove before a text is decoded. -/
theorem filter_paddedBase64 (bytes : List UInt8) :
    ((paddedBase64 bytes).filter (· ≠ '\n')).filter (· ≠ '\r') = paddedBase64 bytes := by
  have hkeep : ∀ c ∈ paddedBase64 bytes, c ≠ '\n' ∧ c ≠ '\r' := by
    intro c hc
    rcases List.mem_append.1 hc with hletter | hfill
    · exact (mem_encode_ne hletter).2
    · rw [List.eq_of_mem_replicate hfill]
      decide
  have hlines : (paddedBase64 bytes).filter (· ≠ '\n') = paddedBase64 bytes :=
    List.filter_eq_self.2 fun c hc => by simpa using (hkeep c hc).1
  rw [hlines]
  exact List.filter_eq_self.2 fun c hc => by simpa using (hkeep c hc).2

theorem base64Bio_table_spec : BioSpec Base64Bio.table where
  write _ := rfl
  read bytes n := by
    have hbytes : ∀ b ∈ bytes.map UInt8.toNat, b < 256 := by
      intro b hb
      rcases List.mem_map.1 hb with ⟨byte, -, rfl⟩
      exact UInt8.toNat_lt byte
    have hknown : ∀ c ∈ Lib.Base64.encode FileUtils.standardAlphabet
        (bytes.map UInt8.toNat), (FileUtils.standardAlphabet.value c).isSome = true := by
      intro c hc
      rcases List.mem_map.1 hc with ⟨v, hv, rfl⟩
      rw [FileUtils.standardAlphabet.value_letter v (Lib.Base64.sextets_lt hbytes v hv)]
      rfl
    have hletters : Lib.Base64.letters FileUtils.standardAlphabet (paddedBase64 bytes) =
        Lib.Base64.letters FileUtils.standardAlphabet
          (Lib.Base64.encode FileUtils.standardAlphabet (bytes.map UInt8.toNat)) := by
      unfold Lib.Base64.letters paddedBase64
      rw [List.takeWhile_append_of_pos hknown, List.takeWhile_eq_self_iff.2 hknown]
      have hmark : (FileUtils.standardAlphabet.value '=').isSome = false := by decide +kernel
      -- the filling is no letter
      have hfill : ∀ k, (List.replicate k '=').takeWhile
          (fun c => (FileUtils.standardAlphabet.value c).isSome) = [] := by
        intro k
        cases k with
        | zero => rfl
        | succ k =>
          rw [List.replicate_succ, List.takeWhile_cons, hmark, if_neg Bool.false_ne_true]
      rw [hfill, List.append_nil]
    have hdecode : Lib.Base64.decode FileUtils.standardAlphabet (paddedBase64 bytes) =
        bytes.map UInt8.toNat := by
      unfold Lib.Base64.decode
      rw [hletters]
      exact Lib.Base64.decode_encode (Lib.Base64.Alphabet.agrees_self _) hbytes hknown
    show ((Lib.Base64.decode FileUtils.standardAlphabet (paddedBase64 bytes)).map
      UInt8.ofNat).take n = bytes.take n
    rw [hdecode, List.map_map]
    congr 1
    exact List.map_id'' (fun _ => UInt8.ofNat_toNat) bytes

theorem map_xor_map_xor (text : List UInt8) :
    (text.map (· ^^^ 0x5a)).map (· ^^^ 0x5a) = text := by
  rw [List.map_map]
  refine List.map_id'' (fun byte => ?_) text
  show byte ^^^ 0x5a ^^^ 0x5a = byte
  rw [UInt8.xor_assoc, UInt8.xor_self, UInt8.xor_zero]

theorem evp_xorCipher_spec (strKey strIV : List UInt8) :
    EvpSpec Evp.xorCipher strKey strIV where
  gcmEncrypt plain := ⟨_, rfl, List.length_map _, congrArg some (map_xor_map_xor plain)⟩
  gcmDecrypt cipher := ⟨_, rfl, List.length_map _, congrArg some (map_xor_map_xor cipher)⟩
  cbcEncrypt plain := by
    refine ⟨_, rfl, ?_, ?_⟩
    · rw [List.length_map, List.length_append, List.length_replicate]
      omega
    · unfold Evp.xorCipher
      dsimp only
      rw [map_xor_map_xor]
      have hmissing : 16 - plain.length % 16 = 15 - plain.length % 16 + 1 := by omega
      have hbyte : (UInt8.ofNat (16 - plain.length % 16)).toNat = 16 - plain.length % 16 := by
        rw [UInt8.toNat_ofNat']
        omega
      have hlast : (plain ++ List.replicate (16 - plain.length % 16)
          (UInt8.ofNat (16 - plain.length % 16))).getLast? =
          some (UInt8.ofNat (16 - plain.length % 16)) := by
        rw [hmissing, List.replicate_succ', ← List.append_assoc, List.getLast?_concat]
      rw [hlast, Option.map_some, hbyte, List.length_append, List.length_replicate,
        Nat.add_sub_cancel, List.take_left]

/-- The marks at the end say how many bytes the last group has. -/
theorem endsWith_paddedBase64 (bytes : List UInt8) :
    ((['=', '='] <:+ paddedBase64 bytes) ↔ bytes.length % 3 = 1) ∧
      ((['='] <:+ paddedBase64 bytes) ↔ bytes.length % 3 ≠ 0) := by
  have hletters : '=' ∉ Lib.Base64.encode FileUtils.standardAlphabet
      (bytes.map UInt8.toNat) := fun h => (mem_encode_ne h).1 rfl
  unfold paddedBase64
  have hfill : bytes.length % 3 = 0 ∨ bytes.length % 3 = 1 ∨ bytes.length % 3 = 2 := by omega
  rcases hfill with hrest | hrest | hrest
  · -- no mark
    rw [hrest]
    simp only [Nat.sub_zero, Nat.mod_self, List.replicate_zero, List.append_nil]
    constructor
    · exact ⟨fun h => absurd (h.subset (by simp)) hletters, by simp⟩
    · exact ⟨fun h => absurd (h.subset (by simp)) hletters, by simp⟩
  · -- two marks
    rw [hrest]
    exact ⟨⟨fun _ => rfl, fun _ => List.suffix_append _ _⟩, ⟨fun _ => by omega, fun _ =>
      (List.suffix_append ['='] ['=']).trans (List.suffix_append _ _)⟩⟩
  · -- one mark
    rw [hrest]
    constructor
    · constructor
      · rintro ⟨front, hfront⟩
        have hone : front ++ ['='] ++ ['='] = Lib.Base64.encode FileUtils.standardAlphabet
            (bytes.map UInt8.toNat) ++ ['='] := by simpa using hfront
        have hlast := List.append_cancel_right hone
        exact absurd (hlast ▸ (by simp : '=' ∈ front ++ ['='])) hletters
      · intro h
        omega
    · exact ⟨fun _ => by omega, fun _ => List.suffix_append _ _⟩

theorem lenOutput_paddedBase64 {bytes : List UInt8}
    (hfits : 4 * ((bytes.length + 2) / 3) < 2 ^ 31) :
    CBase64.lenOutput (paddedBase64 bytes) = bytes.length := by
  have hends := endsWith_paddedBase64 bytes
  rw [← List.isSuffixOf_iff_suffix, ← List.isSuffixOf_iff_suffix] at hends
  have hlen : toInt32 (paddedBase64 bytes).length = (paddedBase64 bytes).length :=
    Lib.toInt32_of_fits (by omega) (by rw [length_paddedBase64]; omega)
  unfold CBase64.lenOutput
  rw [hlen, length_paddedBase64]
  have hwhole : (((4 * ((bytes.length + 2) / 3) : ℕ) : ℤ) * 3).tdiv 4 =
      ((3 * ((bytes.length + 2) / 3) : ℕ) : ℤ) := by
    rw [Int.tdiv_eq_ediv_of_nonneg (by omega)]
    omega
  dsimp only
  rw [hwhole]
  split_ifs with htwo hone
  · have := hends.1.1 htwo
    omega
  · have := hends.2.1 hone
    have := mt hends.1.2 htwo
    omega
  · have := mt hends.2.2 hone
    omega

/-- A text is decoded if an `int` counts its characters. -/
theorem decode_paddedBase64 {bio : Base64Bio} (hbio : BioSpec bio) {bytes : List UInt8}
    (hne : bytes ≠ []) (hfits : 4 * ((bytes.length + 2) / 3) < 2 ^ 31) :
    CBase64.decode bio (paddedBase64 bytes) = some bytes := by
  have hsome : paddedBase64 bytes ≠ [] := by
    have := List.length_pos_iff.2 hne
    apply List.ne_nil_of_length_pos
    rw [length_paddedBase64]
    omega
  unfold CBase64.decode
  rw [if_neg hsome, filter_paddedBase64]
  dsimp only
  rw [lenOutput_paddedBase64 hfits, Int.toNat_natCast, hbio.read, List.take_length, if_pos rfl]

/-- A text is made of bytes up to the same length; from there on there is an exception. -/
theorem encode_eq {bio : Base64Bio} (hbio : BioSpec bio) {bytes : List UInt8}
    (hne : bytes ≠ []) (hint : bytes.length < 2 ^ 31) :
    CBase64.encode bio bytes bytes.length =
      if bytes.length ≤ 1610612733 then .ok (paddedBase64 bytes) else .error .lengthError := by
  have hpos := List.length_pos_iff.2 hne
  unfold CBase64.encode
  rw [if_neg (by omega), Int.toNat_natCast, List.take_length, hbio.write]
  dsimp only
  by_cases hfits : bytes.length ≤ 1610612733
  · have hlen : toInt32 (paddedBase64 bytes).length = (paddedBase64 bytes).length :=
      Lib.toInt32_of_fits (by omega) (by rw [length_paddedBase64]; omega)
    rw [if_pos hfits, hlen, if_neg (by omega), Int.toNat_natCast, List.take_length]
  · have hlen : toInt32 (paddedBase64 bytes).length = (paddedBase64 bytes).length - 2 ^ 32 :=
      Lib.toInt32_of_wraps (by rw [length_paddedBase64]; omega)
        (by rw [length_paddedBase64]; omega)
    rw [if_neg hfits, hlen, if_pos (by rw [length_paddedBase64]; omega)]

namespace IgniteDataSecurity

variable {bio : Base64Bio} {evp : Evp} {s : IgniteDataSecurity}

/-! ## Which format is taken -/

/-- The older format is tried only for texts that neither can decode. -/
theorem decrypt_eq_gcm (hevp : EvpSpec evp s.strKey s.strIV) (text : List Char) :
    decrypt bio evp s text =
      match CBase64.decode bio text with
      | none => []
      | some cipher => (evp.gcmDecrypt s.strKey s.strIV cipher).getD [] := by
  unfold decrypt gcmDecrypt cbcDecrypt
  by_cases htext : text = []
  · rw [if_pos htext, htext]
    rfl
  · rw [if_neg htext, if_neg htext]
    rcases hdecode : CBase64.decode bio text with _ | cipher
    · rfl
    · rcases hevp.gcmDecrypt cipher with ⟨plain, hplain, -⟩
      dsimp only
      rw [hplain]
      rfl

theorem decrypt_paddedBase64 (hbio : BioSpec bio) (hevp : EvpSpec evp s.strKey s.strIV)
    {cipher plain : List UInt8} (hne : cipher ≠ []) (hfits : cipher.length ≤ 1610612733)
    (hplain : evp.gcmDecrypt s.strKey s.strIV cipher = some plain) :
    decrypt bio evp s (paddedBase64 cipher) = plain := by
  rw [decrypt_eq_gcm hevp, decode_paddedBase64 hbio hne (by omega)]
  dsimp only
  rw [hplain, Option.getD_some]

/-! ## What is stored -/

/-- What is encrypted is the first part of the text, as long as an `int` says. -/
theorem encrypt_eq (hbio : BioSpec bio) (hevp : EvpSpec evp s.strKey s.strIV)
    {text : List UInt8} (htext : text ≠ []) :
    ∃ cipher, cipher.length = (toInt32 text.length).toNat ∧
      evp.gcmDecrypt s.strKey s.strIV cipher =
        some (text.take (toInt32 text.length).toNat) ∧
      encrypt bio evp s text =
        if toInt32 text.length ≤ 0 then .ok []
        else if cipher.length ≤ 1610612733 then .ok (paddedBase64 cipher)
        else .error .lengthError := by
  have hle := @Lib.toInt32_le text.length (by omega)
  have hlt := Lib.toInt32_lt text.length
  rcases hevp.gcmEncrypt (text.take (toInt32 text.length).toNat) with
    ⟨cipher, hcipher, hlength, hplain⟩
  rw [List.length_take] at hlength
  refine ⟨cipher, by omega, hplain, ?_⟩
  simp only [encrypt, gcmEncrypt, if_neg htext]
  -- a length that is negative as an `int` fails in the string
  by_cases hneg : toInt32 text.length < 0
  · rw [if_pos hneg, if_pos (by omega)]
  · rw [if_neg hneg, hcipher]
    dsimp only
    by_cases hzero : toInt32 text.length ≤ 0
    · have hnil : cipher = [] := List.length_eq_zero_iff.1 (by omega)
      have hnone : CBase64.encode bio cipher cipher.length = .ok [] := by
        unfold CBase64.encode
        rw [if_pos (by omega)]
      rw [if_pos hzero, hnone]
      dsimp only
      rw [if_pos rfl]
    · have hne : cipher ≠ [] := List.ne_nil_of_length_pos (by omega)
      have hsome : paddedBase64 cipher ≠ [] := by
        apply List.ne_nil_of_length_pos
        rw [length_paddedBase64]
        omega
      rw [if_neg hzero, encode_eq hbio hne (by omega)]
      -- the text in base64 is a third longer, and counted by an `int` too
      by_cases hfits : cipher.length ≤ 1610612733
      · rw [if_pos hfits]
        dsimp only
        rw [if_neg hsome]
      · rw [if_neg hfits]

/-- What the older format stored is the first part of the text, filled up to whole blocks. -/
theorem cbcEncrypt_eq (hbio : BioSpec bio) (hevp : EvpSpec evp s.strKey s.strIV)
    {text : List UInt8} (htext : text ≠ []) {stored : List Char}
    (h : cbcEncrypt bio evp s text = .ok stored) :
    stored = [] ∨ ∃ cipher, stored = paddedBase64 cipher ∧ cipher.length ≤ 1610612733 ∧
      cipher.length = 16 * ((toInt32 text.length).toNat / 16 + 1) := by
  have hle := @Lib.toInt32_le text.length (by omega)
  unfold cbcEncrypt at h
  rw [if_neg htext] at h
  dsimp only at h
  by_cases halloc : toInt32 text.length < 0 ∨ 2 ^ 31 ≤ toInt32 text.length + 16
  · rw [if_pos halloc] at h
    exact Or.inl (Except.ok.inj h).symm
  · right
    rcases hevp.cbcEncrypt (text.take (toInt32 text.length).toNat) with
      ⟨cipher, hcipher, hlength, -⟩
    rw [List.length_take, Nat.min_eq_left (by omega)] at hlength
    have hne : cipher ≠ [] := List.ne_nil_of_length_pos (by omega)
    rw [if_neg halloc, hcipher] at h
    dsimp only at h
    rw [encode_eq hbio hne (by omega)] at h
    by_cases hfits : cipher.length ≤ 1610612733
    · rw [if_pos hfits] at h
      exact ⟨cipher, (Except.ok.inj h).symm, hfits, hlength⟩
    · rw [if_neg hfits] at h
      exact nomatch h

/-- What is encrypted comes back if its text is no longer than an `int` counts. What was
stored in the older format is taken for AES-GCM, and never comes back. -/
theorem decrypt_stored_iff (hbio : BioSpec bio) (hevp : EvpSpec evp s.strKey s.strIV)
    (text : List UInt8) :
    ((encrypt bio evp s text).map (decrypt bio evp s) = .ok text ↔
        text.length ≤ 1610612733) ∧
      ∀ stored, cbcEncrypt bio evp s text = .ok stored →
        (decrypt bio evp s stored = text ↔ text = []) := by
  by_cases htext : text = []
  · subst htext
    exact ⟨⟨fun _ => Nat.zero_le _, fun _ => rfl⟩, fun stored h =>
      ⟨fun _ => rfl, fun _ => Except.ok.inj h ▸ rfl⟩⟩
  have hpos := List.length_pos_iff.2 htext
  have hle := @Lib.toInt32_le text.length (by omega)
  have hlt := Lib.toInt32_lt text.length
  -- a length that an `int` has is counted as it is
  have hwhole : (text.length : ℤ) < 2 ^ 31 → toInt32 text.length = text.length :=
    fun h => Lib.toInt32_of_fits (by omega) h
  constructor
  · rcases encrypt_eq hbio hevp htext with ⟨cipher, hlength, hplain, hencrypt⟩
    rw [hencrypt]
    by_cases hzero : toInt32 text.length ≤ 0
    · rw [if_pos hzero]
      constructor
      · intro h
        exact absurd (Except.ok.inj h).symm htext
      · intro h
        omega
    · rw [if_neg hzero]
      by_cases hfits : cipher.length ≤ 1610612733
      · have hne : cipher ≠ [] := List.ne_nil_of_length_pos (by omega)
        have hback := decrypt_paddedBase64 hbio hevp hne hfits hplain
        rw [if_pos hfits]
        show Except.ok (decrypt bio evp s (paddedBase64 cipher)) = Except.ok text ↔ _
        rw [hback]
        constructor
        · intro h
          have hsame := congrArg List.length (Except.ok.inj h)
          rw [List.length_take] at hsame
          omega
        · intro h
          have hall : text.take (toInt32 text.length).toNat = text :=
            List.take_of_length_le (by omega)
          rw [hall]
      · rw [if_neg hfits]
        constructor
        · exact nofun
        · intro h
          omega
  · intro stored hstored
    refine ⟨fun hback => ?_, fun h => absurd h htext⟩
    rcases cbcEncrypt_eq hbio hevp htext hstored with hnil | ⟨cipher, hcipher, hfits, hlength⟩
    · rw [← hback, hnil]
      rfl
    · -- it has the length of whole blocks, which the text is shorter than
      have hne : cipher ≠ [] := List.ne_nil_of_length_pos (by omega)
      rcases hevp.gcmDecrypt cipher with ⟨plain, hplain, hsame, -⟩
      rw [hcipher, decrypt_paddedBase64 hbio hevp hne hfits hplain] at hback
      rw [hback] at hsame
      omega

theorem decrypt_stored_iff_letter :
    ((encrypt .table .xorCipher ⟨[1], [2]⟩ [0x61]).map (decrypt .table .xorCipher ⟨[1], [2]⟩) =
          .ok [0x61] ↔
        [(0x61 : UInt8)].length ≤ 1610612733) ∧
      ∀ stored, cbcEncrypt .table .xorCipher ⟨[1], [2]⟩ [0x61] = .ok stored →
        (decrypt .table .xorCipher ⟨[1], [2]⟩ stored = [0x61] ↔ [(0x61 : UInt8)] = []) :=
  decrypt_stored_iff base64Bio_table_spec (evp_xorCipher_spec [1] [2]) [0x61]

/-- One letter of the older format comes back as a whole block. -/
theorem not_decrypt_legacy :
    BioSpec .table ∧ EvpSpec .xorCipher [1] [2] ∧
      ∃ stored, cbcEncrypt .table .xorCipher ⟨[1], [2]⟩ [0x61] = .ok stored ∧
        decrypt .table .xorCipher ⟨[1], [2]⟩ stored ≠ [0x61] := by
  have hstored : cbcEncrypt .table .xorCipher ⟨[1], [2]⟩ [0x61] =
      .ok (paddedBase64 (0x3b :: List.replicate 15 0x55)) := by decide +kernel
  have hback : decrypt .table .xorCipher ⟨[1], [2]⟩
      (paddedBase64 (0x3b :: List.replicate 15 0x55)) =
        0x61 :: List.replicate 15 0x0f := by decide +kernel
  exact ⟨base64Bio_table_spec, evp_xorCipher_spec [1] [2], _, hstored, by rw [hback]; decide⟩

end IgniteDataSecurity

end DeviceClient
