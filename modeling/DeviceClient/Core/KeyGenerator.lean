import Mathlib.Data.List.Chain
import Mathlib.Tactic.Common

/-!
# The passcode key

`CKeyGenerator::GetPasscodeKey` makes a key of the ends of the device id and of the serial
number, and keeps it for the next call with the same device id. A text is its bytes; `none`
is what C++ leaves undefined.

* `toHexString_eq_iff`: the digits of the code are those of the bytes below 128.
* `passcodeKeys_cons_of_miss`, `passcodeKeys_cons_of_hit`: one call.
* `passcodeKeys_eq_iff`: the calls for which all the keys are right.
-/

namespace DeviceClient

namespace KeyGenerator

def NUM_SERIAL_BYTES : ℕ := 3

def NUM_HARMANID_BYTES : ℕ := 5

def padByte : UInt8 := 'X'.toUInt8

/-! ## The code -/

/-- `(int)c` for a signed character, as `std::hex` prints it. -/
def charAsInt (b : UInt8) : ℕ := if b.toNat < 128 then b.toNat else b.toNat + 0xFFFFFF00

/-- A byte under `std::setw(2)` and `std::setfill('0')`. -/
def hexOfChar (b : UInt8) : List Char :=
  ((Nat.toDigits 16 (charAsInt b)).map Char.toUpper).leftpad 2 '0'

/-- `ToHexString`. -/
def toHexString (rstrInputKey : List UInt8) : List Char := rstrInputKey.flatMap hexOfChar

/-- The two static variables. -/
structure PassKeyCache where
  strDeviceID : List UInt8
  strPassKEY : List Char
deriving DecidableEq

/-- The serial number as it goes into the key. -/
def serialPart (strSerial : List UInt8) : List UInt8 :=
  if strSerial ≠ [] then
    if strSerial.length < NUM_SERIAL_BYTES then
      strSerial ++ List.replicate (NUM_SERIAL_BYTES - strSerial.length) padByte
    else strSerial.take NUM_SERIAL_BYTES
  else strSerial

/-- The device id as it goes into the key. The padding of a short one is inserted into
`strSerial` at an iterator of `strDeviceId`. -/
def deviceIdPart (strDeviceId : List UInt8) : Option (List UInt8) :=
  if strDeviceId ≠ [] then
    if strDeviceId.length < NUM_HARMANID_BYTES then none
    else some (strDeviceId.drop (strDeviceId.length - NUM_HARMANID_BYTES))
  else some strDeviceId

/-- `GetPasscodeKey`; `strSerialNumber` is what `CDeviceDetails` has at the call. -/
def getPasscodeKey (strSerialNumber rstrDeviceID : List UInt8) (cache : PassKeyCache) :
    Option (List Char × PassKeyCache) :=
  if cache.strPassKEY = [] ∨ cache.strDeviceID ≠ rstrDeviceID then
    (deviceIdPart rstrDeviceID).map fun strDeviceId =>
      (toHexString (strDeviceId ++ serialPart strSerialNumber),
        ⟨rstrDeviceID, toHexString (strDeviceId ++ serialPart strSerialNumber)⟩)
  else some (cache.strPassKEY, cache)

/-- A call: the device id, and the serial number that the device has then. -/
structure KeyCall where
  strDeviceID : List UInt8
  strSerial : List UInt8
deriving DecidableEq

/-- The keys of calls in order. -/
def passcodeKeys : PassKeyCache → List KeyCall → Option (List (List Char))
  | _, [] => some []
  | cache, call :: calls =>
    (getPasscodeKey call.strSerial call.strDeviceID cache).bind fun (key, cache') =>
      (passcodeKeys cache' calls).map (key :: ·)

def noKey : PassKeyCache := ⟨[], []⟩

/-! ## What the key should be -/

def hexDigit (n : ℕ) : Char := ['0', '1', '2', '3', '4', '5', '6', '7', '8', '9',
  'A', 'B', 'C', 'D', 'E', 'F'].getD n ' '

/-- The two digits of each byte. -/
def hexText (bytes : List UInt8) : List Char :=
  bytes.flatMap fun b => [hexDigit (b.toNat / 16), hexDigit (b.toNat % 16)]

/-- The last five bytes, padded on the right. -/
def lastFive (text : List UInt8) : List UInt8 :=
  (text.drop (text.length - 5)).rightpad 5 padByte

/-- The first three bytes, padded on the right. -/
def firstThree (text : List UInt8) : List UInt8 := (text.take 3).rightpad 3 padByte

def KeyCall.bytes (call : KeyCall) : List UInt8 :=
  lastFive call.strDeviceID ++ firstThree call.strSerial

def KeyCall.key (call : KeyCall) : List Char := hexText call.bytes

/-- The device id and the serial number are there. -/
def KeyCall.Filled (call : KeyCall) : Prop := call.strDeviceID ≠ [] ∧ call.strSerial ≠ []

/-- The device id is not short, and the bytes of the key are below 128. -/
def KeyCall.Plain (call : KeyCall) : Prop :=
  5 ≤ call.strDeviceID.length ∧ ∀ b ∈ call.bytes, b.toNat < 128

/-- A call with the device id of the one before has the beginning of its serial number. -/
def SameSerial (call next : KeyCall) : Prop :=
  call.strDeviceID = next.strDeviceID → firstThree call.strSerial = firstThree next.strSerial

instance (call : KeyCall) : Decidable call.Filled := inferInstanceAs (Decidable (_ ∧ _))

theorem KeyCall.plain_iff (call : KeyCall) :
    (5 ≤ call.strDeviceID.length ∧ call.bytes.all (fun b => b.toNat < 128) = true) ↔
      call.Plain := by
  unfold KeyCall.Plain
  simp only [List.all_eq_true, decide_eq_true_eq]

instance (call : KeyCall) : Decidable call.Plain := decidable_of_iff _ call.plain_iff

instance (call next : KeyCall) : Decidable (SameSerial call next) :=
  inferInstanceAs (Decidable (_ → _))

/-! ## Hexadecimal digits -/

/-- What holds of the 256 bytes holds of every byte. -/
theorem of_bytes {p : UInt8 → Prop} (h : ∀ n < 256, p (UInt8.ofNat n)) (b : UInt8) : p b := by
  have hbyte := h b.toNat b.toNat_lt
  rw [UInt8.ofNat_toNat] at hbyte
  exact hbyte

theorem hexOfChar_of_lt (b : UInt8) :
    b.toNat < 128 → hexOfChar b = [hexDigit (b.toNat / 16), hexDigit (b.toNat % 16)] :=
  @of_bytes (fun b => b.toNat < 128 →
    hexOfChar b = [hexDigit (b.toNat / 16), hexDigit (b.toNat % 16)]) (by decide +kernel) b

/-- From 128 on the sign is extended: `FFFFFF80`. -/
theorem length_hexOfChar (b : UInt8) :
    (hexOfChar b).length = if b.toNat < 128 then 2 else 8 :=
  @of_bytes (fun b => (hexOfChar b).length = if b.toNat < 128 then 2 else 8) (by decide +kernel) b

theorem hexDigit_inj : ∀ m < 16, ∀ n < 16, hexDigit m = hexDigit n → m = n := by decide

theorem length_hexText (bytes : List UInt8) : (hexText bytes).length = 2 * bytes.length := by
  induction bytes with
  | nil => rfl
  | cons b bytes ih =>
    unfold hexText at ih ⊢
    rw [List.flatMap_cons, List.length_append, ih, List.length_cons]
    simp only [List.length_cons, List.length_nil]
    omega

theorem hexText_injective {bytes bytes' : List UInt8} (h : hexText bytes = hexText bytes') :
    bytes = bytes' := by
  induction bytes generalizing bytes' with
  | nil =>
    have hlen := congrArg List.length h
    rw [length_hexText, length_hexText] at hlen
    exact (List.length_eq_zero_iff.1 (by simp only [List.length_nil] at hlen; omega)).symm
  | cons b bytes ih =>
    cases bytes' with
    | nil =>
      have hlen := congrArg List.length h
      rw [length_hexText, length_hexText] at hlen
      simp at hlen
    | cons b' bytes' =>
      have hb := b.toNat_lt
      have hb' := b'.toNat_lt
      obtain ⟨hhigh, hrest⟩ := List.cons.inj h
      obtain ⟨hlow, hrest⟩ := List.cons.inj hrest
      have hhigh' := hexDigit_inj _ (by omega) _ (by omega) hhigh
      have hlow' := hexDigit_inj _ (by omega) _ (by omega) hlow
      rw [ih hrest, UInt8.toNat_inj.1 (show b.toNat = b'.toNat by omega)]

theorem length_hexText_le (bytes : List UInt8) :
    (hexText bytes).length ≤ (toHexString bytes).length := by
  induction bytes with
  | nil => exact le_refl 0
  | cons b bytes ih =>
    unfold hexText toHexString at ih ⊢
    rw [List.flatMap_cons, List.flatMap_cons, List.length_append, List.length_append,
      length_hexOfChar]
    have htwo : 2 ≤ if b.toNat < 128 then 2 else 8 := by split <;> omega
    exact Nat.add_le_add htwo ih

/-- The digits are right iff no byte has its high bit set. -/
theorem toHexString_eq_iff (bytes : List UInt8) :
    toHexString bytes = hexText bytes ↔ ∀ b ∈ bytes, b.toNat < 128 := by
  induction bytes with
  | nil => exact iff_of_true rfl (List.forall_mem_nil _)
  | cons b bytes ih =>
    have hle := length_hexText_le bytes
    unfold hexText toHexString at ih hle ⊢
    rw [List.flatMap_cons, List.flatMap_cons, List.forall_mem_cons, ← ih]
    constructor
    · intro h
      have hb : b.toNat < 128 := by
        by_contra hb
        have hlen := congrArg List.length h
        rw [List.length_append, List.length_append, length_hexOfChar, if_neg hb] at hlen
        simp only [List.length_cons, List.length_nil] at hlen
        omega
      rw [hexOfChar_of_lt b hb] at h
      exact ⟨hb, List.append_cancel_left h⟩
    · rintro ⟨hb, hrest⟩
      rw [hexOfChar_of_lt b hb, hrest]

/-! ## The parts of the key -/

theorem serialPart_eq {strSerial : List UInt8} (h : strSerial ≠ []) :
    serialPart strSerial = firstThree strSerial := by
  unfold serialPart firstThree List.rightpad NUM_SERIAL_BYTES
  rw [if_pos h, List.length_take]
  split
  · rw [List.take_of_length_le (by omega), min_eq_right (by omega)]
  · rw [min_eq_left (by omega), Nat.sub_self, List.replicate_zero, List.append_nil]

theorem deviceIdPart_eq {strDeviceId : List UInt8} (h : strDeviceId ≠ []) :
    deviceIdPart strDeviceId =
      if 5 ≤ strDeviceId.length then some (lastFive strDeviceId) else none := by
  unfold deviceIdPart lastFive List.rightpad NUM_HARMANID_BYTES
  rw [if_pos h, List.length_drop]
  by_cases hlen : 5 ≤ strDeviceId.length
  · rw [if_neg (by omega), if_pos hlen,
      show 5 - (strDeviceId.length - (strDeviceId.length - 5)) = 0 by omega, List.replicate_zero,
      List.append_nil]
  · rw [if_pos (by omega), if_neg hlen]

theorem key_ne_nil (call : KeyCall) : call.key ≠ [] := by
  intro h
  have hlen := congrArg List.length h
  unfold KeyCall.key KeyCall.bytes firstThree at hlen
  rw [length_hexText, List.length_append, List.length_rightpad, List.length_nil] at hlen
  omega

/-- The key that a call leaves. -/
def KeyCall.cached (call : KeyCall) : PassKeyCache := ⟨call.strDeviceID, call.key⟩

/-! ## Calls -/

theorem getPasscodeKey_of_miss {cache : PassKeyCache} {call : KeyCall}
    (hmiss : cache.strPassKEY = [] ∨ cache.strDeviceID ≠ call.strDeviceID) (h : call.Filled) :
    getPasscodeKey call.strSerial call.strDeviceID cache =
      if 5 ≤ call.strDeviceID.length then
        some (toHexString call.bytes, ⟨call.strDeviceID, toHexString call.bytes⟩)
      else none := by
  unfold getPasscodeKey KeyCall.bytes
  rw [if_pos hmiss, deviceIdPart_eq h.1, serialPart_eq h.2]
  split <;> rfl

theorem getPasscodeKey_of_hit {call next : KeyCall} (h : call.strDeviceID = next.strDeviceID) :
    getPasscodeKey next.strSerial next.strDeviceID call.cached = some (call.key, call.cached) := by
  unfold getPasscodeKey
  exact if_neg (not_or.2 ⟨key_ne_nil call, not_not.2 h⟩)

/-- A call that computes the key is right iff it is plain. -/
theorem passcodeKeys_cons_of_miss {cache : PassKeyCache} {call : KeyCall} {calls : List KeyCall}
    (hmiss : cache.strPassKEY = [] ∨ cache.strDeviceID ≠ call.strDeviceID) (h : call.Filled) :
    passcodeKeys cache (call :: calls) = some ((call :: calls).map KeyCall.key) ↔
      call.Plain ∧ passcodeKeys call.cached calls = some (calls.map KeyCall.key) := by
  unfold KeyCall.Plain
  rw [passcodeKeys, getPasscodeKey_of_miss hmiss h, ← toHexString_eq_iff]
  by_cases hlen : 5 ≤ call.strDeviceID.length
  · rw [if_pos hlen, Option.bind_some, Option.map_eq_some_iff, List.map_cons]
    constructor
    · rintro ⟨keys, hkeys, heq⟩
      obtain ⟨hkey, hrest⟩ := List.cons.inj heq
      rw [hkey, hrest] at hkeys
      exact ⟨⟨hlen, hkey⟩, hkeys⟩
    · rintro ⟨⟨_, hkey⟩, hkeys⟩
      refine ⟨calls.map KeyCall.key, ?_, congrArg (· :: _) hkey⟩
      rw [hkey]
      exact hkeys
  · rw [if_neg hlen]
    exact iff_of_false (fun hleft => by cases hleft) fun hright => hlen hright.1.1

/-- A call that finds the key is right iff the serial number begins as before. -/
theorem passcodeKeys_cons_of_hit {call next : KeyCall} {calls : List KeyCall}
    (h : call.strDeviceID = next.strDeviceID) :
    passcodeKeys call.cached (next :: calls) = some ((next :: calls).map KeyCall.key) ↔
      firstThree call.strSerial = firstThree next.strSerial ∧
        passcodeKeys next.cached calls = some (calls.map KeyCall.key) := by
  have hkey : call.key = next.key ↔ firstThree call.strSerial = firstThree next.strSerial := by
    constructor
    · intro hkeys
      have hbytes := hexText_injective hkeys
      unfold KeyCall.bytes at hbytes
      rw [h] at hbytes
      exact List.append_cancel_left hbytes
    · intro hserial
      unfold KeyCall.key KeyCall.bytes
      rw [h, hserial]
  rw [passcodeKeys, getPasscodeKey_of_hit h, ← hkey, Option.bind_some, Option.map_eq_some_iff,
    List.map_cons]
  have hcached : call.key = next.key → call.cached = next.cached :=
    fun hsame => congrArg₂ PassKeyCache.mk h hsame
  constructor
  · rintro ⟨keys, hkeys, heq⟩
    obtain ⟨hsame, hrest⟩ := List.cons.inj heq
    rw [hcached hsame, hrest] at hkeys
    exact ⟨hsame, hkeys⟩
  · rintro ⟨hsame, hkeys⟩
    refine ⟨calls.map KeyCall.key, ?_, congrArg (· :: _) hsame⟩
    rw [hcached hsame]
    exact hkeys

theorem bytes_eq {call next : KeyCall} (h : call.strDeviceID = next.strDeviceID)
    (hserial : firstThree call.strSerial = firstThree next.strSerial) :
    call.bytes = next.bytes := by
  unfold KeyCall.bytes
  rw [h, hserial]

/-- The same for the calls behind a right one. -/
theorem passcodeKeys_cached_iff {call : KeyCall} {calls : List KeyCall} (hplain : call.Plain)
    (h : ∀ next ∈ calls, next.Filled) :
    passcodeKeys call.cached calls = some (calls.map KeyCall.key) ↔
      (∀ next ∈ calls, next.Plain) ∧ (call :: calls).IsChain SameSerial := by
  induction calls generalizing call with
  | nil => exact iff_of_true rfl ⟨List.forall_mem_nil _, List.isChain_singleton _⟩
  | cons next calls ih =>
    obtain ⟨hfilled, hrest⟩ := List.forall_mem_cons.1 h
    rw [List.isChain_cons_cons, List.forall_mem_cons]
    by_cases hsame : call.strDeviceID = next.strDeviceID
    · have hnext : firstThree call.strSerial = firstThree next.strSerial → next.Plain := by
        intro hserial
        unfold KeyCall.Plain
        rw [← bytes_eq hsame hserial, ← hsame]
        exact hplain
      rw [passcodeKeys_cons_of_hit hsame]
      constructor
      · rintro ⟨hserial, hkeys⟩
        obtain ⟨hplains, hchain⟩ := (ih (hnext hserial) hrest).1 hkeys
        exact ⟨⟨hnext hserial, hplains⟩, fun _ => hserial, hchain⟩
      · rintro ⟨⟨hfirst, hplains⟩, hserial, hchain⟩
        exact ⟨hserial hsame, (ih hfirst hrest).2 ⟨hplains, hchain⟩⟩
    · rw [passcodeKeys_cons_of_miss (Or.inr hsame) hfilled]
      constructor
      · rintro ⟨hfirst, hkeys⟩
        obtain ⟨hplains, hchain⟩ := (ih hfirst hrest).1 hkeys
        exact ⟨⟨hfirst, hplains⟩, fun heq => absurd heq hsame, hchain⟩
      · rintro ⟨⟨hfirst, hplains⟩, _, hchain⟩
        exact ⟨hfirst, (ih hfirst hrest).2 ⟨hplains, hchain⟩⟩

/-- The keys of all calls are right iff the device ids are not short, the bytes are below 128,
and the serial number begins as before where the device id is the one before. -/
theorem passcodeKeys_eq_iff {calls : List KeyCall} (h : ∀ call ∈ calls, call.Filled) :
    passcodeKeys noKey calls = some (calls.map KeyCall.key) ↔
      (∀ call ∈ calls, call.Plain) ∧ calls.IsChain SameSerial := by
  cases calls with
  | nil => exact iff_of_true rfl ⟨List.forall_mem_nil _, List.isChain_nil⟩
  | cons call calls =>
    obtain ⟨hfilled, hrest⟩ := List.forall_mem_cons.1 h
    rw [passcodeKeys_cons_of_miss (Or.inl rfl) hfilled, List.forall_mem_cons]
    constructor
    · rintro ⟨hplain, hkeys⟩
      obtain ⟨hplains, hchain⟩ := (passcodeKeys_cached_iff hplain hrest).1 hkeys
      exact ⟨⟨hplain, hplains⟩, hchain⟩
    · rintro ⟨⟨hplain, hplains⟩, hchain⟩
      exact ⟨hplain, (passcodeKeys_cached_iff hplain hrest).2 ⟨hplains, hchain⟩⟩

def asciiBytes (text : String) : List UInt8 := text.toList.map Char.toUInt8

def deviceCall (strDeviceID strSerial : String) : KeyCall :=
  ⟨asciiBytes strDeviceID, asciiBytes strSerial⟩

theorem passcodeKeys_eq_iff_padded :
    passcodeKeys noKey [deviceCall "HU12345" "AB"] = some ["3132333435414258".toList] := by
  have hkey : [deviceCall "HU12345" "AB"].map KeyCall.key = ["3132333435414258".toList] := by
    decide +kernel
  rw [← hkey]
  exact (passcodeKeys_eq_iff (by decide)).2 ⟨by decide +kernel, List.isChain_singleton _⟩

/-- The key of the serial number before is returned. -/
theorem passcodeKeys_new_serial :
    (∀ call ∈ [deviceCall "HU12345" "ABC", deviceCall "HU12345" "DEF"], call.Filled) ∧
      passcodeKeys noKey [deviceCall "HU12345" "ABC", deviceCall "HU12345" "DEF"] =
        some ["3132333435414243".toList, "3132333435414243".toList] ∧
      passcodeKeys noKey [deviceCall "HU12345" "ABC", deviceCall "HU12345" "DEF"] ≠
        some ([deviceCall "HU12345" "ABC", deviceCall "HU12345" "DEF"].map KeyCall.key) := by
  refine ⟨?_, ?_, ?_⟩ <;> decide +kernel

end KeyGenerator

end DeviceClient
