import DeviceClient.Util.Json

/-!
# JSON texts: the writer

`Json::FastWriter`: a value on one line, and a newline. The writer copies a string
that has no character to escape and walks through any other; the two come to the
same.

The text of a double (`%.17g`) and the double of a text are the C library's.
-/

namespace DeviceClient

/-- The texts of doubles. -/
structure DoubleText where
  valueToString : ℚ → String
  stringToDouble : String → Option ℚ

namespace JsonText

def digitChar (d : ℕ) : Char := Char.ofNat (d + '0'.toNat)

def hexDigit (d : ℕ) : Char := if d < 10 then digitChar d else Char.ofNat (d - 10 + 'A'.toNat)

/-- `uintToString`, which writes the digits from the last to the first. -/
def uintToString (value : ℕ) : List Char :=
  if value < 10 then [digitChar value]
  else uintToString (value / 10) ++ [digitChar (value % 10)]

/-- `valueToString(LargestInt)`. -/
def intToString (value : ℤ) : List Char :=
  if value < 0 then '-' :: uintToString value.natAbs else uintToString value.natAbs

/-- A character inside quotes. -/
def quotedChar (c : Char) : List Char :=
  if c = '"' then ['\\', '"']
  else if c = '\\' then ['\\', '\\']
  else if c = '\x08' then ['\\', 'b']
  else if c = '\x0c' then ['\\', 'f']
  else if c = '\n' then ['\\', 'n']
  else if c = '\r' then ['\\', 'r']
  else if c = '\t' then ['\\', 't']
  -- the other control characters
  else if c.toNat ≤ 0x1F then
    ['\\', 'u', '0', '0', hexDigit (c.toNat / 16), hexDigit (c.toNat % 16)]
  else [c]

def valueToQuotedString (value : String) : List Char :=
  '"' :: (value.toList.flatMap quotedChar ++ ['"'])

variable (dbl : DoubleText)

mutual

def writeValue : JsonValue → List Char
  | .null => ['n', 'u', 'l', 'l']
  | .int value => intToString value
  | .uint value => uintToString value
  | .real value => (dbl.valueToString value).toList
  | .string value => valueToQuotedString value
  | .boolean true => ['t', 'r', 'u', 'e']
  | .boolean false => ['f', 'a', 'l', 's', 'e']
  | .array values => '[' :: (writeValues values ++ [']'])
  | .object members => '{' :: (writeMembers members ++ ['}'])

/-- The elements of an array, with commas between them. -/
def writeValues : List JsonValue → List Char
  | [] => []
  | [value] => writeValue value
  | value :: values => writeValue value ++ ',' :: writeValues values

/-- The members of an object, with commas between them. -/
def writeMembers : List (String × JsonValue) → List Char
  | [] => []
  | [(name, value)] => valueToQuotedString name ++ ':' :: writeValue value
  | (name, value) :: members =>
    valueToQuotedString name ++ ':' :: (writeValue value ++ ',' :: writeMembers members)

end

/-- `FastWriter::write`. -/
def write (root : JsonValue) : String := String.ofList (writeValue dbl root ++ ['\n'])

/-! ## Digits -/

theorem digitChar_isDigit : ∀ d < 10, (digitChar d).isDigit = true := by decide

theorem toNat_digitChar : ∀ d < 10, (digitChar d).toNat - '0'.toNat = d := by decide

theorem uintToString_ne_nil (n : ℕ) : uintToString n ≠ [] := by
  rw [uintToString]
  split <;> simp

theorem isDigit_of_mem_uintToString {n : ℕ} {c : Char} (h : c ∈ uintToString n) :
    c.isDigit = true := by
  fun_induction uintToString n with
  | case1 n hn =>
    rw [List.mem_singleton] at h
    rw [h]
    exact digitChar_isDigit n hn
  | case2 n hn ih =>
    rw [List.mem_append, List.mem_singleton] at h
    rcases h with h | h
    · exact ih h
    · rw [h]
      exact digitChar_isDigit _ (Nat.mod_lt n (by omega))

end JsonText

end DeviceClient
