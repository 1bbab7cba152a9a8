import DeviceClient.Util.JsonRoundTrip

/-!
# JSON texts: the kinds of numbers

A text does not say what kind of number was written: digits are read as an `int` if
they fit in one, as a `uint` else. `readKind` is the value that the reader makes of
a written value, `byValue` the value with every number as the number it is.

* `parse_write_readKind`: a written value is read as its `readKind`.
* `write_readKind`: and that is written with the same text.
* `byValue_readKind`: and is the same value but for the kinds of numbers.
-/

namespace DeviceClient

/-- What the C library documents of `%.17g` and of the text that it makes of `q`: an
integral value below `10^17` is its digits, any other has a point or an exponent and
is read back. -/
def DoubleText.Printed (dbl : DoubleText) (q : ℚ) : Prop :=
  if q.den = 1 ∧ q.num.natAbs < 10 ^ 17 then
    (dbl.valueToString q).toList = JsonText.intToString q.num
  else
    JsonText.NumberText (dbl.valueToString q).toList ∧
      (∃ c ∈ (dbl.valueToString q).toList.tail, c.isDigit = false) ∧
      dbl.stringToDouble (dbl.valueToString q) = some q

namespace JsonValue

/-- `asInt`. -/
def asInt : JsonValue → Option ℤ
  | .null => some 0
  | .boolean value => some (if value then 1 else 0)
  | .int value => if -2 ^ 31 ≤ value ∧ value < 2 ^ 31 then some value else none
  | .uint value => if value < 2 ^ 31 then some value else none
  | .real value =>
    if ((-2 ^ 31 : ℤ) : ℚ) ≤ value ∧ value ≤ ((2 ^ 31 - 1 : ℤ) : ℚ) then
      some (if 0 ≤ value then value.floor else value.ceil)
    else none
  | _ => none

/-- `asInt64`; `none` is its exception. -/
def asInt64 : JsonValue → Option ℤ
  | .null => some 0
  | .boolean value => some (if value then 1 else 0)
  | .int value => some value
  | .uint value => if value < 2 ^ 63 then some value else none
  | .real value =>
    if ((-2 ^ 63 : ℤ) : ℚ) ≤ value ∧ value ≤ ((2 ^ 63 - 1 : ℤ) : ℚ) then
      some (if 0 ≤ value then value.floor else value.ceil)
    else none
  | _ => none

/-- `asUInt64`. -/
def asUInt64 : JsonValue → Option ℕ
  | .null => some 0
  | .boolean value => some (if value then 1 else 0)
  | .int value => if 0 ≤ value then some value.toNat else none
  | .uint value => some value
  | .real value =>
    if 0 ≤ value ∧ value ≤ ((2 ^ 64 - 1 : ℤ) : ℚ) then some value.floor.toNat else none
  | _ => none

/-! ## The number that is written -/

mutual

/-- The value with every number as a `real`. -/
def byValue : JsonValue → JsonValue
  | .int value => .real value
  | .uint value => .real value
  | .array values => .array (byValues values)
  | .object members => .object (byMembers members)
  | value => value

def byValues : List JsonValue → List JsonValue
  | [] => []
  | value :: values => byValue value :: byValues values

def byMembers : List (String × JsonValue) → List (String × JsonValue)
  | [] => []
  | (name, value) :: members => (name, byValue value) :: byMembers members

end

/-! ## The value that is read -/

/-- An integer as it is read. -/
def readInt (value : ℤ) : JsonValue :=
  if value < 2 ^ 31 then .int value else .uint value.toNat

mutual

/-- The value that the text of a value is read as. -/
def readKind : JsonValue → JsonValue
  | .int value => readInt value
  | .uint value => readInt value
  | .real value =>
    if value.den = 1 ∧ value.num.natAbs < 10 ^ 17 then readInt value.num else .real value
  | .array values => .array (readKinds values)
  | .object members => .object (readMembers members)
  | value => value

def readKinds : List JsonValue → List JsonValue
  | [] => []
  | value :: values => readKind value :: readKinds values

def readMembers : List (String × JsonValue) → List (String × JsonValue)
  | [] => []
  | (name, value) :: members => (name, readKind value) :: readMembers members

end

theorem readKinds_eq_map (values : List JsonValue) : readKinds values = values.map readKind := by
  induction values with
  | nil => rfl
  | cons value values ih => rw [readKinds, ih, List.map_cons]

theorem readMembers_eq_map (members : List (String × JsonValue)) :
    readMembers members = members.map fun m => (m.1, readKind m.2) := by
  induction members with
  | nil => rfl
  | cons m members ih => rw [readMembers, ih, List.map_cons]

theorem byValue_readInt (value : ℤ) : byValue (readInt value) = .real value := by
  unfold readInt
  by_cases h : value < 2 ^ 31
  · rw [if_pos h, byValue]
  · have hcast : ((value.toNat : ℤ) : ℚ) = value := by
      rw [Int.toNat_of_nonneg (by omega)]
    rw [if_neg h, byValue, ← hcast]
    rfl

/-- An integral double is its numerator. -/
theorem cast_num_of_den {q : ℚ} (h : q.den = 1) : ((q.num : ℤ) : ℚ) = q :=
  (Rat.den_eq_one_iff q).mp h

mutual

/-- Reading changes the kinds of numbers only. -/
theorem byValue_readKind : (value : JsonValue) → byValue (readKind value) = byValue value
  | .null | .boolean _ | .string _ => rfl
  | .int value => by rw [readKind, byValue_readInt, byValue]
  | .uint value => by
    rw [readKind, byValue_readInt, byValue]
    rfl
  | .real value => by
    rw [readKind]
    by_cases h : value.den = 1 ∧ value.num.natAbs < 10 ^ 17
    · rw [if_pos h, byValue_readInt, cast_num_of_den h.1]
      rfl
    · rw [if_neg h]
  | .array values => by rw [readKind, byValue, byValues_readKinds values, byValue]
  | .object members => by rw [readKind, byValue, byMembers_readMembers members, byValue]

theorem byValues_readKinds : (values : List JsonValue) →
    byValues (readKinds values) = byValues values
  | [] => rfl
  | value :: values => by
    rw [readKinds, byValues, byValue_readKind value, byValues_readKinds values, byValues]

theorem byMembers_readMembers : (members : List (String × JsonValue)) →
    byMembers (readMembers members) = byMembers members
  | [] => rfl
  | (name, value) :: members => by
    rw [readMembers, byMembers, byValue_readKind value, byMembers_readMembers members, byMembers]

end

end JsonValue

namespace JsonText

open JsonValue

variable (dbl : DoubleText)

/-! ## Values of the library -/

/-- Values as the library holds them, with no more than `level` levels: the names of an
object ascend, integers have 64 bits, and the text of a double is the C library's. -/
def Held : ℕ → JsonValue → Prop
  | 0, _ => False
  | _ + 1, .null | _ + 1, .boolean _ | _ + 1, .string _ => True
  | _ + 1, .int value => -2 ^ 63 ≤ value ∧ value < 2 ^ 63
  | _ + 1, .uint value => value < 2 ^ 64
  | _ + 1, .real value => dbl.Printed value
  | level + 1, .array values => ∀ value ∈ values, Held level value
  | level + 1, .object members => Lib.Ascending members ∧ ∀ m ∈ members, Held level m.2

/-- Digits with anything else behind them are read as a double. -/
theorem decodeDigits_of_not_digit (maxIntegerValue value : ℕ) {text : List Char}
    (h : ∃ c ∈ text, c.isDigit = false) : decodeDigits maxIntegerValue value text = none := by
  induction text generalizing value with
  | nil => obtain ⟨c, hc, _⟩ := h; cases hc
  | cons c rest ih =>
    unfold decodeDigits
    dsimp only
    by_cases hc : c.isDigit = true
    · rw [if_pos hc]
      split
      · rfl
      · apply ih
        obtain ⟨d, hd, hdigit⟩ := h
        rcases List.mem_cons.mp hd with rfl | hd
        · rw [hc] at hdigit
          cases hdigit
        · exact ⟨d, hd, hdigit⟩
    · rw [if_neg hc]

/-- A double with a point or an exponent is read back. -/
theorem decodeNumber_real {q : ℚ}
    (hdigit : ∃ c ∈ (dbl.valueToString q).toList.tail, c.isDigit = false)
    (hread : dbl.stringToDouble (dbl.valueToString q) = some q) :
    decodeNumber dbl (dbl.valueToString q).toList = some (.real q) := by
  have hdouble : decodeDouble dbl (dbl.valueToString q).toList = some (.real q) := by
    unfold decodeDouble
    rw [String.ofList_toList, hread]
    rfl
  have hall : ∃ c ∈ (dbl.valueToString q).toList, c.isDigit = false := by
    obtain ⟨c, hc, hcdigit⟩ := hdigit
    exact ⟨c, List.mem_of_mem_tail hc, hcdigit⟩
  unfold decodeNumber
  by_cases hsign : (dbl.valueToString q).toList.head? = some '-'
  · rw [if_pos hsign, decodeDigits_of_not_digit _ _ hdigit]
    exact hdouble
  · rw [if_neg hsign, decodeDigits_of_not_digit _ _ hall]
    exact hdouble

theorem representable_readInt {level : ℕ} {value : ℤ} (hlow : -2 ^ 63 ≤ value)
    (hhigh : value < 2 ^ 64) : Representable dbl (level + 1) (readInt value) := by
  unfold readInt
  by_cases h : value < 2 ^ 31
  · rw [if_pos h]
    exact ⟨hlow, h⟩
  · rw [if_neg h]
    show 2 ^ 31 ≤ value.toNat ∧ value.toNat < 2 ^ 64
    omega

theorem writeValue_readInt {value : ℤ} : writeValue dbl (readInt value) = intToString value := by
  unfold readInt
  by_cases h : value < 2 ^ 31
  · rw [if_pos h, writeValue]
  · rw [if_neg h, writeValue, intToString, if_neg (by omega)]
    rw [show value.toNat = value.natAbs by omega]

theorem intToString_natCast (n : ℕ) : intToString n = uintToString n := by
  unfold intToString
  rw [if_neg (by omega), Int.natAbs_natCast]

/-- What is read can be written and read as it is. -/
theorem representable_readKind {level : ℕ} {value : JsonValue} (h : Held dbl level value) :
    Representable dbl level (readKind value) := by
  induction level generalizing value with
  | zero => cases h
  | succ level ih =>
    cases value with
    | null | boolean _ | string _ => trivial
    | int value =>
      obtain ⟨hlow, hhigh⟩ : -2 ^ 63 ≤ value ∧ value < 2 ^ 63 := h
      rw [readKind]
      exact representable_readInt dbl hlow (by omega)
    | uint value =>
      have hvalue : value < 2 ^ 64 := h
      rw [readKind]
      generalize hz : (value : ℤ) = z
      exact representable_readInt dbl (by omega) (by omega)
    | real value =>
      have hprinted : dbl.Printed value := h
      unfold DoubleText.Printed at hprinted
      rw [readKind]
      by_cases hint : value.den = 1 ∧ value.num.natAbs < 10 ^ 17
      · have hnum : value.num.natAbs < 2 ^ 63 := lt_trans hint.2 (by decide)
        have hlow : -2 ^ 63 ≤ value.num := by omega
        have hhigh : value.num < 2 ^ 64 := by omega
        rw [if_pos hint]
        exact representable_readInt dbl hlow hhigh
      · rw [if_neg hint] at hprinted ⊢
        obtain ⟨htext, hdigit, hread⟩ := hprinted
        exact ⟨htext, decodeNumber_real dbl hdigit hread⟩
    | array values =>
      have hvalues : ∀ value ∈ values, Held dbl level value := h
      rw [readKind, readKinds_eq_map]
      intro value hvalue
      obtain ⟨w, hw, rfl⟩ := List.mem_map.mp hvalue
      exact ih (hvalues w hw)
    | object members =>
      obtain ⟨hasc, hmembers⟩ : Lib.Ascending members ∧ ∀ m ∈ members, Held dbl level m.2 := h
      rw [readKind, readMembers_eq_map]
      constructor
      · unfold Lib.Ascending at hasc ⊢
        rw [List.map_map]
        exact hasc
      · intro m hm
        obtain ⟨n, hn, rfl⟩ := List.mem_map.mp hm
        exact ih (hmembers n hn)

theorem writeValues_cons_cons (value w : JsonValue) (values : List JsonValue) :
    writeValues dbl (value :: w :: values) =
      writeValue dbl value ++ ',' :: writeValues dbl (w :: values) := rfl

theorem writeMembers_cons_cons (m n : String × JsonValue) (members : List (String × JsonValue)) :
    writeMembers dbl (m :: n :: members) =
      valueToQuotedString m.1 ++ ':' ::
        (writeValue dbl m.2 ++ ',' :: writeMembers dbl (n :: members)) := rfl

/-- The first member is in front. -/
theorem exists_writeMembers (m : String × JsonValue) (members : List (String × JsonValue)) :
    ∃ rest, writeMembers dbl (m :: members) =
      valueToQuotedString m.1 ++ ':' :: (writeValue dbl m.2 ++ rest) := by
  cases members with
  | nil => exact ⟨[], by rw [writeMembers, List.append_nil]⟩
  | cons n members =>
    exact ⟨',' :: writeMembers dbl (n :: members), writeMembers_cons_cons dbl m n members⟩

/-- A list is written as its elements are. -/
theorem writeValues_congr {f : JsonValue → JsonValue} {values : List JsonValue}
    (h : ∀ value ∈ values, writeValue dbl (f value) = writeValue dbl value) :
    writeValues dbl (values.map f) = writeValues dbl values := by
  induction values with
  | nil => rfl
  | cons value values ih =>
    have hvalue := h value List.mem_cons_self
    have hvalues := ih fun w hw => h w (List.mem_cons_of_mem _ hw)
    cases values with
    | nil =>
      rw [List.map_cons, List.map_nil, writeValues, writeValues]
      exact hvalue
    | cons w values =>
      rw [List.map_cons] at hvalues
      rw [List.map_cons, List.map_cons, writeValues_cons_cons, writeValues_cons_cons, hvalue,
        hvalues]

/-- The text of an object is made of the texts of its members. -/
theorem writeMembers_of_texts {members members' : List (String × JsonValue)}
    (h : members.map (fun m => (m.1, writeValue dbl m.2)) =
      members'.map fun m => (m.1, writeValue dbl m.2)) :
    writeMembers dbl members = writeMembers dbl members' := by
  induction members generalizing members' with
  | nil =>
    rw [List.map_nil] at h
    rw [List.map_eq_nil_iff.mp h.symm]
  | cons m members ih =>
    cases members' with
    | nil => cases h
    | cons m' members' =>
      rw [List.map_cons, List.map_cons, List.cons.injEq, Prod.mk.injEq] at h
      obtain ⟨⟨hname, hvalue⟩, hrest⟩ := h
      have hmembers := ih hrest
      cases members with
      | nil =>
        rw [List.map_nil] at hrest
        rw [List.map_eq_nil_iff.mp hrest.symm, writeMembers, writeMembers, hname, hvalue]
      | cons n members =>
        cases members' with
        | nil => cases hrest
        | cons n' members' =>
          rw [writeMembers_cons_cons, writeMembers_cons_cons, hname, hvalue, hmembers]

/-- The value that is read is written with the text it was read from. -/
theorem writeValue_readKind {level : ℕ} {value : JsonValue} (h : Held dbl level value) :
    writeValue dbl (readKind value) = writeValue dbl value := by
  induction level generalizing value with
  | zero => cases h
  | succ level ih =>
    cases value with
    | null | boolean _ | string _ => rfl
    | int value => rw [readKind, writeValue_readInt, writeValue]
    | uint value => rw [readKind, writeValue_readInt, writeValue, intToString_natCast]
    | real value =>
      have hprinted : dbl.Printed value := h
      unfold DoubleText.Printed at hprinted
      rw [readKind]
      by_cases hint : value.den = 1 ∧ value.num.natAbs < 10 ^ 17
      · rw [if_pos hint] at hprinted ⊢
        rw [writeValue_readInt, writeValue, hprinted]
      · rw [if_neg hint]
    | array values =>
      have hvalues : ∀ value ∈ values, Held dbl level value := h
      rw [readKind, readKinds_eq_map, writeValue, writeValue,
        writeValues_congr dbl fun value hvalue => ih (hvalues value hvalue)]
    | object members =>
      obtain ⟨-, hmembers⟩ : Lib.Ascending members ∧ ∀ m ∈ members, Held dbl level m.2 := h
      have htexts : (members.map fun m => (m.1, readKind m.2)).map
          (fun m => (m.1, writeValue dbl m.2)) = members.map fun m => (m.1, writeValue dbl m.2) := by
        rw [List.map_map]
        exact List.map_congr_left fun m hm => congrArg (Prod.mk m.1) (ih (hmembers m hm))
      rw [readKind, readMembers_eq_map, writeValue, writeValue, writeMembers_of_texts dbl htexts]

theorem write_readKind {level : ℕ} {value : JsonValue} (h : Held dbl level value) :
    write dbl (readKind value) = write dbl value := by
  unfold write
  rw [writeValue_readKind dbl h]

/-- A document that was written is read, but for the kinds of numbers, as what it was. -/
theorem parse_write_readKind {value : JsonValue} (h : Held dbl stackLimit value) :
    parse dbl (write dbl value) = .ok (readKind value) := by
  rw [← write_readKind dbl h]
  exact parse_write dbl (representable_readKind dbl h)

/-! ## Depth -/

/-- Arrays in arrays. -/
def deep : ℕ → JsonValue
  | 0 => .null
  | levels + 1 => .array [deep levels]

theorem writeValue_deep (levels : ℕ) :
    ∃ rest, writeValue dbl (deep levels) = List.replicate levels '[' ++ rest := by
  induction levels with
  | zero => exact ⟨writeValue dbl .null, rfl⟩
  | succ levels ih =>
    obtain ⟨rest, hrest⟩ := ih
    refine ⟨rest ++ [']'], ?_⟩
    rw [deep, writeValue, writeValues, hrest, List.replicate_succ, List.cons_append,
      List.append_assoc]

/-- The reader refuses the text. -/
def Refused (result : ReadResult) : Prop := ∃ e, result = .error e

/-- More brackets than the stack has room for. -/
theorem refused_brackets {levels n stackDepth : ℕ} (h : stackLimit < stackDepth + levels)
    (rest : List Char) :
    Refused (readValue dbl n stackDepth (List.replicate levels '[' ++ rest)) := by
  induction levels generalizing n stackDepth with
  | zero =>
    cases n with
    | zero => exact ⟨_, rfl⟩
    | succ n =>
      rw [readValue, if_pos (by omega)]
      exact ⟨_, rfl⟩
  | succ levels ih =>
    cases n with
    | zero => exact ⟨_, rfl⟩
    | succ n =>
      have htoken := readTokenNoComment_of_readToken
        (readToken_mark (List.replicate levels '[' ++ rest)).2.2.1 (by simp)
      rw [List.replicate_succ, List.cons_append, readValue]
      by_cases hopen : stackLimit ≤ stackDepth
      · rw [if_pos hopen]
        exact ⟨_, rfl⟩
      · -- the next bracket is inside this one
        have hnext : (skipSpaces (List.replicate levels '[' ++ rest)).head? ≠ some ']' := by
          obtain ⟨k, rfl⟩ : ∃ k, levels = k + 1 := ⟨levels - 1, by omega⟩
          rw [List.replicate_succ, List.cons_append, skipSpaces,
            List.dropWhile_cons_of_neg (by decide)]
          simp
        rw [if_neg hopen, htoken]
        dsimp only
        rw [if_neg hnext]
        cases n with
        | zero => exact ⟨_, rfl⟩
        | succ n =>
          obtain ⟨e, he⟩ : Refused (readValue dbl n (stackDepth + 1)
            (List.replicate levels '[' ++ rest)) := ih (by omega)
          rw [readArray, he]
          exact ⟨e, rfl⟩

/-- An object whose first member is refused. -/
theorem refused_object {n stackDepth : ℕ} {name : String} {chars : List Char}
    (h : ∀ n, Refused (readValue dbl n (stackDepth + 1) chars)) :
    Refused (readValue dbl n stackDepth ('{' :: (valueToQuotedString name ++ ':' :: chars))) := by
  cases n with
  | zero => exact ⟨_, rfl⟩
  | succ n =>
    have htoken := readTokenNoComment_of_readToken
      (readToken_mark (valueToQuotedString name ++ ':' :: chars)).1 (by simp)
    have hname := readTokenNoComment_of_readToken (readToken_string name (':' :: chars)) (by simp)
    have hcolon := (readToken_mark chars).2.2.2.2.2
    rw [readValue]
    by_cases hopen : stackLimit ≤ stackDepth
    · rw [if_pos hopen]
      exact ⟨_, rfl⟩
    · rw [if_neg hopen, htoken]
      cases n with
      | zero => exact ⟨_, rfl⟩
      | succ n =>
        obtain ⟨e, he⟩ := h n
        dsimp only
        rw [readObject, hname]
        dsimp only
        rw [decodeString_quoted, hcolon]
        dsimp only
        rw [he]
        exact ⟨e, rfl⟩

end JsonText

end DeviceClient
