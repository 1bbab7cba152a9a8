import DeviceClient.Util.JsonReader

/-!
# JSON texts: reading back what was written

The writer and the reader agree on a value whose texts say what kind of number it
is: the text of a small unsigned integer, or of a double with an integral value, is
that of an `int`.

* `readsBack_of_representable`: the text of a value in front of anything that ends a
  number.
* `parse_write`: the document of a value.
-/

namespace DeviceClient

namespace JsonText

/-! ## Digits -/

/-- The number that digits write behind a value. -/
def decimalValue (value : ℕ) (digits : List Char) : ℕ :=
  digits.foldl (fun n c => n * 10 + (c.toNat - '0'.toNat)) value

theorem decimalValue_cons (value : ℕ) (c : Char) (digits : List Char) :
    decimalValue value (c :: digits) =
      decimalValue (value * 10 + (c.toNat - '0'.toNat)) digits := by
  unfold decimalValue
  rw [List.foldl_cons]

theorem le_decimalValue (value : ℕ) (digits : List Char) : value ≤ decimalValue value digits := by
  induction digits generalizing value with
  | nil => exact Nat.le_refl value
  | cons c digits ih =>
    rw [decimalValue_cons]
    have hstep := ih (value * 10 + (c.toNat - '0'.toNat))
    omega

theorem decimalValue_uintToString (n : ℕ) : decimalValue 0 (uintToString n) = n := by
  fun_induction uintToString n with
  | case1 n hn =>
    have hdigit := toNat_digitChar n hn
    rw [decimalValue_cons, hdigit]
    exact Nat.zero_add n
  | case2 n hn ih =>
    have hdigit := toNat_digitChar (n % 10) (Nat.mod_lt n (by omega))
    unfold decimalValue at ih ⊢
    rw [List.foldl_append, ih, List.foldl_cons, List.foldl_nil, hdigit]
    omega

/-- The loop returns the number where it fits. -/
theorem decodeDigits_of_le {maxIntegerValue value : ℕ} {digits : List Char}
    (hmax : 10 ≤ maxIntegerValue) (hdigits : ∀ c ∈ digits, c.isDigit = true)
    (hle : decimalValue value digits ≤ maxIntegerValue) :
    decodeDigits maxIntegerValue value digits = some (decimalValue value digits) := by
  induction digits generalizing value with
  | nil => rfl
  | cons c rest ih =>
    rw [decimalValue_cons] at hle ⊢
    have hstep := le_decimalValue (value * 10 + (c.toNat - '0'.toNat)) rest
    have hfits : ¬ (maxIntegerValue / 10 ≤ value ∧ (maxIntegerValue / 10 < value ∨ rest ≠ [] ∨
        maxIntegerValue % 10 < c.toNat - '0'.toNat)) := by
      rintro ⟨hthreshold, hlt | hrest | hdigit⟩
      · omega
      · -- one more digit is too many
        obtain ⟨c', rest', rfl⟩ := List.exists_cons_of_ne_nil hrest
        rw [decimalValue_cons] at hle
        have hstep' := le_decimalValue
          ((value * 10 + (c.toNat - '0'.toNat)) * 10 + (c'.toNat - '0'.toNat)) rest'
        omega
      · omega
    unfold decodeDigits
    dsimp only
    rw [if_pos (hdigits c List.mem_cons_self), if_neg hfits]
    exact ih (fun c' hc' => hdigits c' (List.mem_cons_of_mem c hc')) hle

theorem decodeDigits_uintToString {maxIntegerValue n : ℕ} (hmax : 10 ≤ maxIntegerValue)
    (hn : n ≤ maxIntegerValue) : decodeDigits maxIntegerValue 0 (uintToString n) = some n := by
  have hvalue := decimalValue_uintToString n
  rw [decodeDigits_of_le hmax (fun c hc => isDigit_of_mem_uintToString hc) (by omega), hvalue]

/-! ## The text of a string -/

theorem hexValue_hexDigit : ∀ d < 16, hexValue (hexDigit d) = some d := by decide

theorem hexDigit_ne : ∀ d < 16, hexDigit d ≠ '"' ∧ hexDigit d ≠ '\\' := by decide

/-- What the writer may make of a character: it stays, it stands behind a backslash, or
it is a number of two digits. -/
theorem quotedChar_cases (c : Char) :
    (quotedChar c = [c] ∧ c ≠ '"' ∧ c ≠ '\\') ∨
    (∃ escape, quotedChar c = ['\\', escape] ∧
      ∀ rest, decodeEscape (escape :: rest) = some (c, rest)) ∨
    (quotedChar c = ['\\', 'u', '0', '0', hexDigit (c.toNat / 16), hexDigit (c.toNat % 16)] ∧
      c.toNat ≤ 0x1F) := by
  unfold quotedChar
  by_cases hquote : c = '"'
  · rw [if_pos hquote, hquote]
    exact Or.inr (Or.inl ⟨'"', rfl, fun rest => rfl⟩)
  rw [if_neg hquote]
  by_cases hbackslash : c = '\\'
  · rw [if_pos hbackslash, hbackslash]
    exact Or.inr (Or.inl ⟨'\\', rfl, fun rest => rfl⟩)
  rw [if_neg hbackslash]
  by_cases hb : c = '\x08'
  · rw [if_pos hb, hb]
    exact Or.inr (Or.inl ⟨'b', rfl, fun rest => rfl⟩)
  rw [if_neg hb]
  by_cases hf : c = '\x0c'
  · rw [if_pos hf, hf]
    exact Or.inr (Or.inl ⟨'f', rfl, fun rest => rfl⟩)
  rw [if_neg hf]
  by_cases hn : c = '\n'
  · rw [if_pos hn, hn]
    exact Or.inr (Or.inl ⟨'n', rfl, fun rest => rfl⟩)
  rw [if_neg hn]
  by_cases hr : c = '\r'
  · rw [if_pos hr, hr]
    exact Or.inr (Or.inl ⟨'r', rfl, fun rest => rfl⟩)
  rw [if_neg hr]
  by_cases ht : c = '\t'
  · rw [if_pos ht, ht]
    exact Or.inr (Or.inl ⟨'t', rfl, fun rest => rfl⟩)
  rw [if_neg ht]
  by_cases hcontrol : c.toNat ≤ 0x1F
  · rw [if_pos hcontrol]
    exact Or.inr (Or.inr ⟨rfl, hcontrol⟩)
  · rw [if_neg hcontrol]
    exact Or.inl ⟨rfl, hquote, hbackslash⟩

theorem readString_of_ne {c : Char} (hquote : c ≠ '"') (hbackslash : c ≠ '\\')
    (rest : List Char) :
    readString (c :: rest) = (readString rest).map fun r => (c :: r.1, r.2) := by
  rw [readString.eq_def]
  dsimp only
  rw [if_neg hquote, if_neg hbackslash]

theorem readString_backslash (c : Char) (rest : List Char) :
    readString ('\\' :: c :: rest) =
      (readString rest).map fun r => ('\\' :: c :: r.1, r.2) := by
  rw [readString, if_neg (by decide), if_pos rfl]

/-- The reader takes a written character as a part of the string. -/
theorem readString_quotedChar (c : Char) (rest : List Char) :
    readString (quotedChar c ++ rest) =
      (readString rest).map fun r => (quotedChar c ++ r.1, r.2) := by
  rcases quotedChar_cases c with ⟨hc, hquote, hbackslash⟩ | ⟨escape, hc, _⟩ | ⟨hc, hcontrol⟩
  · rw [hc]
    exact readString_of_ne hquote hbackslash rest
  · rw [hc]
    exact readString_backslash escape rest
  · have hhigh := hexDigit_ne (c.toNat / 16) (by omega)
    have hlow := hexDigit_ne (c.toNat % 16) (by omega)
    rw [hc]
    simp only [List.cons_append, List.nil_append]
    rw [readString_backslash, readString_of_ne (by decide) (by decide),
      readString_of_ne (by decide) (by decide), readString_of_ne hhigh.1 hhigh.2,
      readString_of_ne hlow.1 hlow.2]
    simp only [Option.map_map, Function.comp_def]

theorem readString_quoted (chars rest : List Char) :
    readString (chars.flatMap quotedChar ++ '"' :: rest) =
      some (chars.flatMap quotedChar, rest) := by
  induction chars with
  | nil =>
    rw [List.flatMap_nil, List.nil_append, readString.eq_def]
    exact if_pos rfl
  | cons c chars ih =>
    rw [List.flatMap_cons, List.append_assoc, readString_quotedChar, ih]
    rfl

/-- The number of a control character. -/
theorem decodeEscape_control {c : Char} (hc : c.toNat ≤ 0x1F) (rest : List Char) :
    decodeEscape ('u' :: '0' :: '0' :: hexDigit (c.toNat / 16) :: hexDigit (c.toNat % 16) :: rest) =
      some (c, rest) := by
  have hhigh := hexValue_hexDigit (c.toNat / 16) (by omega)
  have hlow := hexValue_hexDigit (c.toNat % 16) (by omega)
  have hsequence : decodeUnicodeEscapeSequence
      ('0' :: '0' :: hexDigit (c.toNat / 16) :: hexDigit (c.toNat % 16) :: rest) =
        some (c.toNat, rest) := by
    have hzero : hexValue '0' = some 0 := rfl
    unfold decodeUnicodeEscapeSequence
    simp only [hzero, hhigh, hlow, Option.bind_eq_bind, Option.bind_some]
    rw [show ((0 * 16 + 0) * 16 + c.toNat / 16) * 16 + c.toNat % 16 = c.toNat by omega]
  have hpoint : decodeUnicodeCodePoint
      ('0' :: '0' :: hexDigit (c.toNat / 16) :: hexDigit (c.toNat % 16) :: rest) =
        some (c.toNat, rest) := by
    unfold decodeUnicodeCodePoint
    simp only [hsequence, Option.bind_eq_bind, Option.bind_some]
    rw [if_neg (by omega)]
  have hvalid : c.toNat.isValidChar := Or.inl (by omega)
  unfold decodeEscape
  simp only [hpoint, Option.map_some, if_pos hvalid, Char.ofNat_toNat]
  rfl

/-- A written character is decoded to itself. -/
theorem decodeChars_quotedChar (n : ℕ) (c : Char) (rest : List Char) :
    decodeChars (n + 1) (quotedChar c ++ rest) = (decodeChars n rest).map (c :: ·) := by
  rcases quotedChar_cases c with ⟨hc, hquote, hbackslash⟩ | ⟨escape, hc, hescape⟩ | ⟨hc, hcontrol⟩
  · rw [hc, List.singleton_append, decodeChars, if_neg hquote, if_neg hbackslash]
  · rw [hc]
    simp only [List.cons_append, List.nil_append]
    rw [decodeChars, if_neg (by decide), if_pos rfl, hescape]
    simp only [Option.bind_eq_bind, Option.bind_some]
    cases decodeChars n rest <;> rfl
  · rw [hc]
    simp only [List.cons_append, List.nil_append]
    rw [decodeChars, if_neg (by decide), if_pos rfl, decodeEscape_control hcontrol]
    simp only [Option.bind_eq_bind, Option.bind_some]
    cases decodeChars n rest <;> rfl

theorem length_quotedChar_pos (c : Char) : 1 ≤ (quotedChar c).length := by
  rcases quotedChar_cases c with ⟨hc, _⟩ | ⟨escape, hc, _⟩ | ⟨hc, _⟩
  · rw [hc]
    exact Nat.le_refl 1
  · rw [hc]
    exact Nat.le_succ 1
  · rw [hc]
    exact Nat.le_add_left 1 5

theorem decodeChars_quoted {n : ℕ} {chars : List Char}
    (hn : (chars.flatMap quotedChar).length ≤ n) :
    decodeChars n (chars.flatMap quotedChar) = some chars := by
  induction chars generalizing n with
  | nil => cases n <;> rfl
  | cons c chars ih =>
    have hpos := length_quotedChar_pos c
    rw [List.flatMap_cons, List.length_append] at hn
    obtain ⟨m, rfl⟩ : ∃ m, n = m + 1 := ⟨n - 1, by omega⟩
    rw [List.flatMap_cons, decodeChars_quotedChar, ih (by omega)]
    rfl

theorem decodeString_quoted (value : String) :
    decodeString (value.toList.flatMap quotedChar) = some value := by
  unfold decodeString
  rw [decodeChars_quoted (Nat.le_refl _), Option.map_some, String.ofList_toList]

/-! ## The text of a number -/

/-- What follows does not continue a number. -/
def NumberEnd (rest : List Char) : Prop := ∀ c ∈ rest.head?, ∀ part, NumberPart.next part c = none

theorem numberEnd_cons {c : Char} {rest : List Char}
    (h : c = ',' ∨ c = '}' ∨ c = ']' ∨ c = '\n') : NumberEnd (c :: rest) := by
  intro c' hc' part
  rw [List.head?_cons, Option.mem_some_iff] at hc'
  rw [← hc']
  rcases h with rfl | rfl | rfl | rfl <;> cases part <;> decide

/-- A text that is one number token. -/
def NumberText (text : List Char) : Prop :=
  ∃ c rest, text = c :: rest ∧ (c.isDigit = true ∨ c = '-') ∧
    readNumber .integral rest = (rest, [])

theorem readNumber_append {part : NumberPart} {text rest : List Char}
    (htext : readNumber part text = (text, [])) (hrest : NumberEnd rest) :
    readNumber part (text ++ rest) = (text, rest) := by
  induction text generalizing part with
  | nil =>
    cases rest with
    | nil => rfl
    | cons c rest =>
      have hnext := hrest c rfl part
      rw [List.nil_append, readNumber, hnext]
  | cons c text ih =>
    rw [List.cons_append]
    unfold readNumber at htext ⊢
    cases hnext : part.next c with
    | none =>
      rw [hnext] at htext
      cases htext
    | some part' =>
      rw [hnext] at htext
      injection htext with htext hend
      injection htext with _ htext
      have hread : readNumber part' text = (text, []) := Prod.ext htext hend
      dsimp only
      rw [ih hread]

theorem readNumber_digits {text : List Char} (h : ∀ c ∈ text, c.isDigit = true) :
    readNumber .integral text = (text, []) := by
  induction text with
  | nil => rfl
  | cons c text ih =>
    have hnext : NumberPart.integral.next c = some .integral := if_pos (h c List.mem_cons_self)
    rw [readNumber, hnext]
    dsimp only
    rw [ih fun c' hc' => h c' (List.mem_cons_of_mem c hc')]

theorem numberText_uintToString (n : ℕ) : NumberText (uintToString n) := by
  obtain ⟨c, rest, hdigits⟩ := List.exists_cons_of_ne_nil (uintToString_ne_nil n)
  have hall : ∀ c' ∈ c :: rest, c'.isDigit = true := by
    intro c' hc'
    rw [← hdigits] at hc'
    exact isDigit_of_mem_uintToString hc'
  exact ⟨c, rest, hdigits, Or.inl (hall c List.mem_cons_self),
    readNumber_digits fun c' hc' => hall c' (List.mem_cons_of_mem c hc')⟩

theorem numberText_intToString (n : ℤ) : NumberText (intToString n) := by
  unfold intToString
  by_cases hn : n < 0
  · rw [if_pos hn]
    exact ⟨'-', _, rfl, Or.inr rfl,
      readNumber_digits fun c hc => isDigit_of_mem_uintToString hc⟩
  · rw [if_neg hn]
    exact numberText_uintToString n.natAbs

theorem head_uintToString_ne (n : ℕ) : (uintToString n).head? ≠ some '-' := by
  intro h
  have hmem := isDigit_of_mem_uintToString (List.mem_of_mem_head? h)
  revert hmem
  decide

variable (dbl : DoubleText)

/-- Digits are read as an `int` if they fit in one, as a `uint` else. -/
theorem decodeNumber_uintToString {n : ℕ} (hn : n < 2 ^ 64) :
    decodeNumber dbl (uintToString n) =
      some (if n ≤ 2 ^ 31 - 1 then .int n else .uint n) := by
  unfold decodeNumber
  rw [if_neg (head_uintToString_ne n), decodeDigits_uintToString (by omega) (by omega)]

theorem decodeNumber_intToString {n : ℤ} (hlow : -2 ^ 63 ≤ n) (hhigh : n < 2 ^ 31) :
    decodeNumber dbl (intToString n) = some (.int n) := by
  unfold intToString
  by_cases hn : n < 0
  · rw [if_pos hn]
    unfold decodeNumber
    rw [if_pos (List.head?_cons), List.tail_cons,
      decodeDigits_uintToString (by omega) (by omega)]
    dsimp only
    rw [show -(n.natAbs : ℤ) = n by omega]
  · rw [if_neg hn, decodeNumber_uintToString dbl (by omega), if_pos (by omega)]
    rw [show (n.natAbs : ℤ) = n by omega]

/-! ## Tokens -/

theorem readToken_cons {c : Char} (hspace : isSpace c = false) (rest : List Char) :
    readToken (c :: rest) = readTokenFrom c rest := by
  have hskip : skipSpaces (c :: rest) = c :: rest :=
    List.dropWhile_cons_of_neg (by rw [hspace]; exact Bool.false_ne_true)
  unfold readToken
  rw [hskip]

theorem readTokenNoComment_of_readToken {chars rest : List Char} {token : JsonToken}
    (h : readToken chars = (token, rest)) (htoken : token ≠ .comment) :
    readTokenNoComment chars = (token, rest) := by
  unfold readTokenNoComment skipCommentTokens
  rw [h]
  cases token <;> first | rfl | exact absurd rfl htoken

/-- A token of one character. -/
theorem readToken_mark (rest : List Char) :
    readToken ('{' :: rest) = (.objectBegin, rest) ∧ readToken ('}' :: rest) = (.objectEnd, rest) ∧
    readToken ('[' :: rest) = (.arrayBegin, rest) ∧ readToken (']' :: rest) = (.arrayEnd, rest) ∧
    readToken (',' :: rest) = (.arraySeparator, rest) ∧
    readToken (':' :: rest) = (.memberSeparator, rest) :=
  ⟨rfl, rfl, rfl, rfl, rfl, rfl⟩

/-- A keyword. -/
theorem readToken_word (rest : List Char) :
    readToken ('t' :: 'r' :: 'u' :: 'e' :: rest) = (.true, rest) ∧
    readToken ('f' :: 'a' :: 'l' :: 's' :: 'e' :: rest) = (.false, rest) ∧
    readToken ('n' :: 'u' :: 'l' :: 'l' :: rest) = (.null, rest) :=
  ⟨rfl, rfl, rfl⟩

theorem readToken_string (value : String) (rest : List Char) :
    readToken (valueToQuotedString value ++ rest) =
      (.string (value.toList.flatMap quotedChar), rest) := by
  have hread : readString (value.toList.flatMap quotedChar ++ ['"'] ++ rest) =
      some (value.toList.flatMap quotedChar, rest) := by
    rw [List.append_assoc]
    exact readString_quoted value.toList rest
  unfold valueToQuotedString
  rw [List.cons_append, readToken_cons (by decide)]
  unfold readTokenFrom
  rw [hread]
  rfl

/-- No other token begins as a number does. -/
theorem ne_of_number {c d : Char} (hc : c.isDigit = true ∨ c = '-')
    (hd : ¬ (d.isDigit = true ∨ d = '-')) : c ≠ d := by
  intro heq
  rw [heq] at hc
  exact hd hc

theorem isSpace_of_number {c : Char} (hc : c.isDigit = true ∨ c = '-') : isSpace c = false := by
  unfold isSpace
  simp only [Bool.or_eq_false_iff, decide_eq_false_iff_not]
  exact ⟨⟨⟨ne_of_number hc (by decide), ne_of_number hc (by decide)⟩,
    ne_of_number hc (by decide)⟩, ne_of_number hc (by decide)⟩

theorem readToken_number {text rest : List Char} (htext : NumberText text)
    (hrest : NumberEnd rest) : readToken (text ++ rest) = (.number text, rest) := by
  obtain ⟨c, digits, rfl, hc, hread⟩ := htext
  rw [List.cons_append, readToken_cons (isSpace_of_number hc)]
  unfold readTokenFrom
  rw [if_neg (ne_of_number hc (by decide)), if_neg (ne_of_number hc (by decide)),
    if_neg (ne_of_number hc (by decide)), if_neg (ne_of_number hc (by decide)),
    if_neg (ne_of_number hc (by decide)), if_neg (ne_of_number hc (by decide)), if_pos hc,
    readNumber_append hread hrest]

/-! ## Values -/

/-- Values with no more than `level` levels whose texts are read back. -/
def Representable : ℕ → JsonValue → Prop
  | 0, _ => False
  | _ + 1, .null | _ + 1, .boolean _ | _ + 1, .string _ => True
  | _ + 1, .int value => -2 ^ 63 ≤ value ∧ value < 2 ^ 31
  | _ + 1, .uint value => 2 ^ 31 ≤ value ∧ value < 2 ^ 64
  | _ + 1, .real value =>
    NumberText (dbl.valueToString value).toList ∧
      decodeNumber dbl (dbl.valueToString value).toList = some (.real value)
  | level + 1, .array values => ∀ value ∈ values, Representable level value
  | level + 1, .object members =>
    Lib.Ascending members ∧ ∀ m ∈ members, Representable level m.2

/-- The text of the value is read back within the open values around it. -/
def ReadsBack (stackDepth : ℕ) (value : JsonValue) : Prop :=
  ∀ n rest, 2 * (writeValue dbl value).length < n → NumberEnd rest →
    readValue dbl n stackDepth (writeValue dbl value ++ rest) = .ok (value, rest)

/-- A text begins with a character that the reader does not skip, nor takes for the end of
an array. -/
theorem exists_head_writeValue {level : ℕ} {value : JsonValue} (h : Representable dbl level value) :
    ∃ c rest, writeValue dbl value = c :: rest ∧ isSpace c = false ∧ c ≠ ']' := by
  have hnumber : ∀ text, NumberText text →
      ∃ c rest, text = c :: rest ∧ isSpace c = false ∧ c ≠ ']' := by
    rintro text ⟨c, rest, htext, hc, _⟩
    exact ⟨c, rest, htext, isSpace_of_number hc, ne_of_number hc (by decide)⟩
  cases level with
  | zero => cases h
  | succ level =>
    cases value with
    | null => exact ⟨'n', _, rfl, by decide, by decide⟩
    | int value => exact hnumber _ (numberText_intToString value)
    | uint value => exact hnumber _ (numberText_uintToString value)
    | real value => exact hnumber _ h.1
    | boolean value =>
      cases value with
      | true => exact ⟨'t', _, rfl, by decide, by decide⟩
      | false => exact ⟨'f', _, rfl, by decide, by decide⟩
    | string value => exact ⟨'"', _, rfl, by decide, by decide⟩
    | array values => exact ⟨'[', _, rfl, by decide, by decide⟩
    | object members => exact ⟨'\x7b', _, rfl, by decide, by decide⟩

theorem head?_skipSpaces_writeValues {level : ℕ} {value : JsonValue}
    (h : Representable dbl level value) (values : List JsonValue) (rest : List Char) :
    (skipSpaces (writeValues dbl (value :: values) ++ rest)).head? ≠ some ']' := by
  obtain ⟨c, text, htext, hspace, hne⟩ := exists_head_writeValue dbl h
  obtain ⟨rest', hrest'⟩ : ∃ rest', writeValues dbl (value :: values) ++ rest = c :: rest' := by
    cases values with
    | nil =>
      rw [writeValues, htext]
      exact ⟨_, rfl⟩
    | cons value' values =>
      rw [writeValues, htext]
      · exact ⟨_, rfl⟩
      · simp
  have hskip : skipSpaces (c :: rest') = c :: rest' :=
    List.dropWhile_cons_of_neg (by rw [hspace]; exact Bool.false_ne_true)
  rw [hrest', hskip, List.head?_cons]
  exact fun heq => hne (Option.some.inj heq)

/-- The loop of an array, from any element on. -/
theorem readArray_writeValues {stackDepth : ℕ} {values : List JsonValue} (hne : values ≠ [])
    (hvalues : ∀ value ∈ values, ReadsBack dbl stackDepth value) {n : ℕ}
    (hn : 2 * (writeValues dbl values).length + 1 < n) (before : List JsonValue)
    (rest : List Char) :
    readArray dbl n stackDepth before (writeValues dbl values ++ ']' :: rest) =
      .ok (.array (before ++ values), rest) := by
  induction values generalizing n before with
  | nil => exact absurd rfl hne
  | cons value values ih =>
    obtain ⟨n, rfl⟩ : ∃ m, n = m + 1 := ⟨n - 1, by omega⟩
    have hvalue := hvalues value List.mem_cons_self
    cases values with
    | nil =>
      have hread := hvalue n (']' :: rest) (by rw [writeValues] at hn; omega)
        (numberEnd_cons (by decide))
      -- the bracket behind the last element
      have hend := readTokenNoComment_of_readToken (readToken_mark rest).2.2.2.1 (by simp)
      rw [writeValues, readArray, hread]
      dsimp only
      rw [hend]
    | cons value' values =>
      rw [writeValues, List.length_append, List.length_cons] at hn
      · have hread := hvalue n (',' :: (writeValues dbl (value' :: values) ++ ']' :: rest))
          (by omega) (numberEnd_cons (by decide))
        -- the comma behind any other
        have hcomma := readTokenNoComment_of_readToken
          (readToken_mark (writeValues dbl (value' :: values) ++ ']' :: rest)).2.2.2.2.1 (by simp)
        have hrest := ih (by simp) (fun w hw => hvalues w (List.mem_cons_of_mem _ hw))
          (n := n) (by omega) (before ++ [value])
        rw [writeValues, List.append_assoc, List.cons_append, readArray, hread]
        · dsimp only
          rw [hcomma]
          dsimp only
          rw [hrest, List.append_assoc, List.singleton_append]
        · simp
      · simp

/-- The last member of an object. -/
theorem readObject_last {stackDepth n : ℕ} {value : JsonValue} {rest : List Char}
    (hread : readValue dbl n stackDepth (writeValue dbl value ++ '\x7d' :: rest) =
      .ok (value, '\x7d' :: rest))
    (name last : String) (before : List (String × JsonValue)) :
    readObject dbl (n + 1) stackDepth last before
        (valueToQuotedString name ++ ':' :: (writeValue dbl value ++ '\x7d' :: rest)) =
      .ok (.object (Lib.setKey name value before), rest) := by
  have hname := readTokenNoComment_of_readToken
    (readToken_string name (':' :: (writeValue dbl value ++ '\x7d' :: rest))) (by simp)
  have hcolon := (readToken_mark (writeValue dbl value ++ '\x7d' :: rest)).2.2.2.2.2
  have hend := (readToken_mark rest).2.1
  rw [readObject, hname]
  dsimp only
  rw [decodeString_quoted, hcolon]
  dsimp only
  rw [hread]
  dsimp only
  rw [hend]

/-- A member with another behind it. -/
theorem readObject_next {stackDepth n : ℕ} {value : JsonValue} {rest : List Char}
    (hread : readValue dbl n stackDepth (writeValue dbl value ++ ',' :: rest) =
      .ok (value, ',' :: rest))
    (name last : String) (before : List (String × JsonValue)) :
    readObject dbl (n + 1) stackDepth last before
        (valueToQuotedString name ++ ':' :: (writeValue dbl value ++ ',' :: rest)) =
      readObject dbl n stackDepth name (Lib.setKey name value before) rest := by
  have hname := readTokenNoComment_of_readToken
    (readToken_string name (':' :: (writeValue dbl value ++ ',' :: rest))) (by simp)
  have hcolon := (readToken_mark (writeValue dbl value ++ ',' :: rest)).2.2.2.2.2
  have hcomma := (readToken_mark rest).2.2.2.2.1
  rw [readObject, hname]
  dsimp only
  rw [decodeString_quoted, hcolon]
  dsimp only
  rw [hread]
  dsimp only
  rw [hcomma]

/-- The loop of an object, from any member on: the names before are smaller, so that each
member goes to the end. -/
theorem readObject_writeMembers {stackDepth : ℕ} {members : List (String × JsonValue)}
    (hne : members ≠ []) (hvalues : ∀ m ∈ members, ReadsBack dbl stackDepth m.2) {n : ℕ}
    (hn : 2 * (writeMembers dbl members).length + 1 < n) {before : List (String × JsonValue)}
    (hsorted : Lib.Ascending (before ++ members)) (last : String)
    (rest : List Char) :
    readObject dbl n stackDepth last before (writeMembers dbl members ++ '\x7d' :: rest) =
      .ok (.object (before ++ members), rest) := by
  induction members generalizing n last before with
  | nil => exact absurd rfl hne
  | cons m members ih =>
    obtain ⟨name, value⟩ := m
    obtain ⟨n, rfl⟩ : ∃ m, n = m + 1 := ⟨n - 1, by omega⟩
    have hvalue : ReadsBack dbl stackDepth value := hvalues (name, value) List.mem_cons_self
    -- the names before are smaller
    have hset : Lib.setKey name value before = before ++ [(name, value)] := by
      refine Lib.setKey_of_forall_lt (fun p hp => ?_) value
      rw [Lib.Ascending, List.map_append, List.pairwise_append] at hsorted
      exact hsorted.2.2 p.1 (List.mem_map_of_mem hp) name (by simp)
    cases members with
    | nil =>
      rw [writeMembers, List.length_append, List.length_cons] at hn
      have hread := hvalue n ('\x7d' :: rest) (by omega) (numberEnd_cons (by decide))
      rw [writeMembers, List.append_assoc, List.cons_append,
        readObject_last dbl hread name last before, hset]
    | cons m' members =>
      rw [writeMembers, List.length_append, List.length_cons, List.length_append,
        List.length_cons] at hn
      · have hread := hvalue n (',' :: (writeMembers dbl (m' :: members) ++ '\x7d' :: rest))
          (by omega) (numberEnd_cons (by decide))
        have hsorted' : Lib.Ascending ((before ++ [(name, value)]) ++ m' :: members) := by
          rwa [List.append_assoc, List.singleton_append]
        have hrest := ih (by simp) (fun w hw => hvalues w (List.mem_cons_of_mem _ hw))
          (n := n) (by omega) hsorted' name
        rw [writeMembers, List.append_assoc, List.cons_append, List.append_assoc, List.cons_append,
          readObject_next dbl hread name last before, hset, hrest, List.append_assoc,
          List.singleton_append]
        simp
      · simp

theorem readsBack_null {stackDepth : ℕ} (hopen : stackDepth < stackLimit) :
    ReadsBack dbl stackDepth .null := by
  intro n rest hn _
  obtain ⟨n, rfl⟩ : ∃ m, n = m + 1 := ⟨n - 1, by omega⟩
  have htoken := readTokenNoComment_of_readToken (readToken_word rest).2.2 (by simp)
  rw [writeValue, readValue, if_neg (Nat.not_le.2 hopen)]
  simp only [List.cons_append, List.nil_append]
  rw [htoken]

theorem readsBack_boolean {stackDepth : ℕ} (hopen : stackDepth < stackLimit) (value : Bool) :
    ReadsBack dbl stackDepth (.boolean value) := by
  intro n rest hn _
  obtain ⟨n, rfl⟩ : ∃ m, n = m + 1 := ⟨n - 1, by omega⟩
  cases value with
  | true =>
    have htoken := readTokenNoComment_of_readToken (readToken_word rest).1 (by simp)
    rw [writeValue, readValue, if_neg (Nat.not_le.2 hopen)]
    simp only [List.cons_append, List.nil_append]
    rw [htoken]
  | false =>
    have htoken := readTokenNoComment_of_readToken (readToken_word rest).2.1 (by simp)
    rw [writeValue, readValue, if_neg (Nat.not_le.2 hopen)]
    simp only [List.cons_append, List.nil_append]
    rw [htoken]

theorem readsBack_number {stackDepth : ℕ} (hopen : stackDepth < stackLimit) {value : JsonValue}
    (htext : NumberText (writeValue dbl value))
    (hdecode : decodeNumber dbl (writeValue dbl value) = some value) :
    ReadsBack dbl stackDepth value := by
  intro n rest hn hrest
  obtain ⟨n, rfl⟩ : ∃ m, n = m + 1 := ⟨n - 1, by omega⟩
  have htoken := readTokenNoComment_of_readToken (readToken_number htext hrest) (by simp)
  rw [readValue, if_neg (Nat.not_le.2 hopen), htoken]
  dsimp only
  rw [hdecode]
  rfl

theorem readsBack_string {stackDepth : ℕ} (hopen : stackDepth < stackLimit) (value : String) :
    ReadsBack dbl stackDepth (.string value) := by
  intro n rest hn _
  obtain ⟨n, rfl⟩ : ∃ m, n = m + 1 := ⟨n - 1, by omega⟩
  have htoken := readTokenNoComment_of_readToken (readToken_string value rest) (by simp)
  rw [writeValue, readValue, if_neg (Nat.not_le.2 hopen), htoken]
  dsimp only
  rw [decodeString_quoted]
  rfl

/-- The elements are read back within one more open value. -/
theorem readsBack_array {stackDepth level : ℕ} (hopen : stackDepth < stackLimit)
    {values : List JsonValue} (hlevel : ∀ value ∈ values, Representable dbl level value)
    (hvalues : ∀ value ∈ values, ReadsBack dbl (stackDepth + 1) value) :
    ReadsBack dbl stackDepth (.array values) := by
  intro n rest hn _
  obtain ⟨n, rfl⟩ : ∃ m, n = m + 1 := ⟨n - 1, by omega⟩
  have htoken := readTokenNoComment_of_readToken
    (readToken_mark (writeValues dbl values ++ ']' :: rest)).2.2.1 (by simp)
  rw [writeValue, List.length_cons, List.length_append] at hn
  rw [writeValue, List.cons_append, List.append_assoc, List.singleton_append, readValue,
    if_neg (Nat.not_le.2 hopen), htoken]
  dsimp only
  cases values with
  | nil => rfl
  | cons value values =>
    -- the text of an element does not begin with the bracket that ends an empty array
    have hhead := head?_skipSpaces_writeValues dbl (hlevel value List.mem_cons_self) values
      (']' :: rest)
    rw [if_neg hhead]
    exact readArray_writeValues dbl (by simp) hvalues (by omega) [] rest

theorem readsBack_object {stackDepth : ℕ} (hopen : stackDepth < stackLimit)
    {members : List (String × JsonValue)} (hascending : Lib.Ascending members)
    (hvalues : ∀ m ∈ members, ReadsBack dbl (stackDepth + 1) m.2) :
    ReadsBack dbl stackDepth (.object members) := by
  intro n rest hn _
  obtain ⟨n, rfl⟩ : ∃ m, n = m + 1 := ⟨n - 1, by omega⟩
  have htoken := readTokenNoComment_of_readToken
    (readToken_mark (writeMembers dbl members ++ '\x7d' :: rest)).1 (by simp)
  rw [writeValue, List.length_cons, List.length_append] at hn
  rw [writeValue, List.cons_append, List.append_assoc, List.singleton_append, readValue,
    if_neg (Nat.not_le.2 hopen), htoken]
  dsimp only
  cases members with
  | nil =>
    obtain ⟨m, rfl⟩ : ∃ m, n = m + 1 := ⟨n - 1, by simp at hn; omega⟩
    rfl
  | cons m members =>
    exact readObject_writeMembers dbl (by simp) hvalues (by omega) hascending "" rest

/-- By induction on the levels that are left. -/
theorem readsBack_of_representable {level stackDepth : ℕ} {value : JsonValue}
    (h : Representable dbl level value) (hdepth : stackDepth + level ≤ stackLimit) :
    ReadsBack dbl stackDepth value := by
  induction level generalizing stackDepth value with
  | zero => cases h
  | succ level ih =>
    have hopen : stackDepth < stackLimit := by omega
    cases value with
    | null => exact readsBack_null dbl hopen
    | int value =>
      exact readsBack_number dbl hopen (numberText_intToString value)
        (decodeNumber_intToString dbl h.1 h.2)
    | uint value =>
      have hbig : ¬ value ≤ 2 ^ 31 - 1 := Nat.not_le.2 (Nat.lt_of_lt_of_le (by omega) h.1)
      have hdecode := decodeNumber_uintToString dbl h.2
      rw [if_neg hbig] at hdecode
      exact readsBack_number dbl hopen (numberText_uintToString value) hdecode
    | real value => exact readsBack_number dbl hopen h.1 h.2
    | boolean value => exact readsBack_boolean dbl hopen value
    | string value => exact readsBack_string dbl hopen value
    | array values =>
      exact readsBack_array dbl hopen h fun value hvalue => ih (h value hvalue) (by omega)
    | object members =>
      exact readsBack_object dbl hopen h.1 fun m hm => ih (h.2 m hm) (by omega)

/-- A document that was written is read back. -/
theorem parse_write {value : JsonValue} (h : Representable dbl stackLimit value) :
    parse dbl (write dbl value) = .ok value := by
  have hread := readsBack_of_representable dbl h (Nat.le_of_eq (Nat.zero_add stackLimit))
    (2 * (writeValue dbl value ++ ['\n']).length + 2) ['\n']
    (by rw [List.length_append]; omega) (numberEnd_cons (by decide))
  unfold parse write
  rw [String.toList_ofList, hread]

end JsonText

end DeviceClient
