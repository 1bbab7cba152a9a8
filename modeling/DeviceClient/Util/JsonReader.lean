import DeviceClient.Lib.KeyedList
import DeviceClient.Util.JsonWriter
import Mathlib.Data.List.TakeWhile

/-!
# JSON texts: the reader

`Json::Reader`: a recursive descent over the tokens of a text. Comments are read
and dropped, text behind the root is not read.

The reader takes some texts that are not JSON: a lone minus is a zero, an object
may end behind the comma of a member with an empty name, and what follows a
comment behind a member stands for a comma. It throws where values nest too deep.

The recursion is on a count that each call lowers; two calls read at least one
character.

* `takes_read`: a value that is read takes a character.
* `parse_count`: the count that `parse` starts with is never too small.
-/

namespace DeviceClient

/-- A token, with the text of a string between its quotes and that of a number. -/
inductive JsonToken where
  | objectBegin
  | objectEnd
  | arrayBegin
  | arrayEnd
  | string (text : List Char)
  | number (text : List Char)
  | true
  | false
  | null
  | arraySeparator
  | memberSeparator
  | comment
  | endOfStream
  | error

/-- Why `parse` returns no value: `stackLimit` is an exception. -/
inductive ReadError where
  | syntaxError
  | stackLimit
deriving DecidableEq

namespace JsonText

/-! ## Tokens -/

def isSpace (c : Char) : Bool := c = ' ' || c = '\t' || c = '\r' || c = '\n'

def skipSpaces (chars : List Char) : List Char := chars.dropWhile isSpace

/-- `match`: what is behind the pattern, or where the reader was. -/
def matchPattern (token : JsonToken) (pattern chars : List Char) : JsonToken × List Char :=
  if pattern.isPrefixOf chars then (token, chars.drop pattern.length) else (.error, chars)

/-- The text up to the closing quote, and what is behind it. -/
def readString : List Char → Option (List Char × List Char)
  | [] => none
  | c :: rest =>
    if c = '"' then some ([], rest)
    else if c = '\\' then
      -- the escape is decoded later
      match rest with
      | [] => none
      | c' :: rest => (readString rest).map fun r => (c :: c' :: r.1, r.2)
    else (readString rest).map fun r => (c :: r.1, r.2)

/-- The loops of `readNumber`. -/
inductive NumberPart where
  | integral
  | fraction
  | exponentSign
  | exponent
deriving DecidableEq

/-- The loop that takes the next character. -/
def NumberPart.next : NumberPart → Char → Option NumberPart
  | .integral, c =>
    if c.isDigit then some .integral
    else if c = '.' then some .fraction
    else if c = 'e' ∨ c = 'E' then some .exponentSign
    else none
  | .fraction, c =>
    if c.isDigit then some .fraction
    else if c = 'e' ∨ c = 'E' then some .exponentSign
    else none
  | .exponentSign, c => if c = '+' ∨ c = '-' ∨ c.isDigit then some .exponent else none
  | .exponent, c => if c.isDigit then some .exponent else none

/-- `readNumber` behind the first character. -/
def readNumber : NumberPart → List Char → List Char × List Char
  | _, [] => ([], [])
  | part, c :: rest =>
    match part.next c with
    | none => ([], c :: rest)
    | some part' =>
      let r := readNumber part' rest
      (c :: r.1, r.2)

/-- What is behind the comment, if it is closed. -/
def readCStyleComment : List Char → Option (List Char)
  | [] => none
  | c :: rest => if c = '*' ∧ rest.head? = some '/' then some rest.tail else readCStyleComment rest

def readCppStyleComment : List Char → List Char
  | [] => []
  | c :: rest =>
    if c = '\n' then rest
    else if c = '\r' then (if rest.head? = some '\n' then rest.tail else rest)
    else readCppStyleComment rest

def readComment : List Char → JsonToken × List Char
  | [] => (.error, [])
  | c :: rest =>
    if c = '*' then
      match readCStyleComment rest with
      | none => (.error, [])
      | some rest => (.comment, rest)
    else if c = '/' then (.comment, readCppStyleComment rest)
    else (.error, rest)

/-- The token that begins with a character. -/
def readTokenFrom (c : Char) (rest : List Char) : JsonToken × List Char :=
  if c = '{' then (.objectBegin, rest)
  else if c = '}' then (.objectEnd, rest)
  else if c = '[' then (.arrayBegin, rest)
  else if c = ']' then (.arrayEnd, rest)
  else if c = '"' then
    match readString rest with
    | none => (.error, [])
    | some (text, rest) => (.string text, rest)
  else if c = '/' then readComment rest
  else if c.isDigit ∨ c = '-' then
    let r := readNumber .integral rest
    (.number (c :: r.1), r.2)
  else if c = 't' then matchPattern .true ['r', 'u', 'e'] rest
  else if c = 'f' then matchPattern .false ['a', 'l', 's', 'e'] rest
  else if c = 'n' then matchPattern .null ['u', 'l', 'l'] rest
  else if c = ',' then (.arraySeparator, rest)
  else if c = ':' then (.memberSeparator, rest)
  else if c = '\x00' then (.endOfStream, rest)
  else (.error, rest)

def readToken (chars : List Char) : JsonToken × List Char :=
  match skipSpaces chars with
  | [] => (.endOfStream, [])
  | c :: rest => readTokenFrom c rest

/-- The next token that is no comment. The count is above the number of characters. -/
def skipCommentTokens : ℕ → List Char → JsonToken × List Char
  | 0, _ => (.endOfStream, [])
  | n + 1, chars =>
    match readToken chars with
    | (.comment, rest) => skipCommentTokens n rest
    | r => r

/-- `skipCommentTokens`, and the loops that skip comments in objects and arrays. -/
def readTokenNoComment (chars : List Char) : JsonToken × List Char :=
  skipCommentTokens (chars.length + 1) chars

/-! ## Numbers and strings -/

/-- The loop of `decodeNumber`; `none` is a number that is read as a double. -/
def decodeDigits (maxIntegerValue : ℕ) : ℕ → List Char → Option ℕ
  | value, [] => some value
  | value, c :: rest =>
    let digit := c.toNat - '0'.toNat
    let threshold := maxIntegerValue / 10
    if c.isDigit then
      -- the value would pass the limit
      if threshold ≤ value ∧
          (threshold < value ∨ rest ≠ [] ∨ maxIntegerValue % 10 < digit) then none
      else decodeDigits maxIntegerValue (value * 10 + digit) rest
    else none

variable (dbl : DoubleText)

def decodeDouble (text : List Char) : Option JsonValue :=
  (dbl.stringToDouble (String.ofList text)).map .real

def decodeNumber (text : List Char) : Option JsonValue :=
  if text.head? = some '-' then
    match decodeDigits (2 ^ 63) 0 text.tail with
    | none => decodeDouble dbl text
    | some value => some (.int (-value))
  else
    match decodeDigits (2 ^ 64 - 1) 0 text with
    | none => decodeDouble dbl text
    -- signed only up to the 32-bit `maxInt`
    | some value => some (if value ≤ 2 ^ 31 - 1 then .int value else .uint value)

def hexValue (c : Char) : Option ℕ :=
  if c.isDigit then some (c.toNat - '0'.toNat)
  else if 'a' ≤ c ∧ c ≤ 'f' then some (c.toNat - 'a'.toNat + 10)
  else if 'A' ≤ c ∧ c ≤ 'F' then some (c.toNat - 'A'.toNat + 10)
  else none

/-- Four hexadecimal digits. -/
def decodeUnicodeEscapeSequence : List Char → Option (ℕ × List Char)
  | c₁ :: c₂ :: c₃ :: c₄ :: rest => do
    let d₁ ← hexValue c₁
    let d₂ ← hexValue c₂
    let d₃ ← hexValue c₃
    let d₄ ← hexValue c₄
    some (((d₁ * 16 + d₂) * 16 + d₃) * 16 + d₄, rest)
  | _ => none

/-- A code point of one escape, or of two that are surrogates. -/
def decodeUnicodeCodePoint (chars : List Char) : Option (ℕ × List Char) := do
  let (unicode, rest) ← decodeUnicodeEscapeSequence chars
  if 0xD800 ≤ unicode ∧ unicode ≤ 0xDBFF then
    match rest with
    | '\\' :: 'u' :: rest =>
      let (surrogatePair, rest) ← decodeUnicodeEscapeSequence rest
      some (0x10000 + unicode % 0x400 * 0x400 + surrogatePair % 0x400, rest)
    | _ => none
  else some (unicode, rest)

/-- The character behind a backslash. A surrogate without its first half, whose bytes
are no text, is read as U+FFFD. -/
def decodeEscape : List Char → Option (Char × List Char)
  | [] => none
  | escape :: rest =>
    if escape = '"' ∨ escape = '/' ∨ escape = '\\' then some (escape, rest)
    else if escape = 'b' then some ('\x08', rest)
    else if escape = 'f' then some ('\x0c', rest)
    else if escape = 'n' then some ('\n', rest)
    else if escape = 'r' then some ('\r', rest)
    else if escape = 't' then some ('\t', rest)
    else if escape = 'u' then
      (decodeUnicodeCodePoint rest).map fun r =>
        (if r.1.isValidChar then Char.ofNat r.1 else '\uFFFD', r.2)
    else none

/-- The loop of `decodeString`. The count is the number of characters. -/
def decodeChars : ℕ → List Char → Option (List Char)
  | _, [] => some []
  | 0, _ :: _ => none
  | n + 1, c :: rest =>
    if c = '"' then some []
    else if c = '\\' then do
      let (decoded, rest) ← decodeEscape rest
      let chars ← decodeChars n rest
      some (decoded :: chars)
    else (decodeChars n rest).map (c :: ·)

def decodeString (text : List Char) : Option String :=
  (decodeChars text.length text).map String.ofList

/-! ## Values -/

def stackLimit : ℕ := 1000

/-- A value, and what is behind it. -/
abbrev ReadResult := Except ReadError (JsonValue × List Char)

/-- A scalar that may not decode. -/
def scalar (value : Option JsonValue) (rest : List Char) : ReadResult :=
  match value with
  | none => .error .syntaxError
  | some value => .ok (value, rest)

mutual

/-- `readValue`, with the values that are open around it. -/
def readValue : ℕ → ℕ → List Char → ReadResult
  | 0, _, _ => .error .syntaxError
  | n + 1, stackDepth, chars =>
    if stackLimit ≤ stackDepth then .error .stackLimit
    else
      match readTokenNoComment chars with
      | (.objectBegin, rest) => readObject n (stackDepth + 1) "" [] rest
      | (.arrayBegin, rest) =>
        if (skipSpaces rest).head? = some ']' then .ok (.array [], (skipSpaces rest).tail)
        else readArray n (stackDepth + 1) [] rest
      | (.number text, rest) => scalar (decodeNumber dbl text) rest
      | (.string text, rest) => scalar ((decodeString text).map .string) rest
      | (.true, rest) => .ok (.boolean true, rest)
      | (.false, rest) => .ok (.boolean false, rest)
      | (.null, rest) => .ok (.null, rest)
      | _ => .error .syntaxError

/-- The loop of `readObject`, with the last name and the members so far. -/
def readObject : ℕ → ℕ → String → List (String × JsonValue) → List Char → ReadResult
  | 0, _, _, _, _ => .error .syntaxError
  | n + 1, stackDepth, name, members, chars =>
    match readTokenNoComment chars with
    | (.objectEnd, rest) =>
      -- the test for an empty object, made at each member
      if name = "" then .ok (.object members, rest) else .error .syntaxError
    | (.string text, rest) =>
      match decodeString text, readToken rest with
      | some name, (.memberSeparator, rest) =>
        match readValue n stackDepth rest with
        | .error e => .error e
        | .ok (value, rest) =>
          let members := Lib.setKey name value members
          match readToken rest with
          | (.objectEnd, rest) => .ok (.object members, rest)
          | (.arraySeparator, rest) => readObject n stackDepth name members rest
          | (.comment, rest) =>
            -- behind a comment only the end is told from other tokens
            match readTokenNoComment rest with
            | (.objectEnd, rest) => .ok (.object members, rest)
            | (_, rest) => readObject n stackDepth name members rest
          | _ => .error .syntaxError
      | _, _ => .error .syntaxError
    | _ => .error .syntaxError

/-- The loop of `readArray`, with the elements so far. -/
def readArray : ℕ → ℕ → List JsonValue → List Char → ReadResult
  | 0, _, _, _ => .error .syntaxError
  | n + 1, stackDepth, values, chars =>
    match readValue n stackDepth chars with
    | .error e => .error e
    | .ok (value, rest) =>
      match readTokenNoComment rest with
      | (.arraySeparator, rest) => readArray n stackDepth (values ++ [value]) rest
      | (.arrayEnd, rest) => .ok (.array (values ++ [value]), rest)
      | _ => .error .syntaxError

end

/-- `Reader::parse`. -/
def parse (document : String) : Except ReadError JsonValue :=
  match readValue dbl (2 * document.toList.length + 2) 0 document.toList with
  | .error e => .error e
  | .ok (value, _) => .ok value

/-! ## The counts suffice -/

theorem length_readString {chars text rest : List Char}
    (h : readString chars = some (text, rest)) : rest.length < chars.length := by
  induction hn : chars.length using Nat.strong_induction_on generalizing chars text with
  | _ n ih =>
    subst hn
    cases chars with
    | nil => cases h
    | cons c chars =>
      rw [readString.eq_def] at h
      dsimp only at h
      by_cases hquote : c = '"'
      · rw [if_pos hquote] at h
        cases h
        exact Nat.lt_succ_self _
      rw [if_neg hquote] at h
      by_cases hbackslash : c = '\\'
      · rw [if_pos hbackslash] at h
        cases chars with
        | nil => cases h
        | cons c' chars =>
          obtain ⟨r, hread, hr⟩ := Option.map_eq_some_iff.1 h
          cases hr
          have hlt := ih chars.length (by simp only [List.length_cons]; omega) hread rfl
          simp only [List.length_cons]
          omega
      · rw [if_neg hbackslash] at h
        obtain ⟨r, hread, hr⟩ := Option.map_eq_some_iff.1 h
        cases hr
        exact Nat.lt_succ_of_lt (ih chars.length (Nat.lt_succ_self _) hread rfl)

theorem length_readNumber (part : NumberPart) (chars : List Char) :
    (readNumber part chars).2.length ≤ chars.length := by
  induction chars generalizing part with
  | nil => exact Nat.le_refl 0
  | cons c rest ih =>
    unfold readNumber
    cases part.next c with
    | none => exact Nat.le_refl _
    | some part' => exact Nat.le_succ_of_le (ih part')

theorem length_readCStyleComment {chars rest : List Char}
    (h : readCStyleComment chars = some rest) : rest.length ≤ chars.length := by
  induction chars with
  | nil => cases h
  | cons c rest' ih =>
    unfold readCStyleComment at h
    by_cases hend : c = '*' ∧ rest'.head? = some '/'
    · rw [if_pos hend] at h
      cases h
      rw [List.length_tail, List.length_cons]
      omega
    · rw [if_neg hend] at h
      exact Nat.le_succ_of_le (ih h)

theorem length_readCppStyleComment (chars : List Char) :
    (readCppStyleComment chars).length ≤ chars.length := by
  induction chars with
  | nil => exact Nat.le_refl 0
  | cons c rest ih =>
    unfold readCppStyleComment
    by_cases hn : c = '\n'
    · rw [if_pos hn]
      exact Nat.le_succ _
    rw [if_neg hn]
    by_cases hr : c = '\r'
    · rw [if_pos hr]
      by_cases hrest : rest.head? = some '\n'
      · rw [if_pos hrest, List.length_tail, List.length_cons]
        omega
      · rw [if_neg hrest]
        exact Nat.le_succ _
    · rw [if_neg hr]
      exact Nat.le_succ_of_le ih

theorem length_readComment (chars : List Char) :
    (readComment chars).2.length ≤ chars.length := by
  cases chars with
  | nil => exact Nat.le_refl 0
  | cons c rest =>
    unfold readComment
    dsimp only
    by_cases hc : c = '*'
    · rw [if_pos hc]
      cases hread : readCStyleComment rest with
      | none => exact Nat.zero_le _
      | some rest' => exact Nat.le_succ_of_le (length_readCStyleComment hread)
    rw [if_neg hc]
    by_cases hcpp : c = '/'
    · rw [if_pos hcpp]
      exact Nat.le_succ_of_le (length_readCppStyleComment rest)
    · rw [if_neg hcpp]
      exact Nat.le_succ _

theorem length_matchPattern (token : JsonToken) (pattern chars : List Char) :
    (matchPattern token pattern chars).2.length ≤ chars.length := by
  unfold matchPattern
  split
  · rw [List.length_drop]
    omega
  · exact Nat.le_refl _

theorem length_ite {p : Prop} [Decidable p] {a b : JsonToken × List Char} {n : ℕ}
    (ha : a.2.length ≤ n) (hb : b.2.length ≤ n) : (if p then a else b).2.length ≤ n := by
  by_cases hp : p
  · rwa [if_pos hp]
  · rwa [if_neg hp]

/-- A token takes its first character. -/
theorem length_readTokenFrom (c : Char) (rest : List Char) :
    (readTokenFrom c rest).2.length ≤ rest.length := by
  have hmark : rest.length ≤ rest.length := Nat.le_refl _
  unfold readTokenFrom
  refine length_ite hmark <| length_ite hmark <| length_ite hmark <| length_ite hmark <|
    length_ite ?_ <| length_ite (length_readComment rest) <|
    length_ite (length_readNumber .integral rest) <| length_ite (length_matchPattern _ _ rest) <|
    length_ite (length_matchPattern _ _ rest) <| length_ite (length_matchPattern _ _ rest) <|
    length_ite hmark <| length_ite hmark <| length_ite hmark hmark
  cases hread : readString rest with
  | none => exact Nat.zero_le _
  | some r => exact Nat.le_of_lt (length_readString hread)

theorem length_readToken (chars : List Char) :
    (readToken chars).2.length ≤ chars.length ∧
      ((readToken chars).1 ≠ .endOfStream → (readToken chars).2.length < chars.length) := by
  have hskip : (skipSpaces chars).length ≤ chars.length := List.length_dropWhile_le _ _
  unfold readToken
  cases hchars : skipSpaces chars with
  | nil => exact ⟨Nat.zero_le _, fun h => absurd rfl h⟩
  | cons c rest =>
    have hrest := length_readTokenFrom c rest
    rw [hchars, List.length_cons] at hskip
    dsimp only
    constructor
    · omega
    · omega

theorem length_skipCommentTokens (n : ℕ) (chars : List Char) :
    (skipCommentTokens n chars).2.length ≤ chars.length ∧
      ((skipCommentTokens n chars).1 ≠ .endOfStream →
        (skipCommentTokens n chars).2.length < chars.length) := by
  induction n generalizing chars with
  | zero => exact ⟨Nat.zero_le _, fun h => absurd rfl h⟩
  | succ n ih =>
    have htoken := length_readToken chars
    unfold skipCommentTokens
    split
    · rename_i rest hread
      have hrest := ih rest
      rw [hread] at htoken
      have hlt := htoken.2 (by simp)
      dsimp only at hlt
      exact ⟨by omega, fun _ => by omega⟩
    · exact htoken

/-- The next token takes a character, unless it is the end. -/
theorem length_readTokenNoComment {chars rest : List Char} {token : JsonToken}
    (h : readTokenNoComment chars = (token, rest)) (htoken : token ≠ .endOfStream) :
    rest.length < chars.length := by
  have hlength := (length_skipCommentTokens (chars.length + 1) chars).2
  unfold readTokenNoComment at h
  rw [h] at hlength
  exact hlength htoken

/-- What is behind a value that was read is shorter than the text. -/
def Takes (result : ReadResult) (chars : List Char) : Prop :=
  ∀ value rest, result = .ok (value, rest) → rest.length < chars.length

theorem takes_error (e : ReadError) (chars : List Char) : Takes (.error e) chars :=
  fun _ _ h => by cases h

theorem takes_ok {value : JsonValue} {chars rest : List Char} (h : rest.length < chars.length) :
    Takes (.ok (value, rest)) chars := by
  intro value' rest' heq
  cases heq
  exact h

theorem takes_scalar (value : Option JsonValue) {chars rest : List Char}
    (h : rest.length < chars.length) : Takes (scalar value rest) chars := by
  cases value with
  | none => exact takes_error _ chars
  | some value => exact takes_ok h

theorem Takes.mono {result : ReadResult} {chars chars' : List Char} (h : Takes result chars)
    (hle : chars.length ≤ chars'.length) : Takes result chars' :=
  fun value rest heq => Nat.lt_of_lt_of_le (h value rest heq) hle

theorem takes_readValue {n : ℕ}
    (hobject : ∀ stackDepth name members chars,
      Takes (readObject dbl n stackDepth name members chars) chars)
    (harray : ∀ stackDepth values chars, Takes (readArray dbl n stackDepth values chars) chars)
    (stackDepth : ℕ) (chars : List Char) :
    Takes (readValue dbl (n + 1) stackDepth chars) chars := by
  rw [readValue]
  by_cases hdepth : stackLimit ≤ stackDepth
  · rw [if_pos hdepth]
    exact takes_error _ chars
  rw [if_neg hdepth]
  -- one case for each token
  split
  · rename_i rest hread
    have hlt := length_readTokenNoComment hread (by simp)
    exact (hobject _ _ _ rest).mono (Nat.le_of_lt hlt)
  · rename_i rest hread
    have hlt := length_readTokenNoComment hread (by simp)
    have hskip : (skipSpaces rest).length ≤ rest.length := List.length_dropWhile_le _ _
    by_cases hend : (skipSpaces rest).head? = some ']'
    · rw [if_pos hend]
      refine takes_ok ?_
      rw [List.length_tail]
      omega
    · rw [if_neg hend]
      exact (harray _ _ rest).mono (Nat.le_of_lt hlt)
  · rename_i hread
    exact takes_scalar _ (length_readTokenNoComment hread (by simp))
  · rename_i hread
    exact takes_scalar _ (length_readTokenNoComment hread (by simp))
  · rename_i hread
    exact takes_ok (length_readTokenNoComment hread (by simp))
  · rename_i hread
    exact takes_ok (length_readTokenNoComment hread (by simp))
  · rename_i hread
    exact takes_ok (length_readTokenNoComment hread (by simp))
  · exact takes_error _ chars

theorem takes_readObject {n : ℕ}
    (hvalue : ∀ stackDepth chars, Takes (readValue dbl n stackDepth chars) chars)
    (hobject : ∀ stackDepth name members chars,
      Takes (readObject dbl n stackDepth name members chars) chars)
    (stackDepth : ℕ) (name : String) (members : List (String × JsonValue)) (chars : List Char) :
    Takes (readObject dbl (n + 1) stackDepth name members chars) chars := by
  rw [readObject]
  -- an empty object, a member, or an error
  split
  · rename_i rest hread
    have hlt := length_readTokenNoComment hread (by simp)
    by_cases hname : name = ""
    · rw [if_pos hname]
      exact takes_ok hlt
    · rw [if_neg hname]
      exact takes_error _ chars
  · rename_i text rest hread
    have hlt := length_readTokenNoComment hread (by simp)
    split
    · rename_i name' rest₁ _ hcolon
      have hlt₁ := (length_readToken rest).1
      rw [hcolon] at hlt₁
      split
      · exact takes_error _ chars
      · rename_i value rest₂ hread₂
        have hlt₂ := hvalue _ _ value rest₂ hread₂
        have hlt₃ := (length_readToken rest₂).1
        dsimp only at hlt₁ ⊢
        split
        · -- the object ends, another member follows, or a comment comes first
          rename_i rest₃ hmark
          rw [hmark] at hlt₃
          refine takes_ok ?_
          dsimp only at hlt₃
          omega
        · rename_i rest₃ hmark
          rw [hmark] at hlt₃
          refine (hobject _ _ _ rest₃).mono ?_
          dsimp only at hlt₃
          omega
        · rename_i rest₃ hmark
          rw [hmark] at hlt₃
          have hlt₄ := (length_skipCommentTokens (rest₃.length + 1) rest₃).1
          split
          · rename_i rest₄ hend
            unfold readTokenNoComment at hend
            rw [hend] at hlt₄
            refine takes_ok ?_
            dsimp only at hlt₃ hlt₄
            omega
          · rename_i rest₄ _ hnext
            unfold readTokenNoComment at hnext
            rw [hnext] at hlt₄
            refine (hobject _ _ _ rest₄).mono ?_
            dsimp only at hlt₃ hlt₄
            omega
        · exact takes_error _ chars
    · exact takes_error _ chars
  · exact takes_error _ chars

theorem takes_readArray {n : ℕ}
    (hvalue : ∀ stackDepth chars, Takes (readValue dbl n stackDepth chars) chars)
    (harray : ∀ stackDepth values chars, Takes (readArray dbl n stackDepth values chars) chars)
    (stackDepth : ℕ) (values : List JsonValue) (chars : List Char) :
    Takes (readArray dbl (n + 1) stackDepth values chars) chars := by
  rw [readArray]
  split
  · exact takes_error _ chars
  · rename_i value rest hread
    have hlt := hvalue _ _ value rest hread
    split
    · rename_i rest' hcomma
      have hlt' := length_readTokenNoComment hcomma (by simp)
      exact (harray _ _ rest').mono (by omega)
    · rename_i rest' hend
      have hlt' := length_readTokenNoComment hend (by simp)
      exact takes_ok (by omega)
    · exact takes_error _ chars

theorem takes_read (n : ℕ) :
    (∀ stackDepth chars, Takes (readValue dbl n stackDepth chars) chars) ∧
    (∀ stackDepth name members chars,
      Takes (readObject dbl n stackDepth name members chars) chars) ∧
    ∀ stackDepth values chars, Takes (readArray dbl n stackDepth values chars) chars := by
  induction n with
  | zero =>
    exact ⟨fun _ chars => takes_error _ chars, fun _ _ _ chars => takes_error _ chars,
      fun _ _ chars => takes_error _ chars⟩
  | succ n ih =>
    obtain ⟨hvalue, hobject, harray⟩ := ih
    exact ⟨takes_readValue dbl hobject harray, takes_readObject dbl hvalue hobject,
      takes_readArray dbl hvalue harray⟩

/-- A greater count changes nothing. -/
theorem readValue_congr {n m : ℕ}
    (hobject : ∀ stackDepth name members chars, 2 * chars.length + 1 < n →
      readObject dbl n stackDepth name members chars =
        readObject dbl m stackDepth name members chars)
    (harray : ∀ stackDepth values chars, 2 * chars.length + 1 < n →
      readArray dbl n stackDepth values chars = readArray dbl m stackDepth values chars)
    (stackDepth : ℕ) {chars : List Char} (hn : 2 * chars.length < n + 1) :
    readValue dbl (n + 1) stackDepth chars = readValue dbl (m + 1) stackDepth chars := by
  rw [readValue, readValue]
  by_cases hdepth : stackLimit ≤ stackDepth
  · rw [if_pos hdepth, if_pos hdepth]
  rw [if_neg hdepth, if_neg hdepth]
  cases hread : readTokenNoComment chars with
  | mk token rest =>
    cases token with
    | objectBegin =>
      have hlt := length_readTokenNoComment hread (by simp)
      exact hobject _ _ _ rest (by omega)
    | arrayBegin =>
      have hlt := length_readTokenNoComment hread (by simp)
      dsimp only
      rw [harray _ _ rest (by omega)]
    | _ => rfl

theorem readObject_congr {n m : ℕ}
    (hvalue : ∀ stackDepth chars, 2 * chars.length < n →
      readValue dbl n stackDepth chars = readValue dbl m stackDepth chars)
    (hobject : ∀ stackDepth name members chars, 2 * chars.length + 1 < n →
      readObject dbl n stackDepth name members chars =
        readObject dbl m stackDepth name members chars)
    (stackDepth : ℕ) (name : String) (members : List (String × JsonValue)) {chars : List Char}
    (hn : 2 * chars.length + 1 < n + 1) :
    readObject dbl (n + 1) stackDepth name members chars =
      readObject dbl (m + 1) stackDepth name members chars := by
  rw [readObject, readObject]
  cases hread : readTokenNoComment chars with
  | mk token rest =>
    cases token with
    | string text =>
      have hlt := length_readTokenNoComment hread (by simp)
      dsimp only
      cases decodeString text with
      | none => rfl
      | some name' =>
        cases hcolon : readToken rest with
        | mk token₁ rest₁ =>
          have hlt₁ := (length_readToken rest).1
          rw [hcolon] at hlt₁
          cases token₁ with
          | memberSeparator =>
            dsimp only at hlt₁ ⊢
            rw [hvalue stackDepth rest₁ (by omega)]
            cases hread₂ : readValue dbl m stackDepth rest₁ with
            | error e => rfl
            | ok r =>
              obtain ⟨value, rest₂⟩ := r
              have hlt₂ := (takes_read dbl m).1 _ _ value rest₂ hread₂
              have hlt₃ := (length_readToken rest₂).1
              dsimp only
              cases hmark : readToken rest₂ with
              | mk token₃ rest₃ =>
                rw [hmark] at hlt₃
                dsimp only at hlt₃
                cases token₃ with
                | arraySeparator => exact hobject _ _ _ rest₃ (by omega)
                | comment =>
                  have hlt₄ := (length_skipCommentTokens (rest₃.length + 1) rest₃).1
                  dsimp only
                  cases hnext : readTokenNoComment rest₃ with
                  | mk token₄ rest₄ =>
                    unfold readTokenNoComment at hnext
                    rw [hnext] at hlt₄
                    dsimp only at hlt₄
                    cases token₄ with
                    | objectEnd => rfl
                    | _ => exact hobject _ _ _ rest₄ (by omega)
                | _ => rfl
          | _ => rfl
    | _ => rfl

theorem readArray_congr {n m : ℕ}
    (hvalue : ∀ stackDepth chars, 2 * chars.length < n →
      readValue dbl n stackDepth chars = readValue dbl m stackDepth chars)
    (harray : ∀ stackDepth values chars, 2 * chars.length + 1 < n →
      readArray dbl n stackDepth values chars = readArray dbl m stackDepth values chars)
    (stackDepth : ℕ) (values : List JsonValue) {chars : List Char}
    (hn : 2 * chars.length + 1 < n + 1) :
    readArray dbl (n + 1) stackDepth values chars =
      readArray dbl (m + 1) stackDepth values chars := by
  rw [readArray, readArray, hvalue stackDepth chars (by omega)]
  cases hread : readValue dbl m stackDepth chars with
  | error e => rfl
  | ok r =>
    obtain ⟨value, rest⟩ := r
    have hlt := (takes_read dbl m).1 _ _ value rest hread
    dsimp only
    cases hcomma : readTokenNoComment rest with
    | mk token rest' =>
      cases token with
      | arraySeparator =>
        have hlt' := length_readTokenNoComment hcomma (by simp)
        exact harray _ _ rest' (by omega)
      | _ => rfl

theorem read_congr (n : ℕ) :
    (∀ m, n ≤ m → ∀ stackDepth chars, 2 * chars.length < n →
      readValue dbl n stackDepth chars = readValue dbl m stackDepth chars) ∧
    (∀ m, n ≤ m → ∀ stackDepth name members chars, 2 * chars.length + 1 < n →
      readObject dbl n stackDepth name members chars =
        readObject dbl m stackDepth name members chars) ∧
    ∀ m, n ≤ m → ∀ stackDepth values chars, 2 * chars.length + 1 < n →
      readArray dbl n stackDepth values chars = readArray dbl m stackDepth values chars := by
  induction n with
  | zero =>
    refine ⟨fun m _ _ chars h => ?_, fun m _ _ _ _ chars h => ?_, fun m _ _ _ chars h => ?_⟩
    · omega
    · omega
    · omega
  | succ n ih =>
    obtain ⟨hvalue, hobject, harray⟩ := ih
    refine ⟨fun m hm stackDepth chars h => ?_, fun m hm stackDepth name members chars h => ?_,
      fun m hm stackDepth values chars h => ?_⟩
    · obtain ⟨m, rfl⟩ : ∃ k, m = k + 1 := ⟨m - 1, by omega⟩
      exact readValue_congr dbl (hobject m (by omega)) (harray m (by omega)) stackDepth h
    · obtain ⟨m, rfl⟩ : ∃ k, m = k + 1 := ⟨m - 1, by omega⟩
      exact readObject_congr dbl (hvalue m (by omega)) (hobject m (by omega)) stackDepth name
        members h
    · obtain ⟨m, rfl⟩ : ∃ k, m = k + 1 := ⟨m - 1, by omega⟩
      exact readArray_congr dbl (hvalue m (by omega)) (harray m (by omega)) stackDepth values h

/-- `parse` reads what any greater count would. -/
theorem parse_count (document : String) {m : ℕ} (hm : 2 * document.toList.length + 2 ≤ m) :
    parse dbl document =
      match readValue dbl m 0 document.toList with
      | .error e => .error e
      | .ok (value, _) => .ok value := by
  have hread := (read_congr dbl _).1 m hm 0 document.toList (Nat.lt_succ_of_lt (Nat.lt_succ_self _))
  unfold parse
  rw [hread]

/-! ## Objects -/

theorem decodeNumber_ne_object (text : List Char) (members : List (String × JsonValue)) :
    decodeNumber dbl text ≠ some (.object members) := by
  have hdouble : decodeDouble dbl text ≠ some (.object members) := by
    unfold decodeDouble
    cases dbl.stringToDouble (String.ofList text) <;> simp
  unfold decodeNumber
  split
  · split
    · exact hdouble
    · simp
  · split
    · exact hdouble
    · split <;> simp

/-- A value behind a token that opens it takes two characters. -/
theorem two_le_length {result : ReadResult} {chars rest rest' : List Char} {value : JsonValue}
    (htakes : Takes result rest) (hresult : result = .ok (value, rest'))
    (hrest : rest.length < chars.length) : 2 ≤ chars.length := by
  have hlt := htakes value rest' hresult
  omega

/-- The text of an object has two characters at least. -/
theorem length_of_parse_object {document : String} {members : List (String × JsonValue)}
    (h : parse dbl document = .ok (.object members)) : 2 ≤ document.toList.length := by
  unfold parse at h
  cases hread : readValue dbl (2 * document.toList.length + 2) 0 document.toList with
  | error e =>
    rw [hread] at h
    cases h
  | ok r =>
    obtain ⟨value, rest'⟩ := r
    rw [hread] at h
    cases h
    obtain ⟨_, hobject, harray⟩ := takes_read dbl (2 * document.toList.length + 1)
    rw [readValue, if_neg (by decide)] at hread
    cases htoken : readTokenNoComment document.toList with
    | mk token rest =>
      rw [htoken] at hread
      have hlength := @length_readTokenNoComment _ _ _ htoken
      cases token with
      | objectBegin => exact two_le_length (hobject _ _ _ _) hread (hlength nofun)
      | arrayBegin =>
        dsimp only at hread
        split at hread
        · cases hread
        · exact two_le_length (harray _ _ _) hread (hlength nofun)
      | number text =>
        exfalso
        cases hnumber : decodeNumber dbl text with
        | none =>
          simp [scalar, hnumber] at hread
        | some value =>
          simp only [scalar, hnumber, Except.ok.injEq, Prod.mk.injEq] at hread
          exact decodeNumber_ne_object dbl text members (hread.1 ▸ hnumber)
      | string text =>
        exfalso
        cases hstring : decodeString text <;> simp [scalar, hstring] at hread
      | true => cases hread
      | false => cases hread
      | null => cases hread
      | objectEnd => cases hread
      | arrayEnd => cases hread
      | arraySeparator => cases hread
      | memberSeparator => cases hread
      | comment => cases hread
      | endOfStream => cases hread
      | error => cases hread

end JsonText

end DeviceClient
