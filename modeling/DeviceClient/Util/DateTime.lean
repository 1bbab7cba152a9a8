import DeviceClient.Lib.Calendar
import Mathlib.Algebra.Order.Ring.Int
import Mathlib.Algebra.Order.Ring.Nat
import Mathlib.Data.List.TakeWhile
import Mathlib.Data.Nat.Notation

/-!
# Dates as texts

`CIgniteDateTime::ConvertToNumber`, and the functions of the C library that make and
read the texts of dates. A format is a function of its own.

* `scanDate_dateText`: a text of a date with a year of four digits at most is read back.
* `timegm_gmtime`: and its fields are the seconds that they were made of.
-/

namespace DeviceClient

open Lib

/-- `struct tm`. The day of the week and of the year are read nowhere. -/
structure Tm where
  tmYear : ℤ
  tmMon : ℤ
  tmMday : ℤ
  tmHour : ℤ
  tmMin : ℤ
  tmSec : ℤ
deriving DecidableEq, Repr

/-- The rule of the device's time zone: the offset from UTC at a time, in seconds. A zone
is less than a week off. -/
structure ZoneRule where
  offset : ℤ → ℤ
  bounded : ∀ t, -604800 < offset t ∧ offset t < 604800

/-- The offset of UTC is bounded. -/
theorem ZoneRule.utc_bounded (_ : ℤ) : -604800 < (0 : ℤ) ∧ (0 : ℤ) < 604800 := by decide

/-- Seconds since 1970 of the local date and time. -/
def ZoneRule.localSeconds (zone : ZoneRule) (t : ℤ) : ℤ := t + zone.offset t

namespace DateTime

/-! ## Broken-down times -/

def gmtime (t : ℤ) : Tm :=
  let c := Calendar.civilOf t
  ⟨c.year - 1900, c.month - 1, c.day, c.hour, c.minute, c.second⟩

/-- `localtime_r`; `none` if the year does not fit in an `int`. -/
def localtime (zone : ZoneRule) (t : ℤ) : Option Tm :=
  let tm := gmtime (zone.localSeconds t)
  if -2 ^ 31 ≤ tm.tmYear ∧ tm.tmYear < 2 ^ 31 then some tm else none

/-- `timegm`, for fields in any range. -/
def timegm (tm : Tm) : ℤ :=
  Calendar.secondsOf ⟨1900 + tm.tmYear + tm.tmMon / 12, tm.tmMon % 12 + 1, tm.tmMday, tm.tmHour,
    tm.tmMin, tm.tmSec⟩

theorem timegm_gmtime (t : ℤ) : timegm (gmtime t) = t := by
  obtain ⟨⟨hlow, hhigh⟩, _⟩ := Calendar.civilOf_bounds t
  have hyear : 1900 + ((Calendar.civilOf t).year - 1900) + ((Calendar.civilOf t).month - 1) / 12 =
      (Calendar.civilOf t).year := by omega
  have hmonth : ((Calendar.civilOf t).month - 1) % 12 + 1 = (Calendar.civilOf t).month := by omega
  unfold timegm gmtime
  dsimp only
  rw [hyear, hmonth]
  exact Calendar.secondsOf_civilOf t

/-! ## Writing -/

/-- `%d` of `printf`. -/
def decimal (n : ℤ) : List Char :=
  if n < 0 then '-' :: Nat.toDigits 10 n.natAbs else Nat.toDigits 10 n.natAbs

/-- `%02d`. -/
def twoDigits (n : ℤ) : List Char :=
  if 0 ≤ n ∧ n < 10 then '0' :: decimal n else decimal n

/-- `strftime` with `%Y-%m-%dT%T`. -/
def strftime (tm : Tm) : List Char :=
  decimal (1900 + tm.tmYear) ++ '-' :: (twoDigits (tm.tmMon + 1) ++ '-' :: (twoDigits tm.tmMday ++
    'T' :: (twoDigits tm.tmHour ++ ':' :: (twoDigits tm.tmMin ++ ':' :: twoDigits tm.tmSec))))

/-! ## Reading -/

def isSpace (c : Char) : Bool := c.isWhitespace || c = '\x0b' || c = '\x0c'

/-- `strptime` with `%s`: seconds, as a local time. -/
def strptimeSeconds (zone : ZoneRule) (text : List Char) : Option Tm :=
  let digits := text.takeWhile Char.isDigit
  if digits = [] then none else localtime zone (Nat.ofDigitChars 10 digits 0)

/-- A number of `strptime`: another digit is read only below the bound. -/
def getDigits (upTo : ℕ) : ℕ → ℕ → List Char → ℕ × List Char
  | n + 1, val, c :: rest =>
    if val * 10 ≤ upTo ∧ c.isDigit then getDigits upTo n (val * 10 + (c.toNat - '0'.toNat)) rest
    else (val, c :: rest)
  | _, val, rest => (val, rest)

/-- `get_number` of `strptime`. -/
def getNumber (low upTo n : ℕ) (text : List Char) : Option (ℕ × List Char) :=
  match text.dropWhile isSpace with
  | c :: rest =>
    if c.isDigit then
      let r := getDigits upTo (n - 1) (c.toNat - '0'.toNat) rest
      if low ≤ r.1 ∧ r.1 ≤ upTo then some r else none
    else none
  | [] => none

def matchChar (c : Char) : List Char → Option (List Char)
  | c' :: rest => if c' = c then some rest else none
  | [] => none

/-- A name in full or its first three letters, in any case; its place in the list. -/
def matchName (names : List String) (text : List Char) : Option (ℕ × List Char) :=
  let candidates := names.zipIdx.flatMap fun entry =>
    [(entry.1.toList, entry.2), (entry.1.toList.take 3, entry.2)]
  (candidates.find? fun entry =>
    entry.1.map Char.toLower = (text.take entry.1.length).map Char.toLower).map fun entry =>
    (entry.2, text.drop entry.1.length)

def weekdayNames : List String :=
  ["Sunday", "Monday", "Tuesday", "Wednesday", "Thursday", "Friday", "Saturday"]

def monthNames : List String :=
  ["January", "February", "March", "April", "May", "June", "July", "August", "September",
    "October", "November", "December"]

/-- `strptime` with `%a, %d %b %Y %H:%M:%S`. -/
def strptimeHeader (text : List Char) : Option Tm := do
  let (_, text) ← matchName weekdayNames (text.dropWhile isSpace)
  let text ← matchChar ',' text
  let (mday, text) ← getNumber 1 31 2 text
  let (mon, text) ← matchName monthNames (text.dropWhile isSpace)
  let (year, text) ← getNumber 0 9999 4 text
  let (hour, text) ← getNumber 0 23 2 text
  let text ← matchChar ':' text
  let (min, text) ← getNumber 0 59 2 text
  let text ← matchChar ':' text
  let (sec, _) ← getNumber 0 61 2 text
  some ⟨year - 1900, mon, mday, hour, min, sec⟩

/-- A number of `sscanf`, of at most `width` characters. -/
def scanInt (width : ℕ) (text : List Char) : Option (ℤ × List Char) :=
  let text := text.dropWhile isSpace
  let sign := text.head? = some '-' ∨ text.head? = some '+'
  let body := if sign then text.tail else text
  let digits := (body.take (if sign then width - 1 else width)).takeWhile Char.isDigit
  if digits = [] then none
  else
    let value : ℤ := Nat.ofDigitChars 10 digits 0
    some (if text.head? = some '-' then -value else value, body.drop digits.length)

/-- The `sscanf` of `ConvertToNumber`, with `%4d/%2d/%2d %2d:%2d:%2d`; `none` if one of the
fields is not read. -/
def scanDate (text : List Char) : Option Tm := do
  let (year, text) ← scanInt 4 text
  let text ← matchChar '/' text
  let (mon, text) ← scanInt 2 text
  let text ← matchChar '/' text
  let (mday, text) ← scanInt 2 text
  let (hour, text) ← scanInt 2 text
  let text ← matchChar ':' text
  let (min, text) ← scanInt 2 text
  let text ← matchChar ':' text
  let (sec, _) ← scanInt 2 text
  some ⟨year - 1900, mon - 1, mday, hour, min, sec⟩

/-- `ConvertToNumber`. A field that is not read has no defined value, and `none` stands
for the undefined result. -/
def convertToNumber (strDate : List Char) : Option ℕ :=
  (scanDate strDate).map fun tm => (timegm tm * 1000 % 2 ^ 64).toNat

/-! ## A text that is read back -/

/-- Digits that are a number. -/
structure DigitsOf (n : ℤ) (digits : List Char) : Prop where
  ne_nil : digits ≠ []
  isDigit : ∀ c ∈ digits, c.isDigit = true
  value : (Nat.ofDigitChars 10 digits 0 : ℤ) = n

theorem digitsOf_decimal {n : ℤ} (h : 0 ≤ n) : DigitsOf n (decimal n) := by
  unfold decimal
  rw [if_neg (by omega)]
  constructor
  · exact Nat.toDigits_ne_nil
  · intro c hc
    exact Nat.isDigit_of_mem_toDigits (by omega) (by omega) hc
  · rw [Nat.ofDigitChars_ten_toDigits]
    omega

theorem length_decimal {n : ℤ} {k : ℕ} (h : 0 ≤ n) (hlt : n < 10 ^ k) (hk : 0 < k) :
    (decimal n).length ≤ k := by
  unfold decimal
  rw [if_neg (by omega), Nat.length_toDigits_le_iff (by omega) hk]
  have hcast : (n.natAbs : ℤ) < ((10 ^ k : ℕ) : ℤ) := by
    rw [Int.natAbs_of_nonneg h, Int.natCast_pow]
    exact hlt
  exact Int.ofNat_lt.1 hcast

theorem digitsOf_twoDigits {n : ℤ} (h : 0 ≤ n) : DigitsOf n (twoDigits n) := by
  have hdecimal := digitsOf_decimal h
  unfold twoDigits
  split
  · constructor
    · exact List.cons_ne_nil _ _
    · intro c hc
      rcases List.mem_cons.1 hc with rfl | hc
      · rfl
      · exact hdecimal.isDigit c hc
    · rw [Nat.ofDigitChars_cons]
      exact hdecimal.value
  · exact hdecimal

theorem length_twoDigits {n : ℤ} (h : 0 ≤ n) (hlt : n < 100) : (twoDigits n).length ≤ 2 := by
  unfold twoDigits
  split
  · rename_i hone
    have hlength := length_decimal (k := 1) h (by omega) (by omega)
    rw [List.length_cons]
    omega
  · exact length_decimal h (by omega) (by omega)

theorem not_isSpace_of_isDigit {c : Char} (h : c.isDigit = true) :
    isSpace c = false ∧ c ≠ '-' ∧ c ≠ '+' := by
  refine ⟨?_, ?_, ?_⟩
  · apply Bool.eq_false_iff.2
    intro hspace
    unfold isSpace Char.isWhitespace at hspace
    simp only [Bool.or_eq_true, decide_eq_true_eq] at hspace
    rcases hspace with (((((rfl | rfl) | rfl) | rfl) | rfl) | rfl) <;> revert h <;> decide
  · rintro rfl
    revert h
    decide
  · rintro rfl
    revert h
    decide

/-- A number in front of something else. -/
theorem scanInt_digits {n : ℤ} {digits rest : List Char} {width : ℕ} (h : DigitsOf n digits)
    (hlength : digits.length ≤ width) (hrest : ∀ c, rest.head? = some c → c.isDigit = false) :
    scanInt width (digits ++ rest) = some (n, rest) := by
  have hnil := h.ne_nil
  -- the digits are taken up to the first other character
  have htake : ((digits ++ rest).take width).takeWhile Char.isDigit = digits := by
    rw [List.take_append, List.take_of_length_le hlength,
      List.takeWhile_append_of_pos h.isDigit]
    cases rest with
    | nil => rw [List.take_nil, List.takeWhile_nil, List.append_nil]
    | cons c rest =>
      have hc : c.isDigit = false := hrest c rfl
      cases width - digits.length with
      | zero => rw [List.take_zero, List.takeWhile_nil, List.append_nil]
      | succ n =>
        rw [List.take_succ_cons, List.takeWhile_cons, hc, if_neg Bool.false_ne_true,
          List.append_nil]
  obtain ⟨c, digits', hcons⟩ := List.exists_cons_of_ne_nil hnil
  have hhead : (digits ++ rest).head? = some c := by rw [hcons]; rfl
  obtain ⟨hspace, hminus, hplus⟩ := not_isSpace_of_isDigit
    (h.isDigit c (by rw [hcons]; exact List.mem_cons_self))
  have hdrop : (digits ++ rest).dropWhile isSpace = digits ++ rest := by
    rw [hcons, List.cons_append,
      List.dropWhile_cons_of_neg (by rw [hspace]; exact Bool.false_ne_true)]
  have hsign : ¬(some c = some '-' ∨ some c = some '+') := by
    rintro (hsign | hsign)
    · exact hminus (Option.some.inj hsign)
    · exact hplus (Option.some.inj hsign)
  unfold scanInt
  dsimp only
  rw [hdrop, hhead]
  simp only [if_neg hsign, htake, if_neg hnil, if_neg fun h => hsign (Or.inl h), h.value,
    List.drop_left]

/-- White space in front of a number is skipped. -/
theorem scanInt_space (width : ℕ) (text : List Char) :
    scanInt width (' ' :: text) = scanInt width text := by
  unfold scanInt
  rw [List.dropWhile_cons_of_pos (by decide)]

/-- The text of a date, in the form that `ConvertToNumber` reads. -/
def dateText (tm : Tm) : List Char :=
  decimal (1900 + tm.tmYear) ++ '/' :: (twoDigits (tm.tmMon + 1) ++ '/' :: (twoDigits tm.tmMday ++
    ' ' :: (twoDigits tm.tmHour ++ ':' :: (twoDigits tm.tmMin ++ ':' :: twoDigits tm.tmSec))))

/-- The fields of a date, of a year of four digits at most. -/
structure Tm.Ordinary (tm : Tm) : Prop where
  year : 0 ≤ 1900 + tm.tmYear ∧ 1900 + tm.tmYear ≤ 9999
  mon : 0 ≤ tm.tmMon ∧ tm.tmMon < 12
  mday : 1 ≤ tm.tmMday ∧ tm.tmMday ≤ 31
  hour : 0 ≤ tm.tmHour ∧ tm.tmHour < 24
  min : 0 ≤ tm.tmMin ∧ tm.tmMin < 60
  sec : 0 ≤ tm.tmSec ∧ tm.tmSec ≤ 61

theorem scanInt_twoDigits {n : ℤ} (h : 0 ≤ n) (hlt : n < 100) {rest : List Char}
    (hrest : ∀ c, rest.head? = some c → c.isDigit = false) :
    scanInt 2 (twoDigits n ++ rest) = some (n, rest) :=
  scanInt_digits (digitsOf_twoDigits h) (length_twoDigits h hlt) hrest

theorem scanDate_dateText {tm : Tm} (h : Tm.Ordinary tm) : scanDate (dateText tm) = some tm := by
  obtain ⟨⟨hyear, hyear'⟩, ⟨hmon, hmon'⟩, ⟨hmday, hmday'⟩, ⟨hhour, hhour'⟩, ⟨hmin, hmin'⟩,
    ⟨hsec, hsec'⟩⟩ := h
  have hstop : ∀ (d : Char) (rest : List Char), d.isDigit = false →
      ∀ c, (d :: rest).head? = some c → c.isDigit = false := by
    intro d rest hd c hc
    cases hc
    exact hd
  have hend : ∀ c, ([] : List Char).head? = some c → c.isDigit = false := by
    intro c hc
    cases hc
  have hlast : twoDigits tm.tmSec = twoDigits tm.tmSec ++ [] := (List.append_nil _).symm
  unfold scanDate dateText
  rw [scanInt_digits (digitsOf_decimal hyear)
    (length_decimal (k := 4) hyear (by omega) (by omega)) (hstop '/' _ rfl)]
  simp only [bind, Option.bind, matchChar, if_pos]
  rw [scanInt_twoDigits (by omega) (by omega) (hstop '/' _ rfl)]
  simp only [if_pos]
  rw [scanInt_twoDigits (by omega) (by omega) (hstop ' ' _ rfl)]
  simp only [scanInt_space]
  rw [scanInt_twoDigits hhour (by omega) (hstop ':' _ rfl)]
  simp only [if_pos]
  rw [scanInt_twoDigits hmin (by omega) (hstop ':' _ rfl)]
  simp only [if_pos]
  rw [hlast, scanInt_twoDigits hsec (by omega) hend]
  have hyearBack : 1900 + tm.tmYear - 1900 = tm.tmYear := by omega
  have hmonBack : tm.tmMon + 1 - 1 = tm.tmMon := by omega
  simp only [hyearBack, hmonBack]

theorem ordinary_gmtime {t : ℤ} (hlow : 0 ≤ 1900 + (gmtime t).tmYear)
    (hhigh : 1900 + (gmtime t).tmYear ≤ 9999) : Tm.Ordinary (gmtime t) := by
  obtain ⟨hmon, hmday, hhour, hmin, hsec⟩ := Calendar.civilOf_bounds t
  unfold gmtime at hlow hhigh ⊢
  dsimp only at hlow hhigh
  constructor
  · exact ⟨hlow, hhigh⟩
  · dsimp only
    omega
  · exact hmday
  · exact hhour
  · exact hmin
  · dsimp only
    omega

/-- The number of a date that is read back. -/
theorem convertToNumber_dateText {tm : Tm} (h : Tm.Ordinary tm) :
    convertToNumber (dateText tm) = some (timegm tm * 1000 % 2 ^ 64).toNat := by
  unfold convertToNumber
  rw [scanDate_dateText h]
  rfl

theorem map_of_isDigit {f : Char → Char} (hdigit : ∀ c, c.isDigit = true → f c = c)
    {text : List Char} (htext : ∀ c ∈ text, c.isDigit = true) : text.map f = text :=
  calc text.map f = text.map id := List.map_congr_left fun c hc => hdigit c (htext c hc)
    _ = text := List.map_id text

/-- A change of characters that leaves digits and the colon turns the two forms of a date
into each other. -/
theorem map_strftime {tm : Tm} (h : Tm.Ordinary tm) {f : Char → Char}
    (hdigit : ∀ c, c.isDigit = true → f c = c) (hcolon : f ':' = ':') (hdash : f '-' = '/')
    (hT : f 'T' = ' ') : (strftime tm).map f = dateText tm := by
  have hdecimal : ∀ n : ℤ, 0 ≤ n → (decimal n).map f = decimal n :=
    fun n hn => map_of_isDigit hdigit (digitsOf_decimal hn).isDigit
  have htwo : ∀ n : ℤ, 0 ≤ n → (twoDigits n).map f = twoDigits n :=
    fun n hn => map_of_isDigit hdigit (digitsOf_twoDigits hn).isDigit
  unfold strftime dateText
  simp only [List.map_append, List.map_cons, hcolon, hdash, hT, hdecimal _ h.year.1,
    htwo _ h.hour.1, htwo _ h.min.1, htwo _ h.sec.1]
  rw [htwo _ (by have := h.mon.1; omega), htwo _ (by have := h.mday.1; omega)]

/-- A year of more than four digits is not read back. -/
theorem convertToNumber_of_long_year {tm : Tm} (h : 10000 ≤ 1900 + tm.tmYear) {f : Char → Char}
    (hdigit : ∀ c, c.isDigit = true → f c = c) :
    convertToNumber ((strftime tm).map f) = none := by
  have hyear := digitsOf_decimal (n := 1900 + tm.tmYear) (by omega)
  have hlength : 4 < (decimal (1900 + tm.tmYear)).length := by
    apply Nat.lt_of_not_le
    intro hle
    unfold decimal at hle
    rw [if_neg (by omega), Nat.length_toDigits_le_iff (by omega) (by omega)] at hle
    omega
  have hmap := map_of_isDigit hdigit hyear.isDigit
  unfold convertToNumber strftime
  rw [List.map_append, hmap]
  generalize decimal (1900 + tm.tmYear) = digits at hyear hlength
  -- the fifth digit stands where the slash is read
  match digits, hlength with
  | d₀ :: d₁ :: d₂ :: d₃ :: d₄ :: digits, _ =>
    have hall := hyear.isDigit
    simp only [List.forall_mem_cons] at hall
    obtain ⟨h₀, h₁, h₂, h₃, h₄, _⟩ := hall
    obtain ⟨hspace, hminus, hplus⟩ := not_isSpace_of_isDigit h₀
    have hslash : d₄ ≠ '/' := by
      rintro rfl
      revert h₄
      decide
    have hsign : ¬(some d₀ = some '-' ∨ some d₀ = some '+') := by
      rintro (hsign | hsign)
      · exact hminus (Option.some.inj hsign)
      · exact hplus (Option.some.inj hsign)
    simp only [List.cons_append, scanDate, scanInt, List.dropWhile_cons, hspace,
      Bool.false_eq_true, if_false, List.head?_cons, hsign, List.take_succ_cons, List.take_zero,
      List.takeWhile_cons, h₀, h₁, h₂, h₃, if_true, List.takeWhile_nil, List.cons_ne_nil,
      List.length_cons, List.length_nil, List.drop_succ_cons, List.drop_zero, bind,
      Option.bind, matchChar, hslash, Option.map_none]

/-! ## Dates of a header -/

theorem getNumber_bounds {low upTo n val : ℕ} {text rest : List Char}
    (h : getNumber low upTo n text = some (val, rest)) : low ≤ val ∧ val ≤ upTo := by
  unfold getNumber at h
  split at h
  · split at h
    · dsimp only at h
      split at h
      · rename_i hbounds
        rw [Option.some.inj h] at hbounds
        exact hbounds
      · cases h
    · cases h
  · cases h

theorem matchName_lt {names : List String} {text rest : List Char} {i : ℕ}
    (h : matchName names text = some (i, rest)) : i < names.length := by
  unfold matchName at h
  obtain ⟨entry, hfind, heq⟩ := Option.map_eq_some_iff.1 h
  have hmem := List.mem_of_find?_eq_some hfind
  obtain ⟨⟨name, j⟩, hname, hentry⟩ := List.mem_flatMap.1 hmem
  have hlt := (List.mem_zipIdx hname).2.1
  have hi : i = entry.2 := (congrArg Prod.fst heq).symm
  simp only [List.mem_cons, List.not_mem_nil, or_false] at hentry
  rcases hentry with rfl | rfl
  · omega
  · omega

theorem ordinary_strptimeHeader {text : List Char} {tm : Tm} (h : strptimeHeader text = some tm) :
    Tm.Ordinary tm := by
  unfold strptimeHeader at h
  simp only [Option.bind_eq_bind, Option.bind_eq_some_iff, Prod.exists] at h
  obtain ⟨_, _, _, _, _, mday, _, hmday, mon, _, hmon, year, _, hyear, hour, _, hhour, _, _,
    min, _, hmin, _, _, sec, _, hsec, htm⟩ := h
  have hmday := getNumber_bounds hmday
  have hmon : mon < 12 := matchName_lt hmon
  have hyear := getNumber_bounds hyear
  have hhour := getNumber_bounds hhour
  have hmin := getNumber_bounds hmin
  have hsec := getNumber_bounds hsec
  cases htm
  constructor <;> dsimp only <;> omega

/-! ## How far the seconds go -/

/-- The seconds of a date of a year of four digits. -/
theorem timegm_bounds {tm : Tm} (h : Tm.Ordinary tm) :
    -2 ^ 39 < timegm tm ∧ timegm tm < 2 ^ 39 := by
  obtain ⟨hyear, hmon, hmday, hhour, hmin, hsec⟩ := h
  unfold timegm Calendar.secondsOf Calendar.daysOfCivil
  dsimp only
  omega

/-! ## Local times -/

/-- Seconds from 1970 on are read as a local time, and earlier ones as none. -/
theorem strptimeSeconds_decimal (zone : ZoneRule) (n : ℤ) :
    strptimeSeconds zone (decimal n) = if 0 ≤ n then localtime zone n else none := by
  unfold strptimeSeconds
  by_cases hn : 0 ≤ n
  · obtain ⟨hne, hdigits, hvalue⟩ := digitsOf_decimal hn
    have htake : (decimal n).takeWhile Char.isDigit = decimal n :=
      List.takeWhile_eq_self_iff.2 hdigits
    rw [htake, if_neg hne, if_pos hn, hvalue]
  · have hminus : (decimal n).takeWhile Char.isDigit = [] := by
      unfold decimal
      rw [if_pos (by omega)]
      rfl
    rw [hminus, if_pos rfl, if_neg hn]

/-- The local time is that of the rule, and its year is no negative one. -/
theorem localtime_eq {zone : ZoneRule} {n : ℤ} {tm : Tm} (hn : 0 ≤ n)
    (h : localtime zone n = some tm) :
    tm = gmtime (zone.localSeconds n) ∧ 0 ≤ 1900 + tm.tmYear := by
  unfold localtime at h
  dsimp only at h
  split at h
  · cases h
    refine ⟨rfl, ?_⟩
    have hzone := (zone.bounded n).1
    have hlow : -604800 < zone.localSeconds n := by
      unfold ZoneRule.localSeconds
      omega
    have hyear : ¬(Calendar.civilOf (zone.localSeconds n)).year < 400 * 0 := by
      intro hneg
      have := Calendar.seconds_lt_of_year_lt hneg
      omega
    unfold gmtime
    dsimp only
    omega
  · cases h

theorem strftime_ne_nil (tm : Tm) : strftime tm ≠ [] := by
  unfold strftime
  exact List.append_ne_nil_of_right_ne_nil _ (List.cons_ne_nil _ _)

end DateTime

end DeviceClient
