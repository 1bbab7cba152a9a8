import DeviceClient.Lib.Int32

/-!
# The command line

`parse_args` reads the options of the client from left to right. Each of the handlers takes the
values of its option, and goes on behind them whether they are good or not; what comes out is
the result of the last option, and of the last `-c`.

* `parseOption_spec`: one option.
* `parseLoop_spec`: the loop.
* `parseArgs_iff`: when the arguments are accepted.
* `accepts_iff`: when that is right.
* `parseArgs_path`, `parseArgs_level`: what is set.
-/

namespace DeviceClient

namespace CommandLine

open Lib (toInt32)

/-! ## Numbers -/

/-- `isspace`. -/
def isSpace (c : Char) : Bool := c = ' ' || ('\x09' ≤ c && c ≤ '\x0d')

def digitsValue (digits : List Char) : ℕ :=
  digits.foldl (fun n c => 10 * n + (c.toNat - '0'.toNat)) 0

/-- The number at the beginning of a text, behind blanks; zero if there is none. -/
def leadingNumber (text : String) : ℤ :=
  match text.toList.dropWhile isSpace with
  | [] => 0
  | c :: rest =>
    if c = '-' then -digitsValue (rest.takeWhile Char.isDigit)
    else if c = '+' then digitsValue (rest.takeWhile Char.isDigit)
    else digitsValue ((c :: rest).takeWhile Char.isDigit)

/-- `atoi`: the `int` of what `strtol` returns, which stops at the ends of its range. -/
def atoi (text : String) : ℤ := toInt32 (max (-2 ^ 63) (min (2 ^ 63 - 1) (leadingNumber text)))

/-! ## The code -/

/-- `eHCP_LOG_TRACE`. -/
def HCPLOG_MAX_LEVEL : ℤ := 7

/-- A level of the log. -/
def inRange (iLevel : ℤ) : Bool := 0 ≤ iLevel ∧ iLevel ≤ HCPLOG_MAX_LEVEL

/-- What the options set. -/
structure StartArguments where
  g_strConfigPath : String
  g_nLogLevel : ℤ
  g_bOutputInfo : Bool
  g_strStartupReason : String
  g_nRestartCount : ℤ
deriving DecidableEq

/-- The first character is `-`. -/
def isSwitch (value : String) : Bool := value.toList.head? = some '-'

/-- A handler of one value, which is no switch and meets a condition. -/
def handleValueOption (ok : String → Bool) (set : String → StartArguments → StartArguments)
    (rnIter : ℕ) (pchArgV : List String) (g : StartArguments) : Bool × ℕ × StartArguments :=
  match pchArgV[rnIter + 1]? with
  | none => (false, rnIter + 1, g)
  | some value =>
    if isSwitch value = false ∧ ok value = true then (true, rnIter + 1, set value g)
    else (false, rnIter + 1, g)

/-- `handle_config_file_option`; `good` says which files can be read. -/
def handleConfigFileOption (good : String → Bool) :
    ℕ → List String → StartArguments → Bool × ℕ × StartArguments :=
  handleValueOption good fun pchConfigFilePath g => { g with g_strConfigPath := pchConfigFilePath }

/-- `handle_debug_option`. -/
def handleDebugOption : ℕ → List String → StartArguments → Bool × ℕ × StartArguments :=
  handleValueOption (fun pchDebugValue => inRange (atoi pchDebugValue))
    fun pchDebugValue g => { g with g_nLogLevel := atoi pchDebugValue }

/-- `handle_restart_count_option`. -/
def handleRestartCountOption (rnIter : ℕ) (pchArgV : List String) (g : StartArguments) :
    Bool × ℕ × StartArguments :=
  match pchArgV[rnIter + 1]?, pchArgV[rnIter + 2]? with
  | some pchRestartReason, some pchRestartCntValue =>
    if isSwitch pchRestartReason = false ∧ isSwitch pchRestartCntValue = false then
      (true, rnIter + 2, { g with
        g_strStartupReason := pchRestartReason
        g_nRestartCount := atoi pchRestartCntValue })
    else (false, rnIter + 2, g)
  | _, _ => (false, rnIter + 2, g)

/-- The variables of `parse_args`. -/
structure ParseState where
  nIter : ℕ
  bParseResult : Bool
  bIsConfigValid : Bool
  args : StartArguments
deriving DecidableEq

/-- What a handler returns goes into `bParseResult`. -/
def ParseState.handled (s : ParseState) (r : Bool × ℕ × StartArguments) : ParseState :=
  { s with nIter := r.2.1 + 1, bParseResult := r.1, args := r.2.2 }

/-- The body of the loop; `none` is the `break`. -/
def parseOption (good : String → Bool) (pchArgV : List String) (arg : String) (s : ParseState) :
    Option ParseState :=
  if arg = "-c" then
    let r := handleConfigFileOption good s.nIter pchArgV s.args
    some { s.handled r with bIsConfigValid := r.1 }
  else if arg = "-d" then some (s.handled (handleDebugOption s.nIter pchArgV s.args))
  else if arg = "-re" then some (s.handled (handleRestartCountOption s.nIter pchArgV s.args))
  else if arg = "-i" then some (s.handled (true, s.nIter, { s.args with g_bOutputInfo := true }))
  else none

/-- The loop; every turn goes on by a word at least. -/
def parseLoop (good : String → Bool) (pchArgV : List String) : ℕ → ParseState → ParseState
  | 0, s => s
  | turns + 1, s =>
    match pchArgV[s.nIter]? with
    | none => s
    | some arg =>
      match parseOption good pchArgV arg s with
      | none => { s with bParseResult := false }
      | some s' => parseLoop good pchArgV turns s'

/-- The variables of the file, at the start. -/
def noArguments : StartArguments := ⟨"", -1, false, "", 0⟩

/-- `parse_args`. -/
def parseArgs (good : String → Bool) (pchArgV : List String) : Bool × StartArguments :=
  let s := parseLoop good pchArgV pchArgV.length ⟨1, false, false, noArguments⟩
  (s.bIsConfigValid && s.bParseResult, s.args)

/-! ## Options -/

inductive OptionName
  | config
  | debug
  | restart
  | info
deriving DecidableEq

namespace OptionName

def word : OptionName → String
  | .config => "-c"
  | .debug => "-d"
  | .restart => "-re"
  | .info => "-i"

/-- How many values the option takes. -/
def arity : OptionName → ℕ
  | .config => 1
  | .debug => 1
  | .restart => 2
  | .info => 0

end OptionName

/-- An option with the words that are its values. -/
structure GivenOption where
  name : OptionName
  values : List String
deriving DecidableEq

def GivenOption.words (o : GivenOption) : List String := o.name.word :: o.values

variable (good : String → Bool)

/-- The options with all their values, and with good ones. A word that begins with `-` is another
switch and no value. -/
inductive Valid : GivenOption → Prop
  | config {path : String} : isSwitch path = false → good path = true → Valid ⟨.config, [path]⟩
  | debug {level : String} : isSwitch level = false → inRange (leadingNumber level) = true →
      Valid ⟨.debug, [level]⟩
  | restart {reason count : String} : isSwitch reason = false → isSwitch count = false →
      Valid ⟨.restart, [reason, count]⟩
  | info : Valid ⟨.info, []⟩

/-- The words are those of valid options, at least one of which is a `-c`. -/
def Splits (args : List String) : Prop :=
  ∃ options : List GivenOption, args = options.flatMap GivenOption.words ∧
    (∀ o ∈ options, Valid good o) ∧ ∃ o ∈ options, o.name = .config

/-- The words from left to right, each option with as many values as there are for it. -/
inductive Cut : List String → List GivenOption → Prop
  | nil : Cut [] []
  | cons {name : OptionName} {rest : List String} {options : List GivenOption} :
      Cut (rest.drop name.arity) options →
      Cut (name.word :: rest) (⟨name, rest.take name.arity⟩ :: options)

/-- What the handlers look at. -/
def Accepted (o : GivenOption) : Prop :=
  match o.name, o.values with
  | .config, [path] => isSwitch path = false ∧ good path = true
  | .debug, [level] => isSwitch level = false ∧ inRange (atoi level) = true
  | .restart, [reason, count] => isSwitch reason = false ∧ isSwitch count = false
  | .info, [] => True
  | _, _ => False

/-- The `-c` options. -/
def configs (options : List GivenOption) : List GivenOption :=
  options.filter fun o => o.name = .config

/-- The last option, and the last `-c`, are accepted. -/
def EndsWell (options : List GivenOption) : Prop :=
  (∃ o, options.getLast? = some o ∧ Accepted good o) ∧
    ∃ o, (configs options).getLast? = some o ∧ Accepted good o

/-- Options that end well are valid. -/
def Sound (args : List String) : Prop :=
  ∀ options, Cut args options → EndsWell good options → ∀ o ∈ options, Valid good o

/-! ## One option -/

variable {good} {pchArgV : List String}

/-- What an option leaves: the loop goes on behind its values. -/
structure Taken (good : String → Bool) (s s' : ParseState) (o : GivenOption) : Prop where
  next : s'.nIter = s.nIter + 1 + o.name.arity
  result : s'.bParseResult = true ↔ Accepted good o
  config : s'.bIsConfigValid = true ↔
    o.name = .config ∧ Accepted good o ∨ o.name ≠ .config ∧ s.bIsConfigValid = true

/-- A handler sets its value, or leaves everything as it is. -/
theorem handleValueOption_cases (ok : String → Bool)
    (set : String → StartArguments → StartArguments) (rnIter : ℕ) (g : StartArguments) :
    (∃ value, (pchArgV.drop (rnIter + 1)).take 1 = [value] ∧
      (isSwitch value = false ∧ ok value = true) ∧
      handleValueOption ok set rnIter pchArgV g = (true, rnIter + 1, set value g)) ∨
    ((¬ ∃ value, (pchArgV.drop (rnIter + 1)).take 1 = [value] ∧
      isSwitch value = false ∧ ok value = true) ∧
      handleValueOption ok set rnIter pchArgV g = (false, rnIter + 1, g)) := by
  have hvalue := @List.getElem?_drop _ pchArgV (rnIter + 1) 0
  rw [Nat.add_zero] at hvalue
  unfold handleValueOption
  rw [← hvalue]
  cases pchArgV.drop (rnIter + 1) with
  | nil =>
    refine Or.inr ⟨?_, rfl⟩
    rintro ⟨value, hnone, -⟩
    cases hnone
  | cons value rest =>
    dsimp only [List.getElem?_cons_zero]
    by_cases hok : isSwitch value = false ∧ ok value = true
    · rw [if_pos hok]
      exact Or.inl ⟨value, rfl, hok, rfl⟩
    · rw [if_neg hok]
      refine Or.inr ⟨?_, rfl⟩
      rintro ⟨_, ⟨⟩, hok'⟩
      exact hok hok'

theorem handleValueOption_spec (ok : String → Bool)
    (set : String → StartArguments → StartArguments) (rnIter : ℕ) (g : StartArguments) :
    (handleValueOption ok set rnIter pchArgV g).2.1 = rnIter + 1 ∧
      ((handleValueOption ok set rnIter pchArgV g).1 = true ↔
        ∃ value, (pchArgV.drop (rnIter + 1)).take 1 = [value] ∧
          isSwitch value = false ∧ ok value = true) := by
  rcases @handleValueOption_cases pchArgV ok set rnIter g with
    ⟨value, htake, hok, heq⟩ | ⟨hnone, heq⟩
  · rw [heq]
    exact ⟨rfl, iff_of_true rfl ⟨value, htake, hok⟩⟩
  · rw [heq]
    exact ⟨rfl, iff_of_false Bool.false_ne_true hnone⟩

theorem accepted_config_iff (values : List String) :
    Accepted good ⟨.config, values⟩ ↔
      ∃ path, values = [path] ∧ isSwitch path = false ∧ good path = true := by
  constructor
  · rcases values with _ | ⟨path, _ | ⟨path', rest⟩⟩
    · exact False.elim
    · exact fun h => ⟨path, rfl, h⟩
    · exact False.elim
  · rintro ⟨path, rfl, h⟩
    exact h

theorem accepted_debug_iff (values : List String) :
    Accepted good ⟨.debug, values⟩ ↔
      ∃ level, values = [level] ∧ isSwitch level = false ∧ inRange (atoi level) = true := by
  constructor
  · rcases values with _ | ⟨level, _ | ⟨level', rest⟩⟩
    · exact False.elim
    · exact fun h => ⟨level, rfl, h⟩
    · exact False.elim
  · rintro ⟨level, rfl, h⟩
    exact h

theorem handleRestartCountOption_cases (good : String → Bool) (rnIter : ℕ) (g : StartArguments) :
    (Accepted good ⟨.restart, (pchArgV.drop (rnIter + 1)).take 2⟩ ∧
      ∃ reason count, handleRestartCountOption rnIter pchArgV g =
        (true, rnIter + 2, { g with g_strStartupReason := reason, g_nRestartCount := count })) ∨
    (¬ Accepted good ⟨.restart, (pchArgV.drop (rnIter + 1)).take 2⟩ ∧
      handleRestartCountOption rnIter pchArgV g = (false, rnIter + 2, g)) := by
  have hreason := @List.getElem?_drop _ pchArgV (rnIter + 1) 0
  have hcount := @List.getElem?_drop _ pchArgV (rnIter + 1) 1
  rw [Nat.add_zero] at hreason
  rw [Nat.add_assoc] at hcount
  unfold handleRestartCountOption
  rw [← hreason, ← hcount]
  cases pchArgV.drop (rnIter + 1) with
  | nil => exact Or.inr ⟨id, rfl⟩
  | cons reason rest =>
    cases rest with
    | nil => exact Or.inr ⟨id, rfl⟩
    | cons count rest =>
      dsimp only [List.getElem?_cons_zero, List.getElem?_cons_succ]
      by_cases hok : isSwitch reason = false ∧ isSwitch count = false
      · rw [if_pos hok]
        exact Or.inl ⟨hok, reason, atoi count, rfl⟩
      · rw [if_neg hok]
        exact Or.inr ⟨hok, rfl⟩

theorem handleRestartCountOption_spec (rnIter : ℕ) (g : StartArguments) :
    (handleRestartCountOption rnIter pchArgV g).2.1 = rnIter + 2 ∧
      ((handleRestartCountOption rnIter pchArgV g).1 = true ↔
        Accepted good ⟨.restart, (pchArgV.drop (rnIter + 1)).take 2⟩) := by
  rcases @handleRestartCountOption_cases pchArgV good rnIter g with
    ⟨haccepted, _, _, heq⟩ | ⟨hrejected, heq⟩
  · rw [heq]
    exact ⟨rfl, iff_of_true rfl haccepted⟩
  · rw [heq]
    exact ⟨rfl, iff_of_false Bool.false_ne_true hrejected⟩

/-- An option by its name. -/
theorem parseOption_spec (name : OptionName) (s : ParseState) :
    ∃ s', parseOption good pchArgV name.word s = some s' ∧
      Taken good s s' ⟨name, (pchArgV.drop (s.nIter + 1)).take name.arity⟩ := by
  cases name with
  | config =>
    obtain ⟨hnext, hresult⟩ := @handleValueOption_spec pchArgV good _ s.nIter s.args
    have haccepted := hresult.trans (accepted_config_iff _).symm
    refine ⟨_, rfl, congrArg (· + 1) hnext, haccepted, haccepted.trans ?_⟩
    simp [OptionName.arity]
  | debug =>
    obtain ⟨hnext, hresult⟩ := @handleValueOption_spec pchArgV _ _ s.nIter s.args
    refine ⟨_, rfl, congrArg (· + 1) hnext, hresult.trans (accepted_debug_iff _).symm, ?_⟩
    simp [ParseState.handled]
  | restart =>
    obtain ⟨hnext, hresult⟩ := @handleRestartCountOption_spec good pchArgV s.nIter s.args
    refine ⟨_, rfl, congrArg (· + 1) hnext, hresult, ?_⟩
    simp [ParseState.handled]
  | info =>
    refine ⟨_, rfl, rfl, iff_of_true rfl trivial, ?_⟩
    simp [ParseState.handled]

theorem parseOption_eq_none {arg : String} (harg : ∀ name : OptionName, arg ≠ name.word)
    (s : ParseState) : parseOption good pchArgV arg s = none := by
  exact (if_neg (harg .config)).trans ((if_neg (harg .debug)).trans
    ((if_neg (harg .restart)).trans (if_neg (harg .info))))

/-! ## The loop -/

section Last

variable {α : Type} {p : α → Prop} {b : Prop}

/-- The last of some elements meets a condition, and if there are none, `b` holds. -/
def LastOr (p : α → Prop) (b : Prop) (elements : List α) : Prop :=
  elements = [] ∧ b ∨ ∃ a, elements.getLast? = some a ∧ p a

theorem lastOr_nil : LastOr p b [] ↔ b := by
  simp [LastOr]

theorem lastOr_cons (a : α) (elements : List α) :
    LastOr p b (a :: elements) ↔ LastOr p (p a) elements := by
  unfold LastOr
  cases elements with
  | nil => simp
  | cons a' elements => simp [List.getLast?_cons_cons]

theorem lastOr_congr {b' : Prop} (h : b ↔ b') (elements : List α) :
    LastOr p b elements ↔ LastOr p b' elements :=
  or_congr_left (and_congr_right fun _ => h)

end Last

theorem configs_cons (o : GivenOption) (options : List GivenOption) :
    configs (o :: options) =
      if o.name = .config then o :: configs options else configs options := by
  unfold configs
  rw [List.filter_cons]
  simp only [decide_eq_true_eq]

/-- The options behind one, and that one before them. -/
theorem Taken.lastOr_result {s s' : ParseState} {o : GivenOption} (h : Taken good s s' o)
    (options : List GivenOption) :
    LastOr (Accepted good) (s'.bParseResult = true) options ↔
      LastOr (Accepted good) (s.bParseResult = true) (o :: options) := by
  rw [lastOr_cons]
  exact lastOr_congr h.result options

theorem Taken.lastOr_config {s s' : ParseState} {o : GivenOption} (h : Taken good s s' o)
    (options : List GivenOption) :
    LastOr (Accepted good) (s'.bIsConfigValid = true) (configs options) ↔
      LastOr (Accepted good) (s.bIsConfigValid = true) (configs (o :: options)) := by
  rw [configs_cons]
  by_cases hconfig : o.name = .config
  · rw [if_pos hconfig, lastOr_cons]
    refine lastOr_congr (h.config.trans ?_) _
    simp [hconfig]
  · rw [if_neg hconfig]
    refine lastOr_congr (h.config.trans ?_) _
    simp [hconfig]

theorem word_injective {name name' : OptionName} (h : name.word = name'.word) : name = name' := by
  revert h
  cases name <;> cases name' <;> decide

theorem cut_cons_iff {arg : String} {rest : List String} {options : List GivenOption} :
    Cut (arg :: rest) options ↔
      ∃ name options', arg = name.word ∧ Cut (rest.drop name.arity) options' ∧
        options = ⟨name, rest.take name.arity⟩ :: options' := by
  constructor
  · intro h
    cases h with
    | cons hcut => exact ⟨_, _, rfl, hcut, rfl⟩
  · rintro ⟨name, options', rfl, hcut, rfl⟩
    exact hcut.cons

theorem cut_unique {args : List String} {options options' : List GivenOption}
    (h : Cut args options) (h' : Cut args options') : options = options' := by
  induction h generalizing options' with
  | nil =>
    cases h'
    rfl
  | cons _ ih =>
    obtain ⟨name, options, hsame, hcut, rfl⟩ := cut_cons_iff.1 h'
    cases word_injective hsame
    rw [ih hcut]

/-- What the loop makes of the words that are left. -/
theorem parseLoop_spec (turns : ℕ) {s : ParseState} (hturns : pchArgV.length ≤ s.nIter + turns) :
    (∃ options, Cut (pchArgV.drop s.nIter) options ∧
      ((parseLoop good pchArgV turns s).bParseResult = true ↔
        LastOr (Accepted good) (s.bParseResult = true) options) ∧
      ((parseLoop good pchArgV turns s).bIsConfigValid = true ↔
        LastOr (Accepted good) (s.bIsConfigValid = true) (configs options))) ∨
      ((∀ options, ¬ Cut (pchArgV.drop s.nIter) options) ∧
        (parseLoop good pchArgV turns s).bParseResult = false) := by
  induction turns generalizing s with
  | zero =>
    rw [Nat.add_zero] at hturns
    rw [List.drop_eq_nil_of_le hturns]
    exact Or.inl ⟨[], .nil, lastOr_nil.symm, lastOr_nil.symm⟩
  | succ turns ih =>
    rw [parseLoop]
    cases harg : pchArgV[s.nIter]? with
    | none =>
      rw [List.drop_eq_nil_of_le (List.getElem?_eq_none_iff.1 harg)]
      exact Or.inl ⟨[], .nil, lastOr_nil.symm, lastOr_nil.symm⟩
    | some arg =>
      obtain ⟨hlt, hget⟩ := List.getElem?_eq_some_iff.1 harg
      rw [List.drop_eq_getElem_cons hlt, hget]
      dsimp only
      by_cases hname : ∃ name : OptionName, arg = name.word
      · obtain ⟨name, rfl⟩ := hname
        obtain ⟨s', hoption, htaken⟩ := @parseOption_spec good pchArgV name s
        have hmore := htaken.next
        dsimp only at hmore
        have hnext : pchArgV.drop s'.nIter = (pchArgV.drop (s.nIter + 1)).drop name.arity := by
          rw [hmore, List.drop_drop]
        rw [hoption]
        dsimp only
        rcases @ih s' (by omega) with ⟨options, hcut, hresult, hconfig⟩ | ⟨hnone, hresult⟩
        · rw [hnext] at hcut
          exact Or.inl ⟨_, hcut.cons, hresult.trans (htaken.lastOr_result options),
            hconfig.trans (htaken.lastOr_config options)⟩
        · refine Or.inr ⟨fun options hcut => ?_, hresult⟩
          obtain ⟨name', options', hsame, hrest, -⟩ := cut_cons_iff.1 hcut
          rw [← word_injective hsame, ← hnext] at hrest
          exact hnone options' hrest
      · -- a word that is no option ends the loop
        rw [parseOption_eq_none (not_exists.1 hname)]
        refine Or.inr ⟨fun options hcut => ?_, rfl⟩
        obtain ⟨name, _, hsame, -⟩ := cut_cons_iff.1 hcut
        exact hname ⟨name, hsame⟩

/-! ## The result -/

/-- The arguments are accepted iff every word in the place of an option names one, and the last
option and the last `-c` are accepted. -/
theorem parseArgs_iff (good : String → Bool) (pchArgV : List String) :
    (parseArgs good pchArgV).1 = true ↔
      ∃ options, Cut pchArgV.tail options ∧ EndsWell good options := by
  have hlast : ∀ options : List GivenOption, LastOr (Accepted good) (false = true) options ↔
      ∃ o, options.getLast? = some o ∧ Accepted good o := by
    intro options
    simp [LastOr]
  unfold parseArgs
  dsimp only
  rw [Bool.and_eq_true]
  rcases @parseLoop_spec good pchArgV pchArgV.length ⟨1, false, false, noArguments⟩ (by omega) with
    ⟨options, hcut, hresult, hconfig⟩ | ⟨hnone, hresult⟩
  · dsimp only at hcut hresult hconfig
    rw [List.drop_one] at hcut
    rw [hresult, hconfig, hlast, hlast]
    refine ⟨fun h => ⟨options, hcut, h.2, h.1⟩, ?_⟩
    rintro ⟨options', hcut', hends⟩
    rw [cut_unique hcut hcut']
    exact ⟨hends.2, hends.1⟩
  · dsimp only at hnone
    rw [List.drop_one] at hnone
    refine iff_of_false (fun h => ?_) ?_
    · exact Bool.false_ne_true (hresult.symm.trans h.2)
    · rintro ⟨options, hcut, -⟩
      exact hnone options hcut

/-! ## Valid options -/

theorem atoi_of_inRange {text : String} (h : inRange (leadingNumber text) = true) :
    atoi text = leadingNumber text := by
  have hrange := of_decide_eq_true h
  unfold HCPLOG_MAX_LEVEL at hrange
  have hclamp : max (-2 ^ 63) (min (2 ^ 63 - 1) (leadingNumber text)) = leadingNumber text := by
    omega
  unfold atoi
  rw [hclamp]
  exact Lib.toInt32_of_fits (by omega) (by omega)

theorem Valid.accepted {o : GivenOption} (h : Valid good o) : Accepted good o := by
  cases h with
  | config hswitch hgood => exact ⟨hswitch, hgood⟩
  | debug hswitch hrange =>
    refine ⟨hswitch, ?_⟩
    rw [atoi_of_inRange hrange]
    exact hrange
  | restart hreason hcount => exact ⟨hreason, hcount⟩
  | info => exact trivial

theorem Valid.length_values {o : GivenOption} (h : Valid good o) :
    o.values.length = o.name.arity := by
  cases h <;> rfl

theorem Cut.eq_flatMap {args : List String} {options : List GivenOption} (h : Cut args options) :
    args = options.flatMap GivenOption.words := by
  induction h with
  | nil => rfl
  | @cons name rest options _ ih =>
    rw [List.flatMap_cons, ← ih, GivenOption.words, List.cons_append, List.take_append_drop]

/-- Options with all their values are cut out of their words again. -/
theorem cut_flatMap {options : List GivenOption}
    (h : ∀ o ∈ options, o.values.length = o.name.arity) :
    Cut (options.flatMap GivenOption.words) options := by
  induction options with
  | nil => exact .nil
  | cons o options ih =>
    have harity := h o List.mem_cons_self
    rw [List.flatMap_cons, GivenOption.words, List.cons_append, cut_cons_iff]
    refine ⟨o.name, options, rfl, ?_, ?_⟩
    · rw [List.drop_left' harity]
      exact ih fun o' ho' => h o' (List.mem_cons_of_mem o ho')
    · rw [List.take_left' harity]

theorem splits_iff {args : List String} :
    Splits good args ↔ ∃ options, Cut args options ∧ (∀ o ∈ options, Valid good o) ∧
      ∃ o ∈ options, o.name = .config := by
  constructor
  · rintro ⟨options, rfl, hvalid, hconfig⟩
    exact ⟨options, cut_flatMap fun o ho => (hvalid o ho).length_values, hvalid, hconfig⟩
  · rintro ⟨options, hcut, h⟩
    exact ⟨options, hcut.eq_flatMap, h⟩

theorem mem_configs {o : GivenOption} {options : List GivenOption} :
    o ∈ configs options ↔ o ∈ options ∧ o.name = .config := by
  unfold configs
  rw [List.mem_filter, decide_eq_true_eq]

theorem endsWell_of_valid {options : List GivenOption} (hvalid : ∀ o ∈ options, Valid good o)
    (hconfig : ∃ o ∈ options, o.name = .config) : EndsWell good options := by
  obtain ⟨o, ho, hname⟩ := hconfig
  have hne : options ≠ [] := List.ne_nil_of_mem ho
  have hconfigs : configs options ≠ [] := List.ne_nil_of_mem (mem_configs.2 ⟨ho, hname⟩)
  refine ⟨⟨_, List.getLast?_eq_some_getLast hne, ?_⟩,
    ⟨_, List.getLast?_eq_some_getLast hconfigs, ?_⟩⟩
  · exact (hvalid _ (List.getLast_mem hne)).accepted
  · exact (hvalid _ (mem_configs.1 (List.getLast_mem hconfigs)).1).accepted

/-- The arguments are accepted exactly when they split into valid options, iff options that end
well are valid. -/
theorem accepts_iff (good : String → Bool) (pchArgV : List String) :
    ((parseArgs good pchArgV).1 = true ↔ Splits good pchArgV.tail) ↔
      Sound good pchArgV.tail := by
  rw [parseArgs_iff, splits_iff]
  constructor
  · intro h options hcut hends
    obtain ⟨options', hcut', hvalid, -⟩ := h.1 ⟨options, hcut, hends⟩
    rw [cut_unique hcut hcut']
    exact hvalid
  · intro hsound
    constructor
    · rintro ⟨options, hcut, hends⟩
      obtain ⟨o, ho, -⟩ := hends.2
      exact ⟨options, hcut, hsound options hcut hends, o, mem_configs.1 (List.mem_of_getLast? ho)⟩
    · rintro ⟨options, hcut, hvalid, hconfig⟩
      exact ⟨options, hcut, endsWell_of_valid hvalid hconfig⟩

/-- A level out of range is forgotten when the `-c` behind it is good. -/
theorem not_accepts_debug_first :
    ¬ ((parseArgs (fun _ => true) ["deviceclient", "-d", "99", "-c", "config"]).1 = true ↔
      Splits (fun _ => true) ["-d", "99", "-c", "config"]) := by
  intro h
  obtain ⟨options, hcut, hvalid, -⟩ := splits_iff.1 (h.1 (by decide))
  have hsame : options = [⟨.debug, ["99"]⟩, ⟨.config, ["config"]⟩] :=
    cut_unique hcut (@Cut.cons .debug ["99", "-c", "config"] _ (@Cut.cons .config _ _ .nil))
  have hlevel := hvalid ⟨.debug, ["99"]⟩ (hsame ▸ List.mem_cons_self)
  cases hlevel with
  | debug _ hrange => exact absurd hrange (by decide)

/-! ## What is set -/

/-- The file of a good `-c` can be read, and a level that was set is one of the log. -/
structure Usable (good : String → Bool) (s : ParseState) : Prop where
  path : s.bIsConfigValid = true → good s.args.g_strConfigPath = true
  level : s.args.g_nLogLevel = noArguments.g_nLogLevel ∨ inRange s.args.g_nLogLevel = true

theorem usable_start : Usable good ⟨1, false, false, noArguments⟩ where
  path := fun hfalse => absurd hfalse Bool.false_ne_true
  level := Or.inl rfl

theorem parseOption_usable {arg : String} {s s' : ParseState} (hs : Usable good s)
    (h : parseOption good pchArgV arg s = some s') : Usable good s' := by
  by_cases hname : ∃ name : OptionName, arg = name.word
  · obtain ⟨name, rfl⟩ := hname
    cases name with
    | config =>
      cases h
      rcases @handleValueOption_cases pchArgV good
        (fun path g => { g with g_strConfigPath := path }) s.nIter s.args with
        ⟨path, -, hpath, heq⟩ | ⟨-, heq⟩
      · refine ⟨fun _ => ?_, ?_⟩
        · rw [ParseState.handled, handleConfigFileOption, heq]
          exact hpath.2
        · rw [ParseState.handled, handleConfigFileOption, heq]
          exact hs.level
      · refine ⟨fun hvalid => ?_, ?_⟩
        · rw [handleConfigFileOption, heq] at hvalid
          cases hvalid
        · rw [ParseState.handled, handleConfigFileOption, heq]
          exact hs.level
    | debug =>
      cases h
      rcases @handleValueOption_cases pchArgV (fun level => inRange (atoi level))
        (fun level g => { g with g_nLogLevel := atoi level }) s.nIter s.args with
        ⟨level, -, hlevel, heq⟩ | ⟨-, heq⟩
      · rw [handleDebugOption, heq]
        exact ⟨hs.path, Or.inr hlevel.2⟩
      · rw [handleDebugOption, heq]
        exact ⟨hs.path, hs.level⟩
    | restart =>
      cases h
      rcases @handleRestartCountOption_cases pchArgV good s.nIter s.args with
        ⟨-, _, _, heq⟩ | ⟨-, heq⟩
      · rw [heq]
        exact ⟨hs.path, hs.level⟩
      · rw [heq]
        exact ⟨hs.path, hs.level⟩
    | info =>
      cases h
      exact ⟨hs.path, hs.level⟩
  · rw [parseOption_eq_none (not_exists.1 hname)] at h
    cases h

theorem parseLoop_usable (turns : ℕ) {s : ParseState} (hs : Usable good s) :
    Usable good (parseLoop good pchArgV turns s) := by
  induction turns generalizing s with
  | zero => exact hs
  | succ turns ih =>
    rw [parseLoop]
    cases pchArgV[s.nIter]? with
    | none => exact hs
    | some arg =>
      dsimp only
      cases hoption : parseOption good pchArgV arg s with
      | none => exact ⟨hs.path, hs.level⟩
      | some s' => exact ih (parseOption_usable hs hoption)

/-- Arguments that are accepted name a file that can be read. -/
theorem parseArgs_path (h : (parseArgs good pchArgV).1 = true) :
    good (parseArgs good pchArgV).2.g_strConfigPath = true := by
  exact (parseLoop_usable pchArgV.length usable_start).path ((Bool.and_eq_true _ _).mp h).1

/-- The level is the one at the start, or one of the log, also when they are not accepted. -/
theorem parseArgs_level (good : String → Bool) (pchArgV : List String) :
    (parseArgs good pchArgV).2.g_nLogLevel = noArguments.g_nLogLevel ∨
      inRange (parseArgs good pchArgV).2.g_nLogLevel = true := by
  exact (parseLoop_usable pchArgV.length usable_start).level

end CommandLine

end DeviceClient
