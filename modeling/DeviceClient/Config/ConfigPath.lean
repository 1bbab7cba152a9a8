import DeviceClient.Util.JsonPath
import Mathlib.Data.List.TakeWhile

/-!
# Paths of configuration parameters

A parameter is read and written by a text such as `DAM.PPS[0].ratio`, in two
different ways. The lookup skips the dots and takes an index in brackets as an
index. The update splits the text at the dots, so that a bracket stays in the name
and two dots enclose an empty name.

* `pathTokens_of_plain`: the two agree on a path of plain names.
* `plainKey_of_mem_pathTokens`: the lookup meets plain names only.
-/

namespace DeviceClient

open JsonValue

/-- `CIgniteStringUtils::Split`: the items that `getline` reads. -/
def split (chDelim : Char) (chars : List Char) : List String :=
  match chars with
  | [] => []
  | c :: rest =>
    String.ofList ((c :: rest).takeWhile (· ≠ chDelim)) ::
      split chDelim ((c :: rest).dropWhile (· ≠ chDelim)).tail
termination_by chars.length
decreasing_by
  have hle := List.length_dropWhile_le (fun x => decide (x ≠ chDelim)) (c :: rest)
  rw [List.length_tail, List.length_cons] at *
  omega

/-- The characters of a name in the lookup. -/
def isNameChar (c : Char) : Bool := c ≠ '[' && c ≠ '.'

/-- An index in a 32-bit variable, as the array is asked for it. -/
def arrayIndexOfInt (n : ℤ) : ℕ := (n % 2 ^ 32).toNat

/-- `nArrayindex * 10 + digit`, character by character. -/
def decimalIndex (digits : List Char) : ℕ :=
  digits.foldl (fun n c => (n * 10 + (c.toNat - '0'.toNat)) % 2 ^ 32) 0

/-- The index behind a bracket, up to the closing one; `%` stands for the argument. -/
def arrayIndex (nIndex : ℤ) (chars : List Char) : Option (ℕ × List Char) :=
  let parsed :=
    match chars with
    | '%' :: rest => (arrayIndexOfInt nIndex, rest)
    | _ => (decimalIndex (chars.takeWhile Char.isDigit), chars.dropWhile Char.isDigit)
  match parsed with
  | (n, ']' :: rest) => some (n, rest)
  | _ => none

theorem arrayIndex_length {nIndex : ℤ} {chars rest : List Char} {n : ℕ}
    (h : arrayIndex nIndex chars = some (n, rest)) : rest.length < chars.length := by
  unfold arrayIndex at h
  dsimp only at h
  split at h
  · rename_i m rest' hparsed
    cases h
    split at hparsed
    · rename_i rest''
      cases hparsed
      rw [List.length_cons, List.length_cons]
      omega
    · injection hparsed with _ hdrop
      have hle := List.length_dropWhile_le Char.isDigit chars
      rw [hdrop, List.length_cons] at hle
      omega
  · cases h

/-- The steps that `GetJsonValue` takes for a key. It parses the key while it walks
down the tree and stops at the first failure of either. -/
def pathTokens (nIndex : ℤ) (chars : List Char) : List PathToken :=
  match chars with
  | [] => []
  | '[' :: rest =>
    match _h : arrayIndex nIndex rest with
    -- the walk ends at a syntax error, after the steps before it
    | none => [.malformed]
    | some (n, rest') => .index n :: pathTokens nIndex rest'
  | '.' :: rest => pathTokens nIndex rest
  | c :: rest =>
    .name (String.ofList (c :: rest.takeWhile isNameChar)) ::
      pathTokens nIndex (rest.dropWhile isNameChar)
termination_by chars.length
decreasing_by
  · have hlt := arrayIndex_length _h
    rw [List.length_cons]
    omega
  · rw [List.length_cons]
    omega
  · have hle := List.length_dropWhile_le isNameChar rest
    rw [List.length_cons]
    omega

/-- A name that the lookup reads as the update does. -/
def PlainKey (key : String) : Prop := key ≠ "" ∧ '[' ∉ key.toList

instance (key : String) : Decidable (PlainKey key) := inferInstanceAs (Decidable (_ ∧ _))

/-- All names of a path are plain. -/
def PlainPath (strPath : String) : Prop := ∀ key ∈ split '.' strPath.toList, PlainKey key

instance (strPath : String) : Decidable (PlainPath strPath) := List.decidableBAll _ _

theorem isNameChar_iff (c : Char) : isNameChar c = true ↔ c ≠ '[' ∧ c ≠ '.' := by
  simp [isNameChar]

theorem pathTokens_dot (nIndex : ℤ) (rest : List Char) :
    pathTokens nIndex ('.' :: rest) = pathTokens nIndex rest := by
  rw [pathTokens]

/-- The lookup takes a run of name characters as one name. -/
theorem pathTokens_name (nIndex : ℤ) {chars rest : List Char} (hne : chars ≠ [])
    (hchars : ∀ c ∈ chars, isNameChar c = true)
    (hrest : ∀ c r, rest = c :: r → isNameChar c = false) :
    pathTokens nIndex (chars ++ rest) =
      .name (String.ofList chars) :: pathTokens nIndex rest := by
  cases chars with
  | nil => exact absurd rfl hne
  | cons c cs =>
    have hc := (isNameChar_iff c).1 (hchars c List.mem_cons_self)
    have hcs : ∀ a ∈ cs, isNameChar a = true := fun a ha => hchars a (List.mem_cons_of_mem c ha)
    have htake : (cs ++ rest).takeWhile isNameChar = cs := by
      rw [List.takeWhile_append_of_pos hcs]
      cases rest with
      | nil => simp
      | cons a r => rw [List.takeWhile_cons_of_neg (by simp [hrest a r rfl]), List.append_nil]
    have hdrop : (cs ++ rest).dropWhile isNameChar = rest := by
      rw [List.dropWhile_append_of_pos hcs]
      cases rest with
      | nil => rfl
      | cons a r => rw [List.dropWhile_cons_of_neg (by simp [hrest a r rfl])]
    rw [List.cons_append, pathTokens, htake, hdrop]
    · exact fun h => hc.1 h
    · exact fun h => hc.2 h

theorem pathTokens_of_plain (nIndex : ℤ) (chars : List Char)
    (h : ∀ key ∈ split '.' chars, PlainKey key) :
    pathTokens nIndex chars = names (split '.' chars) := by
  fun_induction split '.' chars with
  | case1 => rw [pathTokens, names_nil]
  | case2 c rest ih =>
    have hhead := h _ List.mem_cons_self
    have hih := ih fun key hkey => h key (List.mem_cons_of_mem _ hkey)
    -- the item and what is left, which begins with the dot
    have hchars := (List.takeWhile_append_dropWhile
      (p := fun x => decide (x ≠ '.')) (l := c :: rest)).symm
    have hitem : ∀ a ∈ (c :: rest).takeWhile (fun x => decide (x ≠ '.')), a ≠ '.' := by
      intro a ha
      simpa using List.mem_takeWhile_imp ha
    have hdot : ∀ a r, (c :: rest).dropWhile (fun x => decide (x ≠ '.')) = a :: r → a = '.' := by
      intro a r hdrop
      have hhd := List.head?_dropWhile_not (fun x => decide (x ≠ '.')) (c :: rest)
      rw [hdrop] at hhd
      simpa using hhd
    rw [names_cons, ← hih]
    generalize (c :: rest).takeWhile (fun x => decide (x ≠ '.')) = item at *
    generalize (c :: rest).dropWhile (fun x => decide (x ≠ '.')) = left at *
    have hne : item ≠ [] := fun hnil => hhead.1 (by rw [hnil, String.ofList_nil])
    have hname : ∀ a ∈ item, isNameChar a = true := by
      intro a ha
      refine (isNameChar_iff a).2 ⟨fun hb => hhead.2 ?_, hitem a ha⟩
      rw [String.toList_ofList, ← hb]
      exact ha
    have hleft : ∀ a r, left = a :: r → isNameChar a = false := by
      intro a r hl
      rw [hdot a r hl]
      rfl
    rw [hchars, pathTokens_name nIndex hne hname hleft]
    cases left with
    | nil => rfl
    | cons a r => rw [hdot a r rfl, pathTokens_dot, List.tail_cons]

/-- The lookup meets plain names only. -/
theorem plainKey_of_mem_pathTokens {nIndex : ℤ} {chars : List Char} {key : String}
    (h : .name key ∈ pathTokens nIndex chars) : PlainKey key := by
  fun_induction pathTokens nIndex chars with
  | case1 => cases h
  | case2 rest hindex => simp at h
  | case3 rest n rest' hindex ih =>
    rcases List.mem_cons.1 h with h | h
    · cases h
    · exact ih h
  | case4 rest ih => exact ih h
  | case5 c rest hbracket hdot ih =>
    rcases List.mem_cons.1 h with h | h
    · injection h with hkey
      have hchars : ∀ a ∈ c :: rest.takeWhile isNameChar, a ≠ '[' := by
        intro a ha
        rcases List.mem_cons.1 ha with rfl | ha
        · exact hbracket
        · exact ((isNameChar_iff a).1 (List.mem_takeWhile_imp ha)).1
      rw [hkey]
      refine ⟨fun hnil => ?_, fun hmem => ?_⟩
      · rw [String.ofList_eq_empty_iff] at hnil
        cases hnil
      · rw [String.toList_ofList] at hmem
        exact hchars '[' hmem rfl
    · exact ih h

/-- Names only: then they are plain. -/
theorem plain_of_pathTokens_eq {nIndex : ℤ} {chars : List Char} {keys : List String}
    (h : pathTokens nIndex chars = names keys) : ∀ key ∈ keys, PlainKey key := by
  intro key hkey
  have hmem : PathToken.name key ∈ pathTokens nIndex chars := by
    rw [h]
    exact List.mem_map_of_mem hkey
  exact plainKey_of_mem_pathTokens hmem

theorem delim_not_mem_split {chDelim : Char} {chars : List Char} {key : String}
    (h : key ∈ split chDelim chars) : chDelim ∉ key.toList := by
  fun_induction split chDelim chars with
  | case1 => cases h
  | case2 c rest ih =>
    rcases List.mem_cons.1 h with rfl | h
    · intro hmem
      rw [String.toList_ofList] at hmem
      simpa using List.mem_takeWhile_imp hmem
    · exact ih h

/-- Plain names without a dot are a path of the lookup. -/
theorem exists_path (keys : List String)
    (h : ∀ key ∈ keys, PlainKey key ∧ '.' ∉ key.toList) :
    ∃ q : String, ∀ nIndex, pathTokens nIndex q.toList = names keys := by
  suffices hchars : ∀ nIndex,
      pathTokens nIndex (keys.flatMap fun key => key.toList ++ ['.']) = names keys by
    refine ⟨String.ofList (keys.flatMap fun key => key.toList ++ ['.']), fun nIndex => ?_⟩
    rw [String.toList_ofList]
    exact hchars nIndex
  intro nIndex
  induction keys with
  | nil => rw [List.flatMap_nil, pathTokens, names_nil]
  | cons key keys ih =>
    obtain ⟨hplain, hdot⟩ := h key List.mem_cons_self
    have hne : key.toList ≠ [] := by
      intro hnil
      refine hplain.1 ?_
      rw [← String.ofList_toList (s := key), hnil, String.ofList_nil]
    have hname : ∀ a ∈ key.toList, isNameChar a = true := by
      intro a ha
      refine (isNameChar_iff a).2 ⟨fun hb => hplain.2 (hb ▸ ha), fun hd => hdot (hd ▸ ha)⟩
    rw [List.flatMap_cons, List.append_assoc, pathTokens_name nIndex hne hname, names_cons,
      String.ofList_toList, List.singleton_append, pathTokens_dot,
      ih fun k hk => h k (List.mem_cons_of_mem key hk)]
    intro c r hcr
    injection hcr with hc _
    rw [← hc]
    rfl

end DeviceClient
