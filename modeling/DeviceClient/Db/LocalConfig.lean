import DeviceClient.Lib.Int32
import DeviceClient.Lib.LikePattern
import DeviceClient.Lib.Run
import DeviceClient.Lib.Table
import Mathlib.Data.Set.Card

/-!
# The local configuration

`CLocalConfig` keeps texts by their keys in the rows of a table. A key is compared as it is by
`Get`, `Set` and `Remove`, and with `LIKE` by the operations on the keys that start with a text.

Texts are put between single quotes into the statements, so that a text with a NUL leaves the
statement without its closing quote: it fails. Texts with a quote are not considered.

* `ConfigMap`: the map that the component stands for.
* `next`: a call of the code beside the same call of the map.
* `agrees_next_iff`: what a call needs to keep the two together.
* `local_config_refines_iff`: the runs in which they stay together.
-/

namespace DeviceClient

/-! ## The table -/

/-- A text without a quote. -/
abbrev Unquoted := {text : String // '\x27' ∉ text.toList}

def NulFree (text : String) : Prop := '\x00' ∉ text.toList

instance (text : String) : Decidable (NulFree text) := inferInstanceAs (Decidable (¬ _))

/-- A row of `LocalConfig`. -/
structure ConfigRow where
  id : ℕ
  key : String
  value : String
deriving DecidableEq

/-- The table; the column of the keys is `UNIQUE`. -/
structure LocalConfigTable where
  table : Lib.Table ConfigRow.id
  positive : 0 < table.nextKey
  unique : ∀ r ∈ table.rows, ∀ r' ∈ table.rows, r.key = r'.key → r = r'
  whole : ∀ r ∈ table.rows, NulFree r.key ∧ NulFree r.value

namespace LocalConfigTable

/-- The table of a new database. -/
def empty : LocalConfigTable where
  table := Lib.Table.empty
  positive := Nat.one_pos
  unique := by simp
  whole := by simp

/-- `CDatabase::Query` with a text in the selection; `none` is the null cursor. -/
def query (strText : String) (selects : ConfigRow → Bool) (t : LocalConfigTable) :
    Option (List ConfigRow) :=
  if NulFree strText then some (t.table.rows.filter selects) else none

/-- `CDatabase::Insert`: the new id, or -1 where the statement fails. -/
def insert (strKey strValue : String) (t : LocalConfigTable) : ℤ × LocalConfigTable :=
  if h : NulFree strKey ∧ NulFree strValue ∧ ∀ r ∈ t.table.rows, r.key ≠ strKey then
    (t.table.nextKey,
      { table := t.table.insert (fun n => ⟨n, strKey, strValue⟩) fun _ => rfl
        positive := Nat.succ_pos _
        unique := by
          intro r hr r' hr' hkey
          rcases Lib.Table.mem_insert.1 hr with hold | rfl <;>
            rcases Lib.Table.mem_insert.1 hr' with hold' | rfl
          · exact t.unique r hold r' hold' hkey
          · exact absurd hkey (h.2.2 r hold)
          · exact absurd hkey.symm (h.2.2 r' hold')
          · rfl
        whole := by
          intro r hr
          rcases Lib.Table.mem_insert.1 hr with hold | rfl
          · exact t.whole r hold
          · exact ⟨h.1, h.2.1⟩ })
  else (-1, t)

/-- `CDatabase::Update` of the row with an id. -/
def update (lId : ℤ) (strKey strValue : String) (t : LocalConfigTable) : Bool × LocalConfigTable :=
  if h : NulFree strKey ∧ NulFree strValue ∧
      ∀ r ∈ t.table.rows, (r.id : ℤ) ≠ lId → r.key ≠ strKey then
    (true,
      { table := t.table.update (fun r => decide ((r.id : ℤ) = lId))
          (fun r => ⟨r.id, strKey, strValue⟩) fun _ => rfl
        positive := t.positive
        unique := by
          intro r hr r' hr' hkey
          obtain ⟨r₀, h₀, rfl⟩ := Lib.Table.mem_update.1 hr
          obtain ⟨r₁, h₁, rfl⟩ := Lib.Table.mem_update.1 hr'
          by_cases hid : (r₀.id : ℤ) = lId <;> by_cases hid' : (r₁.id : ℤ) = lId
          · have hrow : r₀ = r₁ := t.table.eq_of_key_eq h₀ h₁ (by omega)
            rw [hrow]
          · simp only [hid, hid', decide_true, decide_false, if_true, if_false, Bool.false_eq_true]
              at hkey
            exact absurd hkey.symm (h.2.2 r₁ h₁ hid')
          · simp only [hid, hid', decide_true, decide_false, if_true, if_false, Bool.false_eq_true]
              at hkey
            exact absurd hkey (h.2.2 r₀ h₀ hid)
          · simp only [hid, hid', decide_false, if_false, Bool.false_eq_true] at hkey ⊢
            exact t.unique r₀ h₀ r₁ h₁ hkey
        whole := by
          intro r hr
          obtain ⟨r₀, h₀, rfl⟩ := Lib.Table.mem_update.1 hr
          split
          · exact ⟨h.1, h.2.1⟩
          · exact t.whole r₀ h₀ })
  else (false, t)

/-- `CDatabase::Remove` with a text in the selection. -/
def remove (strText : String) (selects : ConfigRow → Bool) (t : LocalConfigTable) :
    Bool × LocalConfigTable :=
  if NulFree strText then
    (true,
      { table := t.table.remove selects
        positive := t.positive
        unique := fun r hr r' hr' =>
          t.unique r (Lib.Table.mem_remove.1 hr).1 r' (Lib.Table.mem_remove.1 hr').1
        whole := fun r hr => t.whole r (Lib.Table.mem_remove.1 hr).1 })
  else (false, t)

end LocalConfigTable

/-! ## `CLocalConfig` -/

/-- SQLite compares the characters of a pattern without the case of ASCII letters. -/
def sqliteLike : Lib.LikeSyntax Char := ⟨'%', '_', Char.toLower⟩

/-- `key LIKE 'strKey%'`. -/
def likeKey (strKey : String) (r : ConfigRow) : Bool :=
  Lib.like sqliteLike (strKey.toList ++ [sqliteLike.many]) r.key.toList

inductive ConfigReply where
  | value (strValue : String)
  | success (bSuccess : Bool)
  | number (n : ℤ)
deriving DecidableEq

inductive ConfigCall where
  | set (strKey strValue : Unquoted)
  | get (strKey : Unquoted)
  | remove (strKey : Unquoted)
  | removeRowsStartsWithKey (strKey : Unquoted)
  | countRowsStartsWithKey (strKey : Unquoted)

namespace LocalConfigTable

def get (strKey : Unquoted) (t : LocalConfigTable) : String :=
  match t.query strKey fun r => r.key = strKey.1 with
  | some (r :: _) => r.value
  | _ => ""

def set (strKey strValue : Unquoted) (t : LocalConfigTable) : Bool × LocalConfigTable :=
  let lId : ℤ := match t.query strKey fun r => r.key = strKey.1 with
    | some (r :: _) => r.id
    | _ => -1
  -- no row has the key, or the statement did not run
  if lId = -1 then
    let inserted := t.insert strKey strValue
    (0 < inserted.1, inserted.2)
  else t.update lId strKey strValue

def countRowsStartsWithKey (strKey : Unquoted) (t : LocalConfigTable) : ℤ :=
  match t.query strKey (likeKey strKey) with
  | some rows => Lib.toInt32 rows.length
  | none => 0

def call : ConfigCall → LocalConfigTable → ConfigReply × LocalConfigTable
  | .set strKey strValue, t =>
    let r := t.set strKey strValue
    (.success r.1, r.2)
  | .get strKey, t => (.value (t.get strKey), t)
  | .remove strKey, t =>
    let r := t.remove strKey fun row => row.key = strKey.1
    (.number r.1.toInt, r.2)
  | .removeRowsStartsWithKey strKey, t =>
    let r := t.remove strKey (likeKey strKey)
    (.number r.1.toInt, r.2)
  | .countRowsStartsWithKey strKey, t => (.number (t.countRowsStartsWithKey strKey), t)

end LocalConfigTable

/-! ## The map -/

/-- The texts that were set and not removed, by their keys. -/
abbrev ConfigMap := String → Option String

namespace ConfigMap

def StartsWith (strKey key : String) : Prop := strKey.toList <+: key.toList

instance (strKey key : String) : Decidable (StartsWith strKey key) :=
  inferInstanceAs (Decidable (_ <+: _))

def removeStarting (strKey : String) (m : ConfigMap) : ConfigMap :=
  fun key => if StartsWith strKey key then none else m key

noncomputable def countStarting (strKey : String) (m : ConfigMap) : ℕ :=
  {key | (m key).isSome = true ∧ StartsWith strKey key}.ncard

def apply : ConfigCall → ConfigMap → ConfigMap
  | .set strKey strValue, m => Function.update m strKey (some strValue.1)
  | .get _, m => m
  | .remove strKey, m => Function.update m strKey none
  | .removeRowsStartsWithKey strKey, m => m.removeStarting strKey
  | .countRowsStartsWithKey _, m => m

/-- What a call is to return, where the map says so. -/
noncomputable def reply : ConfigCall → ConfigMap → Option ConfigReply
  | .get strKey, m => some (.value ((m strKey).getD ""))
  | .countRowsStartsWithKey strKey, m => some (.number (m.countStarting strKey))
  | _, _ => none

end ConfigMap

/-! ## The two together -/

/-- The table, the map after the same calls, and the replies of both. -/
structure LocalConfigRun where
  table : LocalConfigTable
  map : ConfigMap
  replies : List (ConfigReply × Option ConfigReply)

/-- The map of the stored rows. -/
def LocalConfigTable.toMap (t : LocalConfigTable) : ConfigMap :=
  fun key => (t.table.rows.find? fun r => r.key = key).map ConfigRow.value

namespace LocalConfigRun

/-- No call yet. -/
def start (t : LocalConfigTable) : LocalConfigRun := ⟨t, t.toMap, []⟩

noncomputable def next (s : LocalConfigRun) (c : ConfigCall) : Option LocalConfigRun :=
  let r := s.table.call c
  some ⟨r.2, s.map.apply c, s.replies ++ [(r.1, s.map.reply c)]⟩

/-- The rows are those of the map, and the replies were those of the map. -/
structure Agrees (s : LocalConfigRun) : Prop where
  map : s.table.toMap = s.map
  replies : ∀ r ∈ s.replies, ∀ expected, r.2 = some expected → r.1 = expected

end LocalConfigRun

namespace LocalConfigTable

/-- The row is taken by the statement with `LIKE`. -/
def takes (strKey : String) (r : ConfigRow) : Bool := decide (NulFree strKey) && likeKey strKey r

/-- The stored keys that are taken and do not start with the text. -/
def others (strKey : String) (t : LocalConfigTable) : List ConfigRow :=
  t.table.rows.filter fun r => takes strKey r && !decide (ConfigMap.StartsWith strKey r.key)

/-- The stored keys that start with the text. -/
def starting (strKey : String) (t : LocalConfigTable) : List ConfigRow :=
  t.table.rows.filter fun r => ConfigMap.StartsWith strKey r.key

end LocalConfigTable

/-- What a call needs of the table: whole texts to store, and a pattern that takes no other
key. -/
def ConfigCall.Fits (t : LocalConfigTable) : ConfigCall → Prop
  | .set strKey strValue => NulFree strKey ∧ NulFree strValue
  | .get _ => True
  | .remove _ => True
  | .removeRowsStartsWithKey strKey => t.others strKey = []
  | .countRowsStartsWithKey strKey =>
    -- the number comes back in 32 bits
    2 ^ 32 ∣ (t.others strKey).length ∧ (t.starting strKey).length < 2 ^ 31

/-! ## What is stored -/

namespace LocalConfigTable

variable {t : LocalConfigTable} {strKey strValue : Unquoted}

theorem toMap_eq_some {key value : String} :
    t.toMap key = some value ↔ ∃ r ∈ t.table.rows, r.key = key ∧ r.value = value := by
  unfold toMap
  rw [Option.map_eq_some_iff]
  constructor
  · rintro ⟨r, hfind, hvalue⟩
    have hkey : r.key = key := by simpa using List.find?_some hfind
    exact ⟨r, List.mem_of_find?_eq_some hfind, hkey, hvalue⟩
  · rintro ⟨r, hr, hkey, hvalue⟩
    cases hfind : t.table.rows.find? fun r => decide (r.key = key) with
    | none =>
      rw [List.find?_eq_none] at hfind
      exact absurd (decide_eq_true hkey) (hfind r hr)
    | some r' =>
      have hkey' : r'.key = key := by simpa using List.find?_some hfind
      have hrow : r' = r :=
        t.unique r' (List.mem_of_find?_eq_some hfind) r hr (hkey'.trans hkey.symm)
      exact ⟨r', rfl, by rw [hrow, hvalue]⟩

theorem toMap_eq_none {key : String} : t.toMap key = none ↔ ∀ r ∈ t.table.rows, r.key ≠ key := by
  rw [Option.eq_none_iff_forall_ne_some]
  constructor
  · intro h r hr hkey
    exact h r.value (toMap_eq_some.2 ⟨r, hr, hkey, rfl⟩)
  · intro h value hvalue
    rcases toMap_eq_some.1 hvalue with ⟨r, hr, hkey, -⟩
    exact h r hr hkey

/-- A text with a NUL is no stored key. -/
theorem toMap_of_not_nulFree {key : String} (h : ¬ NulFree key) : t.toMap key = none :=
  toMap_eq_none.2 fun r hr hkey => h (hkey ▸ (t.whole r hr).1)

theorem nulFree_of_toMap_eq_some {key value : String} (h : t.toMap key = some value) :
    NulFree key ∧ NulFree value := by
  rcases toMap_eq_some.1 h with ⟨r, hr, rfl, rfl⟩
  exact t.whole r hr

/-! ## One call -/

theorem get_eq : t.get strKey = (t.toMap strKey).getD "" := by
  unfold get query
  by_cases hkey : NulFree strKey
  · rw [if_pos hkey]
    unfold toMap
    rw [← List.head?_filter]
    cases t.table.rows.filter fun r => decide (r.key = strKey.1) <;> rfl
  · rw [if_neg hkey, toMap_of_not_nulFree hkey]
    rfl

theorem insert_of_fits {key value : String} (hkey : NulFree key) (hvalue : NulFree value)
    (habsent : ∀ r ∈ t.table.rows, r.key ≠ key) :
    (t.insert key value).1 = t.table.nextKey ∧
      (t.insert key value).2.toMap = Function.update t.toMap key (some value) := by
  unfold insert
  rw [dif_pos ⟨hkey, hvalue, habsent⟩]
  refine ⟨rfl, ?_⟩
  funext k
  refine Option.ext fun v => ?_
  rw [toMap_eq_some]
  by_cases hk : k = key
  · subst hk
    rw [Function.update_self, Option.some.injEq]
    constructor
    · rintro ⟨r, hr, hrkey, hrvalue⟩
      rcases Lib.Table.mem_insert.1 hr with hold | rfl
      · exact absurd hrkey (habsent r hold)
      · exact hrvalue
    · rintro rfl
      exact ⟨_, Lib.Table.mem_insert.2 (Or.inr rfl), rfl, rfl⟩
  · rw [Function.update_of_ne hk, toMap_eq_some]
    constructor
    · rintro ⟨r, hr, hrkey, hrvalue⟩
      rcases Lib.Table.mem_insert.1 hr with hold | rfl
      · exact ⟨r, hold, hrkey, hrvalue⟩
      · exact absurd hrkey.symm hk
    · rintro ⟨r, hr, hrest⟩
      exact ⟨r, Lib.Table.mem_insert.2 (Or.inl hr), hrest⟩

theorem mem_update {lId : ℤ} {key value : String} {r : ConfigRow} (hkey : NulFree key)
    (hvalue : NulFree value) (hothers : ∀ r ∈ t.table.rows, (r.id : ℤ) ≠ lId → r.key ≠ key) :
    r ∈ (t.update lId key value).2.table.rows ↔
      ∃ r₁ ∈ t.table.rows, (if (r₁.id : ℤ) = lId then ⟨r₁.id, key, value⟩ else r₁) = r := by
  unfold update
  rw [dif_pos ⟨hkey, hvalue, hothers⟩]
  show r ∈ t.table.rows.map _ ↔ _
  rw [List.mem_map]
  simp only [decide_eq_true_eq]

theorem update_of_fits {key value : String} {r₀ : ConfigRow} (hrow : r₀ ∈ t.table.rows)
    (hr₀ : r₀.key = key) (hkey : NulFree key) (hvalue : NulFree value) :
    (t.update r₀.id key value).1 = true ∧
      (t.update r₀.id key value).2.toMap = Function.update t.toMap key (some value) := by
  have hothers : ∀ r ∈ t.table.rows, (r.id : ℤ) ≠ r₀.id → r.key ≠ key := by
    intro r hr hid hrkey
    exact hid (by rw [t.unique r hr r₀ hrow (hrkey.trans hr₀.symm)])
  constructor
  · unfold update
    rw [dif_pos ⟨hkey, hvalue, hothers⟩]
  funext k
  refine Option.ext fun v => ?_
  rw [toMap_eq_some]
  by_cases hk : k = key
  · rw [hk, Function.update_self, Option.some.injEq]
    constructor
    · rintro ⟨r, hr, hrkey, hrvalue⟩
      obtain ⟨r₁, h₁, rfl⟩ := (mem_update hkey hvalue hothers).1 hr
      by_cases hid : (r₁.id : ℤ) = r₀.id
      · rw [if_pos hid] at hrvalue
        exact hrvalue
      · rw [if_neg hid] at hrkey
        exact absurd hrkey (hothers r₁ h₁ hid)
    · rintro rfl
      exact ⟨⟨r₀.id, key, value⟩, (mem_update hkey hvalue hothers).2 ⟨r₀, hrow, if_pos rfl⟩, rfl, rfl⟩
  · rw [Function.update_of_ne hk, toMap_eq_some]
    constructor
    · rintro ⟨r, hr, hrkey, hrvalue⟩
      obtain ⟨r₁, h₁, rfl⟩ := (mem_update hkey hvalue hothers).1 hr
      by_cases hid : (r₁.id : ℤ) = r₀.id
      · rw [if_pos hid] at hrkey
        exact absurd hrkey.symm hk
      · rw [if_neg hid] at hrkey hrvalue
        exact ⟨r₁, h₁, hrkey, hrvalue⟩
    · rintro ⟨r, hr, hrkey, hrvalue⟩
      have hid : (r.id : ℤ) ≠ r₀.id := by
        intro hid
        have : r = r₀ := t.table.eq_of_key_eq hr hrow (by omega)
        exact hk (by rw [← hrkey, this, hr₀])
      exact ⟨r, (mem_update hkey hvalue hothers).2 ⟨r, hr, if_neg hid⟩, hrkey, hrvalue⟩

/-- Whole texts are stored under the key, in a new row or in its row. -/
theorem set_of_fits (hkey : NulFree strKey) (hvalue : NulFree strValue) :
    (t.set strKey strValue).1 = true ∧
      (t.set strKey strValue).2.toMap = Function.update t.toMap strKey (some strValue.1) := by
  unfold set query
  rw [if_pos hkey]
  cases hrows : t.table.rows.filter fun r => decide (r.key = strKey.1) with
  | nil =>
    have habsent : ∀ r ∈ t.table.rows, r.key ≠ strKey := by
      intro r hr hrkey
      exact List.filter_eq_nil_iff.1 hrows r hr (decide_eq_true hrkey)
    rcases insert_of_fits hkey hvalue habsent with ⟨hid, hmap⟩
    dsimp only
    rw [if_pos rfl]
    refine ⟨?_, hmap⟩
    rw [hid]
    exact decide_eq_true (Int.natCast_pos.2 t.positive)
  | cons r rest =>
    have hr : r ∈ t.table.rows.filter fun r => decide (r.key = strKey.1) := by
      rw [hrows]
      exact List.mem_cons_self
    rw [List.mem_filter] at hr
    dsimp only
    rw [if_neg (by omega)]
    exact update_of_fits hr.1 (of_decide_eq_true hr.2) hkey hvalue

/-- A text with a NUL leaves the table as it was. -/
theorem set_of_cut (h : ¬ (NulFree strKey ∧ NulFree strValue)) :
    t.set strKey strValue = (false, t) := by
  have hinsert : t.insert strKey strValue = (-1, t) := dif_neg fun hall => h ⟨hall.1, hall.2.1⟩
  have hupdate : ∀ lId, t.update lId strKey strValue = (false, t) :=
    fun lId => dif_neg fun hall => h ⟨hall.1, hall.2.1⟩
  unfold set
  generalize t.query strKey _ = pCursor
  dsimp only
  by_cases hid : (match pCursor with
      | some (r :: _) => (r.id : ℤ)
      | _ => -1) = -1
  · rw [if_pos hid, hinsert]
    rfl
  · rw [if_neg hid]
    exact hupdate _

theorem remove_toMap (t : LocalConfigTable) {key : String} (hkey : NulFree key)
    (selects : ConfigRow → Bool) (k : String) :
    (t.remove key selects).2.toMap k =
      if ∃ r ∈ t.table.rows, r.key = k ∧ selects r = true then none else t.toMap k := by
  unfold remove
  rw [if_pos hkey]
  refine Option.ext fun v => ?_
  rw [toMap_eq_some]
  by_cases hsel : ∃ r ∈ t.table.rows, r.key = k ∧ selects r = true
  · -- the one row with this key is gone
    rw [if_pos hsel]
    rcases hsel with ⟨r, hr, hrkey, hselects⟩
    refine iff_of_false ?_ (by simp)
    rintro ⟨r', hr', hrkey', -⟩
    rcases Lib.Table.mem_remove.1 hr' with ⟨hold, hkept⟩
    rw [t.unique r' hold r hr (hrkey'.trans hrkey.symm), hselects] at hkept
    cases hkept
  · rw [if_neg hsel, toMap_eq_some]
    constructor
    · rintro ⟨r, hr, hrest⟩
      exact ⟨r, (Lib.Table.mem_remove.1 hr).1, hrest⟩
    · rintro ⟨r, hr, hrkey, hrvalue⟩
      refine ⟨r, Lib.Table.mem_remove.2 ⟨hr, ?_⟩, hrkey, hrvalue⟩
      exact Bool.eq_false_iff.2 fun hselects => hsel ⟨r, hr, hrkey, hselects⟩

theorem remove_key_toMap (t : LocalConfigTable) (strKey : Unquoted) :
    (t.remove strKey fun r => r.key = strKey.1).2.toMap =
      Function.update t.toMap strKey none := by
  by_cases hkey : NulFree strKey
  · funext k
    rw [remove_toMap t hkey]
    by_cases hk : k = strKey
    · subst hk
      rw [Function.update_self]
      by_cases hsome : ∃ r ∈ t.table.rows, r.key = strKey.1 ∧ decide (r.key = strKey.1) = true
      · rw [if_pos hsome]
      · rw [if_neg hsome, toMap_eq_none]
        intro r hr hrkey
        exact hsome ⟨r, hr, hrkey, decide_eq_true hrkey⟩
    · rw [Function.update_of_ne hk, if_neg]
      rintro ⟨r, -, hrkey, hselects⟩
      exact hk (hrkey.symm.trans (of_decide_eq_true hselects))
  · -- the statement fails, and there is no such key
    have hsame : t.remove strKey (fun r => r.key = strKey.1) = (false, t) := if_neg hkey
    rw [hsame]
    funext k
    by_cases hk : k = strKey
    · subst hk
      rw [Function.update_self, toMap_of_not_nulFree hkey]
    · rw [Function.update_of_ne hk]

/-! ## The operations with `LIKE` -/

theorem likeKey_of_startsWith {key : String} {r : ConfigRow}
    (h : ConfigMap.StartsWith key r.key) : likeKey key r = true :=
  Lib.like_append_many_of_prefix h

/-- A stored key that starts with the text shows that the text is whole. -/
theorem nulFree_of_startsWith {key : String} {r : ConfigRow} (hr : r ∈ t.table.rows)
    (h : ConfigMap.StartsWith key r.key) : NulFree key :=
  fun hnul => (t.whole r hr).1 (List.IsPrefix.subset h hnul)

theorem takes_of_startsWith {key : String} {r : ConfigRow} (hr : r ∈ t.table.rows)
    (h : ConfigMap.StartsWith key r.key) : takes key r = true := by
  unfold takes
  rw [decide_eq_true (nulFree_of_startsWith hr h), likeKey_of_startsWith h]
  rfl

theorem mem_others {key : String} {r : ConfigRow} :
    r ∈ t.others key ↔ r ∈ t.table.rows ∧ takes key r = true ∧ ¬ ConfigMap.StartsWith key r.key := by
  unfold others
  rw [List.mem_filter, Bool.and_eq_true, Bool.not_eq_true', decide_eq_false_iff_not]

/-- Where the text has no wildcards, a key is taken when it starts with the text but for the case
of letters. -/
theorem takes_iff_of_literal {key : String} (hkey : NulFree key)
    (hliteral : sqliteLike.Literal key.toList) {r : ConfigRow} :
    takes key r = true ↔
      key.toList.map Char.toLower <+: r.key.toList.map Char.toLower := by
  unfold takes
  rw [decide_eq_true hkey, Bool.true_and]
  exact Lib.like_append_many_iff_of_literal hliteral

theorem removeStarting_apply (key k : String) :
    t.toMap.removeStarting key k =
      if ∃ r ∈ t.table.rows, r.key = k ∧ ConfigMap.StartsWith key r.key then none
      else t.toMap k := by
  unfold ConfigMap.removeStarting
  by_cases hstarts : ConfigMap.StartsWith key k
  · rw [if_pos hstarts]
    by_cases hsome : ∃ r ∈ t.table.rows, r.key = k ∧ ConfigMap.StartsWith key r.key
    · rw [if_pos hsome]
    · rw [if_neg hsome, eq_comm, toMap_eq_none]
      rintro r hr rfl
      exact hsome ⟨r, hr, rfl, hstarts⟩
  · rw [if_neg hstarts, if_neg]
    rintro ⟨r, -, rfl, h⟩
    exact hstarts h

/-- The rows with the keys that start with the text are removed, and no others iff the pattern
takes no others. -/
theorem remove_like_toMap_iff (t : LocalConfigTable) (strKey : Unquoted) :
    (t.remove strKey (likeKey strKey)).2.toMap = t.toMap.removeStarting strKey ↔
      t.others strKey = [] := by
  rw [List.eq_nil_iff_forall_not_mem]
  by_cases hkey : NulFree strKey
  · constructor
    · intro hmap r hother
      rcases mem_others.1 hother with ⟨hr, htakes, hstarts⟩
      have hlike : likeKey strKey r = true := (Bool.and_eq_true_iff.1 htakes).2
      have hat : (t.remove strKey (likeKey strKey)).2.toMap r.key =
          t.toMap.removeStarting strKey r.key := by rw [hmap]
      rw [remove_toMap t hkey, if_pos ⟨r, hr, rfl, hlike⟩, ConfigMap.removeStarting,
        if_neg hstarts, eq_comm, toMap_eq_none] at hat
      exact hat r hr rfl
    · intro hnone
      funext k
      rw [remove_toMap t hkey, removeStarting_apply]
      refine if_congr ?_ rfl rfl
      constructor
      · rintro ⟨r, hr, hrkey, hlike⟩
        by_cases hstarts : ConfigMap.StartsWith strKey r.key
        · exact ⟨r, hr, hrkey, hstarts⟩
        · have htakes : takes strKey r = true := by
            unfold takes
            rw [decide_eq_true hkey, hlike]
            rfl
          exact absurd (mem_others.2 ⟨hr, htakes, hstarts⟩) (hnone r)
      · rintro ⟨r, hr, hrkey, hstarts⟩
        exact ⟨r, hr, hrkey, likeKey_of_startsWith hstarts⟩
  · -- the statement fails, and no key starts so
    have hsame : t.remove strKey (likeKey strKey) = (false, t) := if_neg hkey
    rw [hsame]
    refine iff_of_true ?_ ?_
    · funext k
      rw [removeStarting_apply, if_neg]
      rintro ⟨r, hr, -, hstarts⟩
      exact hkey (nulFree_of_startsWith hr hstarts)
    · intro r hother
      have htakes := (mem_others.1 hother).2.1
      unfold takes at htakes
      rw [decide_eq_false hkey] at htakes
      cases htakes

theorem countStarting_toMap (t : LocalConfigTable) (key : String) :
    t.toMap.countStarting key = (t.starting key).length := by
  have hset : {k | (t.toMap k).isSome = true ∧ ConfigMap.StartsWith key k} =
      (((t.starting key).map ConfigRow.key).toFinset : Set String) := by
    ext k
    rw [List.coe_toFinset, Set.mem_ofPred_eq, Set.mem_ofPred_eq, List.mem_map,
      Option.isSome_iff_exists]
    constructor
    · rintro ⟨⟨v, hv⟩, hstarts⟩
      rcases toMap_eq_some.1 hv with ⟨r, hr, rfl, -⟩
      exact ⟨r, List.mem_filter.2 ⟨hr, decide_eq_true hstarts⟩, rfl⟩
    · rintro ⟨r, hr, rfl⟩
      rcases List.mem_filter.1 hr with ⟨hrow, hstarts⟩
      exact ⟨⟨r.value, toMap_eq_some.2 ⟨r, hrow, rfl, rfl⟩⟩, of_decide_eq_true hstarts⟩
  have hnodup : ((t.starting key).map ConfigRow.key).Nodup := by
    refine List.Nodup.map_on ?_ (t.table.nodup_rows.filter _)
    intro r hr r' hr' hrkey
    exact t.unique r (List.mem_of_mem_filter hr) r' (List.mem_of_mem_filter hr') hrkey
  unfold ConfigMap.countStarting
  rw [hset, Set.ncard_coe_finset, List.toFinset_card_of_nodup hnodup, List.length_map]

/-- The rows that are taken: those that start with the text, and the others. -/
theorem length_taken (t : LocalConfigTable) (key : String) :
    (t.table.rows.filter (takes key)).length = (t.starting key).length + (t.others key).length := by
  have hsplit : ∀ rows : List ConfigRow, (∀ r ∈ rows, r ∈ t.table.rows) →
      (rows.filter (takes key)).length =
        (rows.filter fun r => decide (ConfigMap.StartsWith key r.key)).length +
          (rows.filter fun r => takes key r && !decide (ConfigMap.StartsWith key r.key)).length := by
    -- one row after the other; a row whose key starts with the text is taken
    intro rows hrows
    induction rows with
    | nil => rfl
    | cons r rows ih =>
      have hrest := ih fun r' hr' => hrows r' (List.mem_cons_of_mem r hr')
      have htakes := @takes_of_startsWith t key r (hrows r List.mem_cons_self)
      by_cases hstarts : ConfigMap.StartsWith key r.key
      · simp only [List.filter_cons, htakes hstarts, hstarts, decide_true, if_true, Bool.not_true,
          Bool.and_false, Bool.false_eq_true, if_false, List.length_cons]
        omega
      · cases ht : takes key r <;>
          simp only [List.filter_cons, ht, hstarts, decide_false, if_true, Bool.not_false,
            Bool.and_true, Bool.false_eq_true, if_false, List.length_cons] <;> omega
  exact hsplit t.table.rows fun r hr => hr

/-- The number that comes back: of the rows that are taken, in 32 bits. -/
theorem countRowsStartsWithKey_eq (t : LocalConfigTable) (strKey : Unquoted) :
    t.countRowsStartsWithKey strKey =
      Lib.toInt32 (((t.starting strKey).length : ℤ) + ((t.others strKey).length : ℤ)) := by
  have hcount : t.countRowsStartsWithKey strKey =
      Lib.toInt32 ((t.table.rows.filter (takes strKey)).length : ℤ) := by
    unfold countRowsStartsWithKey query takes
    by_cases hkey : NulFree strKey
    · rw [if_pos hkey, decide_eq_true hkey]
      rfl
    · have hnone : (t.table.rows.filter fun r => false && likeKey strKey r) = [] :=
        List.filter_eq_nil_iff.2 fun r _ h => by cases h
      rw [if_neg hkey, decide_eq_false hkey, hnone]
      rfl
  rw [hcount, length_taken t strKey]
  push_cast
  rfl

theorem countRowsStartsWithKey_eq_iff (t : LocalConfigTable) (strKey : Unquoted) :
    t.countRowsStartsWithKey strKey = (t.toMap.countStarting strKey : ℤ) ↔
      2 ^ 32 ∣ (t.others strKey).length ∧ (t.starting strKey).length < 2 ^ 31 := by
  rw [countRowsStartsWithKey_eq, countStarting_toMap, Lib.toInt32_add_eq_iff]
  exact and_comm

end LocalConfigTable

/-! ## Runs -/

namespace LocalConfigRun

/-- Every run gets through. -/
theorem exec_isSome (s : LocalConfigRun) (calls : List ConfigCall) :
    ∃ s', Lib.exec next s calls = some s' := by
  have henabled : ∀ (s : LocalConfigRun) (c : ConfigCall), (next s c).isSome = true ↔ True :=
    fun _ _ => iff_of_true rfl trivial
  have htotal := (@Lib.exec_isSome_iff _ _ next (fun _ => True) henabled s calls).2
    fun _ _ => trivial
  exact Option.isSome_iff_exists.1 htotal

theorem agrees_start (t : LocalConfigTable) : (start t).Agrees := ⟨rfl, by simp [start]⟩

/-- After a call the two agree when the table and the new reply are those of the map. -/
theorem agrees_append_iff {s s' : LocalConfigRun} {c : ConfigCall} (h : s.Agrees)
    (hnext : next s c = some s') :
    s'.Agrees ↔ (s.table.call c).2.toMap = s.map.apply c ∧
      ∀ expected, s.map.reply c = some expected → (s.table.call c).1 = expected := by
  cases hnext
  constructor
  · intro h'
    exact ⟨h'.map, h'.replies _ (List.mem_append_right _ List.mem_cons_self)⟩
  · rintro ⟨hmap, hreply⟩
    refine ⟨hmap, fun r hr => ?_⟩
    rcases List.mem_append.1 hr with hold | hnew
    · exact h.replies r hold
    · rw [List.mem_singleton] at hnew
      rw [hnew]
      exact hreply

/-- The step lemma: a call keeps the table and the map together iff it fits. -/
theorem agrees_next_iff {s s' : LocalConfigRun} {c : ConfigCall} (h : s.Agrees)
    (hnext : next s c = some s') : s'.Agrees ↔ c.Fits s.table := by
  rw [agrees_append_iff h hnext, ← h.map]
  cases c with
  | set strKey strValue =>
    show (s.table.set strKey strValue).2.toMap = Function.update s.table.toMap strKey _ ∧ _ ↔ _
    constructor
    · rintro ⟨hmap, -⟩
      have hstored : (s.table.set strKey strValue).2.toMap strKey = some strValue.1 := by
        rw [hmap, Function.update_self]
      -- a text with a NUL is never stored, so one that is there is whole
      exact LocalConfigTable.nulFree_of_toMap_eq_some hstored
    · rintro ⟨hkey, hvalue⟩
      exact ⟨(LocalConfigTable.set_of_fits hkey hvalue).2, nofun⟩
  | get strKey =>
    refine iff_of_true ⟨rfl, ?_⟩ trivial
    rintro _ ⟨⟩
    exact congrArg ConfigReply.value LocalConfigTable.get_eq
  | remove strKey =>
    exact iff_of_true ⟨LocalConfigTable.remove_key_toMap s.table strKey, nofun⟩ trivial
  | removeRowsStartsWithKey strKey =>
    rw [and_iff_left (show ∀ expected, _ → _ from nofun)]
    exact LocalConfigTable.remove_like_toMap_iff s.table strKey
  | countRowsStartsWithKey strKey =>
    refine Iff.trans ?_ (LocalConfigTable.countRowsStartsWithKey_eq_iff s.table strKey)
    constructor
    · rintro ⟨-, hreply⟩
      exact ConfigReply.number.inj (hreply _ rfl)
    · intro hcount
      refine ⟨rfl, ?_⟩
      rintro _ ⟨⟩
      exact congrArg ConfigReply.number hcount

/-- From any table and through any calls, the code is the map all the way iff every call fits. -/
theorem local_config_refines_iff (t : LocalConfigTable) (calls : List ConfigCall) :
    (∃ s, Lib.exec next (start t) calls = some s) ∧
      (Lib.Along next (fun s c => c.Fits s.table) (start t) calls ↔
        ∀ pre, pre <+: calls → ∀ s, Lib.exec next (start t) pre = some s → s.Agrees) := by
  rcases exec_isSome (start t) calls with ⟨s, hrun⟩
  refine ⟨⟨s, hrun⟩, ?_⟩
  exact Lib.along_iff (fun s c s' => agrees_next_iff) calls (start t) s (agrees_start t) hrun

/-- Keys that differ in their case: the removal of one takes the other. -/
theorem remove_takes_other_case : ∃ s,
    Lib.exec next (start LocalConfigTable.empty)
      [.set ⟨"trip", by decide⟩ ⟨"1", by decide⟩, .set ⟨"TRIP", by decide⟩ ⟨"2", by decide⟩,
        .removeRowsStartsWithKey ⟨"trip", by decide⟩, .get ⟨"TRIP", by decide⟩] = some s ∧
      ¬ s.Agrees := by
  refine ⟨_, rfl, fun h => ?_⟩
  have hget := h.replies (.value "", some (.value "2")) (by decide +kernel) (.value "2") rfl
  exact absurd hget (by decide)

end LocalConfigRun

end DeviceClient
