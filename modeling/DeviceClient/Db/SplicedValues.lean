import DeviceClient.Db.SettingsTable
import DeviceClient.Lib.KeyedList
import DeviceClient.Lib.QuotedText
import DeviceClient.Util.JsonWriter
import Mathlib.Data.List.Forall2

/-!
# Values in statements

`CDatabase::Insert` and `Update` put the texts of the values between single quotes into the
statement, as they are. SQLite reads a literal to its first quote that is not doubled, and
the statement to its first NUL.

What is documented of SQLite is taken for statements whose values are literals; what it
makes of any other text is open.

* `InsertRoundTrip`, `UpdateRoundTrip`: what is expected of the two.
* `Frame.cStr_text_of_plain`: values that are literals as they are.
* `Frame.plain_of_text`: a statement of literals that give the values back has no others.
-/

namespace DeviceClient

/-! ## Content values -/

/-- A value that `Put` takes. -/
inductive ContentValue where
  | integer (n : ℤ)
  | real (q : ℚ)
  | string (text : String)
  | bool (b : Bool)

/-- What `Put` assigns to the member. -/
def ContentValue.json : ContentValue → JsonValue
  | .integer n => .int n
  | .real q => .real q
  | .string text => .string text
  | .bool b => .boolean b

/-- `CContentValues`: a JSON object. -/
structure ContentValues where
  m_jsonData : List (String × ContentValue)
  ascending : Lib.Ascending m_jsonData

namespace ContentValues

def empty : ContentValues := ⟨[], Lib.ascending_nil⟩

def put (strKey : String) (value : ContentValue) (values : ContentValues) : ContentValues :=
  ⟨Lib.setKey strKey value values.m_jsonData, Lib.ascending_setKey strKey value values.ascending⟩

def getKeys (values : ContentValues) : List String := values.m_jsonData.map Prod.fst

/-- `GetAsString`; `valueToString` is the text of a double. -/
def getAsString (valueToString : ℚ → String) (values : ContentValues) (strKey strDef : String) :
    String :=
  match values.m_jsonData.lookup strKey with
  | none => strDef
  | some value => (value.json.asString valueToString).getD ""

/-- The columns with their texts. -/
def texts (valueToString : ℚ → String) (values : ContentValues) : List (String × String) :=
  values.getKeys.map fun key => (key, values.getAsString valueToString key "")

theorem keys_texts (valueToString : ℚ → String) (values : ContentValues) :
    (values.texts valueToString).map Prod.fst = values.getKeys := by
  unfold texts
  rw [List.map_map]
  exact List.map_id'' (fun key => rfl) _

end ContentValues

namespace SqlText

/-! ## Statements -/

/-- What the library sees of `c_str()`. -/
def cStr (text : List Char) : List Char := text.takeWhile (· ≠ '\x00')

/-- The items with a separator behind each, cut by the length of the last one. -/
def joined (items : List (List Char)) : List Char :=
  let text := items.flatMap (· ++ ", ".toList)
  text.take (text.length - 2)

/-- A text between quotes, as the statements have it. -/
def asItIs (text : List Char) : List Char := '\x27' :: (text ++ ['\x27'])

/-- A literal. -/
def literal (text : List Char) : List Char := Lib.quoted '\x27' text

/-- `INSERT INTO … (…) VALUES (…);`, with the texts made literals by `quote`. -/
def insertText (quote : List Char → List Char) (strTable : String) (columns texts : List String) :
    List Char :=
  "INSERT INTO ".toList ++ strTable.toList ++ " (".toList ++ joined (columns.map String.toList) ++
    ") VALUES (".toList ++ joined (texts.map fun text => quote text.toList) ++ ");".toList

/-- `UPDATE … SET … WHERE …;`. -/
def updateText (quote : List Char → List Char) (strTable : String) (columns texts : List String)
    (rstrSelection : String) : List Char :=
  "UPDATE ".toList ++ strTable.toList ++ " SET ".toList ++
    joined (List.zipWith (fun column text => column.toList ++ " = ".toList ++ quote text.toList)
      columns texts) ++
    (if rstrSelection = "" then [] else " WHERE ".toList ++ rstrSelection.toList) ++ ";".toList

/-! ## SQLite -/

/-- A row, as the texts that its columns give back; `none` is NULL. -/
abbrev SqlRow := String → Option String

/-- The row with the texts in the columns. -/
def withTexts (texts : List (String × String)) (row : SqlRow) : SqlRow :=
  fun column => (texts.lookup column).or (row column)

/-- A table: what a column gives back of a literal that is put into it (a column of numbers
turns the text of a number into that number), the columns of a new row, the number of a row,
which rows an expression selects, and which rows the constraints allow. -/
structure SqlTable where
  stored : String → String → String
  converts : ∀ column text, stored column text = text ∨ '\x27' ∉ (stored column text).toList
  newRow : List SqlRow → SqlRow
  rowId : SqlRow → ℤ
  selects : String → SqlRow → Bool
  selectsAll : ∀ row, selects "" row = true
  permits : List SqlRow → Bool

namespace SqlTable

/-- The row with the literals put into the columns. -/
def assign (table : SqlTable) (literals : List (String × String)) (row : SqlRow) : SqlRow :=
  fun column => ((literals.lookup column).map (table.stored column)).or (row column)

/-- A statement that breaks a constraint fails and changes nothing. -/
def checked (table : SqlTable) (rows rows' : List SqlRow) : Bool × List SqlRow :=
  if table.permits rows' then (true, rows') else (false, rows)

theorem checked_of_permits {table : SqlTable} {rows rows' : List SqlRow}
    (h : table.permits rows' = true) : table.checked rows rows' = (true, rows') := if_pos h

/-- The rows that an expression selects, changed. -/
def mapSelected (table : SqlTable) (rstrSelection : String) (set : SqlRow → SqlRow)
    (rows : List SqlRow) : List SqlRow :=
  rows.map fun row => if table.selects rstrSelection row then set row else row

end SqlTable

/-- `sqlite3_exec` on a text: whether it succeeds, and the rows. -/
abbrev SqlExec := List Char → List SqlRow → Bool × List SqlRow

/-- A call of `Insert` or `Update`; the names of the table and of its columns, and the
selection, have no NUL. -/
structure ValuesCall where
  strTable : String
  pData : ContentValues
  rstrSelection : String
  tableWhole : '\x00' ∉ strTable.toList
  columnsWhole : ∀ key ∈ pData.getKeys, '\x00' ∉ key.toList
  selectionWhole : '\x00' ∉ rstrSelection.toList

/-- Texts for the columns of the call that a statement can have as literals. -/
def Literals (call : ValuesCall) (texts : List String) : Prop :=
  texts.length = call.pData.getKeys.length ∧ texts ≠ [] ∧ ∀ text ∈ texts, '\x00' ∉ text.toList

/-- What is documented of statements whose values are literals, on the table, the columns and
the selection of the call. -/
structure Documented (table : SqlTable) (call : ValuesCall) (exec : SqlExec) : Prop where
  insert : ∀ texts, Literals call texts → ∀ rows,
    exec (insertText literal call.strTable call.pData.getKeys texts) rows =
      table.checked rows
        (rows ++ [table.assign (call.pData.getKeys.zip texts) (table.newRow rows)])
  update : ∀ texts, Literals call texts → ∀ rows,
    exec (updateText literal call.strTable call.pData.getKeys texts call.rstrSelection) rows =
      table.checked rows (table.mapSelected call.rstrSelection
        (table.assign (call.pData.getKeys.zip texts)) rows)

/-! ## The operations -/

section

variable (table : SqlTable) (valueToString : ℚ → String) (exec : SqlExec) (call : ValuesCall)

/-- The texts of the values, in the order of the columns. -/
def ValuesCall.values : List String :=
  call.pData.getKeys.map fun key => call.pData.getAsString valueToString key ""

/-- `Insert`: the number of the last row, or -1. -/
def insert (rows : List SqlRow) : ℤ × List SqlRow :=
  let r := exec (cStr (insertText asItIs call.strTable call.pData.getKeys
    (call.values valueToString))) rows
  (if r.1 then (r.2.getLast?.map table.rowId).getD (-1) else -1, r.2)

/-- `Update`. -/
def update (rows : List SqlRow) : Bool × List SqlRow :=
  exec (cStr (updateText asItIs call.strTable call.pData.getKeys (call.values valueToString)
    call.rstrSelection)) rows

end

/-! ## The cursor -/

/-- A row of `CCursor`, put together column by column; a NULL makes no string. -/
def cursorRow (vecColumns : List String) (row : SqlRow) : Option (List (String × String)) :=
  vecColumns.foldlM (fun m column => (row column).map fun text => Lib.setKey column text m) []

/-- `CCursor::GetString` of a row. -/
def getString (vecColumns : List String) (nColIndex : ℕ) (row : SqlRow) : Option String :=
  (cursorRow vecColumns row).map fun m =>
    match vecColumns[nColIndex]? with
    | none => ""
    | some column => (m.lookup column).getD ""

/-- Read by a cursor, the other columns of which are not NULL, the row has the texts. -/
def GivesBack (texts : List (String × String)) (row : SqlRow) : Prop :=
  ∀ p ∈ texts, ∀ vecColumns nColIndex, vecColumns[nColIndex]? = some p.1 →
    (∀ column ∈ vecColumns, column ≠ p.1 → (row column).isSome) →
    getString vecColumns nColIndex row = some p.2

section

variable (table : SqlTable) (valueToString : ℚ → String) (call : ValuesCall)

/-- The constraints allow a new row with the values. -/
def AllowsInsert (rows : List SqlRow) : Prop :=
  table.permits (rows ++ [withTexts (call.pData.texts valueToString) (table.newRow rows)]) = true

/-- The constraints allow the values in the rows that are selected. -/
def AllowsUpdate (rows : List SqlRow) : Prop :=
  table.permits (table.mapSelected call.rstrSelection
    (withTexts (call.pData.texts valueToString)) rows) = true

/-- A row is inserted, and it gives the texts back. -/
def InsertRoundTrip (exec : SqlExec) : Prop :=
  ∀ rows, AllowsInsert table valueToString call rows → ∃ row,
    insert table valueToString exec call rows = (table.rowId row, rows ++ [row]) ∧
      GivesBack (call.pData.texts valueToString) row

/-- The rows that are selected give the texts back and keep their other columns; the others
stay as they are. -/
def UpdateRoundTrip (exec : SqlExec) : Prop :=
  ∀ rows, AllowsUpdate table valueToString call rows → ∃ set : SqlRow → SqlRow,
    update valueToString exec call rows =
        (true, table.mapSelected call.rstrSelection set rows) ∧
      ∀ row, GivesBack (call.pData.texts valueToString) (set row) ∧
        ∀ column, column ∉ call.pData.getKeys → set row column = row column

end

/-! ## Texts that end at a NUL -/

theorem cStr_append {a : List Char} (ha : '\x00' ∉ a) (b : List Char) :
    cStr (a ++ b) = a ++ cStr b := by
  have hall : ∀ c ∈ a, decide (c ≠ '\x00') = true := by
    intro c hc
    have hne : c ≠ '\x00' := fun h => ha (h ▸ hc)
    simpa using hne
  unfold cStr
  rw [List.takeWhile_append_of_pos hall]

theorem cStr_of_whole {a : List Char} (ha : '\x00' ∉ a) : cStr a = a := by
  rw [← List.append_nil a, cStr_append ha]
  rfl

theorem cStr_append_of_mem {a : List Char} (ha : '\x00' ∈ a) (b : List Char) :
    cStr (a ++ b) = cStr a := by
  induction a with
  | nil => cases ha
  | cons c a ih =>
    unfold cStr at ih ⊢
    rw [List.cons_append, List.takeWhile_cons, List.takeWhile_cons]
    by_cases hc : c = '\x00'
    · rw [if_neg (by simp [hc]), if_neg (by simp [hc])]
    · rw [if_pos (by simp [hc]), if_pos (by simp [hc]),
        ih ((List.mem_cons.1 ha).resolve_left fun h => hc h.symm)]

theorem cStr_cons_quote (a : List Char) : cStr ('\x27' :: a) = '\x27' :: cStr a := rfl

theorem head?_cStr {a : List Char} (h : a.head? ≠ some '\x27') : (cStr a).head? ≠ some '\x27' := by
  cases a with
  | nil => exact h
  | cons c a =>
    unfold cStr
    rw [List.takeWhile_cons]
    split
    · exact h
    · simp

/-! ## Literals of a statement -/

theorem joined_cons (item : List Char) (items : List (List Char)) :
    joined (item :: items) = item ++ items.flatMap (", ".toList ++ ·) := by
  have hrotate : ∀ items : List (List Char), ", ".toList ++ items.flatMap (· ++ ", ".toList) =
      items.flatMap (", ".toList ++ ·) ++ ", ".toList := by
    intro items
    induction items with
    | nil => rfl
    | cons item items ih =>
      rw [List.flatMap_cons, List.flatMap_cons, List.append_assoc item, ih]
      simp only [List.append_assoc]
  have hlength : ", ".toList.length = 2 := rfl
  unfold joined
  rw [List.flatMap_cons, List.append_assoc, hrotate, ← List.append_assoc]
  dsimp only
  generalize item ++ items.flatMap (", ".toList ++ ·) = text
  rw [List.length_append, hlength, Nat.add_sub_cancel, List.take_left]

/-- The text in front of each literal: the first with what is in front of all. -/
def pieces (opening : List Char) : List (List Char) → List (List Char)
  | [] => []
  | name :: names => (opening ++ name) :: names.map (", ".toList ++ ·)

theorem spliced_separated (quote : List Char → List Char) (names texts : List (List Char)) :
    (List.zipWith (fun name text => name ++ quote text) names texts).flatMap (", ".toList ++ ·) =
      Lib.spliced quote (names.map (", ".toList ++ ·)) texts := by
  induction names generalizing texts with
  | nil => rfl
  | cons name names ih =>
    cases texts with
    | nil => rfl
    | cons text texts =>
      rw [List.zipWith_cons_cons, List.flatMap_cons, ih, List.map_cons, Lib.spliced]
      simp only [List.append_assoc]

theorem append_joined (quote : List Char → List Char) (opening : List Char)
    {names texts : List (List Char)} (hlength : texts.length = names.length) (hne : texts ≠ []) :
    opening ++ joined (List.zipWith (fun name text => name ++ quote text) names texts) =
      Lib.spliced quote (pieces opening names) texts := by
  cases names with
  | nil => exact absurd (List.length_eq_zero_iff.1 hlength) hne
  | cons name names =>
    cases texts with
    | nil => exact absurd rfl hne
    | cons text texts =>
      rw [List.zipWith_cons_cons, joined_cons, spliced_separated, pieces, Lib.spliced]
      simp only [List.append_assoc]

theorem opening_pieces {opening : List Char} (hne : opening ≠ [])
    (hhead : opening.head? ≠ some '\x27') (names : List (List Char)) :
    Lib.Opening '\x27' (pieces opening names) := by
  intro piece hpiece
  cases names with
  | nil => cases hpiece
  | cons name names =>
    rcases List.mem_cons.1 hpiece with rfl | hpiece
    · cases opening with
      | nil => exact absurd rfl hne
      | cons c opening => exact ⟨by simp, hhead⟩
    · obtain ⟨n, -, rfl⟩ := List.mem_map.1 hpiece
      exact ⟨by simp, by simp⟩

theorem length_pieces (opening : List Char) (names : List (List Char)) :
    (pieces opening names).length = names.length := by
  cases names <;> simp [pieces]

theorem whole_pieces {opening : List Char} (hopening : '\x00' ∉ opening)
    {names : List (List Char)} (hnames : ∀ name ∈ names, '\x00' ∉ name) :
    ∀ piece ∈ pieces opening names, '\x00' ∉ piece := by
  intro piece hpiece
  cases names with
  | nil => cases hpiece
  | cons name names =>
    rcases List.mem_cons.1 hpiece with rfl | hpiece
    · exact fun hm => (List.mem_append.1 hm).elim hopening (hnames name List.mem_cons_self)
    · obtain ⟨n, hn, rfl⟩ := List.mem_map.1 hpiece
      exact fun hm => (List.mem_append.1 hm).elim (by decide)
        (hnames n (List.mem_cons_of_mem _ hn))

/-- A statement around its literals: the text in front of each of them, and what stands behind
the last. -/
structure Frame where
  head : List Char
  pieces : List (List Char)
  behind : List Char
  opening : Lib.Opening '\x27' pieces
  behindOpening : behind.head? ≠ some '\x27'
  headWhole : '\x00' ∉ head
  piecesWhole : ∀ piece ∈ pieces, '\x00' ∉ piece
  behindWhole : '\x00' ∉ behind

namespace Frame

def text (quote : List Char → List Char) (texts : List (List Char)) (frame : Frame) : List Char :=
  frame.head ++ (Lib.spliced quote frame.pieces texts ++ frame.behind)

/-- The literals of a statement are known from its text. -/
theorem text_literal_inj {frame : Frame} {texts texts' : List (List Char)}
    (hlength : texts.length = frame.pieces.length)
    (hlength' : texts'.length = frame.pieces.length)
    (h : frame.text literal texts = frame.text literal texts') : texts = texts' := by
  unfold text at h
  rw [List.append_cancel_left_eq] at h
  exact Lib.spliced_quoted_inj frame.opening hlength hlength' frame.behindOpening h

/-- Texts without quotes and without NUL are literals as they are. -/
theorem cStr_text_of_plain {frame : Frame} {texts : List (List Char)}
    (h : ∀ text ∈ texts, '\x27' ∉ text ∧ '\x00' ∉ text) :
    cStr (frame.text asItIs texts) = frame.text literal texts := by
  have hliteral : frame.text asItIs texts = frame.text literal texts := by
    have hquote : ∀ t ∈ texts, asItIs t = literal t :=
      fun t ht => (Lib.quoted_of_not_mem (h t ht).1).symm
    unfold text
    rw [Lib.spliced_congr frame.pieces hquote]
  have hspliced : '\x00' ∉ Lib.spliced asItIs frame.pieces texts := by
    refine Lib.not_mem_spliced frame.piecesWhole ?_
    intro t ht hmem
    have hnul := (h t ht).2
    simp [asItIs, hnul] at hmem
  rw [← hliteral]
  unfold text
  rw [cStr_append frame.headWhole, cStr_append hspliced, cStr_of_whole frame.behindWhole]

/-- What a value and the text of its literal have in common where the column gives back the
value. -/
def Given (text stored : List Char) : Prop :=
  '\x00' ∉ stored ∧ (text = stored ∨ '\x27' ∉ text)

theorem plain_of_spliced {pieces : List (List Char)} (hpieces : Lib.Opening '\x27' pieces)
    (hwhole : ∀ piece ∈ pieces, '\x00' ∉ piece) {texts texts' : List (List Char)}
    (hlength : texts.length = pieces.length) (hgiven : List.Forall₂ Given texts texts')
    {behind behind' : List Char} (hbehind : behind.head? ≠ some '\x27')
    (hbehind' : behind'.head? ≠ some '\x27')
    (h : cStr (Lib.spliced asItIs pieces texts ++ behind) =
      Lib.spliced literal pieces texts' ++ behind') :
    texts' = texts ∧ ∀ text ∈ texts, '\x27' ∉ text ∧ '\x00' ∉ text := by
  induction pieces generalizing texts texts' with
  | nil =>
    rw [List.length_eq_zero_iff.1 hlength] at hgiven ⊢
    cases hgiven
    exact ⟨rfl, fun text hmem => absurd hmem List.not_mem_nil⟩
  | cons piece pieces ih =>
    cases hgiven with
    | nil => cases hlength
    | @cons text stored texts texts' hgive hgiven =>
      have hrest := Lib.head?_spliced_ne asItIs hpieces.tail texts hbehind
      have hrest' := Lib.head?_spliced_ne literal hpieces.tail texts' hbehind'
      -- both have the quote behind the piece
      have htail : '\x27' :: cStr (text ++ '\x27' ::
          (Lib.spliced asItIs pieces texts ++ behind)) =
          Lib.quoted '\x27' stored ++ (Lib.spliced literal pieces texts' ++ behind') := by
        unfold Lib.spliced at h
        rw [List.append_assoc, cStr_append (hwhole piece List.mem_cons_self), List.append_assoc,
          List.append_assoc piece, List.append_cancel_left_eq, List.append_assoc] at h
        rw [← cStr_cons_quote]
        simpa only [asItIs, literal, List.cons_append, List.append_assoc, List.nil_append] using h
      by_cases hnul : '\x00' ∈ text
      · -- the statement ends in the middle of the text
        rw [cStr_append_of_mem hnul] at htail
        have hquote : '\x27' ∉ text := hgive.2.resolve_left fun heq => hgive.1 (heq ▸ hnul)
        have hcut : '\x27' ∉ cStr text := fun hmem => hquote (List.takeWhile_subset _ hmem)
        exact absurd htail.symm (Lib.quoted_append_ne hcut)
      · rw [cStr_append hnul, cStr_cons_quote] at htail
        have hquote : '\x27' ∉ text := by
          refine hgive.2.elim (fun heq => ?_) id
          rw [← heq] at htail
          exact Lib.not_mem_of_quoted_append (head?_cStr hrest) htail.symm
        have hliteral : Lib.quoted '\x27' text ++
            cStr (Lib.spliced asItIs pieces texts ++ behind) =
            Lib.quoted '\x27' stored ++ (Lib.spliced literal pieces texts' ++ behind') := by
          rw [Lib.quoted_of_not_mem hquote, ← htail]
          simp only [List.cons_append, List.append_assoc, List.nil_append]
        obtain ⟨hstored, hbehinds⟩ := Lib.quoted_append_inj (head?_cStr hrest) hrest' hliteral
        obtain ⟨hsame, hplain⟩ := ih hpieces.tail
          (fun p hp => hwhole p (List.mem_cons_of_mem _ hp)) (Nat.succ.inj hlength) hgiven hbehinds
        refine ⟨by rw [hsame, hstored], ?_⟩
        intro t ht
        rcases List.mem_cons.1 ht with rfl | ht
        · exact ⟨hquote, hnul⟩
        · exact hplain t ht

/-- A statement that is one of literals, the values of which come back, has the values as its
literals, and these have no quotes and no NUL. -/
theorem plain_of_text {frame : Frame} {texts texts' : List (List Char)}
    (hlength : texts.length = frame.pieces.length) (hgiven : List.Forall₂ Given texts texts')
    (h : cStr (frame.text asItIs texts) = frame.text literal texts') :
    texts' = texts ∧ ∀ text ∈ texts, '\x27' ∉ text ∧ '\x00' ∉ text := by
  unfold text at h
  rw [cStr_append frame.headWhole, List.append_cancel_left_eq] at h
  exact plain_of_spliced frame.opening frame.piecesWhole hlength hgiven frame.behindOpening
    frame.behindOpening h

end Frame

/-! ## The two statements -/

theorem whole_joined {items : List (List Char)} (h : ∀ item ∈ items, '\x00' ∉ item) :
    '\x00' ∉ joined items := by
  intro hmem
  obtain ⟨item, hitem, hc⟩ := List.mem_flatMap.1 (List.mem_of_mem_take hmem)
  exact (List.mem_append.1 hc).elim (h item hitem) (by decide)

section

variable (call : ValuesCall)

/-- What stands in front of the values in the `INSERT`. -/
def insertHead : List Char :=
  "INSERT INTO ".toList ++ call.strTable.toList ++ " (".toList ++
    joined (call.pData.getKeys.map String.toList) ++ ") VALUES ".toList

theorem whole_insertHead : '\x00' ∉ insertHead call := by
  have hcolumns : '\x00' ∉ joined (call.pData.getKeys.map String.toList) := by
    refine whole_joined fun item hitem => ?_
    obtain ⟨key, hkey, rfl⟩ := List.mem_map.1 hitem
    exact call.columnsWhole key hkey
  have htable := call.tableWhole
  unfold insertHead
  simp only [List.mem_append, not_or]
  exact ⟨⟨⟨⟨by decide, htable⟩, by decide⟩, hcolumns⟩, by decide⟩

def insertPieces : List (List Char) := pieces ['('] (call.pData.getKeys.map fun _ => [])

theorem opening_insertPieces : Lib.Opening '\x27' (insertPieces call) :=
  opening_pieces (by simp) (by simp) _

theorem whole_insertPieces : ∀ piece ∈ insertPieces call, '\x00' ∉ piece := by
  refine whole_pieces (by decide) fun name hname => ?_
  obtain ⟨key, -, rfl⟩ := List.mem_map.1 hname
  exact List.not_mem_nil

theorem insertBehind : ");".toList.head? ≠ some '\x27' ∧ '\x00' ∉ ");".toList := by decide

/-- The `INSERT` around its values. -/
def insertFrame : Frame where
  head := insertHead call
  pieces := insertPieces call
  behind := ");".toList
  opening := opening_insertPieces call
  behindOpening := insertBehind.1
  headWhole := whole_insertHead call
  piecesWhole := whole_insertPieces call
  behindWhole := insertBehind.2

theorem length_insertPieces : (insertFrame call).pieces.length = call.pData.getKeys.length := by
  show (insertPieces call).length = _
  unfold insertPieces
  rw [length_pieces, List.length_map]

/-- What stands in front of the values in the `UPDATE`. -/
def updateHead : List Char := "UPDATE ".toList ++ call.strTable.toList ++ " SET".toList

theorem whole_updateHead : '\x00' ∉ updateHead call := by
  have htable := call.tableWhole
  unfold updateHead
  simp only [List.mem_append, not_or]
  exact ⟨⟨by decide, htable⟩, by decide⟩

def updatePieces : List (List Char) :=
  pieces [' '] (call.pData.getKeys.map fun key => key.toList ++ " = ".toList)

theorem opening_updatePieces : Lib.Opening '\x27' (updatePieces call) :=
  opening_pieces (by simp) (by simp) _

theorem whole_updatePieces : ∀ piece ∈ updatePieces call, '\x00' ∉ piece := by
  refine whole_pieces (by decide) fun name hname => ?_
  obtain ⟨key, hkey, rfl⟩ := List.mem_map.1 hname
  exact fun hmem => (List.mem_append.1 hmem).elim (call.columnsWhole key hkey) (by decide)

/-- What stands behind the values in the `UPDATE`. -/
def updateBehind : List Char :=
  (if call.rstrSelection = "" then [] else " WHERE ".toList ++ call.rstrSelection.toList) ++
    ";".toList

theorem head?_updateBehind : (updateBehind call).head? ≠ some '\x27' := by
  unfold updateBehind
  split
  · decide
  · simp

theorem whole_updateBehind : '\x00' ∉ updateBehind call := by
  have hselection := call.selectionWhole
  unfold updateBehind
  rw [List.mem_append, not_or]
  refine ⟨?_, by decide⟩
  split
  · exact List.not_mem_nil
  · rw [List.mem_append, not_or]
    exact ⟨by decide, hselection⟩

/-- The `UPDATE` around its values. -/
def updateFrame : Frame where
  head := updateHead call
  pieces := updatePieces call
  behind := updateBehind call
  opening := opening_updatePieces call
  behindOpening := head?_updateBehind call
  headWhole := whole_updateHead call
  piecesWhole := whole_updatePieces call
  behindWhole := whole_updateBehind call

theorem length_updatePieces : (updateFrame call).pieces.length = call.pData.getKeys.length := by
  show (updatePieces call).length = _
  unfold updatePieces
  rw [length_pieces, List.length_map]

variable {call}

theorem insertText_eq (quote : List Char → List Char) {texts : List String}
    (hlength : texts.length = call.pData.getKeys.length) (hne : texts ≠ []) :
    insertText quote call.strTable call.pData.getKeys texts =
      (insertFrame call).text quote (texts.map String.toList) := by
  have hitems : ∀ {columns : List String} {texts : List String}, texts.length = columns.length →
      texts.map (fun text => quote text.toList) =
        List.zipWith (fun name text => name ++ quote text) (columns.map fun _ => [])
          (texts.map String.toList) := by
    intro columns
    induction columns with
    | nil =>
      intro texts hlength
      rw [List.length_eq_zero_iff.1 hlength]
      rfl
    | cons column columns ih =>
      intro texts hlength
      cases texts with
      | nil => cases hlength
      | cons text texts =>
        rw [List.map_cons, List.map_cons, List.map_cons, List.zipWith_cons_cons,
          ih (Nat.succ.inj hlength)]
        rfl
  have hsplit : ") VALUES (".toList = ") VALUES ".toList ++ ['('] := rfl
  show insertText quote call.strTable call.pData.getKeys texts =
    insertHead call ++ (Lib.spliced quote (insertPieces call) (texts.map String.toList) ++
      ");".toList)
  unfold insertPieces
  rw [← append_joined quote ['('] (by simpa using hlength) (by simpa using hne), ← hitems hlength]
  unfold insertText insertHead
  rw [hsplit]
  simp only [List.append_assoc]

theorem updateText_eq (quote : List Char → List Char) {texts : List String}
    (hlength : texts.length = call.pData.getKeys.length) (hne : texts ≠ []) :
    updateText quote call.strTable call.pData.getKeys texts call.rstrSelection =
      (updateFrame call).text quote (texts.map String.toList) := by
  have hitems : List.zipWith (fun column text => column.toList ++ " = ".toList ++ quote text.toList)
      call.pData.getKeys texts =
        List.zipWith (fun name text => name ++ quote text)
          (call.pData.getKeys.map fun key => key.toList ++ " = ".toList)
          (texts.map String.toList) := by
    rw [List.zipWith_map]
  have hsplit : " SET ".toList = " SET".toList ++ [' '] := rfl
  show updateText quote call.strTable call.pData.getKeys texts call.rstrSelection =
    updateHead call ++ (Lib.spliced quote (updatePieces call) (texts.map String.toList) ++
      updateBehind call)
  unfold updatePieces
  rw [← append_joined quote [' '] (by simpa using hlength) (by simpa using hne), ← hitems]
  unfold updateText updateHead updateBehind
  rw [hsplit]
  simp only [List.append_assoc]

theorem insertText_ne_updateText (quote : List Char → List Char) (texts texts' : List String) :
    insertText quote call.strTable call.pData.getKeys texts ≠
      updateText quote call.strTable call.pData.getKeys texts' call.rstrSelection := by
  intro h
  have hinsert : "INSERT INTO ".toList = 'I' :: "NSERT INTO ".toList := rfl
  have hupdate : "UPDATE ".toList = 'U' :: "PDATE ".toList := rfl
  unfold insertText updateText at h
  rw [hinsert, hupdate] at h
  simp only [List.cons_append] at h
  exact absurd (List.head_eq_of_cons_eq h) (by decide)

end

end SqlText

end DeviceClient
