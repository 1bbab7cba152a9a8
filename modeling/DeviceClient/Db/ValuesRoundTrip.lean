import DeviceClient.Db.SplicedValues

/-!
# Values that come back

Values that are put into a table by `Insert` and `Update`, and read by a cursor.

* `insertRoundTrip_of_kept`, `updateRoundTrip_of_kept`: what is enough for the values to come
  back.
* `literalExec`: what is documented of SQLite, and no more.
* `documented_roundTrip_iff`: where it follows from what is documented that they come back.
-/

namespace DeviceClient

namespace SqlText

/-! ## Reading a row back -/

theorem lookup_map_self {keys : List String} {f : String → String} {key : String}
    (h : key ∈ keys) : (keys.map fun k => (k, f k)).lookup key = some (f key) := by
  induction keys with
  | nil => cases h
  | cons k keys ih =>
    rw [List.map_cons, Lib.lookup_cons_ite]
    split
    · rename_i hk
      rw [hk]
    · rename_i hk
      exact ih ((List.mem_cons.1 h).resolve_left hk)

theorem cursorRow_eq_some {vecColumns : List String} {row : SqlRow}
    (h : ∀ column ∈ vecColumns, (row column).isSome) :
    ∃ m, cursorRow vecColumns row = some m ∧
      ∀ column ∈ vecColumns, m.lookup column = row column := by
  have hfold : ∀ (columns : List String) (m : List (String × String)),
      (∀ column ∈ columns, (row column).isSome) →
      ∃ m', columns.foldlM (fun m column => (row column).map fun text =>
          Lib.setKey column text m) m = some m' ∧
        ∀ column, m'.lookup column = if column ∈ columns then row column else m.lookup column := by
    intro columns
    induction columns with
    | nil =>
      intro m hcolumns
      exact ⟨m, rfl, fun column => by rw [if_neg List.not_mem_nil]⟩
    | cons c columns ih =>
      intro m hcolumns
      obtain ⟨text, htext⟩ := Option.isSome_iff_exists.1 (hcolumns c List.mem_cons_self)
      obtain ⟨m', hm', hlookup⟩ := ih (Lib.setKey c text m)
        fun column hc => hcolumns column (List.mem_cons_of_mem _ hc)
      refine ⟨m', ?_, ?_⟩
      · rw [List.foldlM_cons, htext]
        exact hm'
      · intro column
        rw [hlookup, Lib.lookup_setKey]
        by_cases hmem : column ∈ columns
        · rw [if_pos hmem, if_pos (List.mem_cons_of_mem _ hmem)]
        · rw [if_neg hmem]
          by_cases hc : column = c
          · rw [if_pos hc, hc, if_pos List.mem_cons_self, htext]
          · rw [if_neg hc, if_neg fun hm => (List.mem_cons.1 hm).elim hc hmem]
  obtain ⟨m, hm, hlookup⟩ := hfold vecColumns [] h
  refine ⟨m, hm, fun column hcolumn => ?_⟩
  rw [hlookup, if_pos hcolumn]

theorem getString_eq {vecColumns : List String} {nColIndex : ℕ} {column text : String}
    (hindex : vecColumns[nColIndex]? = some column) {row : SqlRow} (htext : row column = some text)
    (hothers : ∀ c ∈ vecColumns, c ≠ column → (row c).isSome) :
    getString vecColumns nColIndex row = some text := by
  have hall : ∀ c ∈ vecColumns, (row c).isSome := by
    intro c hc
    by_cases heq : c = column
    · rw [heq, htext]
      rfl
    · exact hothers c hc heq
  obtain ⟨m, hm, hlookup⟩ := cursorRow_eq_some hall
  unfold getString
  rw [hm, Option.map_some, hindex]
  dsimp only
  rw [hlookup column (List.mem_of_getElem? hindex), htext]
  rfl

theorem getString_singleton (column : String) (row : SqlRow) :
    getString [column] 0 row = row column := by
  cases htext : row column with
  | none =>
    unfold getString cursorRow
    rw [List.foldlM_cons, htext]
    rfl
  | some text =>
    refine getString_eq rfl htext fun c hc hne => ?_
    exact absurd (List.mem_singleton.1 hc) hne

theorem givesBack_iff (texts : List (String × String)) (row : SqlRow) :
    GivesBack texts row ↔ ∀ p ∈ texts, row p.1 = some p.2 := by
  constructor
  · intro h p hp
    have hread := h p hp [p.1] 0 rfl fun c hc hne => absurd (List.mem_singleton.1 hc) hne
    rwa [getString_singleton] at hread
  · intro h p hp vecColumns nColIndex hindex hothers
    exact getString_eq hindex (h p hp) hothers

/-! ## Values that come back -/

section

variable (table : SqlTable) (valueToString : ℚ → String) (call : ValuesCall)

/-- The values are literals as they are, and their columns give them back as they are. -/
def Kept : Prop :=
  ∀ p ∈ call.pData.texts valueToString, PlainText p.2 ∧ table.stored p.1 p.2 = p.2

theorem zip_values :
    call.pData.getKeys.zip (call.values valueToString) = call.pData.texts valueToString := by
  unfold ValuesCall.values ContentValues.texts
  rw [List.map_prod_left_eq_zip]

theorem length_values : (call.values valueToString).length = call.pData.getKeys.length := by
  unfold ValuesCall.values
  rw [List.length_map]

theorem values_ne_nil_iff :
    call.values valueToString ≠ [] ↔ call.pData.texts valueToString ≠ [] := by
  unfold ValuesCall.values ContentValues.texts
  rw [Ne, Ne, List.map_eq_nil_iff, List.map_eq_nil_iff]

theorem givesBack_withTexts (row : SqlRow) :
    GivesBack (call.pData.texts valueToString)
      (withTexts (call.pData.texts valueToString) row) := by
  rw [givesBack_iff]
  intro p hp
  obtain ⟨key, hkey, rfl⟩ := List.mem_map.1 hp
  unfold withTexts ContentValues.texts
  rw [lookup_map_self hkey]
  rfl

theorem lookup_texts_of_not_mem {column : String} (h : column ∉ call.pData.getKeys) :
    (call.pData.texts valueToString).lookup column = none := by
  cases hlookup : (call.pData.texts valueToString).lookup column with
  | none => rfl
  | some text =>
    have hmem := Lib.mem_keys_of_lookup hlookup
    rw [ContentValues.keys_texts] at hmem
    exact absurd hmem h

theorem withTexts_of_not_mem {column : String} (h : column ∉ call.pData.getKeys) (row : SqlRow) :
    withTexts (call.pData.texts valueToString) row column = row column := by
  unfold withTexts
  rw [lookup_texts_of_not_mem valueToString call h]
  rfl

variable {table valueToString call}

/-- Literals that their columns give back as they are. -/
theorem assign_of_kept (hkept : Kept table valueToString call) :
    table.assign (call.pData.texts valueToString) = withTexts (call.pData.texts valueToString) := by
  funext row column
  unfold SqlTable.assign withTexts
  by_cases hmem : column ∈ call.pData.getKeys
  · have hstored := (hkept _ (List.mem_map.2 ⟨column, hmem, rfl⟩)).2
    unfold ContentValues.texts
    rw [lookup_map_self hmem, Option.map_some, hstored]
  · rw [lookup_texts_of_not_mem valueToString call hmem]
    rfl

theorem plainText_of_kept (hkept : Kept table valueToString call) {text : String}
    (htext : text ∈ call.values valueToString) : PlainText text := by
  obtain ⟨key, hkey, rfl⟩ := List.mem_map.1 htext
  exact (hkept (key, _) (List.mem_map.2 ⟨key, hkey, rfl⟩)).1

theorem literals_of_kept (hne : call.pData.texts valueToString ≠ [])
    (hkept : Kept table valueToString call) : Literals call (call.values valueToString) :=
  ⟨length_values valueToString call, (values_ne_nil_iff valueToString call).2 hne,
    fun _ htext => (plainText_of_kept hkept htext).2⟩

theorem chars_of_kept (hkept : Kept table valueToString call) :
    ∀ text ∈ (call.values valueToString).map String.toList, '\x27' ∉ text ∧ '\x00' ∉ text := by
  intro text htext
  obtain ⟨t, ht, rfl⟩ := List.mem_map.1 htext
  exact plainText_of_kept hkept ht

/-- Values that are literals as they are, in columns that give them back, come back from a new
row. -/
theorem insertRoundTrip_of_kept {exec : SqlExec} (hexec : Documented table call exec)
    (hne : call.pData.texts valueToString ≠ []) (hkept : Kept table valueToString call) :
    InsertRoundTrip table valueToString call exec := by
  have hliterals := literals_of_kept hne hkept
  intro rows hallows
  refine ⟨withTexts (call.pData.texts valueToString) (table.newRow rows), ?_,
    givesBack_withTexts valueToString call _⟩
  unfold insert
  rw [insertText_eq _ hliterals.1 hliterals.2.1, Frame.cStr_text_of_plain (chars_of_kept hkept),
    ← insertText_eq _ hliterals.1 hliterals.2.1, hexec.insert _ hliterals, zip_values,
    assign_of_kept hkept, SqlTable.checked_of_permits hallows]
  simp

/-- And from the rows that are selected. -/
theorem updateRoundTrip_of_kept {exec : SqlExec} (hexec : Documented table call exec)
    (hne : call.pData.texts valueToString ≠ []) (hkept : Kept table valueToString call) :
    UpdateRoundTrip table valueToString call exec := by
  have hliterals := literals_of_kept hne hkept
  intro rows hallows
  refine ⟨withTexts (call.pData.texts valueToString), ?_, fun row =>
    ⟨givesBack_withTexts valueToString call row,
      fun column hcolumn => withTexts_of_not_mem valueToString call hcolumn row⟩⟩
  unfold update
  rw [updateText_eq _ hliterals.1 hliterals.2.1, Frame.cStr_text_of_plain (chars_of_kept hkept),
    ← updateText_eq _ hliterals.1 hliterals.2.1, hexec.update _ hliterals, zip_values,
    assign_of_kept hkept, SqlTable.checked_of_permits hallows]

/-! ## What is documented and no more -/

open Classical in
/-- The statements of literals, as documented; every other text fails. -/
noncomputable def literalExec (table : SqlTable) (call : ValuesCall) : SqlExec := fun sql rows =>
  if h : ∃ texts, Literals call texts ∧
      sql = insertText literal call.strTable call.pData.getKeys texts then
    table.checked rows
      (rows ++ [table.assign (call.pData.getKeys.zip h.choose) (table.newRow rows)])
  else if h : ∃ texts, Literals call texts ∧
      sql = updateText literal call.strTable call.pData.getKeys texts call.rstrSelection then
    table.checked rows (table.mapSelected call.rstrSelection
      (table.assign (call.pData.getKeys.zip h.choose)) rows)
  else (false, rows)

theorem toList_map_injective {texts texts' : List String}
    (h : texts.map String.toList = texts'.map String.toList) : texts = texts' :=
  List.map_injective_iff.2 (fun _ _ => String.toList_injective) h

theorem insertText_inj {texts texts' : List String} (h : Literals call texts)
    (h' : Literals call texts')
    (heq : insertText literal call.strTable call.pData.getKeys texts =
      insertText literal call.strTable call.pData.getKeys texts') : texts = texts' := by
  have hpieces := length_insertPieces call
  rw [insertText_eq _ h.1 h.2.1, insertText_eq _ h'.1 h'.2.1] at heq
  refine toList_map_injective (Frame.text_literal_inj ?_ ?_ heq)
  · rw [List.length_map, hpieces, h.1]
  · rw [List.length_map, hpieces, h'.1]

theorem updateText_inj {texts texts' : List String} (h : Literals call texts)
    (h' : Literals call texts')
    (heq : updateText literal call.strTable call.pData.getKeys texts call.rstrSelection =
      updateText literal call.strTable call.pData.getKeys texts' call.rstrSelection) :
    texts = texts' := by
  have hpieces := length_updatePieces call
  rw [updateText_eq _ h.1 h.2.1, updateText_eq _ h'.1 h'.2.1] at heq
  refine toList_map_injective (Frame.text_literal_inj ?_ ?_ heq)
  · rw [List.length_map, hpieces, h.1]
  · rw [List.length_map, hpieces, h'.1]

theorem documented_literalExec (table : SqlTable) (call : ValuesCall) :
    Documented table call (literalExec table call) := by
  constructor
  · intro texts hliterals rows
    have hex : ∃ texts', Literals call texts' ∧
        insertText literal call.strTable call.pData.getKeys texts =
          insertText literal call.strTable call.pData.getKeys texts' := ⟨texts, hliterals, rfl⟩
    have hsame : texts = hex.choose :=
      insertText_inj hliterals hex.choose_spec.1 hex.choose_spec.2
    unfold literalExec
    rw [dif_pos hex, ← hsame]
  · intro texts hliterals rows
    have hex : ∃ texts', Literals call texts' ∧
        updateText literal call.strTable call.pData.getKeys texts call.rstrSelection =
          updateText literal call.strTable call.pData.getKeys texts' call.rstrSelection :=
      ⟨texts, hliterals, rfl⟩
    have hsame : texts = hex.choose :=
      updateText_inj hliterals hex.choose_spec.1 hex.choose_spec.2
    have hinsert : ¬ ∃ texts', Literals call texts' ∧
        updateText literal call.strTable call.pData.getKeys texts call.rstrSelection =
          insertText literal call.strTable call.pData.getKeys texts' := by
      rintro ⟨texts', -, heq⟩
      exact insertText_ne_updateText literal texts' texts heq.symm
    unfold literalExec
    rw [dif_neg hinsert, dif_pos hex, ← hsame]

theorem literalExec_cases (table : SqlTable) (call : ValuesCall) (sql : List Char)
    (rows : List SqlRow) :
    (∃ texts, Literals call texts ∧
      sql = insertText literal call.strTable call.pData.getKeys texts ∧
      literalExec table call sql rows = table.checked rows
        (rows ++ [table.assign (call.pData.getKeys.zip texts) (table.newRow rows)])) ∨
    (∃ texts, Literals call texts ∧
      sql = updateText literal call.strTable call.pData.getKeys texts call.rstrSelection ∧
      literalExec table call sql rows = table.checked rows (table.mapSelected call.rstrSelection
        (table.assign (call.pData.getKeys.zip texts)) rows)) ∨
    literalExec table call sql rows = (false, rows) := by
  unfold literalExec
  split
  · rename_i hex
    exact Or.inl ⟨hex.choose, hex.choose_spec.1, hex.choose_spec.2, rfl⟩
  · split
    · rename_i hex
      exact Or.inr (Or.inl ⟨hex.choose, hex.choose_spec.1, hex.choose_spec.2, rfl⟩)
    · exact Or.inr (Or.inr rfl)

theorem SqlTable.length_mapSelected (table : SqlTable) (rstrSelection : String)
    (set : SqlRow → SqlRow) (rows : List SqlRow) :
    (table.mapSelected rstrSelection set rows).length = rows.length := List.length_map _

theorem SqlTable.checked_cases (table : SqlTable) (rows rows' : List SqlRow) :
    table.checked rows rows' = (true, rows') ∨ table.checked rows rows' = (false, rows) := by
  unfold SqlTable.checked
  split
  · exact Or.inl rfl
  · exact Or.inr rfl

/-- A row that is new is one of literals. -/
theorem literals_of_append {table : SqlTable} {sql : List Char} {rows : List SqlRow} {row : SqlRow}
    (h : (literalExec table call sql rows).2 = rows ++ [row]) : ∃ texts, Literals call texts ∧
      sql = insertText literal call.strTable call.pData.getKeys texts ∧
      row = table.assign (call.pData.getKeys.zip texts) (table.newRow rows) := by
  have hself : rows ≠ rows ++ [row] := by simp
  rcases literalExec_cases table call sql rows with
    ⟨texts, hliterals, hsql, hexec⟩ | ⟨texts, -, -, hexec⟩ | hexec
  · refine ⟨texts, hliterals, hsql, ?_⟩
    rcases table.checked_cases rows _ with hdone | hfailed
    · rw [hexec, hdone] at h
      exact (List.singleton_inj.1 (List.append_cancel_left h)).symm
    · rw [hexec, hfailed] at h
      exact absurd h hself
  · have hlength : (literalExec table call sql rows).2.length = rows.length := by
      rw [hexec]
      rcases table.checked_cases rows _ with hdone | hfailed
      · rw [hdone]
        exact table.length_mapSelected _ _ rows
      · rw [hfailed]
    rw [h, List.length_append, List.length_singleton] at hlength
    omega
  · rw [hexec] at h
    exact absurd h hself

/-- Rows that are changed are so by literals. -/
theorem literals_of_mapSelected {table : SqlTable} {sql : List Char} {rows : List SqlRow}
    {set : SqlRow → SqlRow}
    (h : literalExec table call sql rows = (true, table.mapSelected call.rstrSelection set rows)) :
    ∃ texts, Literals call texts ∧
      sql = updateText literal call.strTable call.pData.getKeys texts call.rstrSelection ∧
      table.mapSelected call.rstrSelection (table.assign (call.pData.getKeys.zip texts)) rows =
        table.mapSelected call.rstrSelection set rows := by
  rcases literalExec_cases table call sql rows with
    ⟨texts, -, -, hexec⟩ | ⟨texts, hliterals, hsql, hexec⟩ | hexec
  · rw [hexec] at h
    rcases table.checked_cases rows
      (rows ++ [table.assign (call.pData.getKeys.zip texts) (table.newRow rows)]) with
      hdone | hfailed
    · rw [hdone] at h
      have hlength := congrArg List.length (congrArg Prod.snd h)
      rw [table.length_mapSelected, List.length_append, List.length_singleton] at hlength
      omega
    · rw [hfailed] at h
      exact absurd (congrArg Prod.fst h) Bool.false_ne_true
  · refine ⟨texts, hliterals, hsql, ?_⟩
    rw [hexec] at h
    rcases table.checked_cases rows (table.mapSelected call.rstrSelection
      (table.assign (call.pData.getKeys.zip texts)) rows) with hdone | hfailed
    · rw [hdone] at h
      exact congrArg Prod.snd h
    · rw [hfailed] at h
      exact absurd (congrArg Prod.fst h) Bool.false_ne_true
  · rw [hexec] at h
    exact absurd (congrArg Prod.fst h) Bool.false_ne_true

/-! ## Where the values come back -/

/-- The literals that give the values back. -/
theorem stored_of_givesBack {texts : List String}
    (hlength : texts.length = call.pData.getKeys.length) {row : SqlRow}
    (h : GivesBack (call.pData.texts valueToString)
      (table.assign (call.pData.getKeys.zip texts) row)) {key text : String}
    (hmem : (key, text) ∈ call.pData.getKeys.zip texts) :
    table.stored key text = call.pData.getAsString valueToString key "" := by
  have hkeys : (call.pData.getKeys.zip texts).map Prod.fst = call.pData.getKeys :=
    List.map_fst_zip (Nat.le_of_eq hlength.symm)
  have hascending : Lib.Ascending (call.pData.getKeys.zip texts) := by
    unfold Lib.Ascending
    rw [hkeys]
    exact call.pData.ascending
  have hkey : key ∈ call.pData.getKeys := (List.of_mem_zip hmem).1
  have hrow := (givesBack_iff _ _).1 h _ (List.mem_map.2 ⟨key, hkey, rfl⟩)
  unfold SqlTable.assign at hrow
  rw [hascending.lookup_of_mem hmem] at hrow
  exact Option.some.inj hrow

/-- A statement of literals that give the values back has the values as its literals. -/
theorem kept_of_literals {frame : Frame} (hpieces : frame.pieces.length = call.pData.getKeys.length)
    {texts : List String} (hliterals : Literals call texts)
    (hsql : cStr (frame.text asItIs ((call.values valueToString).map String.toList)) =
      frame.text literal (texts.map String.toList)) {row : SqlRow}
    (hgives : GivesBack (call.pData.texts valueToString)
      (table.assign (call.pData.getKeys.zip texts) row)) : Kept table valueToString call := by
  obtain ⟨hlength, -, hwhole⟩ := hliterals
  have hvalues := length_values valueToString call
  have hstored := fun key text => @stored_of_givesBack _ _ _ _ hlength _ hgives key text
  have hgiven : List.Forall₂ Frame.Given ((call.values valueToString).map String.toList)
      (texts.map String.toList) := by
    unfold ValuesCall.values
    rw [List.forall₂_map_left_iff, List.forall₂_map_left_iff, List.forall₂_map_right_iff,
      List.forall₂_iff_zip]
    refine ⟨hlength.symm, fun {key text} hmem => ⟨hwhole text (List.of_mem_zip hmem).2, ?_⟩⟩
    rw [← hstored key text hmem]
    exact (table.converts key text).imp_left (congrArg String.toList)
  obtain ⟨hsame, hplain⟩ := Frame.plain_of_text (by rw [List.length_map, hvalues, hpieces])
    hgiven hsql
  have htexts : texts = call.values valueToString := toList_map_injective hsame
  intro p hp
  obtain ⟨key, hkey, rfl⟩ := List.mem_map.1 hp
  rw [← zip_values, ← htexts] at hp
  exact ⟨hplain _ (List.mem_map.2 ⟨_, List.mem_map.2 ⟨key, hkey, rfl⟩, rfl⟩), hstored _ _ hp⟩

theorem texts_ne_nil_of_literals {texts : List String} (hliterals : Literals call texts) :
    call.values valueToString ≠ [] ∧ call.pData.texts valueToString ≠ [] := by
  have hne : call.values valueToString ≠ [] := by
    intro hnil
    have hlength := length_values valueToString call
    rw [hnil, List.length_nil, ← hliterals.1] at hlength
    exact hliterals.2.1 (List.length_eq_zero_iff.1 hlength.symm)
  exact ⟨hne, (values_ne_nil_iff valueToString call).1 hne⟩

theorem kept_of_insertRoundTrip
    (h : InsertRoundTrip table valueToString call (literalExec table call)) {rows : List SqlRow}
    (hallows : AllowsInsert table valueToString call rows) :
    call.pData.texts valueToString ≠ [] ∧ Kept table valueToString call := by
  obtain ⟨row, hinsert, hgives⟩ := h rows hallows
  obtain ⟨texts, hliterals, hsql, hrow⟩ := literals_of_append (congrArg Prod.snd hinsert)
  obtain ⟨hvalues, htexts⟩ := @texts_ne_nil_of_literals valueToString call _ hliterals
  rw [insertText_eq _ (length_values valueToString call) hvalues,
    insertText_eq _ hliterals.1 hliterals.2.1] at hsql
  rw [hrow] at hgives
  exact ⟨htexts, kept_of_literals (length_insertPieces call) hliterals hsql hgives⟩

theorem kept_of_updateRoundTrip
    (h : UpdateRoundTrip table valueToString call (literalExec table call)) {rows : List SqlRow}
    (hallows : AllowsUpdate table valueToString call rows) {row : SqlRow} (hmem : row ∈ rows)
    (hselected : table.selects call.rstrSelection row = true) :
    call.pData.texts valueToString ≠ [] ∧ Kept table valueToString call := by
  obtain ⟨set, hupdate, hset⟩ := h rows hallows
  obtain ⟨texts, hliterals, hsql, hrows⟩ := literals_of_mapSelected hupdate
  obtain ⟨hvalues, htexts⟩ := @texts_ne_nil_of_literals valueToString call _ hliterals
  rw [updateText_eq _ (length_values valueToString call) hvalues,
    updateText_eq _ hliterals.1 hliterals.2.1] at hsql
  have hrow := List.map_inj_left.1 hrows row hmem
  rw [if_pos hselected, if_pos hselected] at hrow
  have hgives := (hset row).1
  rw [← hrow] at hgives
  exact ⟨htexts, kept_of_literals (length_updatePieces call) hliterals hsql hgives⟩

/-- Values that the constraints allow come back, whatever SQLite makes of a text that is no
statement of literals, if and only if they are literals as they are and their columns give
them back. -/
theorem documented_roundTrip_iff (table : SqlTable) (valueToString : ℚ → String)
    (call : ValuesCall) :
    ((∃ rows, AllowsInsert table valueToString call rows) →
      ((∀ exec, Documented table call exec → InsertRoundTrip table valueToString call exec) ↔
        call.pData.texts valueToString ≠ [] ∧ Kept table valueToString call)) ∧
    ((∃ rows, AllowsUpdate table valueToString call rows ∧
        ∃ row ∈ rows, table.selects call.rstrSelection row = true) →
      ((∀ exec, Documented table call exec → UpdateRoundTrip table valueToString call exec) ↔
        call.pData.texts valueToString ≠ [] ∧ Kept table valueToString call)) := by
  have hdocumented := documented_literalExec table call
  constructor
  · rintro ⟨rows, hallows⟩
    refine ⟨fun h => kept_of_insertRoundTrip (h _ hdocumented) hallows, ?_⟩
    rintro ⟨hne, hkept⟩ exec hexec
    exact insertRoundTrip_of_kept hexec hne hkept
  · rintro ⟨rows, hallows, row, hmem, hselected⟩
    refine ⟨fun h => kept_of_updateRoundTrip (h _ hdocumented) hallows hmem hselected, ?_⟩
    rintro ⟨hne, hkept⟩ exec hexec
    exact updateRoundTrip_of_kept hexec hne hkept

end

/-- The table of the local configuration: a key that is unique and not NULL, and a value that is
not NULL. -/
def localConfigTable : SqlTable where
  stored := fun _ text => text
  converts := fun _ _ => .inl rfl
  newRow := fun _ _ => none
  rowId := fun _ => 1
  selects := fun _ _ => true
  selectsAll := fun _ => rfl
  permits := fun rows => decide (rows.map fun row => row "key").Nodup &&
    rows.all fun row => (row "key").isSome && (row "value").isSome

theorem permits_singleton {row : SqlRow} (hkey : (row "key").isSome = true)
    (hvalue : (row "value").isSome = true) : localConfigTable.permits [row] = true := by
  have hunique : decide [row "key"].Nodup = true := decide_eq_true (List.pairwise_singleton _ _)
  have hsome : ([row].all fun row => (row "key").isSome && (row "value").isSome) = true := by
    simp [hkey, hvalue]
  show (decide [row "key"].Nodup &&
    [row].all fun row => (row "key").isSome && (row "value").isSome) = true
  rw [hunique, hsome]
  rfl

theorem localConfigWhole : '\x00' ∉ "LocalConfig".toList := by decide

theorem keyValueWhole : ∀ key ∈ ["key", "value"], '\x00' ∉ key.toList := by decide

/-- The height is to be stored. -/
def heightCall (height : String) : ValuesCall where
  strTable := "LocalConfig"
  pData := (ContentValues.empty.put "key" (.string "height")).put "value" (.string height)
  rstrSelection := ""
  tableWhole := localConfigWhole
  columnsWhole := keyValueWhole
  selectionWhole := List.not_mem_nil

theorem allowsInsert_height (valueToString : ℚ → String) (height : String) :
    AllowsInsert localConfigTable valueToString (heightCall height) [] :=
  permits_singleton rfl rfl

theorem allowsUpdate_height (valueToString : ℚ → String) (height : String) :
    AllowsUpdate localConfigTable valueToString (heightCall height) [fun _ => none] :=
  permits_singleton rfl rfl

theorem plainTexts_feet : PlainText "height" ∧ PlainText "6 ft" := by decide

theorem documented_roundTrip_iff_feet :
    (∀ exec, Documented localConfigTable (heightCall "6 ft") exec →
      InsertRoundTrip localConfigTable (fun _ => "") (heightCall "6 ft") exec) ∧
    (∀ exec, Documented localConfigTable (heightCall "6 ft") exec →
      UpdateRoundTrip localConfigTable (fun _ => "") (heightCall "6 ft") exec) := by
  have hkept : (heightCall "6 ft").pData.texts (fun _ => "") ≠ [] ∧
      Kept localConfigTable (fun _ => "") (heightCall "6 ft") := by
    refine ⟨List.cons_ne_nil _ _, fun p hp => ?_⟩
    rcases List.mem_cons.1 hp with rfl | hp
    · exact ⟨plainTexts_feet.1, rfl⟩
    · rw [List.mem_singleton.1 hp]
      exact ⟨plainTexts_feet.2, rfl⟩
  obtain ⟨hinsert, hupdate⟩ :=
    documented_roundTrip_iff localConfigTable (fun _ => "") (heightCall "6 ft")
  exact ⟨(hinsert ⟨[], allowsInsert_height _ _⟩).2 hkept,
    (hupdate ⟨_, allowsUpdate_height _ _, _, List.mem_singleton_self _, rfl⟩).2 hkept⟩

/-- Six inches come back as six feet, whatever does what is documented. -/
theorem not_roundTrip_inches :
    (∃ exec, Documented localConfigTable (heightCall "6''") exec) ∧
      ∀ valueToString, AllowsInsert localConfigTable valueToString (heightCall "6''") [] ∧
        ∀ exec, Documented localConfigTable (heightCall "6''") exec →
          ¬ InsertRoundTrip localConfigTable valueToString (heightCall "6''") exec := by
  refine ⟨⟨_, documented_literalExec localConfigTable (heightCall "6''")⟩, fun valueToString => ?_⟩
  have hallows := allowsInsert_height valueToString "6''"
  refine ⟨hallows, fun exec hexec h => ?_⟩
  obtain ⟨row, hinsert, hgives⟩ := h [] hallows
  have hfeet : cStr (insertText asItIs "LocalConfig" ["key", "value"] ["height", "6''"]) =
      insertText literal "LocalConfig" ["key", "value"] ["height", "6'"] := by decide
  have hliterals : Literals (heightCall "6''") ["height", "6'"] :=
    ⟨rfl, List.cons_ne_nil _ _, by decide⟩
  have hdone : (exec (insertText literal "LocalConfig" ["key", "value"] ["height", "6'"]) []).2 =
      [localConfigTable.assign [("key", "height"), ("value", "6'")] fun _ => none] :=
    congrArg Prod.snd (hexec.insert ["height", "6'"] hliterals [])
  have hrow : (exec (cStr (insertText asItIs "LocalConfig" ["key", "value"] ["height", "6''"]))
      []).2 = [row] := congrArg Prod.snd hinsert
  rw [hfeet, hdone] at hrow
  have hvalue := (givesBack_iff _ _).1 hgives ("value", "6''")
    (List.mem_cons_of_mem _ (List.mem_singleton_self _))
  rw [← List.head_eq_of_cons_eq hrow] at hvalue
  exact absurd hvalue (by decide)

end SqlText

end DeviceClient
