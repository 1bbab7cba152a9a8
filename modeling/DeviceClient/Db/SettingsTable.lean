import Mathlib.Data.List.Basic

/-!
# The settings table

The rows of `IGNITE_SERVICE_SETTINGS` and the statements that `CDatabase` builds
from columns and texts. Each text is spliced between single quotes as it is, so that
a text with a quote in it makes another statement; a text with a NUL ends the
statement there. What SQLite makes of such a statement is a parameter, and so is
which statements fail.

The statements of a run are counted, failed ones too.
-/

namespace DeviceClient

inductive SettingColumn where
  | settingId
  | settingEnum
  | value
  | responseStatus
  | corrId
  | srcIsDevice
deriving DecidableEq, Repr

/-- A row, as the text of each column. -/
abbrev SettingRow := SettingColumn → String

/-- Columns with their texts: the content values of a row, or a conjunction of equalities. -/
abbrev ColumnTexts := List (SettingColumn × String)

inductive SqlStatement where
  | insert (data : ColumnTexts)
  | update (data : ColumnTexts) (selection : ColumnTexts)
  | remove (selection : ColumnTexts)

/-- A text that stays a literal between single quotes. -/
def PlainText (text : String) : Prop := '\x27' ∉ text.toList ∧ '\x00' ∉ text.toList

instance (text : String) : Decidable (PlainText text) := inferInstanceAs (Decidable (_ ∧ _))

/-- All texts are literals. -/
def PlainTexts (texts : ColumnTexts) : Prop := ∀ p ∈ texts, PlainText p.2

instance (texts : ColumnTexts) : Decidable (PlainTexts texts) := List.decidableBAll _ _

/-- The `WHERE` clause; there is none without equalities. -/
def Selects (selection : ColumnTexts) (row : SettingRow) : Prop := ∀ p ∈ selection, row p.1 = p.2

instance (selection : ColumnTexts) : DecidablePred (Selects selection) :=
  fun _ => List.decidableBAll _ _

namespace SqlStatement

/-- All texts of the statement are literals. -/
def Plain : SqlStatement → Prop
  | .insert data => PlainTexts data
  | .update data selection => PlainTexts data ∧ PlainTexts selection
  | .remove selection => PlainTexts selection

instance : DecidablePred Plain
  | .insert data => inferInstanceAs (Decidable (PlainTexts data))
  | .update data selection => inferInstanceAs (Decidable (PlainTexts data ∧ PlainTexts selection))
  | .remove selection => inferInstanceAs (Decidable (PlainTexts selection))

/-- The columns that are given, with the others of a row. -/
def assign (data : ColumnTexts) (row : SettingRow) : SettingRow :=
  fun column => (data.lookup column).getD (row column)

/-- The defaults of the columns; SQLite keeps `false` as 0. -/
def defaultRow : SettingRow
  | .responseStatus => "0"
  | .srcIsDevice => "0"
  | _ => ""

def apply : SqlStatement → List SettingRow → List SettingRow
  | .insert data, rows => rows ++ [assign data defaultRow]
  | .update data selection, rows =>
    rows.map fun row => if Selects selection row then assign data row else row
  | .remove selection, rows => rows.filter fun row => ¬ Selects selection row

end SqlStatement

/-- SQLite: the statements that fail, by their number, and what it does with a statement
whose texts are no literals. -/
structure Sqlite where
  fails : ℕ → Bool
  brokenExec : SqlStatement → List SettingRow → Bool × List SettingRow
  brokenQuery : ColumnTexts → List SettingRow → Option (List SettingRow)

/-- The table, and the number of statements so far. -/
structure SettingsDb where
  rows : List SettingRow
  statements : ℕ

namespace SettingsDb

variable (sqlite : Sqlite)

/-- `SqliteExec` of an insert, update or delete: whether it succeeded. -/
def exec (statement : SqlStatement) (db : SettingsDb) : Bool × SettingsDb :=
  if sqlite.fails db.statements then (false, ⟨db.rows, db.statements + 1⟩)
  else if statement.Plain then (true, ⟨statement.apply db.rows, db.statements + 1⟩)
  else
    -- the text behind the quote is part of the statement
    let r := sqlite.brokenExec statement db.rows
    (r.1, ⟨r.2, db.statements + 1⟩)

/-- `CDatabase::Query`; `none` is the null cursor. -/
def query (selection : ColumnTexts) (db : SettingsDb) : Option (List SettingRow) × SettingsDb :=
  let rows :=
    if sqlite.fails db.statements then none
    else if PlainTexts selection then some (db.rows.filter fun row => Selects selection row)
    else sqlite.brokenQuery selection db.rows
  (rows, ⟨db.rows, db.statements + 1⟩)

variable {sqlite} {db : SettingsDb}

@[simp] theorem exec_statements (statement : SqlStatement) :
    (db.exec sqlite statement).2.statements = db.statements + 1 := by
  unfold exec
  by_cases hfails : sqlite.fails db.statements = true
  · rw [if_pos hfails]
  rw [if_neg hfails]
  by_cases hplain : statement.Plain
  · rw [if_pos hplain]
  · rw [if_neg hplain]

theorem exec_of_fails {statement : SqlStatement} (h : sqlite.fails db.statements = true) :
    db.exec sqlite statement = (false, ⟨db.rows, db.statements + 1⟩) := if_pos h

theorem exec_of_plain {statement : SqlStatement} (hplain : statement.Plain)
    (h : sqlite.fails db.statements = false) :
    db.exec sqlite statement = (true, ⟨statement.apply db.rows, db.statements + 1⟩) := by
  unfold exec
  rw [if_neg (by simp [h]), if_pos hplain]

theorem exec_of_broken {statement : SqlStatement} (hbroken : ¬ statement.Plain)
    (h : sqlite.fails db.statements = false) :
    db.exec sqlite statement = ((sqlite.brokenExec statement db.rows).1,
      ⟨(sqlite.brokenExec statement db.rows).2, db.statements + 1⟩) := by
  unfold exec
  rw [if_neg (by simp [h]), if_neg hbroken]

@[simp] theorem query_snd (selection : ColumnTexts) :
    (db.query sqlite selection).2 = ⟨db.rows, db.statements + 1⟩ := rfl

theorem query_of_plain {selection : ColumnTexts} (hplain : PlainTexts selection)
    (h : sqlite.fails db.statements = false) :
    (db.query sqlite selection).1 = some (db.rows.filter fun row => Selects selection row) := by
  unfold query
  dsimp only
  rw [if_neg (by simp [h]), if_pos hplain]

/-- A plain query returns selected rows only, or no cursor. -/
theorem eq_of_query_eq_some {selection : ColumnTexts} (hplain : PlainTexts selection)
    {rows : List SettingRow} (h : (db.query sqlite selection).1 = some rows) :
    rows = db.rows.filter fun row => Selects selection row := by
  cases hfails : sqlite.fails db.statements with
  | true =>
    unfold query at h
    dsimp only at h
    rw [if_pos hfails] at h
    cases h
  | false =>
    rw [query_of_plain hplain hfails] at h
    exact (Option.some.inj h).symm

end SettingsDb

end DeviceClient
