import Mathlib.Data.List.Basic
import Chronon.Core.Value

/-!
# Statements over rows of named columns

A statement is a list of columns paired by position with its placeholders, in the
order of the text, and a list of bound values. A row maps columns to values; a
table says which columns there are, what they accept and which are unique. A
statement that breaks one of these rules is a violation and changes nothing.
-/

namespace Chronon.Relational
set_option autoImplicit false

/-- A value as it is bound and stored: integers of four and of eight bytes, timestamps in nanoseconds. -/
inductive Value where
  | null
  | text (s : String)
  | int4 (n : Int)
  | int8 (n : Int)
  | time (nanos : Int)
deriving DecidableEq

inductive ColumnType where
  | text
  | integer
  | bigint
  | timestamptz

structure ColumnDef where
  name : String
  type : ColumnType
  notNull : Bool

/-- A value fits a column. -/
def ColumnDef.accepts (col : ColumnDef) (v : Value) : Bool :=
  match v, col.type with
  | .null, _ => !col.notNull
  | .text _, .text => true
  | .int4 _, .integer => true
  | .int8 _, .bigint => true
  | .time _, .timestamptz => true
  | _, _ => false

/-- A table: its columns, its primary key and its other unique columns. -/
structure TableDef where
  columns : List ColumnDef
  key : String
  unique : List String

def TableDef.names (t : TableDef) : List String := t.columns.map ColumnDef.name

abbrev Row := String → Value

inductive Violation where
  | parameters
  | unknown (column : String)
  | refused (column : String)
  | taken (column : String)

/-- `?`, the next bound value, or `$n`, the `n`-th. -/
inductive Placeholder where
  | question
  | dollar (n : Nat)
deriving DecidableEq

/-- The values of the placeholders: the one at position `k` of the text is the `k`-th bind if it is a question mark. -/
def resolveFrom (binds : List Value) : Nat → List Placeholder → Option (List Value)
  | _, [] => some []
  | k, .question :: rest => do return (← binds[k]?) :: (← resolveFrom binds (k + 1) rest)
  | k, .dollar n :: rest => do return (← binds[n - 1]?) :: (← resolveFrom binds (k + 1) rest)

/-- The values of all the placeholders of a statement. -/
def resolve (binds : List Value) (placeholders : List Placeholder) : Option (List Value) :=
  resolveFrom binds 0 placeholders

/-- `INSERT INTO t (columns) VALUES (placeholders)`, with `ON CONFLICT (target) DO UPDATE SET c = excluded.d, …`. -/
structure Insert where
  columns : List String
  placeholders : List Placeholder
  onConflict : Option (String × List (String × String))

/-- `UPDATE t SET c = ?, … WHERE condition = ?`. -/
structure Update where
  columns : List String
  condition : String
  placeholders : List Placeholder

/-- The row a list of columns and values writes, the columns it leaves out null. -/
def written (columns : List String) (values : List Value) : Row := fun c =>
  ((columns.zip values).lookup c).getD .null

/-- An existing row after the assignments of `DO UPDATE SET`. -/
def reassigned (assignments : List (String × String)) (excluded existing : Row) : Row := fun c =>
  match assignments.lookup c with
  | some d => excluded d
  | none => existing c

/-- An existing row after `SET c = v, …`. -/
def changed (columns : List String) (values : List Value) (existing : Row) : Row := fun c =>
  ((columns.zip values).lookup c).getD (existing c)

namespace TableDef

variable (t : TableDef)

/-- A row may be stored beside the others: every column accepts its value, and no unique value is taken. -/
def admits (row : Row) (rows : List Row) : Except Violation Unit :=
  match t.columns.find? fun col => !col.accepts (row col.name) with
  | some col => .error (.refused col.name)
  | none =>
    match t.unique.find? fun c => rows.any fun other => decide (other t.key ≠ row t.key) && decide (other c = row c) with
    | some c => .error (.taken c)
    | none => .ok ()

/-- `INSERT`. -/
def insert (stmt : Insert) (binds : List Value) (rows : List Row) : Except Violation (List Row) :=
  match resolve binds stmt.placeholders with
  | none => .error .parameters
  | some values =>
    if stmt.columns.length ≠ values.length then .error .parameters
    else
      match stmt.columns.find? fun c => !t.names.contains c with
      | some c => .error (.unknown c)
      | none =>
        let excluded := written stmt.columns values
        match rows.find? fun row => row t.key = excluded t.key with
        | none => do
          t.admits excluded rows
          return rows ++ [excluded]
        | some existing =>
          match stmt.onConflict with
          | none => .error (.taken t.key)
          | some (target, assignments) =>
            if target ≠ t.key then .error (.taken t.key)
            else do
              let row := reassigned assignments excluded existing
              t.admits row rows
              return rows.map fun other => if other t.key = excluded t.key then row else other

/-- `UPDATE`, of columns that are not unique; the value compared with is the last of the text. -/
def update (stmt : Update) (binds : List Value) (rows : List Row) : Except Violation (List Row) :=
  match resolve binds stmt.placeholders with
  | none => .error .parameters
  | some values =>
    match values.getLast? with
    | none => .error .parameters
    | some wanted =>
      if stmt.columns.length + 1 ≠ values.length then .error .parameters
      else
        match stmt.columns.find? fun c => !t.names.contains c with
        | some c => .error (.unknown c)
        | none => rows.mapM fun row =>
          if row stmt.condition = wanted then do
            let row := changed stmt.columns values row
            t.admits row []
            return row
          else .ok row

/-- `SELECT * FROM t WHERE column = ?`, one row. -/
def select (column : String) (v : Value) (rows : List Row) : Option Row := rows.find? fun row => row column = v

/-- A column of a selected row, if the table has it. -/
def column (row : Row) (name : String) : Option Value := if t.names.contains name then some (row name) else none

end TableDef

section Resolving

end Resolving

namespace TableDef

variable {t : TableDef}

end TableDef

end Chronon.Relational
