import Mathlib.Data.Bool.Basic
import Mathlib.Data.List.Count

/-!
# Conditions of a query

The `WHERE` condition of a query over rows some of whose operands may be `NULL`. A comparison with
`NULL` is neither true nor false, and a row is selected only where the condition is true. Read
`holds_and` and `holds_or` first: a condition without negation holds where its parts do, so such a
condition can be read as a Boolean.
-/

namespace RunnerManager.Sql

/-- A condition over operands `c` with values `v`. -/
inductive Condition (c v : Type) where
  | equals (operand : c) (value : v)
  | differs (operand : c) (value : v)
  | isIn (operand : c) (values : List v)
  | and (left right : Condition c v)
  | or (left right : Condition c v)

/-- A truth value; `none` is unknown. -/
abbrev Truth := Option Bool

/-- False where one side is, else unknown where one side is. -/
def Truth.and : Truth → Truth → Truth
  | some false, _ => some false
  | _, some false => some false
  | some true, some true => some true
  | _, _ => none

/-- True where one side is, else unknown where one side is. -/
def Truth.or : Truth → Truth → Truth
  | some true, _ => some true
  | _, some true => some true
  | some false, some false => some false
  | _, _ => none

namespace Condition

variable {c v : Type} [DecidableEq v]

/-- The truth of a condition on the row whose operands are `row`. -/
def eval (row : c → Option v) : Condition c v → Truth
  | equals operand value => (row operand).map fun found ↦ found = value
  | differs operand value => (row operand).map fun found ↦ found ≠ value
  | isIn operand values => (row operand).map fun found ↦ values.contains found
  | and left right => (left.eval row).and (right.eval row)
  | or left right => (left.eval row).or (right.eval row)

/-- Whether a query with this condition selects the row. -/
def holds (condition : Condition c v) (row : c → Option v) : Bool :=
  condition.eval row = some true

variable {row : c → Option v} {operand : c} {value found : v} {values : List v}
  {left right : Condition c v}

theorem holds_equals (hfound : row operand = some found) :
    (equals operand value).holds row = decide (found = value) := by
  simp [holds, eval, hfound]

theorem holds_differs (hfound : row operand = some found) :
    (differs operand value).holds row = decide (found ≠ value) := by
  simp [holds, eval, hfound]

theorem holds_isIn (hfound : row operand = some found) :
    (isIn operand values).holds row = values.contains found := by
  simp [holds, eval, hfound]

@[simp]
theorem holds_and : (and left right).holds row = (left.holds row && right.holds row) := by
  show decide ((left.eval row).and (right.eval row) = some true) =
    (decide (left.eval row = some true) && decide (right.eval row = some true))
  rcases left.eval row with _ | _ | _ <;> rcases right.eval row with _ | _ | _ <;> rfl

@[simp]
theorem holds_or : (or left right).holds row = (left.holds row || right.holds row) := by
  show decide ((left.eval row).or (right.eval row) = some true) =
    (decide (left.eval row = some true) || decide (right.eval row = some true))
  rcases left.eval row with _ | _ | _ <;> rcases right.eval row with _ | _ | _ <;> rfl

end Condition

/-- `SELECT MIN(COUNT(*), ceiling) FROM rows WHERE condition`. -/
def countUpTo {c v ρ : Type} [DecidableEq v] (operands : ρ → c → Option v) (ceiling : Nat)
    (condition : Condition c v) (rows : List ρ) : Nat :=
  min (rows.countP fun row ↦ condition.holds (operands row)) ceiling

theorem countUpTo_congr {c v ρ : Type} [DecidableEq v] {operands : ρ → c → Option v}
    {ceiling : Nat} {condition : Condition c v} {rows : List ρ} {selects : ρ → Bool}
    (h : ∀ row ∈ rows, condition.holds (operands row) = selects row) :
    countUpTo operands ceiling condition rows = min (rows.countP selects) ceiling := by
  show min (rows.countP fun row ↦ condition.holds (operands row)) ceiling = _
  rw [List.countP_congr fun row hrow ↦ by rw [h row hrow]]

end RunnerManager.Sql
