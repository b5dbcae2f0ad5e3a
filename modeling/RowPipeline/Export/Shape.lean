import RowPipeline.Expression.Evaluation
import RowPipeline.Projection.Basic

/-!
What an export writes of a row.
-/

namespace RowPipeline

inductive ExportShape where
  | document
  /-- An object that gives names to evaluated columns. -/
  | object (columns : List Expression) (names : List String)
  | array (columns : List Expression)

namespace ExportShape

def ofColumns (format : OutputFormat) (columns : List Expression) (names : List String) :
    Except ParameterFault ExportShape :=
  match format, columns with
  | _, [] => .ok .document
  | .jsonArray, columns => .ok (.array columns)
  | .jsonObject, columns =>
    if names.length == columns.length then .ok (.object columns names)
    else .error (.exportNames names.length columns.length)

/-- The document of a row before overwriting. -/
def value (row : Row) : ExportShape → Except EvaluationFault Value
  | .document =>
    match row with
    | first :: _ => .ok first
    | [] => .error .exportOfEmptyRow
  | .object columns names =>
    (Expression.evaluateAll columns row).map fun values =>
      .object (Dictionary.ofList (names.zip values))
  | .array columns => (Expression.evaluateAll columns row).map .array

/-- Gives members to an object whatever it held; other documents stay as they are. -/
def overwrite (overwrites : Fields) : Value → Value
  | .object fields => .object (Dictionary.extend fields overwrites)
  | other => other

def line (shape : ExportShape) (overwrites : Fields) (row : Row) : Except EvaluationFault String :=
  (shape.value row).map fun value => (overwrite overwrites value).toJson.text

end ExportShape

end RowPipeline
