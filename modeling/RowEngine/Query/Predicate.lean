import RowEngine.Row

/-!
Row predicates. A predicate compares a field with a constant, a join predicate a field
of one row with a field of another. An unset field satisfies neither.
-/
namespace RowEngine

/-- The condition `row[field] comparison operand`. -/
structure Predicate where
  field : UInt64
  comparison : Comparison
  operand : Value
  deriving DecidableEq, Repr

namespace Predicate

def holds (p : Predicate) (r : Row) : Except Error Bool :=
  match r.get p.field.toNat with
  | .error e => .error e
  | .ok (some v) => .ok (v.satisfies p.comparison p.operand)
  | .ok none => .ok false

def display (p : Predicate) : String :=
  "$" ++ toString p.field.toNat ++ " " ++ p.comparison.display ++ " " ++ p.operand.display

end Predicate

/-- The condition `left[leftField] comparison right[rightField]`. -/
structure JoinPredicate where
  leftField : UInt64
  comparison : Comparison
  rightField : UInt64
  deriving DecidableEq, Repr

namespace JoinPredicate

/-- The left field is read first. -/
def holds (p : JoinPredicate) (left right : Row) : Except Error Bool :=
  match left.get p.leftField.toNat with
  | .error e => .error e
  | .ok l =>
      match right.get p.rightField.toNat with
      | .error e => .error e
      | .ok r =>
          match l, r with
          | some a, some b => .ok (a.satisfies p.comparison b)
          | _, _ => .ok false

def display (p : JoinPredicate) : String :=
  "left.$" ++ toString p.leftField.toNat ++ " " ++ p.comparison.display ++ " right.$" ++
    toString p.rightField.toNat

end JoinPredicate

end RowEngine
