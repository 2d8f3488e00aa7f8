import RowEngine.Error

/-!
What can go wrong when a query runs: a call out of turn, the end of the rows, columns
that do not fit, or an error of the engine, which passes through unchanged.
-/
namespace RowEngine

/-- Calls that the state of an operator does not allow. -/
inductive Misuse where
  | alreadyOpen (operator : String)
  | notOpen (operator : String)
  | childCount (operator : String) (expected found : Nat)
  | countOverflow (count : Nat)
  deriving DecidableEq, Repr

namespace Misuse

def message : Misuse → String
  | .alreadyOpen operator => operator ++ " is already open"
  | .notOpen operator => "has_next on closed " ++ operator
  | .childCount operator expected found =>
      operator ++ " expects " ++ toString expected ++ " children, got " ++ toString found
  | .countOverflow count => "insert count " ++ toString count ++ " overflows an INT field"

end Misuse

inductive QueryError where
  | illegalState (misuse : Misuse)
  | noSuchElement
  | schemaMismatch (table : TableId) (expected found : Schema)
  | engine (cause : Error)
  deriving DecidableEq, Repr

namespace QueryError

def message : QueryError → String
  | .illegalState misuse => "illegal state: " ++ misuse.message
  | .noSuchElement => "no such element"
  | .schemaMismatch table expected found =>
      "schema mismatch for " ++ table.display ++ ": table is [" ++ expected.display ++
        "], child produces [" ++ found.display ++ "]"
  | .engine cause => cause.message

/-- Whether the enclosing transaction has to stop. -/
def isTransactionAborted : QueryError → Bool
  | .engine cause => cause.isTransactionAborted
  | _ => false

end QueryError

/-- How a call on an operator fails. -/
abbrev QueryFailure := Failure QueryError

namespace Failure

/-- A failure of the engine, met by a query. -/
def ofEngine : Failure Error → QueryFailure
  | .error cause => .error (.engine cause)
  | .crashed => .crashed

end Failure

end RowEngine
