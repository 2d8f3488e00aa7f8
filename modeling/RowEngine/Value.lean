/-!
Field types, values and the six comparisons. A value belongs to exactly one type,
and values of different types never compare true. Strings are ordered by code
point, which is also the order of their UTF-8 bytes.
-/
namespace RowEngine

/-- The type of a column. -/
inductive FieldType where
  | int
  | string
  deriving DecidableEq, Repr, Inhabited

namespace FieldType

/-- The most UTF-8 bytes a string field holds. -/
def maxStringBytes : Nat := 128

/-- The bytes that a field occupies on a page: an integer takes four, a string its
payload and a four-byte length. -/
def width : FieldType → Nat
  | .int => 4
  | .string => maxStringBytes + 4

def display : FieldType → String
  | .int => "INT_TYPE"
  | .string => "STRING_TYPE"

end FieldType

/-- The comparisons that predicates use. -/
inductive Comparison where
  | equals
  | notEquals
  | greaterThan
  | greaterThanOrEq
  | lessThan
  | lessThanOrEq
  deriving DecidableEq, Repr, Inhabited

namespace Comparison

/-- The comparisons in the order in which they are listed to a user. -/
def all : List Comparison :=
  [.equals, .notEquals, .greaterThan, .greaterThanOrEq, .lessThan, .lessThanOrEq]

/-- Whether a comparison is true of two values that stand in the given order. -/
def holds : Comparison → Ordering → Bool
  | .equals, o => o.isEq
  | .notEquals, o => o.isNe
  | .greaterThan, o => o.isGT
  | .greaterThanOrEq, o => o.isGE
  | .lessThan, o => o.isLT
  | .lessThanOrEq, o => o.isLE

/-- The comparison that says the same with its two sides exchanged. -/
def converse : Comparison → Comparison
  | .equals => .equals
  | .notEquals => .notEquals
  | .greaterThan => .lessThan
  | .greaterThanOrEq => .lessThanOrEq
  | .lessThan => .greaterThan
  | .lessThanOrEq => .greaterThanOrEq

theorem holds_converse (c : Comparison) (o : Ordering) :
    c.converse.holds o.swap = c.holds o := by
  cases c <;> cases o <;> rfl

def display : Comparison → String
  | .equals => "="
  | .notEquals => "<>"
  | .greaterThan => ">"
  | .greaterThanOrEq => ">="
  | .lessThan => "<"
  | .lessThanOrEq => "<="

end Comparison

/-- A stored field value. -/
inductive Value where
  | int (number : Int32)
  | string (text : String)
  deriving DecidableEq, Repr, Inhabited

namespace Value

def type : Value → FieldType
  | .int _ => .int
  | .string _ => .string

/-- How two values of one type stand; values of different types have no order. -/
def order? : Value → Value → Option Ordering
  | .int a, .int b => some (compare a b)
  | .string a, .string b => some (compare a b)
  | _, _ => none

/-- Whether `a c b` is true. -/
def satisfies (c : Comparison) (a b : Value) : Bool :=
  match order? a b with
  | some o => c.holds o
  | none => false

def asInt? : Value → Option Int32
  | .int n => some n
  | .string _ => none

def asString? : Value → Option String
  | .int _ => none
  | .string s => some s

/-- An integer is written in decimal, a string as it is. -/
def display : Value → String
  | .int n => toString n.toInt
  | .string s => s

end Value

end RowEngine
