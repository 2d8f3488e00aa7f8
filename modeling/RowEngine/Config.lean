import RowEngine.Error

/-!
Engine configuration: the size of a page and how many dirty pages the buffer pool
keeps. Both have defaults, may be overridden by environment text, and have to be
positive. The number of row slots on a page follows from the page size.
-/
namespace RowEngine

structure Config where
  pageSize : UInt64
  poolPages : UInt64
  deriving DecidableEq, Repr

namespace Config

def default : Config := ⟨4096, 50⟩

instance : Inhabited Config := ⟨default⟩

/-- The value of a digit string, most significant digit first. -/
def ofDigits (digits : List Char) : Nat :=
  digits.foldl (fun n c => n * 10 + (c.toNat - '0'.toNat)) 0

/-- Reads a count: perhaps one plus sign, then ASCII digits, at most `2 ^ 64 - 1`. -/
def readCount? (text : String) : Option UInt64 :=
  let digits := match text.toList with
    | '+' :: rest => rest
    | cs => cs
  if digits ≠ [] ∧ digits.all Char.isDigit ∧ ofDigits digits < UInt64.size then
    some (UInt64.ofNat (ofDigits digits))
  else none

/-- The defaults, each replaced by the environment's text where that is a count. -/
def ofEnvironment (pageSize poolPages : Option String) : Config where
  pageSize := (pageSize.bind readCount?).getD default.pageSize
  poolPages := (poolPages.bind readCount?).getD default.poolPages

def validate (c : Config) : Except Error Unit :=
  if c.pageSize = 0 then .error (.config .zeroPageSize)
  else if c.poolPages = 0 then .error (.config .zeroPoolPages)
  else .ok ()

/-- Rows of `width` bytes that fit on a page, when each costs its bytes and one bit of
the page header. The bits are counted in words, which wrap around when a page has `2 ^ 61`
bytes or more. -/
def slotsPerPage (c : Config) (width : Nat) : Nat :=
  (c.pageSize * 8 / (width.toUInt64 * 8 + 1)).toNat

end Config

end RowEngine
