import RowEngine.Json

/-!
Reading the parts of typed values out of a document. A record is an object with its
members in any order, where unknown keys are skipped and a known key stands at most
once, or an array of the members in their order.
-/
namespace RowEngine.Json

def asString? : Json → Option String
  | .str s => s
  | _ => none

/-- An integer from `0` up to, and without, a bound. -/
def asNatBelow? (bound : Nat) : Json → Option Nat
  | .int n => if 0 ≤ n ∧ n < bound then some n.toNat else none
  | _ => none

def asWord? (j : Json) : Option UInt64 := (asNatBelow? UInt64.size j).map UInt64.ofNat

def asHalfWord? (j : Json) : Option UInt32 := (asNatBelow? UInt32.size j).map UInt32.ofNat

def asByte? (j : Json) : Option UInt8 := (asNatBelow? UInt8.size j).map UInt8.ofNat

def asInt32? : Json → Option Int32
  | .int n => if -0x80000000 ≤ n ∧ n < 0x80000000 then some (Int32.ofInt n) else none
  | _ => none

def ofNat (n : Nat) : Json := .int n

/-- The name and the content of an object with exactly one member. -/
def asTagged? : Json → Option (String × Json)
  | .obj [(some tag, content)] => some (tag, content)
  | _ => none

/-- The name of a variant without content: the name itself, or an object that gives
it a null. -/
def asName? : Json → Option String
  | .str s => s
  | .obj [(some tag, .null)] => some tag
  | _ => none

/-- The members of a record in the order of `keys`; a key that an object leaves out
gives `none`. -/
def objectMembers? (keys : List String) (members : List (Option String × Json)) :
    Option (List (Option Json)) :=
  if members.all (fun m => m.1.isSome) ∧
      keys.all (fun k => members.countP (fun m => m.1 = some k) ≤ 1) then
    some (keys.map fun k => members.lookup (some k))
  else none

/-- The members of a record, given as an object or as an array of all of them. -/
def members? (keys : List String) : Json → Option (List (Option Json))
  | .obj members => objectMembers? keys members
  | .arr items => if items.length = keys.length then some (items.map some) else none
  | _ => none

/-- As `members?`, but an array may leave out members at its end. -/
def optionalMembers? (keys : List String) : Json → Option (List (Option Json))
  | .obj members => objectMembers? keys members
  | .arr items =>
      if items.length ≤ keys.length then
        some (items.map some ++ List.replicate (keys.length - items.length) none)
      else none
  | _ => none

end RowEngine.Json
