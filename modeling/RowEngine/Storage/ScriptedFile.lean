import RowEngine.Storage.HeapFile

/-!
Scripted files: stand-ins for storage in tests. A scripted file takes rows of any
shape, spreads them over a given cycle of pages, and fails or crashes when told to.
-/
namespace RowEngine

structure ScriptedFile where
  id : TableId
  schema : Schema
  pages : List UInt32
  insertError : Option String
  scanError : Option String
  crashes : Bool
  rows : List Row
  deriving DecidableEq, Repr

namespace ScriptedFile

/-- The place of the next row: its slot is the number of rows stored so far, and the
pages take turns. -/
def nextPlace (f : ScriptedFile) : RecordId :=
  ⟨⟨f.id, f.pages.getD (f.rows.length % f.pages.length) 0⟩, f.rows.length.toUInt32⟩

def scan (f : ScriptedFile) : Except Error (List Row) :=
  match f.scanError with
  | some text => .error (.storage (.scripted text))
  | none => .ok f.rows

def insert (f : ScriptedFile) (r : Row) : Except (Failure Error) RecordId × Row × ScriptedFile :=
  if f.crashes then (.error .crashed, r, f)
  else
    match f.insertError with
    | some text => (.error (.error (.storage (.scripted text))), r, f)
    | none =>
        let stored := r.stamp f.nextPlace
        (.ok f.nextPlace, stored, { f with rows := f.rows ++ [stored] })

end ScriptedFile

end RowEngine
