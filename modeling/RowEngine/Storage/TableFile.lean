import RowEngine.Storage.ScriptedFile

/-!
The files that tables may be stored in. A heap file can tell which page the next row
goes to; a scripted file does not.
-/
namespace RowEngine

inductive TableFile where
  | heap (file : HeapFile)
  | scripted (file : ScriptedFile)
  deriving DecidableEq, Repr

namespace TableFile

instance : Inhabited TableFile := ⟨.scripted ⟨⟨0⟩, ⟨[]⟩, [0], none, none, false, []⟩⟩

def id : TableFile → TableId
  | .heap f => f.id
  | .scripted f => f.id

def schema : TableFile → Schema
  | .heap f => f.schema
  | .scripted f => f.schema

def scan : TableFile → Except Error (List Row)
  | .heap f => f.scan
  | .scripted f => f.scan

def pageCount : TableFile → Nat
  | .heap f => f.pages.length
  | .scripted f => f.pages.length

/-- The page that the next row goes to, where the file can tell. -/
def nextPage? : TableFile → Option PageId
  | .heap f => some f.nextPage
  | .scripted _ => none

def insert : TableFile → Row → Except (Failure Error) RecordId × Row × TableFile
  | .heap f, r => let (place, r, f) := f.insert r; (place, r, .heap f)
  | .scripted f, r => let (place, r, f) := f.insert r; (place, r, .scripted f)

end TableFile

end RowEngine
