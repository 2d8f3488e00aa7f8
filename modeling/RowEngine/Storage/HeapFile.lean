import RowEngine.Config
import RowEngine.Row

/-!
Heap files: the rows of one table on pages of a fixed number of slots. Pages fill in
order, and a new page is begun when the last one has no free slot. A file whose lock
was poisoned, because a page could not be allocated, refuses to be written or scanned
but still answers how large it is.

A file is taken to have fewer than `2 ^ 32` pages. Pages are found by a number without a
bound, which is cut to 32 bits in the places that are given out, so that a larger file would
give out places that it has given out before. What is said of every file, such as how full
its pages are, goes on past that bound.
-/
namespace RowEngine

structure HeapFile where
  id : TableId
  schema : Schema
  slotsPerPage : Nat
  pages : List (List Row)
  poisoned : Bool
  deriving DecidableEq, Repr

namespace HeapFile

/-- An empty file; a page has to hold at least one row. -/
def create (id : TableId) (schema : Schema) (config : Config) : Except Error HeapFile :=
  match config.validate with
  | .error e => .error e
  | .ok () =>
      if config.slotsPerPage schema.width = 0 then
        .error (.config (.pageTooSmall config.pageSize.toNat schema.width))
      else .ok ⟨id, schema, config.slotsPerPage schema.width, [], false⟩

/-- The number of rows. -/
def size (f : HeapFile) : Nat := f.pages.foldr (fun page n => page.length + n) 0

def isEmpty (f : HeapFile) : Bool := f.size == 0

/-- The rows in page and slot order. -/
def rows (f : HeapFile) : List Row := f.pages.flatten

theorem size_eq (f : HeapFile) : f.size = f.rows.length := by
  simp only [size, rows]
  induction f.pages with
  | nil => rfl
  | cons page rest ih => simp [ih]

def scan (f : HeapFile) : Except Error (List Row) :=
  if f.poisoned then .error (.storage .lockPoisoned) else .ok f.rows

/-- The number of the page that the next row goes to: the last one if it has a free
slot, and otherwise a new one. -/
def targetPage (f : HeapFile) : Nat :=
  match f.pages.getLast? with
  | some last => if last.length < f.slotsPerPage then f.pages.length - 1 else f.pages.length
  | none => f.pages.length

def nextPage (f : HeapFile) : PageId := ⟨f.id, f.targetPage.toUInt32⟩

/-- The most slots that a page's memory may be reserved for: a slot takes 64 bytes, and
a block of memory stays below `2 ^ 63` bytes, so there are fewer than `2 ^ 57` of them. -/
def maxSlots : Nat := 0x1ffffffffffffff

/-- Whether the next row needs a page that is too large to allocate. -/
def cannotAllocate (f : HeapFile) : Bool :=
  f.targetPage == f.pages.length && decide (maxSlots < f.slotsPerPage)

/-- The place of the next row. -/
def nextPlace (f : HeapFile) : RecordId :=
  ⟨f.nextPage, (f.pages.getD f.targetPage []).length.toUInt32⟩

/-- The pages with one more row. -/
def pagesWith (f : HeapFile) (r : Row) : List (List Row) :=
  if f.targetPage = f.pages.length then f.pages ++ [[r]]
  else f.pages.modify f.targetPage (· ++ [r])

/-- Stores a row and stamps it with its place. The answer holds the place, the row
afterwards and the file afterwards; a refusal leaves all as it was, and a page that
cannot be allocated poisons the file. -/
def insert (f : HeapFile) (r : Row) : Except (Failure Error) RecordId × Row × HeapFile :=
  if f.schema.sameTypes r.schema then
    if f.poisoned then (.error (.error (.storage .lockPoisoned)), r, f)
    else if f.cannotAllocate then (.error .crashed, r, { f with poisoned := true })
    else
      let stored := r.stamp f.nextPlace
      (.ok f.nextPlace, stored, { f with pages := f.pagesWith stored })
  else (.error (.error (.storage (.shapeMismatch r.schema f.id f.schema))), r, f)

end HeapFile

end RowEngine
