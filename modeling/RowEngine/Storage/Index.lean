/-!
Indexes: association lists from keys to values. `insert` puts a new key before the
first greater one, so an index that is built by insertions lists its keys in ascending
order, and it replaces the value of a key that is there already.
-/
namespace RowEngine

structure Index (κ α : Type) where
  entries : List (κ × α)
  deriving DecidableEq, Repr

namespace Index

variable {κ α : Type} [DecidableEq κ]

def empty : Index κ α := ⟨[]⟩

instance : Inhabited (Index κ α) := ⟨⟨[]⟩⟩

def size (m : Index κ α) : Nat := m.entries.length

def keys (m : Index κ α) : List κ := m.entries.map (·.1)

/-- The value of the first entry with a key. -/
def seek (k : κ) : List (κ × α) → Option α
  | [] => none
  | e :: rest => if k = e.1 then some e.2 else seek k rest

def find? (m : Index κ α) (k : κ) : Option α := seek k m.entries

def contains (m : Index κ α) (k : κ) : Bool := (m.find? k).isSome

def erase (m : Index κ α) (k : κ) : Index κ α := ⟨m.entries.filter (fun e => k ≠ e.1)⟩

/-- Places an entry among entries. -/
def place [LT κ] [DecidableLT κ] (k : κ) (a : α) : List (κ × α) → List (κ × α)
  | [] => [(k, a)]
  | e :: rest =>
      if k = e.1 then (k, a) :: rest
      else if k < e.1 then (k, a) :: e :: rest
      else e :: place k a rest

def insert [LT κ] [DecidableLT κ] (m : Index κ α) (k : κ) (a : α) : Index κ α :=
  ⟨place k a m.entries⟩

/-- Changes every value, dropping the entries that get none. -/
def filterMap (f : α → Option α) (m : Index κ α) : Index κ α :=
  ⟨m.entries.filterMap fun e => (f e.2).map fun a => (e.1, a)⟩

theorem seek_place_self [LT κ] [DecidableLT κ] (k : κ) (a : α) (es : List (κ × α)) :
    seek k (place k a es) = some a := by
  induction es with
  | nil => simp [place, seek]
  | cons e rest ih =>
    by_cases h : k = e.1
    · simp [place, seek, h]
    · by_cases hlt : k < e.1 <;> simp [place, seek, h, hlt, ih]

theorem seek_place_of_ne [LT κ] [DecidableLT κ] {k k' : κ} (hk : k' ≠ k) (a : α)
    (es : List (κ × α)) : seek k' (place k a es) = seek k' es := by
  induction es with
  | nil => simp [place, seek, hk]
  | cons e rest ih =>
    by_cases h : k = e.1
    · subst h
      simp [place, seek, hk]
    · by_cases hlt : k < e.1 <;> simp [place, seek, h, hlt, hk, ih]

@[simp] theorem find?_insert_self [LT κ] [DecidableLT κ] (m : Index κ α) (k : κ) (a : α) :
    (m.insert k a).find? k = some a := seek_place_self k a m.entries

theorem find?_insert_of_ne [LT κ] [DecidableLT κ] (m : Index κ α) {k k' : κ} (hk : k' ≠ k)
    (a : α) : (m.insert k a).find? k' = m.find? k' := seek_place_of_ne hk a m.entries

theorem seek_filter_self (k : κ) (es : List (κ × α)) :
    seek k (es.filter fun e => k ≠ e.1) = none := by
  induction es with
  | nil => rfl
  | cons e rest ih =>
    by_cases h : k = e.1
    · simpa [List.filter_cons, h] using ih
    · simpa [List.filter_cons, seek, h] using ih

theorem seek_filter_of_ne {k k' : κ} (hk : k' ≠ k) (es : List (κ × α)) :
    seek k' (es.filter fun e => k ≠ e.1) = seek k' es := by
  induction es with
  | nil => rfl
  | cons e rest ih =>
    by_cases h : k = e.1
    · subst h
      simpa [List.filter_cons, seek, hk] using ih
    · by_cases h' : k' = e.1
      · simp [seek, h, h']
      · simpa [List.filter_cons, seek, h, h'] using ih

@[simp] theorem find?_erase_self (m : Index κ α) (k : κ) : (m.erase k).find? k = none :=
  seek_filter_self k m.entries

theorem find?_erase_of_ne (m : Index κ α) {k k' : κ} (hk : k' ≠ k) :
    (m.erase k).find? k' = m.find? k' := seek_filter_of_ne hk m.entries

end Index

end RowEngine
