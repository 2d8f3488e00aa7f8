import RowEngine.Proofs.Storage.Capacity

/-!
A heap file as an append-only list. Pages fill in order, so the number of stored rows alone
tells how many pages there are, which page comes next, and where every row lies: row `k` of a
file with `s` slots on a page lies on page `k / s`, in slot `k % s`.
-/
namespace RowEngine

namespace HeapFile

/-- Pages that were filled one after another, each up to `s` rows: all but the last are full,
and the last one is not empty. -/
inductive Packed (s : Nat) : List (List Row) → Prop
  | none : Packed s []
  | upTo {front : List (List Row)} {last : List Row} (hfull : ∀ page ∈ front, page.length = s)
      (hsome : 0 < last.length) (hroom : last.length ≤ s) : Packed s (front ++ [last])

namespace Packed

variable {s : Nat} {pages : List (List Row)}

/-- The rows on full pages are counted by the pages. -/
theorem length_flatten_full {front : List (List Row)} (hfull : ∀ page ∈ front, page.length = s) :
    front.flatten.length = front.length * s := by
  rw [List.length_flatten, List.eq_replicate_of_mem (List.forall_mem_map.mpr hfull),
    List.sum_replicate_nat, List.length_map]

theorem length_flatten_upTo {front : List (List Row)} {last : List Row}
    (hfull : ∀ page ∈ front, page.length = s) :
    (front ++ [last]).flatten.length = s * front.length + last.length := by
  rw [List.flatten_concat, List.length_append, length_flatten_full hfull, Nat.mul_comm]

/-- There are just enough pages for the rows. -/
theorem length_eq (h : Packed s pages) : pages.length = (pages.flatten.length + s - 1) / s := by
  cases h with
  | none =>
    cases s with
    | zero => rfl
    | succ s => exact (Nat.div_eq_of_lt (by simp)).symm
  | @upTo front last hfull hsome hroom =>
    rw [length_flatten_upTo hfull, List.length_append, List.length_singleton]
    have hrest : s * front.length + last.length + s - 1 =
        s * (front.length + 1) + (last.length - 1) := by
      rw [Nat.mul_add_one]
      omega
    rw [hrest, Nat.mul_add_div (by omega), Nat.div_eq_of_lt (by omega), Nat.add_zero]

/-- Every page holds a row, none more than `s`, and all but the last exactly `s`. -/
theorem length_page (h : Packed s pages) {i : Nat} {page : List Row} (hi : pages[i]? = some page) :
    0 < page.length ∧ page.length ≤ s ∧ (i + 1 < pages.length → page.length = s) := by
  cases h with
  | none => simp at hi
  | @upTo front last hfull hsome hroom =>
    have hlt : i < (front ++ [last]).length := (List.getElem?_eq_some_iff.mp hi).1
    rw [List.length_append, List.length_singleton] at hlt ⊢
    rcases Nat.lt_or_ge i front.length with hfront | hlast
    · rw [List.getElem?_append_left hfront] at hi
      have hpage := hfull page (List.mem_of_getElem? hi)
      exact ⟨by omega, by omega, fun _ => hpage⟩
    · obtain rfl : i = front.length := by omega
      obtain rfl : last = page := by simpa using hi
      exact ⟨hsome, hroom, fun h => by omega⟩

end Packed

variable {f : HeapFile}

/-- The rows so far tell the page and the slot of the next one. -/
theorem target_of_packed (h : Packed f.slotsPerPage f.pages) (hslots : 0 < f.slotsPerPage) :
    f.targetPage = f.rows.length / f.slotsPerPage ∧
      (f.pages.getD f.targetPage []).length = f.rows.length % f.slotsPerPage := by
  unfold rows targetPage
  generalize f.pages = pages at h
  cases h with
  | none => simp
  | @upTo front last hfull hsome hroom =>
    rw [Packed.length_flatten_upTo hfull, Nat.mul_add_div hslots, Nat.mul_add_mod,
      List.getLast?_concat, List.length_append, List.length_singleton]
    rcases Nat.lt_or_eq_of_le hroom with hfree | hfull
    · simp [hfree, Nat.div_eq_of_lt hfree, Nat.mod_eq_of_lt hfree]
    · simp [hfull, Nat.div_self hslots]

/-- The place of row `k` in a file. -/
def placeAt (f : HeapFile) (k : Nat) : RecordId :=
  ⟨⟨f.id, (k / f.slotsPerPage).toUInt32⟩, (k % f.slotsPerPage).toUInt32⟩

theorem nextPlace_of_packed (h : Packed f.slotsPerPage f.pages) (hslots : 0 < f.slotsPerPage) :
    f.nextPlace = f.placeAt f.rows.length := by
  obtain ⟨hpage, hslot⟩ := target_of_packed h hslots
  rw [nextPlace, nextPage, placeAt, hslot, hpage]

/-- One more row keeps the pages packed. -/
theorem Packed.pagesWith (h : Packed f.slotsPerPage f.pages) (hslots : 0 < f.slotsPerPage)
    (r : Row) : Packed f.slotsPerPage (f.pagesWith r) := by
  unfold HeapFile.pagesWith targetPage
  generalize f.pages = pages at h
  cases h with
  | none =>
    have hnew : ∀ page ∈ ([] : List (List Row)), page.length = f.slotsPerPage := by simp
    exact .upTo hnew (by simp) hslots
  | @upTo front last hfull hsome hroom =>
    rw [List.getLast?_concat, List.length_append, List.length_singleton]
    by_cases hfree : last.length < f.slotsPerPage
    · simp only [hfree, if_true]
      have hpages : (front ++ [last]).modify front.length (· ++ [r]) = front ++ [last ++ [r]] := by
        rw [List.modify_eq_take_cons_drop (by simp)]
        simp
      rw [if_neg (by omega), Nat.add_sub_cancel, hpages]
      exact .upTo hfull (by simp) (by simpa using hfree)
    · simp only [hfree, if_false, if_true]
      refine .upTo (fun page hpage => ?_) (by simp) hslots
      rcases List.mem_append.mp hpage with hfront | hlast
      · exact hfull page hfront
      · rw [List.mem_singleton.mp hlast]
        omega

/-- Rows that are stored one after another: the answer to each, the row afterwards, and the
file in the end. -/
def insertAll (f : HeapFile) :
    List Row → List (Except (Failure Error) RecordId × Row) × HeapFile
  | [] => ([], f)
  | r :: rest =>
      let (answer, r', g) := f.insert r
      let (results, k) := g.insertAll rest
      ((answer, r') :: results, k)

/-- The rows that were taken in, each with the place that was answered. -/
def accepted (results : List (Except (Failure Error) RecordId × Row)) : List (RecordId × Row) :=
  results.filterMap fun
    | (.ok place, r) => some (place, r)
    | (.error _, _) => none

/-- How a row is answered that no crash befalls: by its columns alone, it is either taken in
and stamped with its place or refused and left alone. -/
inductive Answered (id : TableId) (schema : Schema) (r : Row) :
    Except (Failure Error) RecordId × Row → Prop
  | accepted (htypes : r.schema.types = schema.types) (place : RecordId) :
      Answered id schema r (.ok place, r.stamp place)
  | refused (htypes : r.schema.types ≠ schema.types) :
      Answered id schema r (.error (.error (.storage (.shapeMismatch r.schema id schema))), r)

/-- A file that has taken in these rows at these places since it was made. -/
structure Log (f : HeapFile) (entries : List (RecordId × Row)) : Prop where
  lock : f.poisoned = false
  slots : 0 < f.slotsPerPage
  packed : Packed f.slotsPerPage f.pages
  rows : f.rows = entries.map (·.2)
  places : entries.map (·.1) = (List.range entries.length).map f.placeAt
  stamped : ∀ entry ∈ entries, entry.2.recordId = some entry.1

theorem Log.of_create {id : TableId} {schema : Schema} {config : Config}
    (h : HeapFile.create id schema config = .ok f) : f.Log [] := by
  obtain ⟨rfl, hslots⟩ := create_eq_ok h
  exact ⟨rfl, hslots, .none, rfl, rfl, by simp⟩

/-- A row that is taken in becomes the last entry, and any other leaves the entries alone. -/
theorem Log.insertion {entries : List (RecordId × Row)} (h : f.Log entries) {r r' : Row}
    {answer : Except (Failure Error) RecordId} {g : HeapFile}
    (hins : Insertion f r (answer, r', g)) (hcrash : answer ≠ .error .crashed) :
    Answered f.id f.schema r (answer, r') ∧ g.Log (entries ++ accepted [(answer, r')]) := by
  cases hins with
  | reshaped htypes => exact ⟨.refused htypes, by simpa [accepted] using h⟩
  | locked _ hlock => simp [h.lock] at hlock
  | crashed => exact absurd rfl hcrash
  | stored htypes hlock =>
    refine ⟨.accepted htypes _, ⟨hlock, h.slots, h.packed.pagesWith h.slots _, ?_, ?_, ?_⟩⟩
    · simp [accepted, h.rows]
    · have hnext : f.nextPlace = f.placeAt entries.length := by
        rw [nextPlace_of_packed h.packed h.slots, h.rows, List.length_map]
      have hsame : (f.grown (r.stamp f.nextPlace)).placeAt = f.placeAt := rfl
      rw [hsame]
      simp [accepted, List.range_succ, h.places, hnext]
    · intro entry hentry
      rcases List.mem_append.mp hentry with hold | hnew
      · exact h.stamped entry hold
      · obtain rfl : entry = (f.nextPlace, r.stamp f.nextPlace) := by
          simpa [accepted] using hnew
        rfl

/-- The rows that a run takes in are appended to the entries in the order of the calls. -/
theorem Log.insertAll {calls : List Row} {entries : List (RecordId × Row)} (h : f.Log entries)
    {results : List (Except (Failure Error) RecordId × Row)} {g : HeapFile}
    (hrun : f.insertAll calls = (results, g)) (hcrash : ∀ o ∈ results, o.1 ≠ .error .crashed) :
    List.Forall₂ (Answered f.id f.schema) calls results ∧ g.Log (entries ++ accepted results) := by
  induction calls generalizing f entries results with
  | nil =>
    cases hrun
    exact ⟨.nil, by simpa [accepted] using h⟩
  | cons r rest ih =>
    rcases hfirst : f.insert r with ⟨answer, r', k⟩
    rcases hrest : k.insertAll rest with ⟨results', g'⟩
    simp only [HeapFile.insertAll, hfirst, hrest] at hrun
    cases hrun
    have hins : Insertion f r (answer, r', k) := hfirst ▸ f.insertion r
    obtain ⟨hanswer, hlog⟩ := h.insertion hins (hcrash _ (List.mem_cons_self ..))
    obtain ⟨hanswers, hlog⟩ := ih hlog hrest fun o ho => hcrash o (List.mem_cons_of_mem _ ho)
    rw [hins.grows.id, hins.grows.schema] at hanswers
    refine ⟨.cons hanswer hanswers, ?_⟩
    rw [List.append_assoc] at hlog
    simpa only [accepted, ← List.filterMap_append, List.singleton_append] using hlog

/-- Storing more rows keeps those that are there. -/
theorem grows_insertAll (f : HeapFile) (calls : List Row) : f.Grows (f.insertAll calls).2 := by
  induction calls generalizing f with
  | nil => exact .refl f
  | cons r rest ih => exact (f.insertion r).grows.trans (ih (f.insert r).2.2)

/-- Where a page can be allocated, no call crashes. -/
theorem insert_ne_crashed (hslots : f.slotsPerPage ≤ maxSlots) (r : Row) :
    (f.insert r).1 ≠ .error .crashed := by
  have hins := f.insertion r
  generalize f.insert r = o at hins ⊢
  cases hins with
  | reshaped => simp
  | locked => simp
  | crashed _ _ hpage => simp [cannotAllocate, Nat.not_lt.mpr hslots] at hpage
  | stored => simp

theorem insertAll_ne_crashed (hslots : f.slotsPerPage ≤ maxSlots) (calls : List Row) :
    ∀ o ∈ (f.insertAll calls).1, o.1 ≠ .error .crashed := by
  induction calls generalizing f with
  | nil => simp [insertAll]
  | cons r rest ih =>
    intro o ho
    rcases List.mem_cons.mp ho with hfirst | hlater
    · rw [hfirst]
      exact insert_ne_crashed hslots r
    · refine ih ?_ o hlater
      rwa [(f.insertion r).grows.slotsPerPage]

theorem insert_eq_of_types_ne {r : Row} (htypes : r.schema.types ≠ f.schema.types) :
    f.insert r = (.error (.error (.storage (.shapeMismatch r.schema f.id f.schema))), r, f) := by
  have hcases := f.insertion r
  generalize f.insert r = o at hcases ⊢
  cases hcases with
  | reshaped => rfl
  | locked hsame => exact absurd hsame htypes
  | crashed hsame => exact absurd hsame htypes
  | stored hsame => exact absurd hsame htypes

/-- What a file of an id, with `s` slots on a page, answers if it is the list of these rows,
each at its place. -/
structure Lists (f : HeapFile) (id : TableId) (s : Nat) (entries : List (RecordId × Row)) :
    Prop where
  scan : f.scan = .ok (entries.map (·.2))
  place : ∀ k place r, entries[k]? = some (place, r) → place.page.table = id ∧
    place.page.number.toNat = k / s ∧ place.slot.toNat = k % s ∧ r.recordId = some place
  nodup : (entries.map (·.1)).Nodup
  size : f.size = entries.length
  pageCount : f.pages.length = (entries.length + s - 1) / s
  page : ∀ i page, f.pages[i]? = some page →
    0 < page.length ∧ page.length ≤ s ∧ (i + 1 < f.pages.length → page.length = s)
  nextPage : f.nextPage.table = id ∧ f.nextPage.number.toNat = entries.length / s

theorem toNat_toUInt32 {n : Nat} (h : n < 2 ^ 32) : n.toUInt32.toNat = n :=
  Nat.mod_eq_of_lt h

/-- Two rows whose page numbers and slots are 32-bit words are not in the same place. -/
theorem placeAt_inj (f : HeapFile) {i j : Nat} (hi : i / f.slotsPerPage < 2 ^ 32)
    (hi' : i % f.slotsPerPage < 2 ^ 32) (hj : j / f.slotsPerPage < 2 ^ 32)
    (hj' : j % f.slotsPerPage < 2 ^ 32) (hplace : f.placeAt i = f.placeAt j) : i = j := by
  have hpage := congrArg (fun place : RecordId => place.page.number.toNat) hplace
  have hslot := congrArg (fun place : RecordId => place.slot.toNat) hplace
  simp only [placeAt] at hpage hslot
  rw [toNat_toUInt32 hi, toNat_toUInt32 hj] at hpage
  rw [toNat_toUInt32 hi', toNat_toUInt32 hj'] at hslot
  rw [← Nat.div_add_mod i f.slotsPerPage, ← Nat.div_add_mod j f.slotsPerPage, hpage, hslot]

/-- As long as page numbers and slots are 32-bit words, no two rows have the same place. -/
theorem placeAt_injOn (f : HeapFile) {n : Nat} (hpages : n / f.slotsPerPage < 2 ^ 32)
    (hslots : ∀ k < n, k % f.slotsPerPage < 2 ^ 32) :
    Set.InjOn f.placeAt {k | k ∈ List.range n} := by
  intro i hi j hj hplace
  have hi : i < n := List.mem_range.mp hi
  have hj : j < n := List.mem_range.mp hj
  exact f.placeAt_inj (Nat.lt_of_le_of_lt (Nat.div_le_div_right hi.le) hpages) (hslots i hi)
    (Nat.lt_of_le_of_lt (Nat.div_le_div_right hj.le) hpages) (hslots j hj) hplace

theorem Log.lists {entries : List (RecordId × Row)} (h : f.Log entries)
    (hpages : entries.length / f.slotsPerPage < 2 ^ 32)
    (hslots : ∀ k < entries.length, k % f.slotsPerPage < 2 ^ 32) :
    f.Lists f.id f.slotsPerPage entries where
  scan := by simp [HeapFile.scan, h.lock, h.rows]
  place k place r hk := by
    have hlt : k < entries.length := (List.getElem?_eq_some_iff.mp hk).1
    have hplace : place = f.placeAt k := by
      have hkth := congrArg (·[k]?) h.places
      simpa [List.getElem?_map, hk, List.getElem?_range hlt] using hkth
    refine ⟨by rw [hplace]; rfl, ?_, ?_, h.stamped _ (List.mem_of_getElem? hk)⟩
    · rw [hplace, placeAt]
      exact toNat_toUInt32 (Nat.lt_of_le_of_lt (Nat.div_le_div_right hlt.le) hpages)
    · rw [hplace, placeAt]
      exact toNat_toUInt32 (hslots k hlt)
  nodup := by
    rw [h.places]
    exact List.Nodup.map_on (fun i hi j hj => (f.placeAt_injOn hpages hslots) hi hj)
      List.nodup_range
  size := by rw [size_eq, h.rows, List.length_map]
  pageCount := by
    have hcount := h.packed.length_eq
    rwa [← HeapFile.rows, h.rows, List.length_map] at hcount
  page i page hi := h.packed.length_page hi
  nextPage := by
    have htarget := (target_of_packed h.packed h.slots).1
    rw [h.rows, List.length_map] at htarget
    refine ⟨rfl, ?_⟩
    rw [HeapFile.nextPage, htarget]
    exact toNat_toUInt32 hpages

/-- A file is an append-only list. From its making on, whatever rows are stored in it, if no
call crashes then each row is taken in or refused by its columns alone. The file is the list of
the rows that were taken in, stamped with the places that were answered; the next row that is
taken in goes to the page that the file names; a refused row changes nothing; and later calls
leave what is there as it is. -/
theorem insertAll_lists {id : TableId} {schema : Schema} {config : Config} {f₀ f : HeapFile}
    (hcreate : HeapFile.create id schema config = .ok f₀) {calls : List Row}
    {results : List (Except (Failure Error) RecordId × Row)}
    (hrun : f₀.insertAll calls = (results, f)) (hcrash : ∀ o ∈ results, o.1 ≠ .error .crashed)
    (hpages : (accepted results).length / config.slotsPerPage schema.width < 2 ^ 32)
    (hslots : ∀ k < (accepted results).length, k % config.slotsPerPage schema.width < 2 ^ 32) :
    List.Forall₂ (Answered id schema) calls results ∧
    f.Lists id (config.slotsPerPage schema.width) (accepted results) ∧
    (∀ r place r' g, f.insert r = (.ok place, r', g) → place.page = f.nextPage) ∧
    (∀ r, r.schema.types ≠ schema.types →
      f.insert r = (.error (.error (.storage (.shapeMismatch r.schema id schema))), r, f)) ∧
    ∀ later, f.rows <+: (f.insertAll later).2.rows := by
  obtain ⟨hanswers, hlog⟩ := (Log.of_create hcreate).insertAll hrun hcrash
  have hgrows : f₀.Grows f := by simpa [hrun] using f₀.grows_insertAll calls
  obtain ⟨rfl, -⟩ := create_eq_ok hcreate
  have hid : f.id = id := hgrows.id
  have hschema : f.schema = schema := hgrows.schema
  have hslot : f.slotsPerPage = config.slotsPerPage schema.width := hgrows.slotsPerPage
  refine ⟨hanswers, ?_, fun r place r' g hins => ?_, fun r htypes => ?_, fun later =>
    (f.grows_insertAll later).rows⟩
  · have hlists := hlog.lists (by rwa [hslot]) (by rwa [hslot])
    rwa [hid, hslot] at hlists
  · have hcases := f.insertion r
    rw [hins] at hcases
    cases hcases
    rfl
  · have hrefused := insert_eq_of_types_ne (f := f) (r := r) (by rwa [hschema])
    rwa [hid, hschema] at hrefused

namespace Sample

open Database.Sample

/-- A row that is too wide for a file of cells. -/
def pair : Row := ⟨⟨[⟨.int, some "v"⟩, ⟨.int, none⟩]⟩, [some (.int 1), some (.int 2)], none⟩

/-- A new file with room for three cells on a page. -/
def fresh : HeapFile := ⟨⟨5⟩, cell.schema, 3, [], false⟩

/-- Four cells, and a pair in between that is refused. -/
def calls : List Row := [cell, cell, pair, cell, cell]

def mixed : List (Except (Failure Error) RecordId × Row) × HeapFile := fresh.insertAll calls

end Sample

open Sample in
/-- The fourth cell begins the second page. -/
theorem mixed_lists :
    HeapFile.create ⟨5⟩ Database.Sample.cell.schema Database.Sample.small = .ok fresh ∧
      mixed.2.Lists ⟨5⟩ 3 (accepted mixed.1) ∧
      (accepted mixed.1).map (·.1) =
        [⟨⟨⟨5⟩, 0⟩, 0⟩, ⟨⟨⟨5⟩, 0⟩, 1⟩, ⟨⟨⟨5⟩, 0⟩, 2⟩, ⟨⟨⟨5⟩, 1⟩, 0⟩] := by
  have hcreate :
      HeapFile.create ⟨5⟩ Database.Sample.cell.schema Database.Sample.small = .ok fresh := by cbv
  have hplaces : (accepted mixed.1).map (·.1) =
      [⟨⟨⟨5⟩, 0⟩, 0⟩, ⟨⟨⟨5⟩, 0⟩, 1⟩, ⟨⟨⟨5⟩, 0⟩, 2⟩, ⟨⟨⟨5⟩, 1⟩, 0⟩] := by cbv
  have hcount : (accepted mixed.1).length = 4 := by simpa using congrArg List.length hplaces
  have hcrash : ∀ o ∈ mixed.1, o.1 ≠ .error .crashed :=
    insertAll_ne_crashed (by decide) calls
  have hrun : fresh.insertAll calls = (mixed.1, mixed.2) := rfl
  have hlists := insertAll_lists hcreate hrun hcrash (by rw [hcount]; decide) fun k _ =>
    Nat.lt_of_lt_of_le (Nat.mod_lt k (by decide)) (by decide)
  exact ⟨hcreate, hlists.2.1, hplaces⟩

end HeapFile

end RowEngine
