import RowEngine.Proofs.Row.Typing
import RowEngine.Query.Join
import RowEngine.Query.TableScan

/-!
Which rows predicates select, and what joins and table scans make of rows, said without
errors. On rows that fit the schemas for which an operator was made, its own functions
give these results and never an error.
-/
namespace RowEngine

namespace Predicate

/-- The tested field is set, has the type of the operand and compares true with it. -/
def Selects (p : Predicate) (r : Row) : Prop :=
  ∃ v, r.fields[p.field.toNat]? = some (some v) ∧ v.type = p.operand.type ∧
    v.satisfies p.comparison p.operand = true

end Predicate

theorem Value.type_eq_of_satisfies {c : Comparison} {a b : Value}
    (h : a.satisfies c b = true) : a.type = b.type := by
  cases a <;> cases b <;> simp_all [Value.satisfies, Value.order?, Value.type]

namespace Predicate

theorem selects_iff (p : Predicate) (r : Row) :
    p.Selects r ↔
      ((r.fields[p.field.toNat]?).join.any fun v => v.satisfies p.comparison p.operand) = true := by
  constructor
  · rintro ⟨v, hv, _, hsat⟩
    simp [hv, hsat]
  · intro h
    cases hv : (r.fields[p.field.toNat]?).join with
    | none => simp [hv] at h
    | some v =>
      have hsat : v.satisfies p.comparison p.operand = true := by simpa [hv] using h
      exact ⟨v, Option.join_eq_some_iff.mp hv, Value.type_eq_of_satisfies hsat, hsat⟩

instance (p : Predicate) (r : Row) : Decidable (p.Selects r) :=
  decidable_of_iff' _ (p.selects_iff r)

theorem holds_eq_ok {p : Predicate} {r : Row} {s : Schema} (h : r.Fits s)
    (hp : p.field.toNat < s.size) : p.holds r = .ok (decide (p.Selects r)) := by
  obtain ⟨f, hf⟩ := h.exists_field hp
  cases f with
  | none =>
    have hsel : ¬ p.Selects r := by simp [selects_iff, hf]
    simp [holds, Row.get_eq_ok hf, hsel]
  | some v =>
    have hsel : p.Selects r ↔ v.satisfies p.comparison p.operand = true := by
      simp [selects_iff, hf]
    simp [holds, Row.get_eq_ok hf, hsel]

end Predicate

namespace JoinPredicate

/-- Both tested fields are set, are of one type and compare true. -/
def Matches (p : JoinPredicate) (l r : Row) : Prop :=
  ∃ a b, l.fields[p.leftField.toNat]? = some (some a) ∧
    r.fields[p.rightField.toNat]? = some (some b) ∧ a.type = b.type ∧
      a.satisfies p.comparison b = true

theorem matches_iff (p : JoinPredicate) (l r : Row) :
    p.Matches l r ↔
      ((l.fields[p.leftField.toNat]?).join.any fun a =>
        (r.fields[p.rightField.toNat]?).join.any fun b => a.satisfies p.comparison b) = true := by
  constructor
  · rintro ⟨a, b, ha, hb, _, hsat⟩
    simp [ha, hb, hsat]
  · intro h
    cases ha : (l.fields[p.leftField.toNat]?).join with
    | none => simp [ha] at h
    | some a =>
      cases hb : (r.fields[p.rightField.toNat]?).join with
      | none => simp [ha, hb] at h
      | some b =>
        have hsat : a.satisfies p.comparison b = true := by simpa [ha, hb] using h
        exact ⟨a, b, Option.join_eq_some_iff.mp ha, Option.join_eq_some_iff.mp hb,
          Value.type_eq_of_satisfies hsat, hsat⟩

instance (p : JoinPredicate) (l r : Row) : Decidable (p.Matches l r) :=
  decidable_of_iff' _ (p.matches_iff l r)

theorem holds_eq_ok {p : JoinPredicate} {l r : Row} {s t : Schema} (hl : l.Fits s)
    (hr : r.Fits t) (hleft : p.leftField.toNat < s.size) (hright : p.rightField.toNat < t.size) :
    p.holds l r = .ok (decide (p.Matches l r)) := by
  obtain ⟨f, hf⟩ := hl.exists_field hleft
  obtain ⟨g, hg⟩ := hr.exists_field hright
  have hmatch : p.Matches l r ↔
      (f.any fun a => g.any fun b => a.satisfies p.comparison b) = true := by
    simp [matches_iff, hf, hg]
  cases f with
  | none => simp [holds, Row.get_eq_ok hf, Row.get_eq_ok hg, hmatch]
  | some a =>
    cases g with
    | none => simp [holds, Row.get_eq_ok hf, Row.get_eq_ok hg, hmatch]
    | some b => simp [holds, Row.get_eq_ok hf, Row.get_eq_ok hg, hmatch]

end JoinPredicate

namespace Row

/-- The fields of a row and then those of another, as a row of a schema that has no
place. -/
def beside (s : Schema) (l r : Row) : Row := ⟨s, l.fields ++ r.fields, none⟩

/-- The same fields and the same place under another schema. -/
def relabel (s : Schema) (r : Row) : Row := ⟨s, r.fields, r.recordId⟩

theorem Fits.beside {s t u : Schema} {l r : Row} (hl : l.Fits s) (hr : r.Fits t)
    (hu : u.types = s.types ++ t.types) : (beside u l r).Fits u :=
  ⟨rfl, hu ▸ hl.fields.append hr.fields⟩

theorem Fits.relabel {s t : Schema} {r : Row} (h : r.Fits s) (ht : s.types = t.types) :
    (relabel t r).Fits t :=
  ⟨rfl, ht ▸ h.fields⟩

end Row

namespace Join

theorem combine_eq_ok {s t u : Schema} {l r : Row} (hl : l.Fits s) (hr : r.Fits t)
    (hu : u.types = s.types ++ t.types) : combine u l r = .ok (Row.beside u l r) :=
  Row.ofFields_eq_ok (Row.Fits.beside hl hr hu).fields

/-- The rows that a left row makes with those right rows that match it, in their order. -/
def pairs (p : JoinPredicate) (s : Schema) (rights : List Row) (l : Row) : List Row :=
  (rights.filter (p.Matches l ·)).map (Row.beside s l)

end Join

namespace TableScan

theorem retag_eq_ok {s t : Schema} {r : Row} (h : r.Fits s) (ht : s.types = t.types) :
    retag t r = .ok (Row.relabel t r) := by
  simp [retag, Row.ofFields_eq_ok (ht ▸ h.fields), Except.map, Row.relabel]

/-- A scan of a heap file takes a snapshot of its rows unless the file is locked. -/
theorem start_eq {s : TableScan} {w : World} {f : HeapFile}
    (hf : w.database.file s.file = .heap f) :
    s.start w =
      if f.poisoned then .error (.engine (.storage .lockPoisoned)) s w
      else .ok () { s with pending := f.rows } w := by
  by_cases hlock : f.poisoned = true
  · simp [start, hf, TableFile.scan, HeapFile.scan, hlock]
  · simp [start, hf, TableFile.scan, HeapFile.scan, hlock]

end TableScan

end RowEngine
