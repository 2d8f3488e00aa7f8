import RowEngine.Row

/-!
Rows that fit a schema: they have its field types and hold values of these types, none of
them too long. Such rows can be read at every column and written under any schema of the
same types without an error.
-/
namespace RowEngine

namespace Row

/-- The field only tells where the fault is, not whether there is one. -/
theorem checkLength_eq_ok {i : Nat} {v : Value} (h : checkLength i v = .ok ()) (j : Nat) :
    checkLength j v = .ok () := by
  cases v with
  | int n => rfl
  | string s =>
    by_cases hs : s.utf8ByteSize > FieldType.maxStringBytes
    · simp [checkLength, hs] at h
    · simp [checkLength, hs]

/-- Fields that columns of the given types hold. -/
structure FieldsFit (types : List FieldType) (fields : List (Option Value)) : Prop where
  length_eq : fields.length = types.length
  typed : ∀ (i : Nat) (v : Value), fields[i]? = some (some v) →
    types[i]? = some v.type ∧ checkLength i v = .ok ()

theorem wellFormed_iff (r : Row) : r.WellFormed ↔ FieldsFit r.schema.types r.fields := by
  constructor
  · intro h
    exact ⟨by rw [Schema.length_types]; exact h.1, h.2⟩
  · intro h
    exact ⟨by rw [← Schema.length_types]; exact h.length_eq, h.typed⟩

theorem FieldsFit.append {types types' : List FieldType} {fields fields' : List (Option Value)}
    (h : FieldsFit types fields) (h' : FieldsFit types' fields') :
    FieldsFit (types ++ types') (fields ++ fields') where
  length_eq := by simp [h.length_eq, h'.length_eq]
  typed i v hv := by
    by_cases hi : i < fields.length
    · rw [List.getElem?_append_left hi] at hv
      rw [List.getElem?_append_left (h.length_eq ▸ hi)]
      exact h.typed i v hv
    · have hle : fields.length ≤ i := Nat.le_of_not_lt hi
      rw [List.getElem?_append_right hle] at hv
      rw [List.getElem?_append_right (h.length_eq ▸ hle), ← h.length_eq]
      obtain ⟨htype, hlength⟩ := h'.typed _ v hv
      exact ⟨htype, checkLength_eq_ok hlength i⟩

theorem typeAt_eq_ok_iff {s : Schema} {i : Nat} {t : FieldType} :
    s.typeAt i = .ok t ↔ s.types[i]? = some t := by
  simp only [Schema.types, List.getElem?_map, Schema.typeAt, Schema.column]
  cases s.columns[i]? with
  | none => simp [Except.map]
  | some c => simp [Except.map]

theorem typeAt_eq_ok {s : Schema} {i : Nat} {t : FieldType} (h : s.types[i]? = some t) :
    s.typeAt i = .ok t := typeAt_eq_ok_iff.mpr h

theorem set_eq_ok {r : Row} {i : Nat} {v : Value} (hi : i < r.fields.length)
    (htype : r.schema.types[i]? = some v.type) (hlength : checkLength i v = .ok ()) :
    r.set i v = .ok { r with fields := r.fields.set i (some v) } := by
  simp [set, check, hi, typeAt_eq_ok htype, hlength, Except.map]

/-- Storing fields that fit behind those that are stored already. -/
theorem setFrom_eq_ok (s : Schema) (place : Option RecordId) (done rest : List (Option Value))
    (h : FieldsFit s.types (done ++ rest)) :
    setFrom ⟨s, done ++ List.replicate rest.length none, place⟩ done.length rest =
      .ok ⟨s, done ++ rest, place⟩ := by
  induction rest generalizing done with
  | nil => simp [setFrom]
  | cons f rest ih =>
    have hrest : FieldsFit s.types ((done ++ [f]) ++ rest) := by simpa using h
    have hlen : (done ++ [f]).length = done.length + 1 := by simp
    have hih := ih (done ++ [f]) hrest
    rw [hlen] at hih
    cases f with
    | none => simpa [setFrom, List.replicate_succ] using hih
    | some v =>
      have hv : (done ++ some v :: rest)[done.length]? = some (some v) := by simp
      obtain ⟨htype, hlength⟩ := h.typed done.length v hv
      have hset := set_eq_ok
        (r := ⟨s, done ++ List.replicate (rest.length + 1) none, place⟩) (by simp) htype hlength
      simp only [setFrom, List.length_cons, hset]
      simpa [List.replicate_succ] using hih

theorem ofFields_eq_ok {s : Schema} {fields : List (Option Value)}
    (h : FieldsFit s.types fields) : ofFields s fields = .ok ⟨s, fields, none⟩ := by
  have hlen : fields.length = s.size := by rw [h.length_eq, Schema.length_types]
  have := setFrom_eq_ok s none [] fields h
  simpa [ofFields, blank, hlen] using this

/-- What the check before a value is stored has established. -/
theorem of_check_eq_ok {r : Row} {i : Nat} {v : Value} (h : r.check i v = .ok ()) :
    i < r.fields.length ∧ r.schema.types[i]? = some v.type ∧ checkLength i v = .ok () := by
  unfold check at h
  split at h
  · next hlt =>
    split at h
    · cases h
    · next expected htype =>
      split at h
      · next heq => exact ⟨hlt, typeAt_eq_ok_iff.mp (heq ▸ htype), h⟩
      · cases h
  · cases h

/-- A row without values is well formed. -/
theorem wellFormed_blank (s : Schema) : (blank s).WellFormed := by
  refine ⟨by simp [blank], fun i v hv => ?_⟩
  have hnone : some v ∈ List.replicate s.size none := List.mem_of_getElem? hv
  cases List.eq_of_mem_replicate hnone

/-- Storing a value that passes the check keeps a row well formed. -/
theorem WellFormed.set {r r' : Row} (hr : r.WellFormed) {i : Nat} {v : Value}
    (h : r.set i v = .ok r') : r'.WellFormed := by
  unfold Row.set at h
  cases hcheck : r.check i v with
  | error e => simp [hcheck, Except.map] at h
  | ok _ =>
    obtain ⟨hlt, htype, hlength⟩ := of_check_eq_ok hcheck
    obtain rfl : { r with fields := r.fields.set i (some v) } = r' := by
      simpa [hcheck, Except.map] using h
    refine ⟨by simpa using hr.1, fun k u hu => ?_⟩
    by_cases hk : i = k
    · subst hk
      obtain rfl : v = u := by simpa [hlt] using hu
      exact ⟨htype, hlength⟩
    · exact hr.2 k u (by simpa [List.getElem?_set_ne hk] using hu)

theorem WellFormed.setFrom {r r' : Row} (hr : r.WellFormed) {i : Nat}
    {fields : List (Option Value)} (h : r.setFrom i fields = .ok r') : r'.WellFormed := by
  induction fields generalizing r i with
  | nil =>
    obtain rfl := Except.ok.inj h
    exact hr
  | cons f rest ih =>
    cases f with
    | none => exact ih hr h
    | some v =>
      simp only [Row.setFrom] at h
      split at h
      · cases h
      · next hset => exact ih (hr.set hset) h

/-- Every row that is built from fields is well formed. -/
theorem wellFormed_of_ofFields {s : Schema} {fields : List (Option Value)} {r : Row}
    (h : ofFields s fields = .ok r) : r.WellFormed :=
  (wellFormed_blank s).setFrom h

theorem get_eq_ok {r : Row} {i : Nat} {f : Option Value} (h : r.fields[i]? = some f) :
    r.get i = .ok f := by
  simp [get, h]

/-- A well-formed row of the same field types as a schema. -/
structure Fits (s : Schema) (r : Row) : Prop where
  types_eq : r.schema.types = s.types
  fields : FieldsFit s.types r.fields

namespace Fits

variable {s : Schema} {r : Row}

theorem of_wellFormed (h : r.WellFormed) (htypes : r.schema.types = s.types) : r.Fits s :=
  ⟨htypes, htypes ▸ (wellFormed_iff r).mp h⟩

theorem wellFormed (h : r.Fits s) : r.WellFormed :=
  (wellFormed_iff r).mpr (h.types_eq ▸ h.fields)

theorem of_types_eq (h : r.Fits s) {s' : Schema} (htypes : s.types = s'.types) : r.Fits s' :=
  ⟨h.types_eq.trans htypes, htypes ▸ h.fields⟩

/-- Each column has a field. -/
theorem exists_field (h : r.Fits s) {i : Nat} (hi : i < s.size) :
    ∃ f, r.fields[i]? = some f := by
  have hlt : i < r.fields.length := by
    rw [h.fields.length_eq, Schema.length_types]
    exact hi
  exact ⟨r.fields[i], List.getElem?_eq_getElem hlt⟩

theorem stamp (h : r.Fits s) (place : RecordId) : (r.stamp place).Fits s :=
  ⟨h.types_eq, h.fields⟩

end Fits

end Row

end RowEngine
