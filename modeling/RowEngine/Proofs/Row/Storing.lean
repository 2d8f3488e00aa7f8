import RowEngine.Proofs.Row.Typing

/-!
Storing into rows. Which values a column takes depends on the schema alone, not on what the
row holds: a value of the column's type, and of strings those that are not too long. So a row
keeps its form through any stores, of which the refused ones leave it as it is, and a row of
many values is built by storing them one after another, up to the first that is refused.
-/
namespace RowEngine

namespace Schema

/-- Column `i` is there and takes a value. -/
structure Takes (s : Schema) (i : Nat) (v : Value) : Prop where
  typed : s.types[i]? = some v.type
  short : ∀ text, v = .string text → text.utf8ByteSize ≤ FieldType.maxStringBytes

/-- Why column `i` does not take a value: there is no such column, it has another type, or,
where the type is right, the string is too long. -/
inductive Refuses (s : Schema) (i : Nat) : Value → Error → Prop
  | missing {v : Value} (h : s.size ≤ i) : Refuses s i v (.indexOutOfRange i s.size)
  | mistyped {v : Value} {t : FieldType} (h : s.types[i]? = some t) (hne : t ≠ v.type) :
      Refuses s i v (.typeMismatch i t v.type)
  | overlong {text : String} (h : s.types[i]? = some .string)
      (hlong : FieldType.maxStringBytes < text.utf8ByteSize) :
      Refuses s i (.string text) (.valueTooLong i text.utf8ByteSize)

/-- The columns from `i` on take a list of values. -/
def TakesFrom (s : Schema) (i : Nat) (values : List Value) : Prop :=
  ∀ k v, values[k]? = some v → s.Takes (i + k) v

/-- The columns from `i` on take the values of a list up to one, which is refused. -/
def RefusesFrom (s : Schema) (i : Nat) (values : List Value) (e : Error) : Prop :=
  ∃ k v, values[k]? = some v ∧ (∀ j < k, ∀ u, values[j]? = some u → s.Takes (i + j) u) ∧
    s.Refuses (i + k) v e

section Reasons

variable {s : Schema} {i : Nat} {v : Value} {values : List Value} {e e' : Error}

theorem lt_size_of_types {t : FieldType} (h : s.types[i]? = some t) : i < s.size := by
  rw [← length_types]
  exact (List.getElem?_eq_some_iff.mp h).1

theorem takes_int {n : Int32} (h : s.types[i]? = some .int) : s.Takes i (.int n) where
  typed := h
  short := nofun

theorem takes_string {text : String} (h : s.types[i]? = some .string)
    (hshort : text.utf8ByteSize ≤ FieldType.maxStringBytes) : s.Takes i (.string text) where
  typed := h
  short _ heq := Value.string.inj heq ▸ hshort

theorem Refuses.not_takes (h : s.Refuses i v e) : ¬ s.Takes i v := by
  intro ht
  cases h with
  | missing hle => exact Nat.not_le_of_lt (lt_size_of_types ht.typed) hle
  | mistyped htype hne => exact hne (Option.some.inj (htype.symm.trans ht.typed))
  | overlong _ hlong => exact absurd (ht.short _ rfl) (Nat.not_le_of_lt hlong)

theorem Refuses.unique (h : s.Refuses i v e) (h' : s.Refuses i v e') : e = e' := by
  cases h with
  | missing hle =>
    cases h' with
    | missing => rfl
    | mistyped htype => exact absurd hle (Nat.not_le_of_lt (lt_size_of_types htype))
    | overlong htype => exact absurd hle (Nat.not_le_of_lt (lt_size_of_types htype))
  | mistyped htype hne =>
    cases h' with
    | missing hle => exact absurd hle (Nat.not_le_of_lt (lt_size_of_types htype))
    | mistyped htype' => rw [Option.some.inj (htype.symm.trans htype')]
    | overlong htype' => exact absurd (Option.some.inj (htype.symm.trans htype')) hne
  | overlong htype =>
    cases h' with
    | missing hle => exact absurd hle (Nat.not_le_of_lt (lt_size_of_types htype))
    | mistyped htype' hne => exact absurd (Option.some.inj (htype'.symm.trans htype)) hne
    | overlong => rfl

theorem TakesFrom.cons (hv : s.Takes i v) (h : s.TakesFrom (i + 1) values) :
    s.TakesFrom i (v :: values)
  | 0, _, hu => Option.some.inj hu ▸ hv
  | k + 1, u, hu => Nat.succ_add_eq_add_succ i k ▸ h k u hu

theorem RefusesFrom.head (hv : s.Refuses i v e) : s.RefusesFrom i (v :: values) e :=
  ⟨0, v, rfl, nofun, hv⟩

theorem RefusesFrom.cons (hv : s.Takes i v) (h : s.RefusesFrom (i + 1) values e) :
    s.RefusesFrom i (v :: values) e := by
  obtain ⟨k, u, hu, hbefore, hrefuses⟩ := h
  refine ⟨k + 1, u, hu, fun j hj w hw => ?_, Nat.succ_add_eq_add_succ i k ▸ hrefuses⟩
  cases j with
  | zero => exact Option.some.inj hw ▸ hv
  | succ j => exact Nat.succ_add_eq_add_succ i j ▸ hbefore j (by omega) w hw

theorem RefusesFrom.not_takesFrom (h : s.RefusesFrom i values e) : ¬ s.TakesFrom i values := by
  obtain ⟨k, v, hv, -, hrefuses⟩ := h
  exact fun htakes => hrefuses.not_takes (htakes k v hv)

/-- The value that is refused first, and why, is determined. -/
theorem RefusesFrom.unique (h : s.RefusesFrom i values e) (h' : s.RefusesFrom i values e') :
    e = e' := by
  obtain ⟨k, v, hv, hbefore, hrefuses⟩ := h
  obtain ⟨k', v', hv', hbefore', hrefuses'⟩ := h'
  obtain hlt | rfl | hlt := Nat.lt_trichotomy k k'
  · exact absurd (hbefore' k hlt v hv) hrefuses.not_takes
  · obtain rfl := Option.some.inj (hv.symm.trans hv')
    exact hrefuses.unique hrefuses'
  · exact absurd (hbefore k' hlt v' hv') hrefuses'.not_takes

end Reasons

end Schema

namespace Row

/-! ### One value -/

/-- The check looks at the column first, then at the type and last at the length. -/
theorem check_decides {r : Row} (hr : r.WellFormed) (i : Nat) (v : Value) :
    r.schema.Takes i v ∧ r.check i v = .ok () ∨
      ∃ e, r.schema.Refuses i v e ∧ r.check i v = .error e := by
  by_cases hi : i < r.fields.length
  · obtain ⟨t, ht⟩ : ∃ t, r.schema.types[i]? = some t := by
      rw [hr.1, ← Schema.length_types] at hi
      exact ⟨_, List.getElem?_eq_getElem hi⟩
    by_cases htype : t = v.type
    · subst htype
      have hcheck : r.check i v = checkLength i v := by simp [check, hi, typeAt_eq_ok ht]
      cases v with
      | int n => exact .inl ⟨Schema.takes_int ht, hcheck⟩
      | string text =>
        by_cases hlong : text.utf8ByteSize > FieldType.maxStringBytes
        · exact .inr ⟨_, .overlong ht hlong, by simp [hcheck, checkLength, hlong]⟩
        · have htakes := Schema.takes_string ht (Nat.le_of_not_lt hlong)
          exact .inl ⟨htakes, by simp [hcheck, checkLength, hlong]⟩
    · exact .inr ⟨_, .mistyped ht htype, by simp [check, hi, typeAt_eq_ok ht, htype]⟩
  · exact .inr ⟨_, .missing (hr.1 ▸ Nat.le_of_not_lt hi), by rw [check, if_neg hi, hr.1]⟩

theorem WellFormed.takes {r : Row} (hr : r.WellFormed) {i : Nat} {v : Value}
    (hv : r.fields[i]? = some (some v)) : r.schema.Takes i v := by
  obtain ⟨htakes, -⟩ | ⟨e, -, hcheck⟩ := check_decides hr i v
  · exact htakes
  · obtain ⟨htype, hlength⟩ := hr.2 i v hv
    have hi : i < r.fields.length := (List.getElem?_eq_some_iff.mp hv).1
    simp [check, hi, typeAt_eq_ok htype, hlength] at hcheck

/-- Storing in place: the answer, and the row that is there afterwards. -/
def store (r : Row) (i : Nat) (v : Value) : Except Error Unit × Row :=
  match r.set i v with
  | .ok r' => (.ok (), r')
  | .error e => (.error e, r)

/-- What a store does: a value that is refused changes nothing, and one that is taken changes
its own field alone. -/
inductive Stored (r : Row) (i : Nat) (v : Value) : Except Error Unit × Row → Prop
  | refused {e : Error} (h : r.schema.Refuses i v e) : Stored r i v (.error e, r)
  | taken {r' : Row} (h : r.schema.Takes i v) (hself : r'.fields[i]? = some (some v))
      (hother : ∀ j, j ≠ i → r'.fields[j]? = r.fields[j]?) (hschema : r'.schema = r.schema)
      (hplace : r'.recordId = r.recordId) : Stored r i v (.ok (), r')

theorem Stored.eq_of_refuses {r : Row} {i : Nat} {v : Value} {o : Except Error Unit × Row}
    (h : Stored r i v o) {e : Error} (hrefuses : r.schema.Refuses i v e) : o = (.error e, r) := by
  cases h with
  | refused h => rw [h.unique hrefuses]
  | taken h => exact absurd h hrefuses.not_takes

section Store

variable {r : Row} (hr : r.WellFormed) (i : Nat) (v : Value)

include hr

theorem stored_store : Stored r i v (r.store i v) := by
  obtain ⟨htakes, hcheck⟩ | ⟨e, hrefuses, hcheck⟩ := check_decides hr i v
  · have hstore : r.store i v = (.ok (), { r with fields := r.fields.set i (some v) }) := by
      simp [store, set, hcheck, Except.map]
    have hi : i < r.fields.length := (of_check_eq_ok hcheck).1
    rw [hstore]
    exact .taken htakes (by simp [hi]) (fun j hj => List.getElem?_set_ne (Ne.symm hj)) rfl rfl
  · have hstore : r.store i v = (.error e, r) := by simp [store, set, hcheck, Except.map]
    rw [hstore]
    exact .refused hrefuses

theorem schema_store : (r.store i v).2.schema = r.schema := by
  have h := stored_store hr i v
  generalize r.store i v = o at h ⊢
  cases h with
  | refused => rfl
  | taken _ _ _ hschema => exact hschema

theorem WellFormed.store : (r.store i v).2.WellFormed := by
  unfold Row.store
  split
  · next hset => exact hr.set hset
  · exact hr

end Store

/-! ### Many values -/

/-- Stores values in the fields that are named with them, one after another. -/
def storeAll (r : Row) : List (Value × Nat) → List (Except Error Unit) × Row
  | [] => ([], r)
  | (v, i) :: rest =>
      let (answer, r) := r.store i v
      let (answers, r) := r.storeAll rest
      (answer :: answers, r)

/-- No stores, of which any number may be refused, take a row out of its form. -/
theorem WellFormed.storeAll {r : Row} (hr : r.WellFormed) (stores : List (Value × Nat)) :
    (r.storeAll stores).2.WellFormed ∧ (r.storeAll stores).2.schema = r.schema := by
  induction stores generalizing r with
  | nil => exact ⟨hr, rfl⟩
  | cons c rest ih =>
    obtain ⟨v, i⟩ := c
    obtain ⟨hform, hschema⟩ := ih (hr.store i v)
    exact ⟨hform, hschema.trans (schema_store hr i v)⟩

/-- Values for the columns from `i` on: they are all taken, and the row is what storing them
one after another gives, or the first that is not taken decides. -/
theorem setFrom_decides {r : Row} (hr : r.WellFormed) (i : Nat) (values : List Value) :
    (r.schema.TakesFrom i values ∧ ∃ r', r.setFrom i (values.map some) = .ok r' ∧
        r.storeAll (values.zipIdx i) = (values.map fun _ => .ok (), r')) ∨
    ∃ e, r.schema.RefusesFrom i values e ∧ r.setFrom i (values.map some) = .error e := by
  induction values generalizing r i with
  | nil => exact .inl ⟨nofun, r, rfl, rfl⟩
  | cons v rest ih =>
    obtain ⟨htakes, hcheck⟩ | ⟨e, hrefuses, hcheck⟩ := check_decides hr i v
    · obtain ⟨r', hset⟩ : ∃ r', r.set i v = .ok r' := ⟨_, by rw [set, hcheck]; rfl⟩
      have hstore : r.store i v = (.ok (), r') := by simp [store, hset]
      have hsame : r'.schema = r.schema := by simpa [hstore] using schema_store hr i v
      have hfrom : r.setFrom i ((v :: rest).map some) = r'.setFrom (i + 1) (rest.map some) := by
        simp only [List.map_cons, setFrom, hset]
      obtain ⟨hrest, r'', hok, hstores⟩ | ⟨e, hrefuses, herror⟩ := ih (hr.set hset) (i + 1)
      · refine .inl ⟨.cons htakes (hsame ▸ hrest), r'', hfrom.trans hok, ?_⟩
        simp only [List.zipIdx_cons, storeAll, hstore, hstores, List.map_cons]
      · exact .inr ⟨e, .cons htakes (hsame ▸ hrefuses), hfrom.trans herror⟩
    · exact .inr ⟨e, .head hrefuses, by simp [setFrom, set, hcheck, Except.map]⟩

section OfValues

variable {s : Schema} {values : List Value}

/-- The number of values is looked at first, and then the values in order. -/
theorem ofValues_decides (s : Schema) (values : List Value) :
    (values.length = s.size ∧ s.TakesFrom 0 values ∧ ∃ r, ofValues s values = .ok r ∧
        (blank s).storeAll values.zipIdx = (values.map fun _ => .ok (), r)) ∨
    ∃ e, (values.length ≠ s.size ∧ e = .indexOutOfRange values.length s.size ∨
        values.length = s.size ∧ s.RefusesFrom 0 values e) ∧ ofValues s values = .error e := by
  by_cases hlength : values.length = s.size
  · have hfrom : ofValues s values = (blank s).setFrom 0 (values.map some) := if_pos hlength
    rw [hfrom]
    obtain ⟨htakes, hbuilt⟩ | ⟨e, hrefuses, herror⟩ :=
      setFrom_decides (wellFormed_blank s) 0 values
    · exact .inl ⟨hlength, htakes, hbuilt⟩
    · exact .inr ⟨e, .inr ⟨hlength, hrefuses⟩, herror⟩
  · exact .inr ⟨_, .inl ⟨hlength, rfl⟩, if_neg hlength⟩

theorem exists_ofValues_iff :
    (∃ r, ofValues s values = .ok r) ↔ values.length = s.size ∧ s.TakesFrom 0 values := by
  obtain ⟨hlength, htakes, r, hok, -⟩ | ⟨e, hfault, herror⟩ := ofValues_decides s values
  · exact iff_of_true ⟨r, hok⟩ ⟨hlength, htakes⟩
  · refine iff_of_false (fun ⟨r, hok⟩ => by simp [herror] at hok) fun ⟨hlength, htakes⟩ => ?_
    obtain ⟨hne, -⟩ | ⟨-, hrefuses⟩ := hfault
    · exact hne hlength
    · exact hrefuses.not_takesFrom htakes

theorem storeAll_of_ofValues {r : Row} (h : ofValues s values = .ok r) :
    (blank s).storeAll values.zipIdx = (values.map fun _ => .ok (), r) := by
  obtain ⟨-, -, r', hok, hstores⟩ | ⟨e, -, herror⟩ := ofValues_decides s values
  · obtain rfl := Except.ok.inj (h.symm.trans hok)
    exact hstores
  · simp [herror] at h

theorem ofValues_eq_error_iff {e : Error} : ofValues s values = .error e ↔
    values.length ≠ s.size ∧ e = .indexOutOfRange values.length s.size ∨
      values.length = s.size ∧ s.RefusesFrom 0 values e := by
  obtain ⟨hlength, htakes, r, hok, -⟩ | ⟨e', hfault, herror⟩ := ofValues_decides s values
  · refine iff_of_false (by simp [hok]) ?_
    rintro (⟨hne, -⟩ | ⟨-, hrefuses⟩)
    · exact hne hlength
    · exact hrefuses.not_takesFrom htakes
  · rw [herror, Except.error.injEq]
    constructor
    · rintro rfl
      exact hfault
    · rintro (⟨hne, rfl⟩ | ⟨hlength, hrefuses⟩)
      · obtain ⟨-, rfl⟩ | ⟨hlength, -⟩ := hfault
        · rfl
        · exact absurd hlength hne
      · obtain ⟨hne, -⟩ | ⟨-, hrefuses'⟩ := hfault
        · exact absurd hlength hne
        · exact hrefuses'.unique hrefuses

end OfValues

/-- How a row begins: with every field unset, or with a value in each. -/
inductive Begun (s : Schema) : Row → Prop
  | unset : Begun s (blank s)
  | full {values : List Value} {r : Row} (h : ofValues s values = .ok r) : Begun s r

theorem Begun.wellFormed {s : Schema} {r : Row} (h : Begun s r) :
    r.WellFormed ∧ r.schema = s := by
  cases h with
  | unset => exact ⟨wellFormed_blank s, rfl⟩
  | @full values _ h =>
    have hstores := (wellFormed_blank s).storeAll values.zipIdx
    rw [storeAll_of_ofValues h] at hstores
    exact hstores

/-- Rows stay well formed. Whatever is stored into a row that begins without values or with
all of them, the row has a field for each column and no value that its column does not take;
a refused store leaves it as it is, and any other changes one field. A row of many values can
be built exactly if there are as many as columns and each is taken, and is then what storing
them one by one gives; otherwise a wrong number is reported, and else what is wrong with the
first value that is refused. -/
theorem stores_keep_form {s : Schema} {start : Row} (h : Begun s start)
    (stores : List (Value × Nat)) :
    let r := (start.storeAll stores).2
    (r.schema = s ∧ r.fields.length = s.size ∧
      ∀ (i : Nat) (v : Value), r.fields[i]? = some (some v) → s.types[i]? = some v.type ∧
        ∀ text, v = .string text → text.utf8ByteSize ≤ 128) ∧
    (∀ i v, Stored r i v (r.store i v)) ∧
    ∀ values,
      ((∃ full, ofValues s values = .ok full) ↔
        values.length = s.size ∧ s.TakesFrom 0 values) ∧
      (∀ full, ofValues s values = .ok full →
        (blank s).storeAll values.zipIdx = (values.map fun _ => .ok (), full)) ∧
      ∀ e, ofValues s values = .error e ↔
        values.length ≠ s.size ∧ e = .indexOutOfRange values.length s.size ∨
          values.length = s.size ∧ s.RefusesFrom 0 values e := by
  intro r
  obtain ⟨hstart, rfl⟩ := h.wellFormed
  obtain ⟨hform, hschema⟩ := hstart.storeAll stores
  refine ⟨⟨hschema, hschema ▸ hform.1, fun i v hv => ?_⟩, stored_store hform, fun values =>
    ⟨exists_ofValues_iff, fun _ => storeAll_of_ofValues, fun _ => ofValues_eq_error_iff⟩⟩
  have htakes := hform.takes hv
  rw [hschema] at htakes
  exact ⟨htakes.typed, htakes.short⟩

namespace Sample

def named : Schema := ⟨[⟨.int, some "id"⟩, ⟨.string, some "name"⟩]⟩

/-- A string whose characters take two bytes each. -/
def accents (n : Nat) : String := String.ofList (List.replicate n 'é')

def filled : Row := ⟨named, [some (.int 7), some (.string (accents 64))], none⟩

theorem utf8ByteSize_accents (n : Nat) : (accents n).utf8ByteSize = 2 * n := by
  induction n with
  | zero => rfl
  | succ n ih =>
    have hcons : accents (n + 1) = String.singleton 'é' ++ accents n := by
      simp [accents, List.replicate_succ, String.ofList_cons]
    rw [hcons, String.utf8ByteSize_append, ih]
    have hchar : (String.singleton 'é').utf8ByteSize = 2 := by decide
    omega

theorem begun_filled : Begun named filled := by
  have hcount : [Value.int 7, .string (accents 64)].length = named.size := rfl
  have hbuilt : ofValues named [.int 7, .string (accents 64)] = .ok filled := by
    rw [ofValues, if_pos hcount]
    refine ofFields_eq_ok ⟨rfl, fun i v hv => ?_⟩
    match i, hv with
    | 0, rfl => exact ⟨rfl, rfl⟩
    | 1, rfl => exact ⟨rfl, by simp [checkLength, utf8ByteSize_accents, FieldType.maxStringBytes]⟩
  exact .full hbuilt

theorem refuses_accents {n : Nat} (h : 64 < n) :
    named.Refuses 1 (.string (accents n)) (.valueTooLong 1 (2 * n)) := by
  rw [← utf8ByteSize_accents]
  refine .overlong rfl ?_
  rw [utf8ByteSize_accents, FieldType.maxStringBytes]
  omega

end Sample

open Sample in
/-- A name of 64 characters fills its field, and one of 65 is refused wherever it comes, for
its bytes; of two faults in a list of values the first is told. -/
theorem accented_stores_keep_form :
    Begun named filled ∧
      filled.store 1 (.string (accents 65)) = (.error (.valueTooLong 1 130), filled) ∧
      (filled.storeAll [(.string (accents 65), 1), (.int 8, 0)]).2.fields.length = 2 ∧
      ofValues named [.int 7, .string (accents 65)] = .error (.valueTooLong 1 130) ∧
      ofValues named [.string (accents 65), .string (accents 65)] =
        .error (.typeMismatch 0 .int .string) ∧
      ofValues named [.string (accents 65)] = .error (.indexOutOfRange 1 2) := by
  obtain ⟨-, hstored, hvalues⟩ := stores_keep_form begun_filled []
  obtain ⟨⟨-, hlength, -⟩, -, -⟩ :=
    stores_keep_form begun_filled [(.string (accents 65), 1), (.int 8, 0)]
  have hlong : named.Refuses 1 (.string (accents 65)) (.valueTooLong 1 130) :=
    refuses_accents (by omega)
  have hnumber : named.Takes 0 (.int 7) := Schema.takes_int rfl
  have hstring : named.Refuses 0 (.string (accents 65)) (.typeMismatch 0 .int .string) :=
    .mistyped (v := .string (accents 65)) rfl nofun
  refine ⟨begun_filled, (hstored _ _).eq_of_refuses hlong, hlength, ?_, ?_, ?_⟩
  · exact ((hvalues _).2.2 _).mpr (.inr ⟨rfl, .cons hnumber (.head hlong)⟩)
  · exact ((hvalues _).2.2 _).mpr (.inr ⟨rfl, .head hstring⟩)
  · exact ((hvalues _).2.2 _).mpr (.inl ⟨nofun, rfl⟩)

end Row

end RowEngine
