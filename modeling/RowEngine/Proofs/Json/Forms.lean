import RowEngine.Codec
import RowEngine.Proofs.Json.Reading

/-!
JSON forms that lose nothing. A form is lawful when its documents are plain and reading
one gives back the value that it was made from; then the text of a value reads back as
that value. Every form of the engine is lawful, the forms of nested values by those of
their parts.
-/
namespace RowEngine

/-- A form whose documents can be written as they are and name the value they are of. -/
class LawfulJsonForm (α : Type) [JsonForm α] : Prop where
  plain_toJson : ∀ a : α, (toJson a).Plain
  ofJson_toJson : ∀ a : α, ofJson? (toJson a) = some a

export LawfulJsonForm (plain_toJson ofJson_toJson)

attribute [simp] LawfulJsonForm.ofJson_toJson

theorem decode_encode {α : Type} [JsonForm α] [LawfulJsonForm α] (a : α) :
    decode? (encode a) = some a := by
  rw [decode?, encode, (plain_toJson a).read_print, Option.bind_some, ofJson_toJson]

/-- What text can be relied on for: it reads back as the value it was written for, no two
values share it, and a value read from any text survives being written and read again. -/
structure RoundTrips (α : Type) [JsonForm α] : Prop where
  decode_encode : ∀ a : α, decode? (encode a) = some a
  encode_injective : ∀ a b : α, encode a = encode b → a = b
  decode_encode_of_decode : ∀ (text : String) (a : α),
    decode? text = some a → decode? (encode a) = some a

theorem roundTrips (α : Type) [JsonForm α] [LawfulJsonForm α] : RoundTrips α where
  decode_encode := RowEngine.decode_encode
  encode_injective a b h := by
    have ha := RowEngine.decode_encode a
    rw [h, RowEngine.decode_encode] at ha
    exact (Option.some.inj ha).symm
  decode_encode_of_decode _ a _ := RowEngine.decode_encode a

namespace Json

/-! ### Parts of documents -/

theorem Plain.ofNat (n : Nat) : (Json.ofNat n).Plain := .int n

@[simp] theorem asString_ofString (s : String) : (ofString s).asString? = some s := rfl

theorem asNatBelow_ofNat {bound n : Nat} (h : n < bound) :
    asNatBelow? bound (ofNat n) = some n := by
  simp [asNatBelow?, ofNat, h]

@[simp] theorem asWord_ofNat (w : UInt64) : (ofNat w.toNat).asWord? = some w := by
  simp [asWord?, asNatBelow_ofNat w.toNat_lt_size]

@[simp] theorem asHalfWord_ofNat (w : UInt32) : (ofNat w.toNat).asHalfWord? = some w := by
  simp [asHalfWord?, asNatBelow_ofNat w.toNat_lt_size]

@[simp] theorem asByte_ofNat (b : UInt8) : (ofNat b.toNat).asByte? = some b := by
  simp [asByte?, asNatBelow_ofNat b.toNat_lt_size]

@[simp] theorem asInt32_int (n : Int32) : (int n.toInt).asInt32? = some n := by
  have hrange : -0x80000000 ≤ n.toInt ∧ n.toInt < 0x80000000 := ⟨n.le_toInt, n.toInt_lt⟩
  rw [asInt32?, if_pos hrange, Int32.ofInt_toInt]

section Members

variable {members : List (String × Json)} (hkeys : (members.map Prod.fst).Nodup)

include hkeys

theorem lookup_of_mem {k : String} {j : Json} (h : (k, j) ∈ members) :
    (members.map fun (k, v) => (some k, v)).lookup (some k) = some j := by
  induction members with
  | nil => cases h
  | cons m members ih =>
    obtain ⟨hm, hkeys⟩ := List.nodup_cons.mp hkeys
    rcases List.mem_cons.mp h with rfl | hmem
    · simp
    · have hne : (some k == some m.1) = false := by
        rw [beq_eq_false_iff_ne]
        intro he
        cases he
        exact hm (List.mem_map.mpr ⟨_, hmem, rfl⟩)
      rw [List.map_cons, List.lookup_cons, hne, ih hkeys hmem]

theorem countP_key_le (k : String) :
    (members.map fun (k, v) => (some k, v)).countP (fun m => m.1 = some k) ≤ 1 := by
  calc (members.map fun (k, v) => (some k, v)).countP (fun m => m.1 = some k)
      = (members.map Prod.fst).count k := by
        simp [List.count, List.countP_map, Function.comp_def, BEq.beq]
    _ ≤ 1 := List.nodup_iff_count.mp hkeys k

theorem objectMembers_map :
    objectMembers? (members.map Prod.fst) (members.map fun (k, v) => (some k, v)) =
      some (members.map fun m => some m.2) := by
  have hsome : (members.map fun (k, v) => (some k, v)).all (fun m => m.1.isSome) = true := by
    simp [List.all_map, Function.comp_def]
  have honce : (members.map Prod.fst).all (fun k =>
      (members.map fun (k, v) => (some k, v)).countP (fun m => m.1 = some k) ≤ 1) = true := by
    simp only [List.all_eq_true, decide_eq_true_eq]
    exact fun k _ => countP_key_le hkeys k
  rw [objectMembers?, if_pos ⟨hsome, honce⟩, List.map_map]
  congr 1
  exact List.map_congr_left fun _ hm => lookup_of_mem hkeys hm

end Members

/-- A record's object, which names each key once, is read as the values of its members. -/
theorem bind_members {α : Type} (members : List (String × Json))
    (hkeys : (members.map Prod.fst).Nodup) (f : List (Option Json) → Option α) :
    (members? (members.map Prod.fst) (ofMembers members)).bind f =
      f (members.map fun m => some m.2) := by
  rw [ofMembers, members?, objectMembers_map hkeys, Option.bind_some]

theorem bind_optionalMembers {α : Type} (members : List (String × Json))
    (hkeys : (members.map Prod.fst).Nodup) (f : List (Option Json) → Option α) :
    (optionalMembers? (members.map Prod.fst) (ofMembers members)).bind f =
      f (members.map fun m => some m.2) := by
  rw [ofMembers, optionalMembers?, objectMembers_map hkeys, Option.bind_some]

/-- Items written one by one are read one by one. -/
theorem mapM_map_eq {α : Type} {write : α → Json} {read : Json → Option α}
    (h : ∀ a, read (write a) = some a) (as : List α) : (as.map write).mapM read = some as := by
  rw [List.mapM_map, show read ∘ write = some from funext h]
  induction as with
  | nil => rfl
  | cons a as ih => simp [ih]

end Json

open Json

/-! ### The forms -/

instance : LawfulJsonForm FieldType where
  plain_toJson t := .string t.jsonName
  ofJson_toJson t := by cases t <;> rfl

instance : LawfulJsonForm Comparison where
  plain_toJson c := .string c.jsonName
  ofJson_toJson c := by cases c <;> rfl

instance : LawfulJsonForm Value where
  plain_toJson
    | .int n => .members (by simp [Plain.int])
    | .string s => .members (by simp [Plain.string])
  ofJson_toJson
    | .int n => by simp [ofJson?, toJson, ofMembers, asTagged?]
    | .string s => by simp [ofJson?, toJson, ofMembers, asTagged?]

theorem Column.plain_nameToJson (name : Option String) : (nameToJson name).Plain := by
  cases name with
  | none => exact .null
  | some s => exact .string s

@[simp] theorem Column.nameOfJson_nameToJson (name : Option String) :
    nameOfJson? (nameToJson name) = some name := by
  cases name <;> rfl

instance : LawfulJsonForm Column where
  plain_toJson c := .members (by simp [plain_toJson, Column.plain_nameToJson])
  ofJson_toJson c := by
    refine (bind_members [("field_type", toJson c.type), ("field_name", Column.nameToJson c.name)]
      (by simp) _).trans ?_
    simp

theorem Schema.plain_columnsToJson (columns : List Column) : (columnsToJson columns).Plain :=
  .arr (List.forall_mem_map.mpr fun c _ => plain_toJson c)

@[simp] theorem Schema.columnsOfJson_columnsToJson (columns : List Column) :
    columnsOfJson? (columnsToJson columns) = some columns :=
  mapM_map_eq ofJson_toJson columns

instance : LawfulJsonForm Schema where
  plain_toJson s := .members (by simp [Schema.plain_columnsToJson])
  ofJson_toJson s := by
    refine (bind_members [("items", Schema.columnsToJson s.columns)] (by simp) _).trans ?_
    simp

instance : LawfulJsonForm Predicate where
  plain_toJson p := .members (by simp [plain_toJson, Plain.ofNat])
  ofJson_toJson p := by
    refine (bind_members [("field", .ofNat p.field.toNat), ("op", toJson p.comparison),
      ("operand", toJson p.operand)] (by simp) _).trans ?_
    simp

instance : LawfulJsonForm JoinPredicate where
  plain_toJson p := .members (by simp [plain_toJson, Plain.ofNat])
  ofJson_toJson p := by
    refine (bind_members [("left_field", .ofNat p.leftField.toNat), ("op", toJson p.comparison),
      ("right_field", .ofNat p.rightField.toNat)] (by simp) _).trans ?_
    simp

instance : LawfulJsonForm TableId where
  plain_toJson t := .ofNat _
  ofJson_toJson t := by simp [ofJson?, toJson]

instance : LawfulJsonForm TransactionId where
  plain_toJson t := .ofNat _
  ofJson_toJson t := by simp [ofJson?, toJson]

instance : LawfulJsonForm PageId where
  plain_toJson p := .members (by simp [plain_toJson, Plain.ofNat])
  ofJson_toJson p := by
    refine (bind_members [("table", toJson p.table), ("page_no", .ofNat p.number.toNat)]
      (by simp) _).trans ?_
    simp

instance : LawfulJsonForm RecordId where
  plain_toJson r := .members (by simp [plain_toJson, Plain.ofNat])
  ofJson_toJson r := by
    refine (bind_members [("page", toJson r.page), ("slot", .ofNat r.slot.toNat)]
      (by simp) _).trans ?_
    simp

instance : LawfulJsonForm Fingerprint where
  plain_toJson f := .arr (List.forall_mem_map.mpr fun _ _ => .ofNat _)
  ofJson_toJson f := by
    simp [toJson, ofJson?, mapM_map_eq asByte_ofNat, f.length_bytes]

instance : LawfulJsonForm Config where
  plain_toJson c := .members (by simp [Plain.ofNat])
  ofJson_toJson c := by
    refine (bind_optionalMembers [("page_size", .ofNat c.pageSize.toNat),
      ("buffer_pool_pages", .ofNat c.poolPages.toNat)] (by simp) _).trans ?_
    simp [Config.memberOr]

/-- Writing any value of any serialisable type as text and reading the text as that type
gives the value again, so text tells values apart and rereading changes nothing. -/
theorem forms_round_trip :
    RoundTrips FieldType ∧ RoundTrips Comparison ∧ RoundTrips Value ∧ RoundTrips Column ∧
      RoundTrips Schema ∧ RoundTrips Predicate ∧ RoundTrips JoinPredicate ∧ RoundTrips TableId ∧
      RoundTrips TransactionId ∧ RoundTrips PageId ∧ RoundTrips RecordId ∧
      RoundTrips Fingerprint ∧ RoundTrips Config :=
  ⟨roundTrips _, roundTrips _, roundTrips _, roundTrips _, roundTrips _, roundTrips _,
    roundTrips _, roundTrips _, roundTrips _, roundTrips _, roundTrips _, roundTrips _,
    roundTrips _⟩

end RowEngine
