import RowEngine.Proofs.Json.Forms

/-!
The bytes that a fingerprint is the hash of. They name what they were made from: two
schemas share them only when they are the same schema, whatever text their names hold,
and a domain tag without a zero byte ends where the first zero byte stands, so that it
and the payload after it can both be read off.
-/
namespace RowEngine

/-! ### From a text to its bytes -/

theorem toList_loop (bytes : ByteArray) (i : Nat) (done : List UInt8) :
    ByteArray.toList.loop bytes i done = done.reverse ++ bytes.data.toList.drop i := by
  fun_induction ByteArray.toList.loop bytes i done with
  | case1 i done hlt ih =>
    have hlt : i < bytes.data.size := hlt
    have hget : bytes.get! i = bytes.data[i] := getElem!_pos bytes.data i hlt
    rw [ih, hget, ← Array.getElem_toList hlt, List.reverse_cons, List.append_assoc,
      List.singleton_append, List.getElem_cons_drop]
  | case2 i done hge =>
    have hlen : bytes.data.toList.length ≤ i := Nat.le_of_not_lt hge
    rw [List.drop_eq_nil_of_le hlen, List.append_nil]

theorem toList_eq_data (bytes : ByteArray) : bytes.toList = bytes.data.toList := by
  rw [ByteArray.toList, toList_loop]
  rfl

/-- The bytes of a text are those of its characters, one after the other. -/
theorem toUTF8_toList (s : String) : s.toUTF8.toList = s.toList.flatMap String.utf8EncodeChar := by
  obtain ⟨cs, rfl⟩ : ∃ cs, s = String.ofList cs := ⟨s.toList, (String.ofList_toList).symm⟩
  rw [String.toUTF8_eq_toByteArray, String.toByteArray_ofList, toList_eq_data, List.utf8Encode,
    List.toList_data_toByteArray, String.toList_ofList]

theorem toUTF8_toList_inj {s t : String} (h : s.toUTF8.toList = t.toUTF8.toList) : s = t := by
  rw [toList_eq_data, toList_eq_data] at h
  exact String.toByteArray_inj.mp (ByteArray.ext (Array.toList_inj.mp h))

/-- Every byte of a character beyond ASCII carries the mark of a longer form. -/
theorem le_byte_of_lt {c : Char} (hc : 0x7f < c.val.toNat) :
    ∀ b ∈ String.utf8EncodeChar c, 128 ≤ b.toNat := by
  have hbyte (n : Nat) (hlow : 128 ≤ n) (hhigh : n < 256) : 128 ≤ (UInt8.ofNat n).toNat := by
    rw [UInt8.toNat_ofNat_of_lt' hhigh]
    exact hlow
  rw [String.utf8EncodeChar, if_neg (Nat.not_le.mpr hc)]
  -- two, three or four bytes
  repeat' split
  all_goals
    simp only [List.forall_mem_cons, List.not_mem_nil, false_implies, implies_true, and_true]
  · exact ⟨hbyte _ (by omega) (by omega), hbyte _ (by omega) (by omega)⟩
  · exact ⟨hbyte _ (by omega) (by omega), hbyte _ (by omega) (by omega),
      hbyte _ (by omega) (by omega)⟩
  · exact ⟨hbyte _ (by omega) (by omega), hbyte _ (by omega) (by omega),
      hbyte _ (by omega) (by omega), hbyte _ (by omega) (by omega)⟩

/-- Only the zero character has a zero among its bytes. -/
theorem eq_nul_of_zero_mem {c : Char} (h : 0 ∈ String.utf8EncodeChar c) : c = '\x00' := by
  have hascii : c.val.toNat ≤ 0x7f :=
    Nat.le_of_not_lt fun hc => absurd (le_byte_of_lt hc 0 h) (by decide)
  rw [String.utf8EncodeChar, if_pos hascii, List.mem_singleton] at h
  have hcode : c.val.toNat % 256 = 0 := by
    simpa using (congrArg UInt8.toNat h).symm
  exact Char.ext (UInt32.toNat_inj.mp (show c.val.toNat = 0 by omega))

theorem zero_notMem_toUTF8 {s : String} (h : '\x00' ∉ s.toList) : 0 ∉ s.toUTF8.toList := by
  intro hmem
  rw [toUTF8_toList, List.mem_flatMap] at hmem
  obtain ⟨c, hc, hzero⟩ := hmem
  exact h (eq_nul_of_zero_mem hzero ▸ hc)

/-! ### What the hashed bytes name -/

theorem Json.Plain.eq_of_print_eq {j j' : Json} (h : j.Plain) (h' : j'.Plain)
    (heq : j.print = j'.print) : j = j' := by
  have hread := h.read_print
  rw [heq, h'.read_print] at hread
  exact (Option.some.inj hread).symm

/-- The first mark ends the same part of two lists. -/
theorem eq_of_append_cons_eq {α : Type} {mark : α} {front front' back back' : List α}
    (hfront : mark ∉ front) (hfront' : mark ∉ front')
    (h : front ++ mark :: back = front' ++ mark :: back') : front = front' ∧ back = back' := by
  induction front generalizing front' with
  | nil =>
    cases front' with
    | nil => exact ⟨rfl, (List.cons.inj h).2⟩
    | cons b front' => exact absurd ((List.cons.inj h).1 ▸ List.mem_cons_self) hfront'
  | cons a front ih =>
    cases front' with
    | nil => exact absurd ((List.cons.inj h).1 ▸ List.mem_cons_self) hfront
    | cons b front' =>
      obtain ⟨hhead, htail⟩ := List.cons.inj h
      obtain ⟨hf, hb⟩ := ih (fun hm => hfront (.tail _ hm)) (fun hm => hfront' (.tail _ hm)) htail
      exact ⟨by rw [hhead, hf], hb⟩

namespace Fingerprint

theorem eq_of_preimage_eq {domain domain' : String} {payload payload' : List UInt8}
    (hdomain : '\x00' ∉ domain.toList) (hdomain' : '\x00' ∉ domain'.toList)
    (h : preimage domain payload = preimage domain' payload') :
    domain = domain' ∧ payload = payload' := by
  obtain ⟨htags, hpayloads⟩ :=
    eq_of_append_cons_eq (zero_notMem_toUTF8 hdomain) (zero_notMem_toUTF8 hdomain') h
  exact ⟨toUTF8_toList_inj htags, hpayloads⟩

end Fingerprint

namespace Schema

/-- The bytes that the fingerprint of a schema is the hash of: the tag and the compact
text of the list of columns. -/
def hashed (s : Schema) : List UInt8 :=
  Fingerprint.preimage "tuple_desc" (columnsToJson s.columns).print.toUTF8.toList

theorem eq_of_hashed_eq {a b : Schema} (h : a.hashed = b.hashed) : a = b := by
  have htag : '\x00' ∉ "tuple_desc".toList := by decide
  have hprint := toUTF8_toList_inj (Fingerprint.eq_of_preimage_eq htag htag h).2
  have hjson := (plain_columnsToJson a.columns).eq_of_print_eq (plain_columnsToJson b.columns) hprint
  have hread := columnsOfJson_columnsToJson a.columns
  rw [hjson, columnsOfJson_columnsToJson] at hread
  cases a
  cases b
  cases hread
  rfl

end Schema

/-- What is hashed follows equality. A schema's fingerprint hashes the same bytes for two
schemas exactly when they are equal, and so never for two of which one leaves a name
unset where the other sets it, to whatever text. Of any domain tag without a zero
character and any payload, the hashed bytes name both. -/
theorem hashed_bytes_name_their_source :
    (∀ s : Schema, s.fingerprint.bytes = Blake3.hash s.hashed) ∧
    (∀ a b : Schema, a.hashed = b.hashed ↔ a = b) ∧
    (∀ (a b : Schema) (i : Nat) (name : String),
      a.names[i]? = some none → b.names[i]? = some (some name) → a.hashed ≠ b.hashed) ∧
    (∀ (domain : String) (payload : List UInt8),
      (Fingerprint.ofBytes domain payload).bytes =
        Blake3.hash (Fingerprint.preimage domain payload)) ∧
    (∀ (domain domain' : String) (payload payload' : List UInt8),
      '\x00' ∉ domain.toList → '\x00' ∉ domain'.toList →
      (Fingerprint.preimage domain payload = Fingerprint.preimage domain' payload' ↔
        domain = domain' ∧ payload = payload')) := by
  refine ⟨fun _ => rfl, fun a b => ⟨Schema.eq_of_hashed_eq, congrArg Schema.hashed⟩, ?_,
    fun _ _ => rfl, ?_⟩
  · intro a b i name hunset hset h
    cases Schema.eq_of_hashed_eq h
    rw [hunset] at hset
    exact absurd hset (by simp)
  · intro domain domain' payload payload' hdomain hdomain'
    refine ⟨Fingerprint.eq_of_preimage_eq hdomain hdomain', ?_⟩
    rintro ⟨rfl, rfl⟩
    rfl

namespace Fingerprint.Sample

/-- One column, whose name spells what stands between the names of two columns. -/
def forged : Schema := ⟨[⟨.int, some "a\"\x7d,\x7b\"field_type\":\"Int\",\"field_name\":\"b"⟩]⟩

def genuine : Schema := ⟨[⟨.int, some "a"⟩, ⟨.int, some "b"⟩]⟩

def nameless : Schema := ⟨[⟨.int, none⟩]⟩

def named (name : String) : Schema := ⟨[⟨.int, some name⟩]⟩

/-- A name that imitates the structure around it, names that an unset one could be taken
for, and a tag that goes on where another ends. -/
theorem imitations_told_apart :
    forged.hashed ≠ genuine.hashed ∧
    nameless.hashed ≠ (named "null").hashed ∧ nameless.hashed ≠ (named "unnamed").hashed ∧
    preimage "tuple" "_desc".toUTF8.toList ≠ preimage "tuple_desc" [] := by
  obtain ⟨-, hschema, hunset, -, htag⟩ := hashed_bytes_name_their_source
  refine ⟨?_, hunset _ _ 0 "null" rfl rfl, hunset _ _ 0 "unnamed" rfl rfl, ?_⟩
  · intro h
    exact absurd ((hschema _ _).mp h) (by decide)
  · intro h
    have hsame := (htag "tuple" "tuple_desc" _ _ (by decide) (by decide)).mp h
    exact absurd hsame.1 (by decide)

end Fingerprint.Sample

end RowEngine
