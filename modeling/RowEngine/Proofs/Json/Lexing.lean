import RowEngine.Json.Printer
import RowEngine.Json.Token

/-!
What the tokenizer makes of the printer's text. A string comes back as one token,
whatever characters it holds, and so does an integer; a document whose numbers are all
integers and whose strings all have a meaning comes back as the tokens that its
structure spells.
-/
namespace RowEngine.Json

/-! ### Strings -/

theorem hexValue_hexDigit {n : Nat} (h : n < 16) : hexValue? (hexDigit n) = some n := by
  have hall : ∀ m < 16, hexValue? (hexDigit m) = some m := by decide
  exact hall n h

theorem codeUnit_hexDigit {n : Nat} (h : n < 0x20) :
    codeUnit? '0' '0' (hexDigit (n / 16)) (hexDigit (n % 16)) = some n := by
  have hzero : hexValue? '0' = some 0 := by decide
  have hhigh := hexValue_hexDigit (n := n / 16) (by omega)
  have hlow := hexValue_hexDigit (n := n % 16) (by omega)
  simp only [codeUnit?, hzero, hhigh, hlow, Option.bind_eq_bind, Option.bind_some,
    Option.some.injEq]
  omega

theorem readParts_escape {e c : Char} (he : simpleEscape? e = some c) (tail : List Char) :
    readParts? ('\\' :: e :: tail) = (readParts? tail).map fun r => (.char c :: r.1, r.2) := by
  have hu : e ≠ 'u' := by rintro rfl; simp [simpleEscape?] at he
  rw [readParts?, he]
  · cases readParts? tail <;> rfl
  · intro _ _ _ _ _ h _
    exact hu h

theorem readParts_unit {n : Nat} {a b c d : Char} (h : codeUnit? a b c d = some n)
    (tail : List Char) :
    readParts? ('\\' :: 'u' :: a :: b :: c :: d :: tail) =
      (readParts? tail).map fun r => (.unit n :: r.1, r.2) := by
  rw [readParts?, h]
  cases readParts? tail <;> rfl

theorem readParts_char {c : Char} (hquote : c ≠ '"') (hslash : c ≠ '\\') (hc : ¬ c.toNat < 0x20)
    (tail : List Char) :
    readParts? (c :: tail) = (readParts? tail).map fun r => (.char c :: r.1, r.2) := by
  rw [readParts?, if_neg (by simp [hslash, hc])]
  · cases readParts? tail <;> rfl
  · exact hquote
  · intro _ _ _ _ _ h _
    exact hslash h
  · intro _ _ h _
    exact hslash h

/-- A control character is no half of a surrogate pair. -/
theorem decode_unit {c : Char} (hc : c.toNat < 0x20) (parts : List StringPart) :
    StringPart.decode (.unit c.toNat :: parts) = (StringPart.decode parts).map (c :: ·) := by
  have hhigh : StringPart.isHigh c.toNat = false := by
    simp only [StringPart.isHigh, decide_eq_false (show ¬ 0xD800 ≤ c.toNat by omega),
      Bool.false_and]
  have hlow : StringPart.isLow c.toNat = false := by
    simp only [StringPart.isLow, decide_eq_false (show ¬ 0xDC00 ≤ c.toNat by omega),
      Bool.false_and]
  cases parts with
  | nil => simp [StringPart.decode, hhigh, hlow]
  | cons part rest => cases part <;> simp [StringPart.decode, hhigh, hlow]

/-- What is written for a character is read as one part, and the part is that character. -/
theorem exists_part (c : Char) : ∃ part : StringPart,
    (∀ tail, readParts? (escapeChar c ++ tail) =
      (readParts? tail).map fun r => (part :: r.1, r.2)) ∧
    ∀ parts, StringPart.decode (part :: parts) = (StringPart.decode parts).map (c :: ·) := by
  have hchar : ∀ parts, StringPart.decode (.char c :: parts) =
      (StringPart.decode parts).map (c :: ·) := fun _ => rfl
  fun_cases escapeChar c
  case case8 hc => exact ⟨.unit c.toNat, readParts_unit (codeUnit_hexDigit hc), decode_unit hc⟩
  case case9 hquote hslash _ _ _ _ _ hc =>
    exact ⟨.char c, readParts_char hquote hslash hc, hchar⟩
  -- The quote, the backslash and the five control characters with a letter.
  all_goals
    subst_vars
    exact ⟨.char _, readParts_escape (by decide), hchar⟩

/-- A string is read up to its closing quote, and its parts spell it. -/
theorem exists_parts (s rest : List Char) : ∃ parts,
    readParts? (s.flatMap escapeChar ++ '"' :: rest) = some (parts, rest) ∧
      StringPart.decode parts = some s := by
  induction s with
  | nil => exact ⟨[], by simp [readParts?], rfl⟩
  | cons c s ih =>
    obtain ⟨parts, hread, hdecode⟩ := ih
    obtain ⟨part, hpart, hc⟩ := exists_part c
    refine ⟨part :: parts, ?_, ?_⟩
    · rw [List.flatMap_cons, List.append_assoc, hpart, hread]
      rfl
    · rw [hc, hdecode]
      rfl

theorem tokens_quote (s : String) (rest : List Char) :
    tokens? (quote s ++ rest) = (tokens? rest).map (.scalar (ofString s) :: ·) := by
  obtain ⟨parts, hread, hdecode⟩ := exists_parts s.toList rest
  have htext : quote s ++ rest = '"' :: (s.toList.flatMap escapeChar ++ '"' :: rest) := by
    simp [quote]
  rw [htext, tokens?, if_neg (by decide), if_pos rfl]
  split
  · next found =>
    rw [hread] at found
    cases found
    simp [hdecode, ofString]
  · next missing =>
    rw [hread] at missing
    cases missing

/-! ### Words -/

/-- The text goes on with no character of a word. -/
def EndsWord (rest : List Char) : Prop := ∀ c ∈ rest.head?, isWordChar c = false

theorem not_special_of_isWordChar {c : Char} (h : isWordChar c = true) :
    isBlank c = false ∧ c ≠ '"' ∧ punctuation? c = none := by
  refine ⟨?_, ?_, ?_⟩
  · cases hb : isBlank c with
    | false => rfl
    | true =>
      simp only [isBlank, Bool.or_eq_true, decide_eq_true_eq] at hb
      rcases hb with ((rfl | rfl) | rfl) | rfl <;> exact absurd h (by decide)
  · rintro rfl
    exact absurd h (by decide)
  · fun_cases punctuation? c
    case case7 => rfl
    all_goals exact absurd h (by decide)

/-- A run of accepted characters is taken whole, and no more than it. -/
theorem takeWhile_append_of_stop {p : Char → Bool} {w rest : List Char}
    (hw : ∀ c ∈ w, p c = true) (hrest : ∀ c ∈ rest.head?, p c = false) :
    (w ++ rest).takeWhile p = w ∧ (w ++ rest).dropWhile p = rest := by
  have hstop : rest.takeWhile p = [] ∧ rest.dropWhile p = rest := by
    cases rest with
    | nil => exact ⟨rfl, rfl⟩
    | cons c rest => simp [hrest c rfl]
  rw [List.takeWhile_append_of_pos hw, List.dropWhile_append_of_pos hw, hstop.1, hstop.2]
  simp

/-- A word is one token, however long it is. -/
theorem tokens_word {w rest : List Char} {j : Json} (hw : ∀ c ∈ w, isWordChar c = true)
    (hj : word? w = some j) (hrest : EndsWord rest) :
    tokens? (w ++ rest) = (tokens? rest).map (.scalar j :: ·) := by
  cases w with
  | nil => cases hj
  | cons c w =>
    obtain ⟨hc, hw⟩ := List.forall_mem_cons.mp hw
    obtain ⟨hblank, hquote, hpunct⟩ := not_special_of_isWordChar hc
    obtain ⟨htake, hdrop⟩ := takeWhile_append_of_stop hw hrest
    rw [List.cons_append, tokens?, hblank, if_neg (by decide), if_neg hquote]
    simp only [hpunct, hc, if_true, htake, hdrop, hj]
    cases tokens? rest <;> rfl

theorem tokens_punctuation {c : Char} {t : Token} (h : punctuation? c = some t)
    (rest : List Char) : tokens? (c :: rest) = (tokens? rest).map (t :: ·) := by
  have hblank : isBlank c = false := by
    revert h
    fun_cases punctuation? c <;> intro h <;> first | rfl | cases h
  have hquote : c ≠ '"' := by
    rintro rfl
    cases h
  rw [tokens?, hblank, if_neg (by decide), if_neg hquote, h]

/-! ### Integers -/

theorem isDigit_of_mem_toDigits {n : Nat} {c : Char} (h : c ∈ Nat.toDigits 10 n) :
    c.isDigit = true :=
  Nat.isDigit_of_mem_toDigits (by decide) (by decide) h

theorem decimalValue_toDigits (n : Nat) : decimalValue (Nat.toDigits 10 n) = n := by
  calc decimalValue (Nat.toDigits 10 n) = Nat.ofDigitChars 10 (Nat.toDigits 10 n) 0 := by
        simp only [decimalValue, Nat.ofDigitChars_eq_foldl, Nat.mul_comm]
    _ = n := Nat.ofDigitChars_ten_toDigits

/-- A positive number has no leading zero. -/
theorem head_toDigits_ne_zero {n : Nat} (hn : n ≠ 0) :
    ∃ c rest, Nat.toDigits 10 n = c :: rest ∧ c ≠ '0' := by
  induction n using Nat.strongRecOn with
  | ind n ih =>
    rw [Nat.toDigits_eq_if (by decide)]
    split
    · next hlt => exact ⟨_, [], rfl, fun h => hn (Nat.digitChar_eq_zero.mp h)⟩
    · next hge =>
      obtain ⟨c, rest, hdigits, hc⟩ := ih (n / 10) (by omega) (by omega)
      exact ⟨c, rest ++ [(n % 10).digitChar], by rw [hdigits]; rfl, hc⟩

theorem isPlainDigits_toDigits (n : Nat) : isPlainDigits (Nat.toDigits 10 n) = true := by
  have hall : (Nat.toDigits 10 n).all Char.isDigit = true :=
    List.all_eq_true.mpr fun _ => isDigit_of_mem_toDigits
  rw [isPlainDigits, hall]
  by_cases hn : n = 0
  · subst hn
    rfl
  · obtain ⟨c, rest, hdigits, hc⟩ := head_toDigits_ne_zero hn
    simp [hdigits, hc]

/-- The digits of a number are read as its value; there is no negative zero. -/
theorem unsigned_toDigits {negative : Bool} {n : Nat} (h : negative = true → n ≠ 0) :
    unsigned? negative (Nat.toDigits 10 n) = some (.int (if negative then -n else n)) := by
  have hsplit := takeWhile_append_of_stop (p := Char.isDigit)
    (fun c => isDigit_of_mem_toDigits (n := n) (c := c)) (fun c (hc : c ∈ [].head?) => nomatch hc)
  rw [List.append_nil] at hsplit
  obtain ⟨htake, hdrop⟩ := hsplit
  simp only [unsigned?, htake, hdrop, isPlainDigits_toDigits, decimalValue_toDigits, if_true]
  cases negative with
  | false => rfl
  | true => simp [h rfl]

/-- Text that begins like a number is no literal. -/
theorem word_eq_unsigned {c : Char} (h : c.isDigit = true) (w : List Char) :
    word? (c :: w) = unsigned? false (c :: w) := by
  have hne : c ≠ 'n' ∧ c ≠ 't' ∧ c ≠ 'f' ∧ c ≠ '-' := by
    refine ⟨?_, ?_, ?_, ?_⟩ <;> rintro rfl <;> exact absurd h (by decide)
  simp [word?, hne]

theorem toList_toString (n : Int) : (toString n).toList =
    if 0 ≤ n then Nat.toDigits 10 n.toNat else '-' :: Nat.toDigits 10 (-n).toNat := by
  rw [Int.toString_eq_repr, Int.repr_eq_if]
  split
  · rw [Nat.repr_eq_ofList_toDigits, String.toList_ofList]
  · simp [Nat.repr_eq_ofList_toDigits]

theorem word_toString (n : Int) : word? (toString n).toList = some (.int n) := by
  rw [toList_toString]
  split
  · next hn =>
    cases hdigits : Nat.toDigits 10 n.toNat with
    | nil => exact absurd hdigits Nat.toDigits_ne_nil
    | cons c w =>
      have hc : c.isDigit = true := isDigit_of_mem_toDigits (hdigits ▸ List.mem_cons_self)
      rw [word_eq_unsigned hc, ← hdigits, unsigned_toDigits (by simp)]
      simp [Int.toNat_of_nonneg hn]
  · next hn =>
    have hminus (w : List Char) : word? ('-' :: w) = unsigned? true w := by simp [word?]
    rw [hminus, unsigned_toDigits fun _ => by omega]
    simp only [if_true, Option.some.injEq, Json.int.injEq]
    omega

theorem isWordChar_of_mem_toString {n : Int} {c : Char} (h : c ∈ (toString n).toList) :
    isWordChar c = true := by
  have hdigit {m : Nat} (hc : c ∈ Nat.toDigits 10 m) : isWordChar c = true := by
    simp [isWordChar, Char.isAlphanum, isDigit_of_mem_toDigits hc]
  rw [toList_toString] at h
  split at h
  · exact hdigit h
  · rcases List.mem_cons.mp h with rfl | hc
    · decide
    · exact hdigit hc

end RowEngine.Json
