import RowEngine.Json.Reader
import RowEngine.Proofs.Json.Lexing

/-!
Reading a document's own text. The text splits into the tokens that the document's
structure spells, and from these the reader builds the document again, inside any
arrays and objects that are still open.
-/
namespace RowEngine.Json

/-- Documents that a text can hold as they are: every number is an integer, and every
string and every key has a meaning. -/
inductive Plain : Json → Prop
  | null : Plain .null
  | bool (b : Bool) : Plain (.bool b)
  | int (n : Int) : Plain (.int n)
  | string (s : String) : Plain (ofString s)
  | arr {items : List Json} : (∀ j ∈ items, Plain j) → Plain (.arr items)
  | members {members : List (String × Json)} : (∀ m ∈ members, Plain m.2) →
      Plain (ofMembers members)

mutual

/-- The tokens that a document's structure spells. -/
def tokens : Json → List Token
  | .arr items => .leftBracket :: itemTokens items ++ [.rightBracket]
  | .obj members => .leftBrace :: memberTokens members ++ [.rightBrace]
  | .null => [.scalar .null]
  | .bool b => [.scalar (.bool b)]
  | .int n => [.scalar (.int n)]
  | .real t => [.scalar (.real t)]
  | .str s => [.scalar (.str s)]

def itemTokens : List Json → List Token
  | [] => []
  | [j] => j.tokens
  | j :: rest => j.tokens ++ .comma :: itemTokens rest

def memberTokens : List (Option String × Json) → List Token
  | [] => []
  | [(k, j)] => .scalar (.str k) :: .colon :: j.tokens
  | (k, j) :: rest => .scalar (.str k) :: .colon :: j.tokens ++ .comma :: memberTokens rest

end

/-! ### From the text to the tokens -/

/-- The text of `j` splits into its tokens wherever it stands, as long as no word runs on. -/
def Splits (j : Json) : Prop :=
  ∀ rest, EndsWord rest → tokens? (j.chars ++ rest) = (tokens? rest).map (j.tokens ++ ·)

theorem EndsWord.cons {c : Char} (h : isWordChar c = false) (rest : List Char) :
    EndsWord (c :: rest) := by
  intro d hd
  cases hd
  exact h

theorem tokens_itemChars {items : List Json} (h : ∀ j ∈ items, j.Splits) (rest : List Char) :
    tokens? (itemChars items ++ ']' :: rest) =
      (tokens? rest).map (itemTokens items ++ .rightBracket :: ·) := by
  induction items with
  | nil => exact tokens_punctuation rfl rest
  | cons j items ih =>
    obtain ⟨hj, hitems⟩ := List.forall_mem_cons.mp h
    cases items with
    | nil =>
      rw [itemChars, hj _ (.cons (by decide) _), tokens_punctuation (t := .rightBracket) rfl,
        Option.map_map]
      rfl
    | cons j' items =>
      simp only [itemChars, List.append_assoc, List.cons_append]
      rw [hj _ (.cons (by decide) _), tokens_punctuation (t := .comma) rfl, ih hitems]
      simp only [Option.map_map, Function.comp_def, itemTokens, List.append_assoc, List.cons_append]

theorem tokens_member {k : String} {j : Json} (hj : j.Splits) {rest : List Char}
    (hrest : EndsWord rest) :
    tokens? (quoteText (some k) ++ ':' :: (j.chars ++ rest)) =
      (tokens? rest).map (.scalar (ofString k) :: .colon :: j.tokens ++ ·) := by
  rw [quoteText, Option.getD_some, tokens_quote, tokens_punctuation (t := .colon) rfl,
    hj rest hrest]
  simp only [Option.map_map, Function.comp_def, List.cons_append]

theorem tokens_memberChars {members : List (String × Json)} (h : ∀ m ∈ members, m.2.Splits)
    (rest : List Char) :
    tokens? (memberChars (members.map fun (k, j) => (some k, j)) ++ '}' :: rest) =
      (tokens? rest).map
        (memberTokens (members.map fun (k, j) => (some k, j)) ++ .rightBrace :: ·) := by
  induction members with
  | nil => exact tokens_punctuation rfl rest
  | cons m members ih =>
    obtain ⟨hm, hmembers⟩ := List.forall_mem_cons.mp h
    cases members with
    | nil =>
      simp only [List.map_cons, List.map_nil, memberChars, List.append_assoc, List.cons_append]
      rw [tokens_member hm (.cons (by decide) _), tokens_punctuation (t := .rightBrace) rfl,
        Option.map_map]
      rfl
    | cons m' members =>
      simp only [List.map_cons, memberChars, List.append_assoc, List.cons_append] at ih ⊢
      rw [tokens_member hm (.cons (by decide) _), tokens_punctuation (t := .comma) rfl, ih hmembers]
      simp only [Option.map_map, Function.comp_def, memberTokens, List.append_assoc,
        List.cons_append]
      rfl

theorem Plain.splits {j : Json} (h : j.Plain) : j.Splits := by
  intro rest hrest
  induction h generalizing rest with
  | null => exact tokens_word (List.all_eq_true.mp (by decide)) rfl hrest
  | bool b => cases b <;> exact tokens_word (List.all_eq_true.mp (by decide)) rfl hrest
  | int n => exact tokens_word (fun _ => isWordChar_of_mem_toString) (word_toString n) hrest
  | string s => exact tokens_quote s rest
  | arr _ ih =>
    simp only [chars, List.append_assoc, List.cons_append, List.nil_append]
    rw [tokens_punctuation (t := .leftBracket) rfl, tokens_itemChars ih]
    simp only [Option.map_map, Function.comp_def, tokens, List.append_assoc, List.cons_append,
      List.nil_append]
  | members _ ih =>
    simp only [ofMembers, chars, List.append_assoc, List.cons_append, List.nil_append]
    rw [tokens_punctuation (t := .leftBrace) rfl, tokens_memberChars ih]
    simp only [Option.map_map, Function.comp_def, tokens, List.append_assoc, List.cons_append,
      List.nil_append]

/-! ### From the tokens to the document -/

namespace Reader

/-- From the tokens of `j` the reader builds `j`, inside whatever is still open. -/
def Builds (j : Json) : Prop :=
  ∀ frames ts, run? ⟨.value, frames⟩ (j.tokens ++ ts) = run? ⟨.separator j, frames⟩ ts

/-- No document begins with a closing bracket. -/
theorem run_firstItem (j : Json) (frames : List Frame) (ts : List Token) :
    run? ⟨.firstItem, frames⟩ (j.tokens ++ ts) =
      run? ⟨.value, .items [] :: frames⟩ (j.tokens ++ ts) := by
  cases j <;> rfl

theorem run_items {first : Json} {items : List Json} (hfirst : Builds first)
    (hitems : ∀ j ∈ items, Builds j) (done : List Json) (frames : List Frame)
    (ts : List Token) :
    run? ⟨.value, .items done :: frames⟩ (itemTokens (first :: items) ++ .rightBracket :: ts) =
      run? ⟨.separator (.arr (done.reverse ++ first :: items)), frames⟩ ts := by
  induction items generalizing done first with
  | nil =>
    rw [itemTokens, hfirst]
    simp only [run?, step?, List.reverse_cons]
  | cons j items ih =>
    obtain ⟨hj, hitems⟩ := List.forall_mem_cons.mp hitems
    simp only [itemTokens, List.append_assoc, List.cons_append]
    rw [hfirst]
    simp only [run?, step?]
    rw [ih hj hitems, List.reverse_cons, List.append_assoc, List.singleton_append]

theorem run_members {k : Option String} {first : Json}
    {members : List (Option String × Json)} (hfirst : Builds first)
    (hmembers : ∀ m ∈ members, Builds m.2) (done : List (Option String × Json))
    (frames : List Frame) (ts : List Token) :
    run? ⟨.key done, frames⟩ (memberTokens ((k, first) :: members) ++ .rightBrace :: ts) =
      run? ⟨.separator (.obj (done.reverse ++ (k, first) :: members)), frames⟩ ts := by
  induction members generalizing done k first with
  | nil =>
    simp only [memberTokens, List.cons_append, run?, step?]
    rw [hfirst]
    simp only [run?, step?, List.reverse_cons]
  | cons m members ih =>
    obtain ⟨hm, hmembers⟩ := List.forall_mem_cons.mp hmembers
    simp only [memberTokens, List.append_assoc, List.cons_append, run?, step?]
    rw [hfirst]
    simp only [run?, step?]
    rw [ih hm hmembers, List.reverse_cons, List.append_assoc, List.singleton_append]

theorem builds_arr {items : List Json} (h : ∀ j ∈ items, Builds j) : Builds (.arr items) := by
  intro frames ts
  simp only [tokens, List.append_assoc, List.cons_append, List.nil_append, run?, step?, begin?]
  cases items with
  | nil => rfl
  | cons j items =>
    obtain ⟨hj, hitems⟩ := List.forall_mem_cons.mp h
    have hbegin : run? ⟨.firstItem, frames⟩ (itemTokens (j :: items) ++ .rightBracket :: ts) =
        run? ⟨.value, .items [] :: frames⟩ (itemTokens (j :: items) ++ .rightBracket :: ts) := by
      cases items <;> simp only [itemTokens, List.append_assoc] <;> exact run_firstItem j frames _
    rw [hbegin, run_items hj hitems]
    rfl

theorem builds_obj {members : List (Option String × Json)} (h : ∀ m ∈ members, Builds m.2) :
    Builds (.obj members) := by
  intro frames ts
  simp only [tokens, List.append_assoc, List.cons_append, List.nil_append, run?, step?, begin?]
  cases members with
  | nil => rfl
  | cons m members =>
    obtain ⟨k, j⟩ := m
    obtain ⟨hj, hmembers⟩ := List.forall_mem_cons.mp h
    have hbegin : run? ⟨.firstKey, frames⟩ (memberTokens ((k, j) :: members) ++ .rightBrace :: ts) =
        run? ⟨.key [], frames⟩ (memberTokens ((k, j) :: members) ++ .rightBrace :: ts) := by
      cases members <;> rfl
    rw [hbegin, run_members hj hmembers]
    rfl

end Reader

theorem Plain.builds {j : Json} (h : j.Plain) : Reader.Builds j := by
  induction h with
  | null | bool | int | string => exact fun _ _ => rfl
  | arr _ ih => exact Reader.builds_arr ih
  | members _ ih => exact Reader.builds_obj (List.forall_mem_map.mpr ih)

/-- A document is read back from its own text. -/
theorem Plain.read_print {j : Json} (h : j.Plain) : read? j.print = some j := by
  have htokens : tokens? j.print.toList = some j.tokens := by
    have hsplit := h.splits [] fun _ hc => nomatch hc
    rw [List.append_nil, tokens?, Option.map_some, List.append_nil] at hsplit
    rw [print, String.toList_ofList, hsplit]
  have hrun : Reader.initial.run? j.tokens = some ⟨.separator j, []⟩ := by
    have hbuilds := h.builds [] []
    rw [List.append_nil] at hbuilds
    exact hbuilds
  simp only [read?, htokens, Option.bind_eq_bind, Option.bind_some, hrun, Reader.result?]

end RowEngine.Json
