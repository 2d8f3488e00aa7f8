import Mathlib.Logic.Function.Basic
import RowEngine.Proofs.Json.Preimage
import RowEngine.Proofs.Query.Places

/-!
The text of a plan, read back. Without line feeds in the names of columns the text has one
line for each operator, in the order of their places and indented by twice the depth. A line
starts with the kind of its operator, which has no blank in it, so that the indentation ends
there and the schema is all that comes after, whatever the names in it look like. So the
text says which operators a plan has at which places, and nothing else.
-/
namespace RowEngine.Plan

/-! ### Lines -/

/-- The pieces of a text between its line feeds. A text whose lines all end with a line feed
has an empty piece last. -/
def pieces (text : String) : List String := (text.split '\n').toList.map (·.copy)

theorem pieces_eq (text : String) :
    pieces text = (text.toList.splitOn '\n').map String.ofList :=
  String.toList_split_char

theorem pieces_join {lines : List String} (h : ∀ l ∈ lines, '\n' ∉ l.toList) :
    pieces (String.join (lines.map (· ++ "\n"))) = lines ++ [""] := by
  induction lines with
  | nil =>
    rw [pieces_eq]
    rfl
  | cons l rest ih =>
    have hl : '\n' ∉ l.toList := h l List.mem_cons_self
    have hrest := ih fun l hl => h l (.tail _ hl)
    have hsplit : (String.join ((l :: rest).map (· ++ "\n"))).toList =
        l.toList ++ '\n' :: (String.join (rest.map (· ++ "\n"))).toList := by
      simp [String.toList_append, String.join_cons]
    rw [pieces_eq] at hrest ⊢
    rw [hsplit, List.splitOn_append_cons_self_of_not_mem hl, List.map_cons, hrest,
      String.ofList_toList, List.cons_append]

/-- A line without its line feed: two blanks for each step down, then the title. -/
def indented (depth : Nat) (title : String) : String :=
  String.ofList (List.replicate (2 * depth) ' ') ++ title

theorem explain_eq (p : Plan) : p.explain =
    String.join ((p.nodes.map fun n => indented n.1.length n.2.title).map (· ++ "\n")) := by
  rw [explain, outline_eq_profile, profile, List.map_map, List.map_map]
  simp only [Function.comp_def, Nat.zero_add]
  rfl

/-! ### Titles -/

/-- The kinds of operators. -/
inductive Kind where
  | rows
  | table
  | filter
  | join
  | insert
  | probe
  deriving DecidableEq, Repr, Inhabited

namespace Kind

def name : Kind → String
  | .rows => "tuple_scan"
  | .table => "seq_scan"
  | .filter => "filter"
  | .join => "nested_loop_join"
  | .insert => "insert"
  | .probe => "probe"

theorem name_injective : Function.Injective name := by
  intro a b h
  cases a <;> cases b <;> first | rfl | exact absurd h (by decide)

theorem blank_notMem_name (k : Kind) : ' ' ∉ k.name.toList := by
  cases k <;> decide

theorem lineFeed_notMem_name (k : Kind) : '\n' ∉ k.name.toList := by
  cases k <;> decide

theorem name_ne_nil (k : Kind) : k.name.toList ≠ [] := by
  cases k <;> decide

end Kind

def kind : Plan → Kind
  | .rows _ => .rows
  | .table _ => .table
  | .filter _ => .filter
  | .join _ => .join
  | .insert _ => .insert
  | .probe _ => .probe

theorem name_eq (p : Plan) : p.name = p.kind.name := by
  cases p <;> rfl

/-- What the text says of an operator: its kind, and its schema as text. -/
def label (p : Plan) : Kind × String := (p.kind, p.schema.display)

theorem toList_title (p : Plan) :
    p.title.toList = p.kind.name.toList ++ ' ' :: '[' :: (p.schema.display.toList ++ [']']) := by
  rw [title, name_eq]
  simp [String.toList_append]

theorem head_title_ne (p : Plan) : p.title.toList.head? ≠ some ' ' := by
  obtain ⟨c, cs, hname⟩ := List.exists_cons_of_ne_nil p.kind.name_ne_nil
  have hblank := p.kind.blank_notMem_name
  rw [toList_title, hname]
  rw [hname] at hblank
  intro h
  exact hblank (Option.some.inj h ▸ List.mem_cons_self)

theorem label_eq_of_title_eq {p q : Plan} (h : p.title = q.title) : p.label = q.label := by
  have htext := congrArg String.toList h
  rw [toList_title, toList_title] at htext
  obtain ⟨hname, hschema⟩ :=
    eq_of_append_cons_eq p.kind.blank_notMem_name q.kind.blank_notMem_name htext
  have hkind : p.kind = q.kind := Kind.name_injective (String.toList_inj.mp hname)
  have hdisplay : p.schema.display = q.schema.display :=
    String.toList_inj.mp (List.append_cancel_right (List.cons.inj hschema).2)
  rw [label, label, hkind, hdisplay]

theorem eq_of_replicate_append {α : Type} {a : α} {m n : Nat} {l l' : List α}
    (hl : l.head? ≠ some a) (hl' : l'.head? ≠ some a)
    (h : List.replicate m a ++ l = List.replicate n a ++ l') : m = n ∧ l = l' := by
  induction m generalizing n with
  | zero =>
    cases n with
    | zero => exact ⟨rfl, h⟩
    | succ n => exact absurd (congrArg List.head? h) hl
  | succ m ih =>
    cases n with
    | zero => exact absurd (congrArg List.head? h).symm hl'
    | succ n =>
      obtain ⟨hmn, hrest⟩ := ih (List.cons.inj h).2
      exact ⟨congrArg Nat.succ hmn, hrest⟩

/-- A line tells the depth and the operator. -/
theorem eq_of_indented_eq {p q : Plan} {d e : Nat} (h : indented d p.title = indented e q.title) :
    d = e ∧ p.label = q.label := by
  have htext := congrArg String.toList h
  simp only [indented, String.toList_append, String.toList_ofList] at htext
  obtain ⟨hdepth, htitle⟩ :=
    eq_of_replicate_append p.head_title_ne q.head_title_ne htext
  exact ⟨by omega, label_eq_of_title_eq (String.toList_inj.mp htitle)⟩

/-! ### Names in one line -/

theorem lineFeed_notMem_intercalate {texts : List String} (h : ∀ t ∈ texts, '\n' ∉ t.toList) :
    '\n' ∉ (", ".intercalate texts).toList := by
  induction texts with
  | nil => simp
  | cons t rest ih =>
    have ht : '\n' ∉ t.toList := h t List.mem_cons_self
    have hrest := ih fun t ht => h t (.tail _ ht)
    cases rest with
    | nil => simpa using ht
    | cons u rest =>
      rw [String.intercalate_cons_cons]
      simp only [String.toList_append, List.mem_append, not_or]
      exact ⟨⟨ht, by decide⟩, hrest⟩

theorem lineFeed_notMem_display {s : Schema}
    (h : ∀ c ∈ s.columns, '\n' ∉ c.shownName.toList) : '\n' ∉ s.display.toList := by
  refine lineFeed_notMem_intercalate fun t ht => ?_
  obtain ⟨c, hc, rfl⟩ := List.mem_map.mp ht
  have htype : '\n' ∉ c.type.display.toList := by
    cases c.type <;> decide
  simp only [Column.display, String.toList_append, List.mem_append, not_or]
  exact ⟨⟨⟨htype, by decide⟩, h c hc⟩, by decide⟩

/-- No column of any operator has a line feed in its name. The qualifier of a table scan is
part of the names of its columns. -/
def Unbroken (p : Plan) : Prop :=
  ∀ place n, p.node? place = some n → ∀ c ∈ n.schema.columns, '\n' ∉ c.shownName.toList

namespace Unbroken

variable {p q : Plan}

theorem lineFeed_notMem_title (h : p.Unbroken) {place : List Nat} {n : Plan}
    (hn : p.node? place = some n) : '\n' ∉ n.title.toList := by
  rw [toList_title]
  simp [n.kind.lineFeed_notMem_name, lineFeed_notMem_display (h place n hn)]

theorem pieces_explain (h : p.Unbroken) : pieces p.explain =
    (p.nodes.map fun n => indented n.1.length n.2.title) ++ [""] := by
  rw [explain_eq]
  refine pieces_join fun l hl => ?_
  obtain ⟨n, hn, rfl⟩ := List.mem_map.mp hl
  have htitle := h.lineFeed_notMem_title ((mem_nodes_iff p n.2 n.1).mp hn)
  simpa [indented] using htitle

theorem agree_of_explain_eq (hp : p.Unbroken) (hq : q.Unbroken) (h : p.explain = q.explain) :
    Agree label p q := by
  have hpieces := hp.pieces_explain
  rw [h, hq.pieces_explain] at hpieces
  have hlines : p.nodes.map (fun n => indented n.1.length n.2.title) =
      q.nodes.map fun n => indented n.1.length n.2.title :=
    (List.append_cancel_right hpieces).symm
  have hreads : Function.FactorsThrough
      (fun n : List Nat × Plan => (0 + n.1.length, n.2.label))
      (fun n => indented n.1.length n.2.title) := by
    intro n m hline
    obtain ⟨hdepth, hlabel⟩ := eq_of_indented_eq hline
    simp only [hdepth, hlabel]
  obtain ⟨read, hread⟩ := (Function.factorsThrough_iff _).mp hreads
  rw [agree_iff_profile_eq, profile, profile, hread, ← List.map_map, ← List.map_map, hlines]

end Unbroken

/-- The text has nothing in it that plans do not share if their labels agree. -/
theorem Agree.explain_eq {p q : Plan} (h : Agree label p q) : p.explain = q.explain := by
  have houtline (p : Plan) : p.outline 0 = (p.profile label 0).map
      fun l => (l.1, l.2.1.name ++ " [" ++ l.2.2 ++ "]") := by
    rw [outline_eq_profile, profile, profile, List.map_map]
    refine List.map_congr_left fun n _ => ?_
    simp only [Function.comp_apply, title, name_eq, label]
  rw [explain, explain, houtline, houtline, agree_iff_profile_eq.mp h]

/-- The text determines the plan. Where no name has a line feed in it, the text has as many
lines as there are operators, one for each in the order of their places, which is that of a
dictionary, and each indented by twice its depth; two plans have one text exactly if they
have the same shape and at every place an operator of the same kind over a schema of the same
text. -/
theorem explain_determines_plan {p q : Plan} (hp : p.Unbroken) (hq : q.Unbroken) :
    (∃ ns : List (List Nat × Plan), ns.length = p.nodeCount ∧
      (ns.map Prod.fst).Pairwise (· < ·) ∧
      (∀ place n, (place, n) ∈ ns ↔ p.node? place = some n) ∧
      pieces p.explain = (ns.map fun n => indented n.1.length n.2.title) ++ [""]) ∧
    (p.explain = q.explain ↔
      ∀ place, (p.node? place).map label = (q.node? place).map label) :=
  ⟨⟨p.nodes, p.length_nodes, p.pairwise_nodes, fun place n => p.mem_nodes_iff n place,
    hp.pieces_explain⟩, hp.agree_of_explain_eq hq, Agree.explain_eq⟩

namespace Sample

/-- Rows of one column, whose name looks like the end of a line and the start of another. -/
def bracketed : Plan := .rows ⟨⟨[⟨.int, some "a)]  tuple_scan [INT_TYPE(b"⟩]⟩, [], []⟩

def filtered (p : Plan) : Plan := .filter ⟨⟨0, .equals, .int 1⟩, .fresh p⟩

def joined (l r : Plan) : Plan :=
  .join ⟨⟨0, .equals, 0⟩, .fresh l, .fresh r, l.schema.merge r.schema, none⟩

def leaningLeft : Plan := joined (filtered bracketed) bracketed

def leaningRight : Plan := joined bracketed (filtered bracketed)

theorem unbroken_of_nodes {p : Plan}
    (h : ∀ n ∈ p.nodes, ∀ c ∈ n.2.schema.columns, '\n' ∉ c.shownName.toList) : p.Unbroken :=
  fun place n hn => h (place, n) ((mem_nodes_iff p n place).mpr hn)

theorem unbroken_leaningLeft : leaningLeft.Unbroken := unbroken_of_nodes (by decide)

theorem unbroken_leaningRight : leaningRight.Unbroken := unbroken_of_nodes (by decide)

end Sample

open Sample in
/-- Two plans of the same four operators, which are told apart by where the filter stands. -/
theorem leaning_plans_told_apart :
    leaningLeft.Unbroken ∧ leaningRight.Unbroken ∧
      (pieces leaningLeft.explain).length = 5 ∧ leaningLeft.explain ≠ leaningRight.explain := by
  obtain ⟨⟨ns, hcount, -, -, hlines⟩, hsame⟩ :=
    explain_determines_plan unbroken_leaningLeft unbroken_leaningRight
  refine ⟨unbroken_leaningLeft, unbroken_leaningRight, ?_, fun h => ?_⟩
  · rw [hlines, List.length_append, List.length_map, hcount]
    rfl
  · -- only the left one has an operator below its first child
    have hplace := hsame.mp h [0, 0]
    cases hplace

end RowEngine.Plan
