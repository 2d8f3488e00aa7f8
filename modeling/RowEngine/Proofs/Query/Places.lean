import Mathlib.Data.List.Forall2
import RowEngine.Proofs.Query.Form
import RowEngine.Query.Children
import RowEngine.Query.Explain

/-!
The operators of a plan and their places. A place is the way down from the topmost operator,
as the numbers of the children that it passes, and its length is the depth of the operator
there. In the order of a dictionary an operator comes before those below it, and what is
below one child before what is below the next. The depths alone, listed in this order,
determine the shape of a plan, and with them what is said of each operator its place.
-/
namespace RowEngine.Plan

/-- Proofs that go from the children of an operator to the operator. -/
theorem children_induction {motive : Plan → Prop}
    (step : ∀ p : Plan, (∀ c ∈ p.children, motive c.source) → motive p) (p : Plan) : motive p := by
  induction p using Plan.induction with
  | rows s => exact step _ nofun
  | table s => exact step _ nofun
  | filter f ih => exact step _ (by simpa [children] using ih)
  | join j ihl ihr => exact step _ (by simpa [children] using ⟨ihl, ihr⟩)
  | insert i ih => exact step _ (by simpa [children] using ih)
  | probe p => exact step _ nofun

/-- The operator at a place. -/
def node? : Plan → List Nat → Option Plan
  | p, [] => some p
  | p, i :: place => p.children[i]?.bind fun c => c.source.node? place

/-- Operators of child `i` at their places in the whole plan. -/
def under (i : Nat) (nodes : List (List Nat × Plan)) : List (List Nat × Plan) :=
  nodes.map fun n => (i :: n.1, n.2)

/-- All operators with their places, each before those below it, and these from left to
right. -/
def nodes : Plan → List (List Nat × Plan)
  | p@(.rows _) => [([], p)]
  | p@(.table _) => [([], p)]
  | p@(.filter f) => ([], p) :: under 0 f.child.source.nodes
  | p@(.join j) => ([], p) :: (under 0 j.left.source.nodes ++ under 1 j.right.source.nodes)
  | p@(.insert i) => ([], p) :: under 0 i.child.source.nodes
  | p@(.probe _) => [([], p)]

/-! ### The list of operators -/

theorem nodes_eq (p : Plan) : p.nodes =
    ([], p) :: p.children.zipIdx.flatMap fun c => under c.2 c.1.source.nodes := by
  cases p <;> simp [nodes, children]

theorem outline_eq (p : Plan) (depth : Nat) : p.outline depth =
    (depth, p.title) :: p.children.flatMap fun c => c.source.outline (depth + 1) := by
  cases p <;> simp [outline, children]

theorem length_nodes (p : Plan) : p.nodes.length = p.nodeCount := by
  induction p using Plan.induction with
  | rows s => rfl
  | table s => rfl
  | filter f ih => simp [nodes, nodeCount, under, ih]
  | join j ihl ihr => simp [nodes, nodeCount, under, ihl, ihr]
  | insert i ih => simp [nodes, nodeCount, under, ih]
  | probe p => rfl

theorem mem_under {i : Nat} {ns : List (List Nat × Plan)} {place : List Nat} {q : Plan} :
    (place, q) ∈ under i ns ↔ ∃ rest, place = i :: rest ∧ (rest, q) ∈ ns := by
  simp only [under, List.mem_map, Prod.exists, Prod.mk.injEq]
  constructor
  · rintro ⟨rest, _, hmem, rfl, rfl⟩
    exact ⟨rest, rfl, hmem⟩
  · rintro ⟨rest, rfl, hmem⟩
    exact ⟨rest, q, hmem, rfl, rfl⟩

theorem mem_nodes_iff (p q : Plan) (place : List Nat) :
    (place, q) ∈ p.nodes ↔ p.node? place = some q := by
  induction p using children_induction generalizing place with
  | step p ih =>
    rw [nodes_eq]
    cases place with
    | nil => simp [node?, under, eq_comm]
    | cons i place =>
      simp only [List.mem_cons, Prod.mk.injEq, reduceCtorEq, false_and, false_or, node?,
        List.mem_flatMap, mem_under, List.mem_zipIdx_iff_getElem?, Option.bind_eq_some_iff,
        List.cons.injEq, Prod.exists]
      constructor
      · rintro ⟨c, _, hc, _, ⟨rfl, rfl⟩, hq⟩
        exact ⟨c, hc, (ih c (List.mem_of_getElem? hc) place).mp hq⟩
      · rintro ⟨c, hc, hq⟩
        exact ⟨c, i, hc, place, ⟨rfl, rfl⟩, (ih c (List.mem_of_getElem? hc) place).mpr hq⟩

/-- The places are listed in the order of a dictionary, and none twice. -/
theorem pairwise_nodes (p : Plan) : (p.nodes.map Prod.fst).Pairwise (· < ·) := by
  induction p using children_induction with
  | step p ih =>
    have hunder (i : Nat) (q : Plan) :
        (under i q.nodes).map Prod.fst = (q.nodes.map Prod.fst).map (i :: ·) := by
      simp [under]
    have hnumbers : p.children.zipIdx.Pairwise fun c d => c.2 < d.2 := by
      rw [← List.pairwise_map, List.zipIdx_map_snd]
      exact List.pairwise_lt_range'
    rw [nodes_eq, List.map_cons, List.pairwise_cons, List.map_flatMap, List.pairwise_flatMap]
    simp only [hunder]
    -- the topmost place against all others, two below one child, two below different children
    refine ⟨fun a ha => ?_, fun c hc => ?_, hnumbers.imp fun {c d} hlt a ha b hb => ?_⟩
    · obtain ⟨c, -, ha⟩ := List.mem_flatMap.mp ha
      obtain ⟨b, -, rfl⟩ := List.mem_map.mp ha
      exact List.nil_lt_cons _ _
    · rw [List.pairwise_map]
      exact (ih c.1 (List.fst_mem_of_mem_zipIdx hc)).imp fun h =>
        List.cons_lt_cons_iff.mpr (.inr ⟨rfl, h⟩)
    · obtain ⟨a, -, rfl⟩ := List.mem_map.mp ha
      obtain ⟨b, -, rfl⟩ := List.mem_map.mp hb
      exact List.cons_lt_cons_iff.mpr (.inl hlt)

section Profiles

variable {β : Type} {f : Plan → β} {depth : Nat} {rest rest' : List (Nat × β)} {p q : Plan}

/-- What is said of the operators, in the order of their places, with their depths counted
from `depth`. -/
def profile (f : Plan → β) (depth : Nat) (p : Plan) : List (Nat × β) :=
  p.nodes.map fun n => (depth + n.1.length, f n.2)

theorem profile_eq (f : Plan → β) (depth : Nat) (p : Plan) : p.profile f depth =
    (depth, f p) :: p.children.flatMap fun c => c.source.profile f (depth + 1) := by
  have hunder (i : Nat) (q : Plan) : (under i q.nodes).map
      (fun n => (depth + n.1.length, f n.2)) = q.profile f (depth + 1) := by
    simp [under, profile, Nat.add_assoc, Nat.add_comm 1]
  rw [profile, nodes_eq, List.map_cons, List.map_flatMap]
  simp only [hunder]
  conv_rhs => rw [← List.zipIdx_map_fst 0 p.children, List.flatMap_map]
  rfl

theorem outline_eq_profile (p : Plan) (depth : Nat) : p.outline depth = p.profile title depth := by
  induction p using children_induction generalizing depth with
  | step p ih =>
    rw [outline_eq, profile_eq]
    exact congrArg _ (List.flatMap_congr fun c hc => ih c hc (depth + 1))

/-! ### Plans that agree place by place -/

/-- Plans of one shape, of whose operators the same is said at every place. -/
def Agree (f : Plan → β) (p q : Plan) : Prop :=
  ∀ place, (p.node? place).map f = (q.node? place).map f

theorem agree_below_iff (cs ds : List (Cursor Plan)) :
    (∀ (i : Nat) (place : List Nat), (cs[i]?.bind fun c => c.source.node? place).map f =
      (ds[i]?.bind fun d => d.source.node? place).map f) ↔
    List.Forall₂ (fun c d => Agree f c.source d.source) cs ds := by
  constructor
  · intro h
    induction cs generalizing ds with
    | nil =>
      cases ds with
      | nil => exact .nil
      | cons d ds => cases h 0 []
    | cons c cs ih =>
      cases ds with
      | nil => cases h 0 []
      | cons d ds => exact .cons (fun place => h 0 place) (ih ds fun i place => h (i + 1) place)
  · intro h i place
    induction h generalizing i with
    | nil => rfl
    | cons hcd _ ih =>
      cases i with
      | zero => exact hcd place
      | succ i => exact ih i

theorem agree_iff : Agree f p q ↔ f p = f q ∧
    List.Forall₂ (fun c d => Agree f c.source d.source) p.children q.children := by
  rw [← agree_below_iff]
  constructor
  · exact fun h => ⟨Option.some.inj (h []), fun i place => h (i :: place)⟩
  · rintro ⟨htop, hbelow⟩ (_ | ⟨i, place⟩)
    · exact congrArg some htop
    · exact hbelow i place

theorem Agree.profile_eq (h : Agree f p q) (depth : Nat) :
    p.profile f depth = q.profile f depth := by
  induction p using children_induction generalizing q depth with
  | step p ih =>
    obtain ⟨htop, hbelow⟩ := agree_iff.mp h
    have hsame : p.children.map (fun c => c.source.profile f (depth + 1)) =
        q.children.map fun d => d.source.profile f (depth + 1) := by
      rw [← List.forall₂_eq_eq_eq, List.forall₂_map_left_iff, List.forall₂_map_right_iff]
      exact ((List.forall₂_and_left _ _).mpr ⟨ih, hbelow⟩).imp
        fun c d h => h.1 h.2 (depth + 1)
    rw [Plan.profile_eq, Plan.profile_eq, htop, List.flatMap_def, List.flatMap_def, hsame]

/-! ### The shape of a plan from its depths -/

/-- The first line, if there is one, is at most so deep. -/
def Shallow (depth : Nat) (lines : List (Nat × β)) : Prop := ∀ l ∈ lines.head?, l.1 ≤ depth

/-- The lines of plans side by side. -/
def forest (f : Plan → β) (depth : Nat) (cs : List (Cursor Plan)) : List (Nat × β) :=
  cs.flatMap fun c => c.source.profile f depth

theorem forest_cons (c : Cursor Plan) (cs : List (Cursor Plan)) :
    forest f depth (c :: cs) ++ rest = c.source.profile f depth ++ (forest f depth cs ++ rest) :=
  List.append_assoc ..

theorem not_shallow_forest (c : Cursor Plan) (cs : List (Cursor Plan)) :
    ¬ Shallow depth (forest f (depth + 1) (c :: cs) ++ rest) := by
  rw [forest_cons, profile_eq]
  exact fun h => Nat.not_succ_le_self depth (h _ rfl)

theorem shallow_forest (h : Shallow depth rest) (cs : List (Cursor Plan)) :
    Shallow (depth + 1) (forest f (depth + 1) cs ++ rest) := by
  cases cs with
  | nil => exact fun l hl => Nat.le_succ_of_le (h l hl)
  | cons c cs =>
    rw [forest_cons, profile_eq]
    rintro _ ⟨⟩
    exact Nat.le_refl _

/-- A plan can be told from its lines, also where others follow: its own lines end before the
next that is not below its first. -/
def Determined (f : Plan → β) (p : Plan) : Prop :=
  ∀ (q : Plan) (depth : Nat) (rest rest' : List (Nat × β)), Shallow depth rest →
    Shallow depth rest' → p.profile f depth ++ rest = q.profile f depth ++ rest' →
    Agree f p q ∧ rest = rest'

theorem forest_determined {cs : List (Cursor Plan)} (hcs : ∀ c ∈ cs, c.source.Determined f)
    (ds : List (Cursor Plan)) (hrest : Shallow depth rest) (hrest' : Shallow depth rest')
    (h : forest f (depth + 1) cs ++ rest = forest f (depth + 1) ds ++ rest') :
    List.Forall₂ (fun c d => Agree f c.source d.source) cs ds ∧ rest = rest' := by
  induction cs generalizing ds with
  | nil =>
    cases ds with
    | nil => exact ⟨.nil, h⟩
    | cons d ds =>
      have hmore : rest = forest f (depth + 1) (d :: ds) ++ rest' := h
      exact absurd (hmore ▸ hrest) (not_shallow_forest d ds)
  | cons c cs ih =>
    cases ds with
    | nil =>
      have hmore : forest f (depth + 1) (c :: cs) ++ rest = rest' := h
      exact absurd (hmore ▸ hrest') (not_shallow_forest c cs)
    | cons d ds =>
      -- the lines of the next siblings follow those of the first pair, and are no deeper
      rw [forest_cons, forest_cons] at h
      obtain ⟨hhead, htail⟩ := hcs c List.mem_cons_self d.source (depth + 1) _ _
        (shallow_forest hrest cs) (shallow_forest hrest' ds) h
      obtain ⟨hforest, heq⟩ := ih (fun e he => hcs e (.tail _ he)) ds htail
      exact ⟨.cons hhead hforest, heq⟩

theorem determined (f : Plan → β) (p : Plan) : p.Determined f := by
  induction p using children_induction with
  | step p ih =>
    intro q depth rest rest' hrest hrest' h
    rw [profile_eq, profile_eq, List.cons_append, List.cons_append, List.cons.injEq,
      Prod.mk.injEq] at h
    obtain ⟨⟨-, htop⟩, hbelow⟩ := h
    obtain ⟨hchildren, heq⟩ := forest_determined ih q.children hrest hrest' hbelow
    exact ⟨agree_iff.mpr ⟨htop, hchildren⟩, heq⟩

/-- What is said of the operators of a plan, listed with their depths, tells what is said at
which place. -/
theorem agree_iff_profile_eq : Agree f p q ↔ p.profile f 0 = q.profile f 0 :=
  ⟨fun h => h.profile_eq 0, fun h => (determined f p q 0 [] [] nofun nofun (by rw [h])).1⟩

end Profiles

end RowEngine.Plan
