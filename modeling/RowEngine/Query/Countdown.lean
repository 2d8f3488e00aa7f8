/-!
Why the loops of operators end. What an operator may still do is measured by a list of
numbers, the most significant first. The list keeps its length for the life of the
operator, and each row that is handed over makes it smaller in lexicographic order:
some number drops, those before it stay, and those after it may grow, as they do when
an inner scan begins anew. No such list can be made smaller for ever.
-/
namespace RowEngine

/-- One list is below another of the same length in lexicographic order. -/
inductive Shrinks : List Nat → List Nat → Prop where
  | head {a b : Nat} {as bs : List Nat} (lt : a < b) (length : as.length = bs.length) :
      Shrinks (a :: as) (b :: bs)
  | tail {a : Nat} {as bs : List Nat} (rest : Shrinks as bs) : Shrinks (a :: as) (a :: bs)

namespace Shrinks

theorem length_eq {as bs : List Nat} (h : Shrinks as bs) : as.length = bs.length := by
  induction h with
  | head _ length => simp [length]
  | tail _ ih => simp [ih]

theorem trans {as bs cs : List Nat} (h : Shrinks as bs) (k : Shrinks bs cs) : Shrinks as cs := by
  induction h generalizing cs with
  | head lt length =>
    cases k with
    | head lt' length' => exact .head (Nat.lt_trans lt lt') (length.trans length')
    | tail rest => exact .head lt (length.trans rest.length_eq)
  | tail rest ih =>
    cases k with
    | head lt' length' => exact .head lt' (rest.length_eq.trans length')
    | tail rest' => exact .tail (ih rest')

/-- A drop among the first numbers outweighs whatever follows. -/
theorem append {as bs : List Nat} (h : Shrinks as bs) {cs ds : List Nat}
    (length : cs.length = ds.length) : Shrinks (as ++ cs) (bs ++ ds) := by
  induction h with
  | head lt eq => exact .head lt (by simp [eq, length])
  | tail _ ih => exact .tail ih

theorem append_left (as : List Nat) {cs ds : List Nat} (h : Shrinks cs ds) :
    Shrinks (as ++ cs) (as ++ ds) := by
  induction as with
  | nil => exact h
  | cons a _ ih => exact .tail ih

theorem singleton {a b : Nat} (lt : a < b) : Shrinks [a] [b] := .head lt rfl

private theorem acc_cons {n : Nat} (ih : ∀ as : List Nat, as.length = n → Acc Shrinks as)
    (a : Nat) : ∀ as : List Nat, as.length = n → Acc Shrinks (a :: as) := by
  induction a using Nat.strongRecOn with
  | _ a iha =>
    intro as has
    have := ih as has
    induction this with
    | intro as _ ihas =>
      refine ⟨_, fun cs hcs => ?_⟩
      cases hcs with
      | head lt length => exact iha _ lt _ (length.trans has)
      | tail rest => exact ihas _ rest (rest.length_eq.trans has)

theorem acc (as : List Nat) : Acc Shrinks as := by
  generalize h : as.length = n
  induction n generalizing as with
  | zero =>
    refine ⟨_, fun cs hcs => ?_⟩
    have := hcs.length_eq
    cases hcs <;> simp_all
  | succ n ih =>
    cases as with
    | nil => simp at h
    | cons a as => exact acc_cons (fun cs => ih cs) a as (by simpa using h)

theorem wf : WellFounded Shrinks := ⟨acc⟩

end Shrinks

/-- A list that counts down: the measure by which operator loops are defined. -/
structure Countdown where
  digits : List Nat

instance : WellFoundedRelation Countdown := ⟨_, InvImage.wf Countdown.digits Shrinks.wf⟩

/-- Types whose values say how much they may still do. -/
class Ranked (P : Type) where
  rank : P → List Nat

/-- The countdown of a value. -/
def countdown {P : Type} [Ranked P] (p : P) : Countdown := ⟨Ranked.rank p⟩

/-- One if there is something, and otherwise zero. -/
def held {α : Type} : Option α → Nat
  | some _ => 1
  | none => 0

end RowEngine
