import RowEngine.Query.Plan

/-!
Plans as text: one line for each operator, children below their parent and indented by
two more blanks, with the schema of its rows in brackets.
-/
namespace RowEngine.Plan

/-- What is said of the topmost operator. -/
def title (p : Plan) : String := p.name ++ " [" ++ p.schema.display ++ "]"

/-- The titles of the operators in preorder, each with its depth. -/
def outline (depth : Nat) : Plan → List (Nat × String)
  | p@(.rows _) => [(depth, p.title)]
  | p@(.table _) => [(depth, p.title)]
  | p@(.filter f) => (depth, p.title) :: f.child.source.outline (depth + 1)
  | p@(.join j) =>
      (depth, p.title) ::
        (j.left.source.outline (depth + 1) ++ j.right.source.outline (depth + 1))
  | p@(.insert i) => (depth, p.title) :: i.child.source.outline (depth + 1)
  | p@(.probe _) => [(depth, p.title)]

/-- One line of the text. -/
def line (depth : Nat) (title : String) : String :=
  String.ofList (List.replicate (2 * depth) ' ') ++ title ++ "\n"

def explain (p : Plan) : String :=
  String.join ((p.outline 0).map fun l => line l.1 l.2)

/-- The number of operators. -/
def nodeCount : Plan → Nat
  | .rows _ => 1
  | .table _ => 1
  | .filter f => f.child.source.nodeCount + 1
  | .join j => j.left.source.nodeCount + j.right.source.nodeCount + 1
  | .insert i => i.child.source.nodeCount + 1
  | .probe _ => 1

end RowEngine.Plan
