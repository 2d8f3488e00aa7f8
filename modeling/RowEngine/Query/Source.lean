import RowEngine.Query.Countdown
import RowEngine.Query.Error
import RowEngine.Row

/-!
Row sources. A source of type `P` in a world `W` can be started at the beginning of
its rows, pulled for one row after another, and stopped. A failed call still says what
became of the source and of the world. A finite source is one whose rows come to an
end between two starts: each row that it hands over makes its rank smaller.
-/
namespace RowEngine

/-- The end of a call: its result, and the source and the world after it. -/
structure Outcome (α P W : Type) where
  result : Except QueryFailure α
  state : P
  world : W

namespace Outcome

variable {α P Q W : Type}

def ok (a : α) (p : P) (w : W) : Outcome α P W := ⟨.ok a, p, w⟩

def error (e : QueryError) (p : P) (w : W) : Outcome α P W := ⟨.error (.error e), p, w⟩

/-- The same outcome for a source that holds this one. -/
def mapState (f : P → Q) (o : Outcome α P W) : Outcome α Q W := ⟨o.result, f o.state, o.world⟩

@[simp] theorem result_mapState (f : P → Q) (o : Outcome α P W) :
    (o.mapState f).result = o.result := rfl

@[simp] theorem state_mapState (f : P → Q) (o : Outcome α P W) :
    (o.mapState f).state = f o.state := rfl

@[simp] theorem world_mapState (f : P → Q) (o : Outcome α P W) :
    (o.mapState f).world = o.world := rfl

end Outcome

structure Source (P W : Type) where
  /-- What the source is called in messages. -/
  name : P → String
  start : P → W → Outcome Unit P W
  stop : P → W → P × W
  /-- The next row, or `none` at the end. -/
  pull : P → W → Outcome (Option Row) P W

structure FiniteSource (P W : Type) [Ranked P] extends Source P W where
  length_start (p : P) (w : W) :
    (Ranked.rank (start p w).state).length = (Ranked.rank p).length
  length_stop (p : P) (w : W) : (Ranked.rank (stop p w).1).length = (Ranked.rank p).length
  length_pull (p : P) (w : W) :
    (Ranked.rank (pull p w).state).length = (Ranked.rank p).length
  shrinks_pull (p : P) (w : W) (r : Row) :
    (pull p w).result = .ok (some r) → Shrinks (Ranked.rank (pull p w).state) (Ranked.rank p)

end RowEngine
