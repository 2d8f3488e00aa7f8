import RowEngine.Storage.Database

/-!
What operators run against: a database, and a log of what happened at the scripted
parts of a query, which are there to be observed.
-/
namespace RowEngine

inductive Event where
  | started (label : String)
  | stopped (label : String)
  | pulled (label : String)
  | inserted (transaction : TransactionId) (table : TableId) (row : Row)
  deriving DecidableEq, Repr

namespace Event

def display : Event → String
  | .started label => label ++ ".open"
  | .stopped label => label ++ ".close"
  | .pulled label => label ++ ".produce"
  | .inserted transaction table row =>
      "insert " ++ transaction.display ++ " " ++ table.display ++ " " ++ row.display

end Event

structure World where
  database : Database
  /-- What happened, in order. -/
  log : List Event
  deriving DecidableEq, Repr, Inhabited

namespace World

def record (w : World) (e : Event) : World := { w with log := w.log ++ [e] }

end World

end RowEngine
