import RowEngine.Query.Source
import RowEngine.Query.World

/-!
Probes: sources for tests that follow a script and log every call. A start begins the
script anew, unless it is one of the starts that are told to fail.
-/
namespace RowEngine

/-- What one pull of a probe does. -/
inductive ProbeStep where
  | row (row : Row)
  | done
  | fail (text : String)
  | abort (transaction : TransactionId)
  deriving DecidableEq, Repr

structure Probe where
  label : String
  schema : Schema
  script : List ProbeStep
  /-- The starts that fail, counted from zero. -/
  failingStarts : List Nat
  starts : Nat
  /-- What is left of the script since the last start. -/
  pending : List ProbeStep
  deriving DecidableEq, Repr

namespace Probe

def create (label : String) (schema : Schema) (script : List ProbeStep)
    (failingStarts : List Nat) : Probe :=
  ⟨label, schema, script, failingStarts, 0, script⟩

def start (p : Probe) (w : World) : Outcome Unit Probe World :=
  let w := w.record (.started p.label)
  if p.starts ∈ p.failingStarts then
    .error (.engine (.storage (.startFailed p.label))) { p with starts := p.starts + 1 } w
  else .ok () { p with starts := p.starts + 1, pending := p.script } w

def stop (p : Probe) (w : World) : Probe × World := (p, w.record (.stopped p.label))

def pull (p : Probe) (w : World) : Outcome (Option Row) Probe World :=
  let w := w.record (.pulled p.label)
  match p.pending with
  | [] => .ok none p w
  | .row r :: rest => .ok (some r) { p with pending := rest } w
  | .done :: rest => .ok none { p with pending := rest } w
  | .fail text :: rest =>
      .error (.engine (.storage (.scripted text))) { p with pending := rest } w
  | .abort t :: rest => .error (.engine (.transactionAborted t)) { p with pending := rest } w

instance : Ranked Probe where
  rank p := [p.pending.length]

def source : FiniteSource Probe World where
  name _ := "probe"
  start := start
  stop := stop
  pull := pull
  length_start _ _ := rfl
  length_stop _ _ := rfl
  length_pull _ _ := rfl
  shrinks_pull p w r h := by
    unfold pull at h ⊢
    dsimp only at h ⊢
    split at h
    · simp [Outcome.ok] at h
    · next heq => exact .singleton (by simp [Outcome.ok, heq])
    · simp [Outcome.ok] at h
    · simp [Outcome.error] at h
    · simp [Outcome.error] at h

end Probe

end RowEngine
