import Chahua.Markdown.Normalize
import Mathlib

namespace Chahua.Markdown

/-- A run has its marker twice. -/
def RunOk (src : List Char) (run : MarkerRun) : Prop :=
  src[run.start]? = some run.ch ∧ src[run.start + 1]? = some run.ch ∧ isMarker run.ch = true

def Apart (a b : MarkerRun) : Prop := a.start + 2 ≤ b.start

section runs

variable {src : List Char} {masked : List Bool} {i : Nat} {c : Char} {run : MarkerRun}

end runs

/-- The markers of a pair are two runs of one character. -/
def PairOk (src : List Char) (p : Nat × Nat) : Prop :=
  p.1 + 2 ≤ p.2 ∧ ∃ ch, RunOk src ⟨p.1, ch⟩ ∧ RunOk src ⟨p.2, ch⟩

/-- A pair in front of another one in the order of the opening markers contains it or ends in front
of it. -/
def Follows (p q : Nat × Nat) : Prop :=
  p.1 + 2 ≤ q.1 ∧ (q.2 + 2 ≤ p.2 ∨ p.2 + 2 ≤ q.1)

end Chahua.Markdown
