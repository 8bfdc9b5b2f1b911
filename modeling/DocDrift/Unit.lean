import DocDrift.History.Basic
import DocDrift.Lines.Range

/-!
# Documented units

The parts of a source file that carry documentation, and what a history says about their age.
-/

namespace DocDrift

inductive UnitKind where
  | module
  | classBlock
  | function
  | method
deriving DecidableEq, Repr, Inhabited

def UnitKind.name : UnitKind → String
  | module => "module"
  | classBlock => "class"
  | function => "function"
  | method => "method"

structure DocumentedUnit where
  /-- The names of the enclosing definitions and of the unit, joined by dots. -/
  qualifiedName : String
  kind : UnitKind
  docRange : LineRange
  /-- The whole definition, without blank lines at its end. -/
  bodyRange : LineRange
deriving DecidableEq, Repr

/-- How far the documentation of a unit lags behind its code. -/
structure UnitStatistic where
  unit : DocumentedUnit
  /-- The newest revision that changed the documentation, or the one where its trace ends. -/
  lastDocRevision : Revision
  /-- The number of newer revisions of the file. -/
  lastDocRevisionAge : Nat
  /-- The number of newer revisions that changed the unit. -/
  changesSinceCount : Nat
  /-- Whether a walk stopped at a rename that was not followed. -/
  truncatedByRename : Bool
deriving DecidableEq, Repr

/-- Whether the unit changed more often than tolerated since its documentation did. -/
def UnitStatistic.exceeds (s : UnitStatistic) (maxChanges : Nat) : Bool :=
  decide (maxChanges < s.changesSinceCount)

structure FileAnalysis where
  /-- The file as the caller named it. -/
  path : Path
  /-- The length of the file's history. -/
  revisions : Nat
  /-- One statistic for each unit, in source order. -/
  units : List UnitStatistic
deriving DecidableEq, Repr

end DocDrift
