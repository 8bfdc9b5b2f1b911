import DocDrift.Report.Render

/-!
# Conclusions

What is said about a list of files once the result for each of them is known: the report about those
that could be analysed, a warning about each other one, and the exit status.
-/

namespace DocDrift.Check

structure Style where
  format : OutputFormat
  /-- How many changes are tolerated. -/
  maxChanges : Nat
  /-- Whether outdated units show in the exit status. -/
  exitCode : Bool
deriving DecidableEq, Repr

structure Skipped where
  path : Path
  failure : Failure
deriving DecidableEq, Repr

def Skipped.warning (s : Skipped) : String :=
  s!"skipping file path={s.path.text} error={s.failure.message}"

def skippedStatus : Nat := 2

def outdatedStatus : Nat := 1

def failedStatus : Nat := 1

/-- The exit status of a run that breaks down. -/
def brokenStatus : Nat := 101

structure Conclusion where
  status : Nat
  report : String
  skipped : List Skipped
deriving DecidableEq, Repr

def analyses (results : List (Except Failure FileAnalysis)) : List FileAnalysis :=
  results.filterMap Except.toOption

def skipped (paths : List Path) (results : List (Except Failure FileAnalysis)) : List Skipped :=
  (paths.zip results).filterMap fun r =>
    match r.2 with
    | .error e => some ⟨r.1, e⟩
    | .ok _ => none

def status (style : Style) (analyses : List FileAnalysis) (skipped : List Skipped) : Nat :=
  if !skipped.isEmpty then skippedStatus
  else if style.exitCode && !(Report.outdated style.maxChanges analyses).isEmpty then outdatedStatus
  else 0

def conclude (style : Style) (paths : List Path) (results : List (Except Failure FileAnalysis)) :
    Conclusion where
  status := status style (analyses results) (skipped paths results)
  report := Report.render style.format style.maxChanges (analyses results)
  skipped := skipped paths results

end DocDrift.Check
