import DocDrift.Json.Forms

/-!
# Reports

The results of a run as text, as JSON, or as one line for every unit that may be outdated. The
number of tolerated changes decides which units are marked, and nothing else.
-/

namespace DocDrift.Report

def lintCode : String := "DOC100"

/-- The ending of a noun that is counted. -/
def plural (n : Nat) : String := if n = 1 then "" else "s"

/-- Whether the documentation is as old as the file, as far as its history tells. -/
def sinceCreation (a : FileAnalysis) (s : UnitStatistic) : Bool :=
  nextCount s.lastDocRevisionAge == a.revisions && !s.truncatedByRename

def docChange (a : FileAnalysis) (s : UnitStatistic) : String :=
  let revision := s.lastDocRevision.shortId
  if sinceCreation a s then s!"unchanged since creation in revision {revision}"
  else
    let age := s.lastDocRevisionAge
    s!"last changed {age} revision{plural age} ago, in revision {revision}"

def flag (maxChanges : Nat) (s : UnitStatistic) : String :=
  if s.exceeds maxChanges then "  [potentially outdated]" else ""

def textLines (maxChanges : Nat) (a : FileAnalysis) (s : UnitStatistic) : List String :=
  [s!"{a.path.text}:{s.unit.qualifiedName} ({s.unit.kind.name})",
    s!"    docstring: {docChange a s}",
    s!"    code changes since: {s.changesSinceCount}{flag maxChanges s}"] ++
    (if s.truncatedByRename then
      ["    note: history stops at a rename that was not followed"]
    else [])

def lintLine (a : FileAnalysis) (s : UnitStatistic) : String :=
  let count := s.changesSinceCount
  s!"{a.path.text}:{s.unit.docRange.first}:1: {lintCode} Potentially outdated docstring: " ++
    s!"{count} code change{plural count} in {s.unit.qualifiedName} since last docstring change"

def units (analyses : List FileAnalysis) : List (FileAnalysis × UnitStatistic) :=
  analyses.flatMap fun a => a.units.map (a, ·)

/-- The units that changed more often than tolerated. -/
def outdated (maxChanges : Nat) (analyses : List FileAnalysis) :
    List (FileAnalysis × UnitStatistic) :=
  (units analyses).filter fun u => u.2.exceeds maxChanges

def unlines (lines : List String) : String := String.join (lines.map (· ++ "\n"))

def render (format : OutputFormat) (maxChanges : Nat) (analyses : List FileAnalysis) : String :=
  match format with
  | .text => unlines ((units analyses).flatMap fun u => textLines maxChanges u.1 u.2)
  | .json => (Json.Codec.list FileAnalysis.codec).encode .indented analyses ++ "\n"
  | .lint => unlines ((outdated maxChanges analyses).map fun u => lintLine u.1 u.2)

end DocDrift.Report
