import DocDrift.Check.Conclusion
import DocDrift.Check.Schedule
import DocDrift.ConfigFile
import DocDrift.Exclusion.Search

/-!
# Checks

A check looks up its settings, finds the files, analyses each of them, and concludes from the
results.
-/

namespace DocDrift.Check

/-- What a check is asked to do. Without a value, a setting keeps what the configuration says. -/
structure Request where
  /-- The configuration file, if it is not the one in the working directory. -/
  config : Option Path := none
  paths : List Path := [⟨"."⟩]
  format : OutputFormat := .text
  vcs : Option VcsKind := none
  vcsExecutable : Option Path := none
  noFollowRename : Bool := false
  maxChanges : Option Nat := none
  exitCode : Bool := false
  jobs : Option Nat := none
deriving DecidableEq, Repr

/-- The configuration of a check before its own settings. -/
def baseConfig (files : FileTree) (explicit : Option Path) : Except Failure Config :=
  match explicit with
  | some path => Config.ofFile files path
  | none =>
    let standard : Path := ⟨configFileName⟩
    if files.exists? standard then Config.ofFile files standard else .ok {}

namespace Request

/-- The configuration with the settings of the request. An executable is meant for the system that
the request or else the configuration chooses. -/
def override (r : Request) (c : Config) : Config :=
  let c := { c with vcs := r.vcs.getD c.vcs }
  let c := match r.vcsExecutable with
    | some executable => c.withExecutable executable
    | none => c
  { c with
    followRename := !r.noFollowRename && c.followRename
    maxChanges := r.maxChanges.getD c.maxChanges
    jobs := r.jobs.or c.jobs }

def style (r : Request) (c : Config) : Style where
  format := r.format
  maxChanges := c.maxChanges
  exitCode := r.exitCode

end Request

def results (w : World) (c : Config) (paths : List Path) : List (Except Failure FileAnalysis) :=
  paths.map fun p => (w.analyzeFile c.vcsConfig p).outcome

/-- The most files that a machine can be asked to analyse at once. -/
def mostJobs : Nat := 0x1FFFFFFFFFFFFFFF

inductive Ending where
  | concluded (c : Conclusion)
  /-- A failure ended the check before there was anything to say. -/
  | failed (e : Failure)
  /-- The check broke down because it was asked for more jobs than there can be. -/
  | brokeDown
deriving DecidableEq, Repr

/-- Ends a check with the conclusion from the collected results, or with the failure that ended the
collection. -/
def finish (style : Style) (paths : List Path) :
    Except Failure (List (Except Failure FileAnalysis)) → Ending
  | .ok collected => .concluded (conclude style paths collected)
  | .error e => .failed e

/-- Analyses the files of a check. The results come in in the given order. -/
def analyse (w : World) (r : Request) (c : Config) (order : Nat → List Nat) : Ending :=
  let paths := w.files.expandAll r.paths
  if c.jobs.any (mostJobs < ·) then .brokeDown
  else finish (r.style c) paths (collect (results w c paths) (order paths.length))

/-- Runs a check. The results come in in the order that `order` gives to that many files. -/
def run (w : World) (r : Request) (order : Nat → List Nat) : Ending :=
  match baseConfig w.files r.config with
  | .error e => .failed e
  | .ok c => analyse w r (r.override c) order

end DocDrift.Check
