import DocDrift.Check.Run
import DocDrift.CommandLine.Reader

/-!
# The program

What a run of the program does: what it prints, the warnings it gives, the files it writes, and the
exit status that it ends with.
-/

namespace DocDrift

open CommandLine

structure Effects where
  status : Nat
  output : String := ""
  warnings : List String := []
  /-- Why the run failed, if it did. -/
  complaint : Option String := none
  /-- The files that are written. -/
  written : List (Path × String) := []
deriving DecidableEq, Repr

namespace Program

def version : String := "0.1.0"

def versionLine : String := s!"docsweep {version}\n"

def helpText : String :=
  Report.unlines [
    "docsweep mines version control history to find documentation that",
    "may be outdated: for every documented module, class, function and",
    "method it counts how often the code changed since the docstring last did.",
    "",
    "Examples:",
    "  docsweep check src/              Analyze every Python file under src/",
    "  docsweep check --format lint .   Emit flake8-style diagnostics",
    "  docsweep check --vcs hg app.py   Analyze a file in a Mercurial repository",
    "  docsweep init                    Create a .docsweep.toml config file"]

def newConfig : String :=
  Report.unlines [
    "# docsweep configuration",
    "",
    "# Version control system of the analyzed files: \"git\" or \"hg\".",
    "vcs = \"git\"",
    "",
    "# Follow renames when walking a file's history.",
    "follow_rename = true",
    "",
    "# Report docstrings whose code changed more than this many times since",
    "# the docstring itself last changed.",
    "max_changes = 0",
    "",
    "# Number of files analyzed concurrently (default: available parallelism).",
    "# jobs = 4",
    "",
    "[git]",
    "executable = \"git\"",
    "",
    "[hg]",
    "executable = \"hg\""]

def misuseStatus : Nat := 2

def misuseText : Misuse → String
  | .unknownArgument text => s!"unexpected argument '{text}' found"
  | .unknownCommand name => s!"unrecognized subcommand '{name}'"
  | .missingCommand => "a subcommand is required"
  | .missingOperand => "a required argument was not provided"
  | .missingValue s => s!"a value is required for '--{s.long}' but none was supplied"
  | .needlessValue s => s!"unexpected value for '--{s.long}' found"
  | .repeated s => s!"the argument '--{s.long}' cannot be used multiple times"
  | .wrongValue text => s!"invalid value '{text}'"

/-- The effects of a command line that asks for no run. -/
def stopped : Stop → Effects
  | .help => { status := 0, output := helpText }
  | .version => { status := 0, output := versionLine }
  | .misuse m => { status := misuseStatus, complaint := some (misuseText m) }

/-- The check that a command line asks for. What is given behind the command counts more. -/
def checkRequest (r : CommandLine.Request) : Check.Request where
  config := r.behind.config.or r.ahead.config
  paths := if r.behind.paths.isEmpty then [⟨"."⟩] else r.behind.paths
  format := r.behind.format.getD .text
  vcs := r.behind.vcs
  vcsExecutable := r.behind.vcsExecutable
  noFollowRename := r.behind.noFollowRename
  maxChanges := r.behind.maxChanges
  exitCode := r.behind.exitCode
  jobs := r.behind.jobs

/-- The effects of a check whose results come in in a given order. -/
def check (w : World) (r : Check.Request) (order : Nat → List Nat) : Effects :=
  match Check.run w r order with
  | .failed e => { status := Check.failedStatus, complaint := some e.message }
  | .brokeDown => { status := Check.brokenStatus, complaint := some "too many jobs" }
  | .concluded c =>
    { status := c.status, output := c.report, warnings := c.skipped.map Check.Skipped.warning }

/-- The effects of setting up a configuration file. One that exists is left alone. -/
def init (w : World) : Effects :=
  let path : Path := ⟨configFileName⟩
  if w.files.exists? path then
    { status := Check.failedStatus, complaint := some s!"{configFileName} already exists" }
  else
    { status := 0
      output := s!"Created {configFileName} with default configuration\n"
      written := [(path, newConfig)] }

/-- The effects of a run with some arguments, in which the results for files come in in a given
order. The scripts for the completion of commands are not made here. -/
def effects (w : World) (order : Nat → List Nat) (arguments : List String) : Effects :=
  match CommandLine.read arguments with
  | .error stop => stopped stop
  | .ok r =>
    match r.command with
    | .check => check w (checkRequest r) order
    | .init => init w
    | .completions | .program => { status := 0 }

end Program

end DocDrift
