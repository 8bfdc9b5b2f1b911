import DocDrift.VcsKind

/-!
# Failures

Why a file, or a whole run, could not be dealt with. The wording is in `Failure.message`.
-/

namespace DocDrift

inductive Failure where
  /-- The file system refused. -/
  | io (reason : String)
  /-- The configuration makes no sense. -/
  | config (reason : String)
  /-- The configuration file is not of the expected form; `report` shows where. -/
  | toml (report : String)
  /-- There is no such file. -/
  | fileNotFound (path : Path)
  /-- The file is in no repository, or in none of the chosen kind, or has no revisions. -/
  | notTracked (path : Path)
  /-- The path has no content at the revision. -/
  | notFound (path : Path) (revision : String)
  /-- The version control executable is missing or misbehaves. -/
  | vcsExecutable (kind : VcsKind) (executable : Path) (reason : String)
  /-- The source text has a syntax error. -/
  | parse (path : Path) (line : Nat) (reason : String)
  /-- The text of a diff is malformed. -/
  | diff (reason : String)
deriving DecidableEq, Repr

namespace Failure

def message : Failure → String
  | io reason => s!"IO error: {reason}"
  | config reason => s!"configuration error: {reason}"
  | toml report => s!"TOML parse error: {report}"
  | fileNotFound path => s!"file not found: {path.text}"
  | notTracked path => s!"{path.text} does not seem to be under version control"
  | notFound path revision => s!"{path.text} does not exist in revision {revision}"
  | vcsExecutable kind executable reason =>
    s!"{executable.text} is not usable as the {kind.name} executable: {reason}"
  | parse path line reason => s!"could not parse {path.text}: {reason} (line {line})"
  | diff reason => s!"diff error: {reason}"

/-- Whether the failure ends the whole run: only a broken executable does. -/
def isFatal : Failure → Bool
  | vcsExecutable .. => true
  | _ => false

/-- The stable identifier shown with the failure. -/
def code : Failure → String
  | io _ => "docsweep::io"
  | config _ | toml _ => "docsweep::config"
  | fileNotFound _ => "docsweep::file_not_found"
  | notTracked _ => "docsweep::not_tracked"
  | notFound .. => "docsweep::not_found"
  | vcsExecutable .. => "docsweep::vcs_executable"
  | parse .. => "docsweep::parse"
  | diff _ => "docsweep::diff"

/-- Advice on how to get out of the failure. -/
def help? : Failure → Option String
  | notTracked _ => some "commit the file, or pick the matching backend with --vcs"
  | vcsExecutable .. =>
    some "check the executable path with --vcs-executable or in .docsweep.toml"
  | _ => none

end Failure

theorem toOption_eq_some_iff {α : Type} {result : Except Failure α} {a : α} :
    result.toOption = some a ↔ result = .ok a := by
  cases result <;> simp [Except.toOption]

end DocDrift
