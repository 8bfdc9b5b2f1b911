import DocDrift.Failure
import DocDrift.Text.Blank
import DocDrift.Text.Utf8

/-!
# Commands

A version control system is consulted by running its executable. What comes of a command is known
as a function of the command.
-/

namespace DocDrift

structure Invocation where
  executable : Path
  arguments : List String
  /-- The variables that are set for the command. -/
  environment : List (String × String)
deriving DecidableEq, Repr

inductive Outcome where
  /-- It could not be started. -/
  | notStarted (reason : String)
  /-- It ran to its end; there is no status if a signal ended it. -/
  | finished (status : Option Nat) (stdout stderr : List UInt8)
deriving DecidableEq, Repr

/-- A finished command, its output read as text. -/
structure Finished where
  status : Option Nat
  stdout : List Char
  stderr : List Char
deriving DecidableEq, Repr

def Finished.succeeded (f : Finished) : Bool := f.status == some 0

structure Tool where
  kind : VcsKind
  executable : Path
  environment : List (String × String)
deriving DecidableEq, Repr

namespace Tool

def invocation (t : Tool) (arguments : List String) : Invocation where
  executable := t.executable
  arguments := arguments
  environment := t.environment

def unusable (t : Tool) (reason : String) : Failure :=
  .vcsExecutable t.kind t.executable reason

/-- The complaint about an end of a command that has no meaning. -/
def unexpected (t : Tool) (f : Finished) : Failure :=
  let how := match f.status with
    | some n => s!"status {n}"
    | none => "a signal"
  t.unusable s!"exited with {how}: {String.ofList (Text.trim f.stderr)}"

/-- The complaint about output that has no meaning. -/
def malformed (t : Tool) (what : String) : Failure :=
  t.unusable s!"unexpected output: {what}"

/-- The end of a command, unless it could not be started. -/
def finish (t : Tool) (outcome : Outcome) : Except Failure Finished :=
  match outcome with
  | .notStarted reason => .error (t.unusable s!"failed to run: {reason}")
  | .finished status stdout stderr =>
    .ok ⟨status, Text.Utf8.decode stdout, Text.Utf8.decode stderr⟩

end Tool

end DocDrift
