import DocDrift.Json.Forms

/-!
# Snapshots

The surroundings of a run as one JSON text: the working directory, the files that can be seen, and
what comes of the commands that may be needed.
-/

namespace DocDrift

open Json

structure RecordedCommand where
  executable : Path
  arguments : List String
  outcome : Outcome
deriving DecidableEq, Repr

namespace RecordedCommand

/-- The outcome that a record tells: the reason why the command could not be started, or else how it
ended. -/
def outcomeOf (failure : Option String) (status : Option Nat) (stdout stderr : String) : Outcome :=
  match failure with
  | some reason => .notStarted reason
  | none => .finished status stdout.toUTF8.toList stderr.toUTF8.toList

def reader : Reader RecordedCommand := do
  let f ← Record.read "a command" true
    (.field "executable" .path none (.field "arguments" (.list .string) none
      (.field "failure" (.optional .string) (some none)
        (.field "status" (.optional .count) (some (some 0))
          (.field "stdout" .string (some "") (.field "stderr" .string (some "") .done))))))
  return ⟨f.1, f.2.1, outcomeOf f.2.2.1 f.2.2.2.1 f.2.2.2.2.1 f.2.2.2.2.2.1⟩

end RecordedCommand

structure Snapshot where
  directory : Place
  entries : List (Place × FileEntry)
  commands : List RecordedCommand
deriving DecidableEq, Repr

namespace Snapshot

def empty : Snapshot := ⟨[], [], []⟩

/-- An entry that a record tells. An entry without a text is a directory. -/
def entryReader : Reader (Place × FileEntry) := do
  let f ← Record.read "a file" true
    (.field "path" (.list .string) none (.field "text" (.optional .string) (some none) .done))
  return (f.1, match f.2.1 with
    | some text => .file text.toUTF8.toList
    | none => .directory)

def reader : Reader Snapshot := do
  let f ← Record.read "a snapshot" true
    (.field "directory" (.list .string) none
      (.field "files" ⟨fun _ => .null, .list entryReader⟩ (some [])
        (.field "commands" ⟨fun _ => .null, .list RecordedCommand.reader⟩ (some []) .done)))
  return ⟨f.1, f.2.1, f.2.2.1⟩

/-- What comes of a command, as far as it is recorded. -/
def execute (s : Snapshot) (i : Invocation) : Outcome :=
  match s.commands.find? fun c => c.executable = i.executable ∧ c.arguments = i.arguments with
  | some c => c.outcome
  | none => .notStarted ResolveFault.missing.reason

def world (s : Snapshot) : World where
  files := ⟨s.directory, s.entries⟩
  execute := s.execute

end Snapshot

end DocDrift
