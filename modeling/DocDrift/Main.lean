import DocDrift.Program
import DocDrift.Snapshot

/-!
# The command line program

The arguments are those of the command line, and the standard input holds a snapshot of the
surroundings. What the run prints and writes is printed and written here; nothing is decided.
-/

namespace DocDrift.Main

partial def readAll (input : IO.FS.Stream) (before : String) : IO String := do
  let line ← input.getLine
  if line.isEmpty then return before
  readAll input (before ++ line)

/-- The snapshot that a text writes. Without a text there is nothing to see. -/
def snapshot (text : String) : Except Json.ReadError Snapshot :=
  if Text.isBlankLine text.toList then .ok .empty else Snapshot.reader.whole text

/-- Brings the effects of a run about. -/
def perform (e : Effects) : IO UInt32 := do
  for warning in e.warnings do
    IO.eprintln (" WARN " ++ warning)
  for (path, content) in e.written do
    IO.FS.writeFile path.text content
  IO.print e.output
  (← IO.getStdout).flush
  for complaint in e.complaint do
    IO.eprintln ("error: " ++ complaint)
  return e.status.toUInt32

end DocDrift.Main

open DocDrift in
def main (arguments : List String) : IO UInt32 := do
  let text ← Main.readAll (← IO.getStdin) ""
  match Main.snapshot text with
  | .ok s => Main.perform (Program.effects s.world List.range arguments)
  | .error e =>
    IO.eprintln ("error: " ++ e.message text)
    return 1
