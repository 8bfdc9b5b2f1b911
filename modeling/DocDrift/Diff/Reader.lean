import DocDrift.Diff.Header
import DocDrift.Diff.Section
import DocDrift.Text.Lines

/-!
# Reading a diff

A diff is read line by line. A hunk's header announces how many lines of either side follow, and as
long as lines are owed none of them is taken for a header. Sections of binary files are dropped.
-/

namespace DocDrift.Diff

structure Reader where
  /-- The sections that are complete, last one first. -/
  done : List DiffSection := []
  /-- The section that is being read. -/
  current : Option DiffSection := none
  /-- Whether the current section is that of a binary file. -/
  binary : Bool := false
  /-- The lines of the old side that the current hunk still lacks. -/
  oldOwed : Nat := 0
  /-- The lines of the new side that the current hunk still lacks. -/
  newOwed : Nat := 0
deriving DecidableEq, Repr

namespace Reader

def close (r : Reader) : Reader :=
  match r.current with
  | none => r
  | some s => { r with done := if r.binary then r.done else s :: r.done, current := none }

def update (r : Reader) (f : DiffSection → DiffSection) : Reader :=
  { r with current := r.current.map f }

/-- Reads a line that the current hunk owes. -/
def bodyLine (r : Reader) (line : List Char) : Except Failure Reader :=
  match line with
  | '-' :: _ => .ok { r with oldOwed := r.oldOwed - 1 }
  | '+' :: _ => .ok { r with newOwed := r.newOwed - 1 }
  | [] | ' ' :: _ => .ok { r with oldOwed := r.oldOwed - 1, newOwed := r.newOwed - 1 }
  | '\\' :: _ => .ok r
  | _ => .error (.diff s!"hunk ended early before line: {String.ofList line}")

/-- The change that a line of a section's header makes to it, if it is one. -/
def sectionLine? (line : List Char) : Option (DiffSection → DiffSection) :=
  if "new file mode".toList.isPrefixOf line then some fun s => { s with isNew := true }
  else if "deleted file mode".toList.isPrefixOf line then some fun s => { s with isDeleted := true }
  else if let some name := Text.after? "rename from ".toList line then
    some fun s => { s with isRename := true, oldPath := some (pathOf (unquoted name)) }
  else if let some name := Text.after? "rename to ".toList line then
    some fun s => { s with isRename := true, newPath := some (pathOf (unquoted name)) }
  else if let some name := Text.after? "--- ".toList line then
    let path := sidePath? name
    some fun s => { s with oldPath := path, isNew := s.isNew || path.isNone }
  else if let some name := Text.after? "+++ ".toList line then
    let path := sidePath? name
    some fun s => { s with newPath := path, isDeleted := s.isDeleted || path.isNone }
  else none

def isBinaryLine (line : List Char) : Bool :=
  "Binary files ".toList.isPrefixOf line && " differ".toList.isSuffixOf line

/-- Reads a line outside the body of a hunk. -/
def headLine (r : Reader) (line : List Char) : Except Failure Reader :=
  match Text.after? "diff --git ".toList line with
  | some names =>
    let paths := bothPaths names
    .ok { r.close with current := some { oldPath := paths.1, newPath := paths.2 }, binary := false }
  | none =>
    -- a diff without section lines opens a section by naming its old side
    let r : Reader :=
      if "--- ".toList.isPrefixOf line && r.current.isNone then { r with current := some {} } else r
    if r.current.isNone then .ok r
    else if isBinaryLine line then .ok { r with binary := true }
    else
      match sectionLine? line with
      | some change => .ok (r.update change)
      | none =>
        if "@@ ".toList.isPrefixOf line then
          match hunkHeader line with
          | .ok h =>
            .ok { r.update (fun s => { s with hunks := s.hunks ++ [h.hunk] }) with
              oldOwed := h.oldLength, newOwed := h.newLength }
          | .error fault => .error (.diff (fault.message line))
        else .ok r

def line (r : Reader) (l : List Char) : Except Failure Reader :=
  if 0 < r.oldOwed ∨ 0 < r.newOwed then r.bodyLine l else r.headLine l

/-- The sections in order, once all lines have been read. -/
def sections (r : Reader) : List DiffSection := r.close.done.reverse

end Reader

def readLines (r : Reader) : List (List Char) → Except Failure Reader
  | [] => .ok r
  | l :: rest =>
    match r.line l with
    | .ok r => readLines r rest
    | .error e => .error e

def read (text : String) : Except Failure (List DiffSection) :=
  (readLines {} (Text.lines text.toList)).map Reader.sections

end DocDrift.Diff
