import DocDrift.Failure
import DocDrift.Lines.Range
import DocDrift.Lines.Hunk
import DocDrift.Text.Blank
import DocDrift.Text.Unsigned

/-!
# Header lines of a diff

The paths in the lines that open a section, and the numbers in the line that opens a hunk.
-/

namespace DocDrift.Diff

/-- The text without the characters equal to `c` at its end. -/
def dropRight (c : Char) (s : List Char) : List Char :=
  (s.reverse.dropWhile (· == c)).reverse

/-- The text without tabs at its end and then without quotes at either end. -/
def unquoted (s : List Char) : List Char :=
  dropRight '"' ((dropRight '\t' s).dropWhile (· == '"'))

/-- The text without the letter that marks the old or the new side. -/
def withoutSide (s : List Char) : List Char :=
  match s with
  | 'a' :: '/' :: rest => rest
  | 'b' :: '/' :: rest => rest
  | _ => s

def pathOf (s : List Char) : Path := ⟨String.ofList s⟩

/-- The path in a line that names one side, without the time that may follow it behind a tab;
none for the empty device. -/
def sidePath? (s : List Char) : Option Path :=
  let name := unquoted (s.takeWhile (· != '\t'))
  if name = "/dev/null".toList then none else some (pathOf (withoutSide name))

/-- Both paths of a line that opens a section. -/
def bothPaths (s : List Char) : Option Path × Option Path :=
  let s := Text.trim s
  match (Text.splitLast " b/".toList s).or (Text.splitLast " \"b/".toList s) with
  | some (old, new) => (some (pathOf (withoutSide (unquoted old))), some (pathOf (unquoted new)))
  | none => (none, none)

/-- The start and the length of one side of a hunk. A missing length is one. -/
def sideRange? (s : List Char) : Option (Nat × Nat) :=
  match Text.splitOnce [','] s with
  | some (start, length) => do
    return (← Text.unsigned? maxLine start, ← Text.unsigned? maxLine length)
  | none => do return (← Text.unsigned? maxLine s, 1)

structure HunkHeader where
  oldStart : Nat
  oldLength : Nat
  newStart : Nat
  newLength : Nat
deriving DecidableEq, Repr

def HunkHeader.hunk (h : HunkHeader) : Hunk :=
  .ofUnified h.oldStart h.oldLength h.newStart h.newLength

inductive HeaderFault where
  | shape
  | oldSide
  | newSide
  | range
deriving DecidableEq, Repr

def HeaderFault.message (line : List Char) (f : HeaderFault) : String :=
  let text := String.ofList line
  match f with
  | shape => s!"invalid hunk header: {text}"
  | oldSide => s!"invalid old range in hunk: {text}"
  | newSide => s!"invalid new range in hunk: {text}"
  | range => s!"invalid range in: {text}"

def hunkHeader (line : List Char) : Except HeaderFault HunkHeader := do
  let some rest := Text.after? "@@ ".toList line | throw .shape
  let some (numbers, _) := Text.splitOnce " @@".toList rest | throw .shape
  let some (old, new) := Text.splitOnce [' '] numbers | throw .shape
  let some old := Text.after? ['-'] old | throw .oldSide
  let some new := Text.after? ['+'] new | throw .newSide
  let some (oldStart, oldLength) := sideRange? old | throw .range
  let some (newStart, newLength) := sideRange? new | throw .range
  return { oldStart, oldLength, newStart, newLength }

end DocDrift.Diff
