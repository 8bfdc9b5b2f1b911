import DocDrift.Failure
import DocDrift.Text.Utf8

/-!
# File trees

The files that a run can see. A place is the list of names that leads to it from the root of the
file system; a path is resolved step by step from the working directory.
-/

namespace DocDrift

/-- The names that lead to a file or directory from the root of the file system. -/
abbrev Place := List String

inductive FileEntry where
  | file (content : List UInt8)
  | directory
deriving DecidableEq, Repr

inductive ResolveFault where
  | missing
  | notADirectory
  /-- A null character is part of no path. -/
  | nullCharacter
deriving DecidableEq, Repr

def ResolveFault.reason : ResolveFault → String
  | missing => "No such file or directory (os error 2)"
  | notADirectory => "Not a directory (os error 20)"
  | nullCharacter => "file name contained an unexpected NUL byte"

/-- The visible part of a file system. -/
structure FileTree where
  /-- The place from which relative paths lead. -/
  workingPlace : Place
  entries : List (Place × FileEntry)

namespace FileTree

/-- What stands at a place. The root of the file system is always a directory. -/
def get? (t : FileTree) (place : Place) : Option FileEntry :=
  if place.isEmpty then some .directory else t.entries.lookup place

/-- Follows one piece of a path. -/
def resolvePiece (t : FileTree) (place : Place) (piece : List Char) : Except ResolveFault Place :=
  match t.get? place with
  | none => .error .missing
  | some (.file _) => .error .notADirectory
  | some .directory =>
    if Path.isIdle piece then .ok place
    else if piece = ['.', '.'] then .ok place.dropLast
    else
      let next := place ++ [String.ofList piece]
      if (t.get? next).isSome then .ok next else .error .missing

/-- The place to which a path leads. -/
def resolve (t : FileTree) (p : Path) : Except ResolveFault Place :=
  if p.text.contains '\x00' then .error .nullCharacter
  else if p.text.isEmpty then .error .missing
  else
    (Text.splitAt '/' p.text.toList).foldlM t.resolvePiece
      (if p.isAbsolute then [] else t.workingPlace)

/-- What stands where a path leads. -/
def at? (t : FileTree) (p : Path) : Option FileEntry :=
  match t.resolve p with
  | .ok place => t.get? place
  | .error _ => none

def exists? (t : FileTree) (p : Path) : Bool := (t.at? p).isSome

def isDirectory (t : FileTree) (p : Path) : Bool := t.at? p == some .directory

def absolute (place : Place) : Path := ⟨"/" ++ "/".intercalate place⟩

/-- The absolute path that leads to the same place without detours. -/
def canonical? (t : FileTree) (p : Path) : Option Path :=
  match t.resolve p with
  | .ok place => some (absolute place)
  | .error _ => none

/-- The name of a file inside the directory `root`. -/
def relative (t : FileTree) (root : Path) (p : Path) : Except Failure Path :=
  match t.canonical? p with
  | none => .error (.fileNotFound p)
  | some path =>
    match path.relativeTo? root with
    | none => .error (.notTracked p)
    | some inside => .ok inside

/-- The closest directory at or above `p`, as long as there are components left. -/
def closestDirectory (t : FileTree) (p : Path) : Nat → Path
  | 0 => p
  | n + 1 =>
    if p.text.isEmpty || t.isDirectory p then p
    else t.closestDirectory (p.parent?.getD ⟨""⟩) n

/-- The closest directory at or above the path. -/
def nearestDirectory (t : FileTree) (p : Path) : Path :=
  let found := t.closestDirectory p (p.components.length + 1)
  if found.text.isEmpty then ⟨"."⟩ else found

def readText (t : FileTree) (p : Path) : Except Failure String :=
  match t.resolve p with
  | .error fault => .error (.io fault.reason)
  | .ok place =>
    match t.get? place with
    | none => .error (.io ResolveFault.missing.reason)
    | some .directory => .error (.io "Is a directory (os error 21)")
    | some (.file content) =>
      match Text.Utf8.decode? content with
      | some s => .ok (String.ofList s)
      | none => .error (.io "stream did not contain valid UTF-8")

end FileTree

end DocDrift
