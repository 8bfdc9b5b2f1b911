import DocDrift.Failure
import DocDrift.History.Basic
import DocDrift.Lines.Hunk

/-!
# Repositories

What an analysis needs to know of a version control system, as a table of answers, and the record
of what it asked.
-/

namespace DocDrift

/-- The answers of a repository. They depend on the question alone. -/
structure Repository where
  /-- The name of a file inside the repository. -/
  relative : Path → Except Failure Path
  /-- The history of a file; the flag says whether to follow it across renames. -/
  enumerate : Path → Bool → Except Failure FileHistory
  /-- The content of a file at a revision. -/
  read : Path → Revision → Except Failure String
  /-- The hunks that turn the second, older entry into the first. -/
  diff : HistoryEntry → HistoryEntry → Except Failure (List Hunk)

inductive Query where
  | relative (path : Path)
  | enumerate (path : Path) (follow : Bool)
  | read (path : Path) (revision : Revision)
  | diff (newer older : HistoryEntry)
deriving DecidableEq, Repr

end DocDrift
