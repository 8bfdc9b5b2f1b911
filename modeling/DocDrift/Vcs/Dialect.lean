import DocDrift.History.Repository
import DocDrift.Vcs.Command

/-!
# Dialects

How to put a question to one kind of version control system, and how to understand its answer.
-/

namespace DocDrift

/-- The commands of a kind of version control system and the meaning of their output. -/
structure Dialect where
  /-- The variables that are set for every command. -/
  environment : List (String × String)
  /-- Asks for the root of the repository around a directory. -/
  openArguments : Path → List String
  /-- The output that names the root; the path is the one to complain about. -/
  readRoot : Tool → Path → Finished → Except Failure (List Char)
  /-- The complaint when that output names none. -/
  rootFault : String
  /-- The arguments in front of those of every other command. -/
  leading : Path → List String
  /-- Asks for the history of a file. -/
  logArguments : Path → List String
  readLog : Tool → Path → Bool → Finished → Except Failure FileHistory
  /-- Asks for the content of a file at a revision. -/
  contentArguments : Path → Revision → List String
  readContent : Tool → Path → Revision → Finished → Except Failure String
  /-- Asks for the diff from the second, older entry to the first. -/
  diffArguments : HistoryEntry → HistoryEntry → List String
  readDiff : Tool → HistoryEntry → HistoryEntry → Finished → Except Failure (List Hunk)

end DocDrift
