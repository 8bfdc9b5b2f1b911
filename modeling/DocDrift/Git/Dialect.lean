import DocDrift.Diff.Reader
import DocDrift.Git.Log
import DocDrift.Vcs.Dialect

/-!
# Consulting git
-/

namespace DocDrift.Git

/-- The status of a command that found no such repository or object. -/
def nothingFound : Nat := 128

/-- The name of the content of a file at a revision. -/
def objectName (revision : Revision) (path : Path) : String := s!"{revision.id}:{path.slashed}"

def readRoot (tool : Tool) (path : Path) (f : Finished) : Except Failure (List Char) :=
  if f.succeeded then .ok f.stdout
  else if f.status = some nothingFound then .error (.notTracked path)
  else .error (tool.unexpected f)

/-- A log that git refuses to show is that of a file without history. -/
def readLog (tool : Tool) (path : Path) (follow : Bool) (f : Finished) :
    Except Failure FileHistory :=
  if f.succeeded then .ok (history path follow (commits f.stdout))
  else if f.status = some nothingFound then .ok .empty
  else .error (tool.unexpected f)

def readContent (tool : Tool) (path : Path) (revision : Revision) (f : Finished) :
    Except Failure String :=
  if f.succeeded then .ok (String.ofList f.stdout)
  else if f.status = some nothingFound then .error (.notFound path revision.id)
  else .error (tool.unexpected f)

/-- The diff compares two contents, so all its sections count. -/
def readDiff (tool : Tool) (_newer older : HistoryEntry) (f : Finished) :
    Except Failure (List Hunk) :=
  if f.succeeded then
    (Diff.read (String.ofList f.stdout)).map fun sections => sections.flatMap DiffSection.hunks
  else if f.status = some nothingFound then .error (.notFound older.path older.revision.id)
  else .error (tool.unexpected f)

def dialect : Dialect where
  environment := []
  openArguments directory := ["-C", directory.text, "rev-parse", "--show-toplevel"]
  readRoot := readRoot
  rootFault := "rev-parse printed no repository root"
  leading root := ["-c", "core.quotePath=false", "-C", root.text, "--no-pager"]
  logArguments path :=
    ["log", "--no-color", "--follow", "--first-parent", "--name-status", "--format=%x00%H", "--",
      path.text]
  readLog := readLog
  contentArguments path revision := ["cat-file", "-p", objectName revision path]
  readContent := readContent
  diffArguments newer older :=
    ["diff", "--no-color", "--no-ext-diff", "--no-textconv", "-U0",
      objectName older.revision older.path, objectName newer.revision newer.path]
  readDiff := readDiff

end DocDrift.Git
