import DocDrift.Diff.Reader
import DocDrift.Mercurial.Log
import DocDrift.Vcs.Dialect

/-!
# Consulting Mercurial
-/

namespace DocDrift.Mercurial

/-- The template that makes the log write the lines of `Changeset.ofLine?`. -/
def template : String :=
  "\x7bnode\x7d" ++ fieldSeparator.toString ++ "\x7bfile_copies % '\x7bsource\x7d" ++
    pairSeparator.toString ++ "\x7bname\x7d" ++ itemSeparator.toString ++ "'\x7d\\n"

def complains (f : Finished) (words : String) : Bool := Text.occursIn words.toList f.stderr

def readRoot (tool : Tool) (path : Path) (f : Finished) : Except Failure (List Char) :=
  if f.succeeded then .ok f.stdout
  else if complains f "no repository found" then .error (.notTracked path)
  else .error (tool.unexpected f)

/-- A file that cannot be followed is one without history. -/
def readLog (tool : Tool) (path : Path) (follow : Bool) (f : Finished) :
    Except Failure FileHistory :=
  if f.succeeded then .ok (history path follow (changesets f.stdout))
  else if complains f "cannot follow" then .ok .empty
  else .error (tool.unexpected f)

def readContent (tool : Tool) (path : Path) (revision : Revision) (f : Finished) :
    Except Failure String :=
  if f.succeeded then .ok (String.ofList f.stdout)
  else if f.status = some 1 || complains f "no such file in" then
    .error (.notFound path revision.id)
  else .error (tool.unexpected f)

/-- The diff may concern several files; the first section about the newer name counts. -/
def readDiff (tool : Tool) (newer older : HistoryEntry) (f : Finished) :
    Except Failure (List Hunk) :=
  if f.succeeded then
    (Diff.read (String.ofList f.stdout)).map fun sections =>
      ((sections.find? fun s => s.newPath.any (·.same newer.path)).map DiffSection.hunks).getD []
  else if complains f "unknown revision" then .error (.notFound older.path older.revision.id)
  else .error (tool.unexpected f)

def dialect : Dialect where
  environment := [("HGPLAIN", "1"), ("LC_ALL", "C")]
  openArguments directory := ["--cwd", directory.text, "root"]
  readRoot := readRoot
  rootFault := "root printed no repository root"
  leading root := ["--cwd", root.text]
  logArguments path := ["log", "--follow-first", "--template", template, "--", path.slashed]
  readLog := readLog
  contentArguments path revision := ["cat", "--rev", revision.id, "--", path.slashed]
  readContent := readContent
  diffArguments newer older :=
    ["diff", "--git", "--unified", "0", "--rev", older.revision.id, "--rev", newer.revision.id,
      "--", newer.path.slashed] ++
      (if older.path.same newer.path then [] else [older.path.slashed])
  readDiff := readDiff

end DocDrift.Mercurial
