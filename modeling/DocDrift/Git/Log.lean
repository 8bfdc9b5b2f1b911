import DocDrift.History.Basic
import DocDrift.Text.Blank
import DocDrift.Text.Lines

/-!
# The log of git

Each commit is a record that a null character opens: the first line is the commit's name, the next
line that is not empty says what the commit did to the file.
-/

namespace DocDrift.Git

inductive Change where
  | modified (path : Path)
  | added (path : Path)
  | deleted
  | renamed (source path : Path)
  | unknown
deriving DecidableEq, Repr

structure Commit where
  id : String
  change : Change
deriving DecidableEq, Repr

/-- The meaning of the fields of a line that says what happened. -/
def Change.ofFields : List (List Char) → Change
  | [] => .unknown
  | status :: paths =>
    match status.head?, paths.map fun p => Path.mk (String.ofList p) with
    | some 'A', path :: _ => .added path
    | some 'D', _ => .deleted
    | some 'R', source :: path :: _ => .renamed source path
    | some 'C', source :: path :: _ => .renamed source path
    | some _, path :: _ => .modified path
    | _, _ => .unknown

/-- The meaning of a line that says what happened. -/
def Change.ofLine (line : List Char) : Change := .ofFields (Text.splitAt '\t' line)

def Commit.ofRecord? (record : List Char) : Option Commit :=
  match Text.lines record with
  | [] => none
  | first :: rest =>
    let id := Text.trim first
    if id.isEmpty then none
    else
      let change := match (rest.map Text.trimRight).find? (!·.isEmpty) with
        | some line => Change.ofLine line
        | none => .unknown
      some ⟨String.ofList id, change⟩

def commits (log : List Char) : List Commit :=
  ((Text.splitAt '\x00' log).filter (!Text.isBlankLine ·)).filterMap Commit.ofRecord?

/-- Where a history goes on from. -/
structure Trail where
  /-- The name of the file. -/
  current : Path
  /-- Whether the next newer entry renamed the file. -/
  crossed : Bool := false
  /-- Whether there is no newer entry. -/
  isTip : Bool := false
deriving DecidableEq, Repr

def Trail.entry (t : Trail) (id : String) (path : Path) : HistoryEntry where
  revision := ⟨id, t.isTip⟩
  path := path
  crossedRename := t.crossed

/-- The history that the commits tell from a trail on. -/
def historyFrom (follow : Bool) (t : Trail) : List Commit → FileHistory
  | [] => .empty
  | c :: rest =>
    match c.change with
    | .deleted => .empty
    | .added path => .single (t.entry c.id path) .created
    | .modified path => (historyFrom follow { current := path } rest).behind (t.entry c.id path)
    | .unknown =>
      (historyFrom follow { current := t.current } rest).behind (t.entry c.id t.current)
    | .renamed source path =>
      if follow then
        (historyFrom follow { current := source, crossed := true } rest).behind (t.entry c.id path)
      else .single (t.entry c.id path) (.renamed ⟨path, source, c.id⟩)

def history (path : Path) (follow : Bool) (log : List Commit) : FileHistory :=
  historyFrom follow { current := path, isTip := true } log

end DocDrift.Git
