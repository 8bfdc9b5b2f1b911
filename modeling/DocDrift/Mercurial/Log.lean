import DocDrift.History.Basic
import DocDrift.Text.Blank
import DocDrift.Text.Lines

/-!
# The log of Mercurial

Each changeset is a line: its name, and behind a unit separator the copies that it made. A group
separator ends each copy, and a record separator stands between its source and its destination.
-/

namespace DocDrift.Mercurial

/-- The character between the name of a changeset and its copies. -/
def fieldSeparator : Char := '\x1f'

/-- The character between the source and the destination of a copy. -/
def pairSeparator : Char := '\x1e'

/-- The character behind each copy. -/
def itemSeparator : Char := '\x1d'

structure Copy where
  source : Path
  destination : Path
deriving DecidableEq, Repr

structure Changeset where
  id : String
  copies : List Copy
deriving DecidableEq, Repr

def Copy.ofText? (text : List Char) : Option Copy :=
  (Text.splitOnce [pairSeparator] text).map fun p =>
    ⟨⟨String.ofList p.1⟩, ⟨String.ofList p.2⟩⟩

def Changeset.ofLine? (line : List Char) : Option Changeset :=
  match Text.splitOnce [fieldSeparator] line with
  | none => none
  | some (node, copies) =>
    let id := Text.trim node
    if id.isEmpty then none
    else some ⟨String.ofList id, (Text.splitAt itemSeparator copies).filterMap Copy.ofText?⟩

def changesets (log : List Char) : List Changeset :=
  (Text.lines log).filterMap Changeset.ofLine?

/-- Where the changeset took the file from, if it copied it. -/
def Changeset.source? (c : Changeset) (current : Path) : Option Path :=
  (c.copies.find? fun copy => copy.destination.same current).map Copy.source

structure Trail where
  /-- The name of the file. -/
  current : Path
  /-- Whether the next newer entry renamed the file. -/
  crossed : Bool := false
  /-- Whether there is no newer entry. -/
  isTip : Bool := false
deriving DecidableEq, Repr

def Trail.entry (t : Trail) (id : String) : HistoryEntry where
  revision := ⟨id, t.isTip⟩
  path := t.current
  crossedRename := t.crossed

/-- The history that the changesets tell from a trail on. -/
def historyFrom (follow : Bool) (t : Trail) : List Changeset → FileHistory
  | [] => .empty
  | c :: rest =>
    match c.source? t.current with
    | none => (historyFrom follow { current := t.current } rest).behind (t.entry c.id)
    | some source =>
      if follow then
        (historyFrom follow { current := source, crossed := true } rest).behind (t.entry c.id)
      else .single (t.entry c.id) (.renamed ⟨t.current, source, c.id⟩)

def history (path : Path) (follow : Bool) (log : List Changeset) : FileHistory :=
  historyFrom follow { current := path, isTip := true } log

end DocDrift.Mercurial
