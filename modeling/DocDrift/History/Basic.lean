import DocDrift.Path

/-!
# File histories

The revisions that changed one file, newest first, and what lies beyond the oldest of them.
-/

namespace DocDrift

/-- One snapshot of a file. The identifier means something to its version control system only. -/
structure Revision where
  id : String
  /-- Whether the revision is the newest of the file. -/
  isTip : Bool
deriving DecidableEq, Repr, Inhabited

/-- The first twelve characters of the identifier. -/
def Revision.shortId (r : Revision) : String :=
  String.ofList (r.id.toList.take 12)

structure HistoryEntry where
  revision : Revision
  /-- The name of the file in this revision. -/
  path : Path
  /-- Whether the next newer entry renamed the file. -/
  crossedRename : Bool
deriving DecidableEq, Repr, Inhabited

/-- A rename beyond which a history was not followed. -/
structure RenameBoundary where
  /-- The name since the rename. -/
  path : Path
  /-- The name before the rename. -/
  previousPath : Path
  /-- The revision that renamed the file. -/
  revision : String
deriving DecidableEq, Repr

def RenameBoundary.message (b : RenameBoundary) : String :=
  s!"{b.path.text} was renamed from {b.previousPath.text} in revision {b.revision}"

/-- What lies beyond the oldest entry. -/
inductive HistoryEnd where
  /-- Nothing: there the file came into being. -/
  | created
  /-- An older history under another name, left out on purpose. -/
  | renamed (boundary : RenameBoundary)
deriving DecidableEq, Repr

/-- The history of one file, newest entry first. -/
structure FileHistory where
  entries : List HistoryEntry
  beyond : HistoryEnd
deriving DecidableEq, Repr

namespace FileHistory

def empty : FileHistory := ⟨[], .created⟩

def single (e : HistoryEntry) (beyond : HistoryEnd) : FileHistory := ⟨[e], beyond⟩

/-- The history with one newer entry in front. -/
def behind (h : FileHistory) (e : HistoryEntry) : FileHistory :=
  { h with entries := e :: h.entries }

def size (h : FileHistory) : Nat := h.entries.length

/-- The newest entry. -/
def tip? (h : FileHistory) : Option HistoryEntry := h.entries.head?

/-- The entry at the given distance from the newest one. -/
def get? (h : FileHistory) (i : Nat) : Option HistoryEntry := h.entries[i]?

def truncatedByRename (h : FileHistory) : Bool :=
  match h.beyond with
  | .created => false
  | .renamed _ => true

end FileHistory

end DocDrift
