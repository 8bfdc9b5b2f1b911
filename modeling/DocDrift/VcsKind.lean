import DocDrift.Path
import DocDrift.Text.Lowercase

/-!
# Version control systems

The supported systems and their names.
-/

namespace DocDrift

inductive VcsKind where
  | git
  | mercurial
deriving DecidableEq, Repr, Inhabited

structure UnknownName where
  /-- What was to be chosen. -/
  choice : String
  /-- The name in small letters. -/
  name : String
deriving DecidableEq, Repr

def UnknownName.message (u : UnknownName) : String := s!"unknown {u.choice}: {u.name}"

namespace VcsKind

/-- The systems in the order in which they are listed. -/
def all : List VcsKind := [git, mercurial]

/-- The short name, which is also the name of the executable. -/
def name : VcsKind → String
  | git => "git"
  | mercurial => "hg"

/-- The executable that is used when none is configured. -/
def defaultExecutable (k : VcsKind) : Path := ⟨k.name⟩

/-- The system of this name, whatever the case of its letters. -/
def ofName (text : String) : Except UnknownName VcsKind :=
  match Text.lower text with
  | "git" => .ok git
  | "hg" | "mercurial" => .ok mercurial
  | name => .error ⟨"version control system", name⟩

end VcsKind

end DocDrift
