import DocDrift.Lines.Hunk
import DocDrift.Path

/-!
# Sections of a diff

What a unified diff says about one file.
-/

namespace DocDrift

/-- The part of a diff that concerns one file. -/
structure DiffSection where
  /-- The name in the old version; none for a new file. -/
  oldPath : Option Path := none
  /-- The name in the new version; none for a deleted file. -/
  newPath : Option Path := none
  hunks : List Hunk := []
  /-- Whether the diff calls the file new. -/
  isNew : Bool := false
  /-- Whether the diff calls the file deleted. -/
  isDeleted : Bool := false
  /-- Whether the diff records a rename. -/
  isRename : Bool := false
deriving DecidableEq, Repr, Inhabited

end DocDrift
