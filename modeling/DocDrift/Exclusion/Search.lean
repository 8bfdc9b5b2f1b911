import DocDrift.Exclusion.Scope

/-!
# The files to analyse

A path that leads to a directory stands for the source files under it that no rule excludes, in the
order of their paths. Every other path stands for itself, so that a missing file is noticed by its
analysis.
-/

namespace DocDrift.FileTree

/-- The names that lead from a directory to a place below it. -/
def below? (root place : Place) : Option (List String) :=
  if root.isPrefixOf place && root.length < place.length then some (place.drop root.length) else none

/-- Whether a search from a directory arrives at the place that some names lead to: neither it nor
any directory on the way is excluded. -/
def isReached (t : FileTree) (root : Place) (names : List String) : Bool :=
  (List.range names.length).all fun n => !t.isExcluded (root ++ names.take (n + 1))

/-- The path to a source file below a directory, spelled like the path of the directory. -/
def sourceFile? (t : FileTree) (path : Path) (root : Place) (e : Place × FileEntry) : Option Path := do
  let names ← below? root e.1
  let file := names.foldl Path.child path
  if e.2 != .directory && file.extension? == some "py" && t.isReached root names then some file
  else none

/-- The source files below a directory in the order of their paths. -/
def sourceFiles (t : FileTree) (path : Path) (root : Place) : List Path :=
  (t.entries.filterMap (t.sourceFile? path root)).mergeSort fun p q => !q.lt p

def expand (t : FileTree) (path : Path) : List Path :=
  match t.resolve path with
  | .ok root => if t.get? root = some .directory then t.sourceFiles path root else [path]
  | .error _ => [path]

def expandAll (t : FileTree) (paths : List Path) : List Path := paths.flatMap t.expand

end DocDrift.FileTree
