import DocDrift.Exclusion.Rule
import DocDrift.FileTree.Basic

/-!
# Which rules govern a place

Every directory above a place may hold rules about it, and the nearest directory that has something
to say decides. The rules of a repository count up to its own directory, and only after all the
general rules; where there is no repository they do not count at all.
-/

namespace DocDrift

/-- The directories above a place, the nearest one first. -/
def directoriesAbove (place : Place) : List Place :=
  ((List.range place.length).map place.take).reverse

namespace FileTree

open Exclusion

/-- The rules in a file, if it can be read. -/
def rulesOf : Option FileEntry → List Rule
  | some (.file content) => readRules content
  | _ => []

def generalRules (t : FileTree) (directory : Place) : List Rule :=
  rulesOf (t.get? (directory ++ [".ignore"]))

def repositoryRules (t : FileTree) (directory : Place) : List Rule :=
  rulesOf (t.get? (directory ++ [".gitignore"]))

/-- Where a directory keeps the data of a repository. -/
def repositoryPlace (directory : Place) : Place := directory ++ [".git"]

def firstLine? : Option FileEntry → Option (List Char)
  | some (.file content) => (readableLines content).head?
  | _ => none

/-- The directory with the data of a repository that has several homes. The file in a home names a
directory, and a file in that directory names the one that the homes share. -/
def sharedData? (t : FileTree) (home : FileEntry) : Option Path := do
  let link ← Text.after? "gitdir: ".toList (← firstLine? (some home))
  let own : Path := ⟨String.ofList link⟩
  let line ← firstLine? (t.at? (own.child "commondir"))
  let shared := String.ofList line
  return if shared.startsWith "." then own.child shared else ⟨shared⟩

/-- The rules that the repository with its home in a directory keeps among its data. -/
def privateRules (t : FileTree) (directory : Place) : List Rule :=
  let home := repositoryPlace directory
  match t.get? home with
  | none => []
  | some .directory => rulesOf (t.get? (home ++ ["info", "exclude"]))
  | some (.file content) =>
    rulesOf ((t.sharedData? (.file content)).bind fun data => t.at? ((data.child "info").child "exclude"))

/-- The directories above a place up to the home of its repository, or none without a repository. -/
def repositoryScope (t : FileTree) (above : List Place) : List Place :=
  match above.findIdx? fun directory => (t.get? (repositoryPlace directory)).isSome with
  | some i => above.take (i + 1)
  | none => []

/-- What the nearest of some directories has to say about a place. -/
def nearestVerdict? (rules : Place → List Rule) (directories : List Place) (place : Place)
    (isDirectory : Bool) : Option Verdict :=
  directories.findSome? fun directory =>
    lastVerdict? (rules directory) (place.drop directory.length) isDirectory

def verdict? (t : FileTree) (place : Place) : Option Verdict :=
  let isDirectory := t.get? place == some .directory
  let above := directoriesAbove place
  let scope := t.repositoryScope above
  (nearestVerdict? t.generalRules above place isDirectory).or <|
    (nearestVerdict? t.repositoryRules scope place isDirectory).or <|
      nearestVerdict? t.privateRules scope place isDirectory

/-- Whether the last name of a place begins with a dot. -/
def isHidden (place : Place) : Bool := (place.getLast?.getD "").startsWith "."

/-- Whether a place is left out of searches. What no rule is about is left out if it is hidden. -/
def isExcluded (t : FileTree) (place : Place) : Bool :=
  match t.verdict? place with
  | some .exclude => true
  | some .keep => false
  | none => isHidden place

end FileTree

end DocDrift
