import DocDrift.Vcs.Backend

/-!
# Configuration

The settings of a run. Their file stands in the working directory.
-/

namespace DocDrift

def configFileName : String := ".docsweep.toml"

def maxCount : Nat := 0xFFFFFFFFFFFFFFFF

/-- The count that follows. Behind the largest one the counts begin again at 0. -/
def nextCount (n : Nat) : Nat := (n + 1) % (maxCount + 1)

theorem nextCount_of_lt {n : Nat} (h : n < maxCount) : nextCount n = n + 1 :=
  Nat.mod_eq_of_lt (Nat.succ_lt_succ h)

structure ExecutableConfig where
  executable : Path
deriving DecidableEq, Repr

/-- The settings of a kind of system when nothing is configured. -/
def ExecutableConfig.default (kind : VcsKind) : ExecutableConfig := ⟨kind.defaultExecutable⟩

structure Config where
  /-- The system that holds the files. -/
  vcs : VcsKind := .git
  /-- Whether to follow files across renames. -/
  followRename : Bool := true
  /-- How many changes since the last change of the documentation are tolerated. -/
  maxChanges : Nat := 0
  /-- How many files are analysed at once; none leaves it to the machine. -/
  jobs : Option Nat := none
  git : ExecutableConfig := .default .git
  hg : ExecutableConfig := .default .mercurial
deriving DecidableEq, Repr

namespace Config

def executableFor (c : Config) : VcsKind → Path
  | .git => c.git.executable
  | .mercurial => c.hg.executable

/-- The configuration with another executable for its kind of system. -/
def withExecutable (c : Config) (executable : Path) : Config :=
  match c.vcs with
  | .git => { c with git := ⟨executable⟩ }
  | .mercurial => { c with hg := ⟨executable⟩ }

/-- What a backend needs. -/
def vcsConfig (c : Config) : VcsConfig where
  kind := c.vcs
  executable := c.executableFor c.vcs
  followRenames := c.followRename

end Config

end DocDrift
