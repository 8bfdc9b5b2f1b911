import DocDrift.FileTree.Basic
import DocDrift.Git.Dialect
import DocDrift.History.Survey
import DocDrift.Mercurial.Dialect

/-!
# Opened repositories

A repository on disk is opened through its executable and then answers the questions of a survey by
running one command for each.
-/

namespace DocDrift

def VcsKind.dialect : VcsKind → Dialect
  | git => Git.dialect
  | mercurial => Mercurial.dialect

structure VcsConfig where
  kind : VcsKind
  executable : Path
  followRenames : Bool
deriving DecidableEq, Repr

/-- The settings of a kind of system when nothing is configured. -/
def VcsConfig.default (kind : VcsKind) : VcsConfig where
  kind := kind
  executable := kind.defaultExecutable
  followRenames := true

def VcsConfig.tool (c : VcsConfig) : Tool where
  kind := c.kind
  executable := c.executable
  environment := c.kind.dialect.environment

structure World where
  files : FileTree
  /-- What comes of a command that can be written down. -/
  execute : Invocation → Outcome

/-- Whether the command contains a null character, which no command line can. -/
def Invocation.hasNull (i : Invocation) : Bool :=
  (i.executable.text :: i.arguments).any (·.contains '\x00')

def World.outcome (w : World) (i : Invocation) : Outcome :=
  if i.hasNull then .notStarted "nul byte found in provided data" else w.execute i

structure Backend where
  tool : Tool
  /-- The canonical path of the repository's directory. -/
  root : Path
deriving DecidableEq, Repr

def withoutLineEnds (s : List Char) : List Char :=
  (s.reverse.dropWhile fun c => c == '\n' || c == '\r').reverse

/-- The canonical path of the directory that some output names. -/
def FileTree.canonicalRoot? (t : FileTree) (output : List Char) : Option Path :=
  t.canonical? ⟨String.ofList (withoutLineEnds output)⟩

namespace World

/-- The command that opens the repository around a path. -/
def openInvocation (w : World) (config : VcsConfig) (path : Path) : Invocation :=
  config.tool.invocation
    (config.kind.dialect.openArguments (w.files.nearestDirectory path))

def openBackend (w : World) (config : VcsConfig) (path : Path) : Except Failure Backend := do
  let d := config.kind.dialect
  let f ← config.tool.finish (w.outcome (w.openInvocation config path))
  let output ← d.readRoot config.tool path f
  match w.files.canonicalRoot? output with
  | some root => return ⟨config.tool, root⟩
  | none => throw (config.tool.malformed d.rootFault)

end World

namespace Backend

def dialect (b : Backend) : Dialect := b.tool.kind.dialect

def invocation (b : Backend) (arguments : List String) : Invocation :=
  b.tool.invocation (b.dialect.leading b.root ++ arguments)

/-- The command that a question takes; to name a file takes none. -/
def command? (b : Backend) : Query → Option Invocation
  | .relative _ => none
  | .enumerate path _ => some (b.invocation (b.dialect.logArguments path))
  | .read path revision => some (b.invocation (b.dialect.contentArguments path revision))
  | .diff newer older => some (b.invocation (b.dialect.diffArguments newer older))

def run (b : Backend) (w : World) (arguments : List String) : Except Failure Finished :=
  b.tool.finish (w.outcome (b.invocation arguments))

def repository (b : Backend) (w : World) : Repository where
  relative path := w.files.relative b.root path
  enumerate path follow := do
    b.dialect.readLog b.tool path follow (← b.run w (b.dialect.logArguments path))
  read path revision := do
    b.dialect.readContent b.tool path revision
      (← b.run w (b.dialect.contentArguments path revision))
  diff newer older := do
    b.dialect.readDiff b.tool newer older (← b.run w (b.dialect.diffArguments newer older))

end Backend

structure FileRun where
  outcome : Except Failure FileAnalysis
  /-- The commands in the order in which they are run. -/
  commands : List Invocation

def World.analyzeFile (w : World) (config : VcsConfig) (path : Path) : FileRun :=
  let opening := w.openInvocation config path
  match w.openBackend config path with
  | .error e => ⟨.error e, [opening]⟩
  | .ok b =>
    let s := (b.repository w).survey path config.followRenames
    ⟨s.outcome, opening :: s.queries.filterMap b.command?⟩

end DocDrift
