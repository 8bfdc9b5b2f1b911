import DocDrift.Config
import DocDrift.Report.Format
import DocDrift.Text.Unsigned

/-!
# Settings on the command line

The options that the program and its commands know, and what they were found to say. An option may
be given once, and its value must make sense.
-/

namespace DocDrift.CommandLine

inductive Setting where
  | config
  | verbose
  | debug
  | help
  | version
  | format
  | vcs
  | vcsExecutable
  | noFollowRename
  | maxChanges
  | exitCode
  | jobs
deriving DecidableEq, Repr

namespace Setting

/-- The name behind two hyphens. -/
def long : Setting → String
  | config => "config"
  | verbose => "verbose"
  | debug => "debug"
  | help => "help"
  | version => "version"
  | format => "format"
  | vcs => "vcs"
  | vcsExecutable => "vcs-executable"
  | noFollowRename => "no-follow-rename"
  | maxChanges => "max-changes"
  | exitCode => "exit-code"
  | jobs => "jobs"

/-- The letter behind one hyphen. -/
def short? : Setting → Option Char
  | verbose => some 'v'
  | debug => some 'd'
  | help => some 'h'
  | version => some 'V'
  | jobs => some 'j'
  | _ => none

def takesValue : Setting → Bool
  | config | format | vcs | vcsExecutable | maxChanges | jobs => true
  | verbose | debug | help | version | noFollowRename | exitCode => false

end Setting

inductive Level where
  | program
  | check
  | init
  | completions
deriving DecidableEq, Repr

inductive Operands where
  | none
  | one
  | many
deriving DecidableEq, Repr

namespace Level

def ofName? : String → Option Level
  | "check" => some check
  | "init" => some init
  | "completions" => some completions
  | _ => none

/-- The options that can be given with every command and in front of it. -/
def common : List Setting := [.config, .verbose, .debug, .help]

def settings : Level → List Setting
  | program => common ++ [.version]
  | check =>
    common ++ [.format, .vcs, .vcsExecutable, .noFollowRename, .maxChanges, .exitCode, .jobs]
  | init => common
  | completions => common

def operands : Level → Operands
  | program => .none
  | check => .many
  | init => .none
  | completions => .one

def long? (level : Level) (name : String) : Option Setting :=
  level.settings.find? fun s => s.long == name

def short? (level : Level) (letter : Char) : Option Setting :=
  level.settings.find? fun s => s.short? == some letter

end Level

inductive Shell where
  | bash
  | elvish
  | fish
  | powershell
  | zsh
deriving DecidableEq, Repr

def Shell.ofName? : String → Option Shell
  | "bash" => some bash
  | "elvish" => some elvish
  | "fish" => some fish
  | "powershell" => some powershell
  | "zsh" => some zsh
  | _ => none

inductive Misuse where
  | unknownArgument (text : String)
  | unknownCommand (name : String)
  | missingCommand
  | missingOperand
  | missingValue (s : Setting)
  | needlessValue (s : Setting)
  | repeated (s : Setting)
  | wrongValue (text : String)
deriving DecidableEq, Repr

inductive Stop where
  | misuse (m : Misuse)
  | help
  | version
deriving DecidableEq, Repr

/-- What the options of one level say. -/
structure Given where
  config : Option Path := none
  verbose : Bool := false
  debug : Bool := false
  format : Option OutputFormat := none
  vcs : Option VcsKind := none
  vcsExecutable : Option Path := none
  noFollowRename : Bool := false
  maxChanges : Option Nat := none
  exitCode : Bool := false
  jobs : Option Nat := none
  /-- The operands of a check. -/
  paths : List Path := []
  /-- The operand of a request for completions. -/
  shell : Option Shell := none
deriving DecidableEq, Repr

namespace Given

/-- The value of an option that must not have one yet. -/
def once {α : Type} (s : Setting) (old : Option α) (text : String) (new : Option α) :
    Except Stop (Option α) :=
  match old, new with
  | some _, _ => .error (.misuse (.repeated s))
  | none, some a => .ok (some a)
  | none, none => .error (.misuse (.wrongValue text))

/-- A flag that must not be set yet. -/
def raise (s : Setting) (old : Bool) : Except Stop Bool :=
  if old then .error (.misuse (.repeated s)) else .ok true

def path? (text : String) : Option Path := if text.isEmpty then none else some ⟨text⟩

def count? (text : String) : Option Nat := Text.unsigned? maxCount text.toList

/-- Sets an option that comes with a value. -/
def set (g : Given) (s : Setting) (text : String) : Except Stop Given := do
  match s with
  | .config => return { g with config := ← once s g.config text (path? text) }
  | .format => return { g with format := ← once s g.format text (OutputFormat.ofName text).toOption }
  | .vcs => return { g with vcs := ← once s g.vcs text (VcsKind.ofName text).toOption }
  | .vcsExecutable => return { g with vcsExecutable := ← once s g.vcsExecutable text (path? text) }
  | .maxChanges => return { g with maxChanges := ← once s g.maxChanges text (count? text) }
  | .jobs => return { g with jobs := ← once s g.jobs text (count? text) }
  | _ => throw (.misuse (.needlessValue s))

/-- Sets a flag. Some flags end the reading. -/
def setFlag (g : Given) (s : Setting) : Except Stop Given := do
  match s with
  | .verbose => return { g with verbose := ← raise s g.verbose }
  | .debug => return { g with debug := ← raise s g.debug }
  | .noFollowRename => return { g with noFollowRename := ← raise s g.noFollowRename }
  | .exitCode => return { g with exitCode := ← raise s g.exitCode }
  | .help => throw .help
  | .version => throw .version
  | _ => throw (.misuse (.missingValue s))

def add (g : Given) (level : Level) (text : String) : Except Stop Given :=
  match level with
  | .check =>
    match path? text with
    | some p => .ok { g with paths := g.paths ++ [p] }
    | none => .error (.misuse (.wrongValue text))
  | .completions =>
    match Shell.ofName? text with
    | some shell => .ok { g with shell := some shell }
    | none => .error (.misuse (.wrongValue text))
  | _ => .error (.misuse (.unknownArgument text))

end Given

end DocDrift.CommandLine
