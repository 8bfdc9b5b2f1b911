import DocDrift.CommandLine.Setting

/-!
# Reading the command line

Arguments are read from left to right, and the first thing that is wrong, or the first request for
help or for the version, ends the reading. What has been named is set only when the next argument
shows that its values are complete, so a wrong value may be noticed late.
-/

namespace DocDrift.CommandLine

/-- What has been named but not set. -/
inductive Pending where
  | nothing
  /-- An option, with its value if that has been read. -/
  | option (s : Setting) (value : Option String)
  /-- Operands that follow each other. -/
  | operands (texts : List String)
deriving DecidableEq, Repr

structure Reading where
  level : Level
  given : Given := {}
  pending : Pending := .nothing
deriving DecidableEq, Repr

def misuse {α : Type} (m : Misuse) : Except Stop α := .error (.misuse m)

namespace Reading

def settle (r : Reading) : Except Stop Reading := do
  match r.pending with
  | .nothing => return r
  | .option s none => misuse (.missingValue s)
  | .option s (some value) => return { r with given := ← r.given.set s value, pending := .nothing }
  | .operands texts =>
    return { r with given := ← texts.foldlM (·.add r.level) r.given, pending := .nothing }

/-- Whether the next argument, if it is no option itself, is the value of an option. -/
def awaitsValue (r : Reading) : Bool :=
  match r.pending with
  | .option _ none => true
  | _ => false

def flag (r : Reading) (s : Setting) : Except Stop Reading := do
  let r ← r.settle
  return { r with given := ← r.given.setFlag s }

/-- Reads an option with the value that is attached to it, if there is one. -/
def option (r : Reading) (s : Setting) (attached : Option String) : Except Stop Reading := do
  let r ← r.settle
  match attached with
  | some value => return { r with given := ← r.given.set s value }
  | none => return { r with pending := .option s none }

def long (r : Reading) (text : List Char) : Except Stop Reading :=
  let name := text.takeWhile (· ≠ '=')
  let attached := (text.drop name.length).tail?.map String.ofList
  match r.level.long? (String.ofList name) with
  | none => misuse (.unknownArgument (String.ofList name))
  | some s =>
    if s.takesValue then r.option s attached
    else if attached.isSome then misuse (.needlessValue s)
    else r.flag s

/-- Reads options by their letters. What follows the letter of an option that comes with a value is
that value, with or without an equals sign in front of it. -/
def short (r : Reading) : List Char → Except Stop Reading
  | [] => .ok r
  | letter :: rest =>
    match r.level.short? letter with
    | none => misuse (.unknownArgument (String.singleton letter))
    | some s =>
      if s.takesValue then
        match rest with
        | [] => r.option s none
        | '=' :: value => r.option s (some (String.ofList value))
        | value => r.option s (some (String.ofList value))
      else do (← r.flag s).short rest

def operand (r : Reading) (text : String) : Except Stop Reading :=
  match r.level.operands with
  | .none =>
    misuse (if r.level = .program then .unknownCommand text else .unknownArgument text)
  | .one => do
    let r ← r.settle
    if r.given.shell.isSome then misuse (.unknownArgument text)
    return { r with pending := .operands [text] }
  | .many =>
    match r.pending with
    | .operands texts => .ok { r with pending := .operands (texts ++ [text]) }
    | _ => do return { ← r.settle with pending := .operands [text] }

/-- Reads an argument in front of which no double hyphen stands. -/
def argument (r : Reading) (text : String) : Except Stop Reading :=
  match text.toList with
  | '-' :: '-' :: rest => r.long rest
  | '-' :: c :: rest => r.short (c :: rest)
  | _ =>
    match r.pending with
    | .option s none => .ok { r with pending := .option s (some text) }
    | _ => r.operand text

/-- Reads the arguments of a command. Behind a double hyphen there are only operands. -/
def arguments (r : Reading) : List String → Except Stop Reading
  | [] => r.settle
  | text :: rest => do
    if text = "--" then (← rest.foldlM Reading.operand r).settle
    else (← r.argument text).arguments rest

end Reading

/-- How a request for help about some names ends: only a command has help. -/
def helpAbout : List String → Stop
  | [] => .help
  | name :: rest =>
    if name = "help" || (Level.ofName? name).isSome then
      match rest with
      | [] => .help
      | next :: _ => .misuse (.unknownCommand next)
    else .misuse (.unknownCommand name)

structure Request where
  command : Level
  /-- What is given in front of the command. -/
  ahead : Given
  /-- What is given behind the command. -/
  behind : Given
deriving DecidableEq, Repr

/-- Reads the arguments of the program up to a command, and those of the command. -/
def readFrom (r : Reading) : List String → Except Stop Request
  | [] => do
    let _ ← r.settle
    misuse .missingCommand
  | text :: rest =>
    match if r.awaitsValue then none else Level.ofName? text with
    | some command => do
      let behind ← Reading.arguments { level := command } rest
      let ahead ← r.settle
      if command = .completions && behind.given.shell.isNone then misuse .missingOperand
      return { command, ahead := ahead.given, behind := behind.given }
    | none => do
      if text = "help" && !r.awaitsValue then throw (helpAbout rest)
      if text = "--" then
        let _ ← rest.foldlM Reading.operand r
        let _ ← r.settle
        misuse .missingCommand
      else readFrom (← r.argument text) rest

/-- The request that the arguments of the program make. -/
def read (arguments : List String) : Except Stop Request := readFrom { level := .program } arguments

end DocDrift.CommandLine
