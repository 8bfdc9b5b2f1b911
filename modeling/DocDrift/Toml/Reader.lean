import DocDrift.Text.Utf8
import DocDrift.Toml.Node

/-!
# Reading from a document

The blanks, comments and line ends of TOML, and the means to read them and to fail.
-/

namespace DocDrift.Toml

/-- Where something is wrong: at one character, or in a part of the text. -/
inductive Place where
  | character (offset : Nat)
  | part (span : Span)
deriving DecidableEq, Repr

structure Fault where
  message : String
  place : Option Place
deriving DecidableEq, Repr

structure Source where
  offset : Nat
  rest : List Char
deriving DecidableEq, Repr

def Source.drop (s : Source) (n : Nat) : Source :=
  ⟨s.offset + Text.octets (s.rest.take n), s.rest.drop n⟩

abbrev Reader (α : Type) := StateT Source (Except Fault) α

/-- What was being read and what could have come instead. -/
def describe (label : Option String) (expected : List String) : String :=
  let first := label.toList.map fun l => s!"invalid {l}"
  let second := if expected.isEmpty then [] else ["expected " ++ ", ".intercalate expected]
  "\n".intercalate (first ++ second)

namespace Reader

def fail {α : Type} (message : String) : Reader α := fun s =>
  .error ⟨message, some (.character s.offset)⟩

/-- Fails at an octet that has been passed. -/
def failAt {α : Type} (offset : Nat) (message : String) : Reader α := fun _ =>
  .error ⟨message, some (.character offset)⟩

def offset : Reader Nat := fun s => .ok (s.offset, s)

def rest : Reader (List Char) := fun s => .ok (s.rest, s)

def peek : Reader (Option Char) := fun s => .ok (s.rest.head?, s)

def drop (n : Nat) : Reader Unit := fun s => .ok ((), s.drop n)

def takeWhile (p : Char → Bool) : Reader (List Char) := fun s =>
  let taken := s.rest.takeWhile p
  .ok (taken, s.drop taken.length)

/-- Takes the given characters if they come next. -/
def accept (word : String) : Reader Bool := fun s =>
  if word.toList.isPrefixOf s.rest then .ok (true, s.drop word.length) else .ok (false, s)

/-- Runs a reader and tells which part of the text it took. -/
def spanned {α : Type} (r : Reader α) : Reader (α × Span) := do
  let start ← offset
  let a ← r
  return (a, ⟨start, ← offset⟩)

def isBlank (c : Char) : Bool := c == ' ' || c == '\t'

def isOther (c : Char) : Bool := 128 ≤ c.toNat

/-- Whether the character may stand in a comment, or between the triple quotes of a string in
which it is neither quote nor backslash. -/
def isPrintable (c : Char) : Bool := c == '\t' || (32 ≤ c.toNat && c.toNat ≤ 126) || isOther c

def blanks : Reader Unit := discard (takeWhile isBlank)

def newline : Reader Bool := do
  if ← accept "\n" then pure true else accept "\x0d\n"

/-- Takes a comment, if there is one, up to the end of its line. -/
def comment : Reader Unit := do
  if (← peek) == some '#' then discard (takeWhile isPrintable)

/-- Takes the end of a line or notices that of the text. -/
def lineEnd (message : String) : Reader Unit := do
  if !(← newline) then
    if (← peek).isSome then fail message

/-- Takes what may follow on the line of a statement. -/
def lineRest : Reader Unit := do
  blanks
  comment
  lineEnd (describe none ["newline", "\x60#\x60"])

/-- Takes blanks, line ends and comments. -/
def trivia : Nat → Reader Unit
  | 0 => pure ()
  | fuel + 1 => do
    match ← peek with
    | some '#' => comment; trivia fuel
    | some c =>
      if isBlank c then blanks; trivia fuel
      else if ← newline then trivia fuel
      else pure ()
    | none => pure ()

def allTrivia : Reader Unit := do trivia ((← rest).length + 1)

end Reader

end DocDrift.Toml
