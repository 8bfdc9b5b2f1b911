import DocDrift.Source.Syntax

/-!
# Reading tokens

The state in which the grammar reads tokens, and the two rules about line ends. A line end ends a
phrase only where a statement may end. Anywhere else outside brackets a line that is indented less
than the current block is an error.
-/

namespace DocDrift.Source

structure Cursor where
  tokens : List Token
  /-- The last line of the token read last. -/
  lastLine : Nat := 1
  /-- The indentation of the current block. -/
  indent : Nat := 0

/-- A token at which no reading of the source goes on. -/
structure SyntaxError where
  /-- The number of tokens from it to the end. -/
  remaining : Nat
  /-- Its line. -/
  line : Nat
  /-- The last line of the token before it. -/
  lastLine : Nat
deriving Repr, DecidableEq

/-- Reading tokens, with a syntax error if none of the readings goes on. -/
abbrev Parse := StateT Cursor (Except SyntaxError)

/-- What may follow a phrase. -/
structure Place where
  /-- Whether the end of a line ends it. -/
  lineEnds : Bool := false
  /-- Whether a closing bracket may follow it. -/
  closes : Bool := false
  /-- Whether it stands in a replacement field of a string literal. -/
  inField : Bool := false
  /-- Whether `if` and `else` may follow it as a choice between values. -/
  choice : Bool := true
  /-- Whether it is a type. -/
  typed : Bool := false

namespace Place

def inside (p : Place) : Place :=
  { p with lineEnds := false, closes := true, choice := true, typed := false }

/-- In front of something that has to follow. -/
def inFrontOf (p : Place) : Place := { p with lineEnds := false, closes := false, choice := true }

end Place

namespace Parse

def peek : Parse Token := do
  let c ← get
  match c.tokens with
  | t :: _ => return t
  | [] => return { kind := .eof, line := c.lastLine, lastLine := c.lastLine, lineBreak := true }

def peekSecond : Parse Token := do
  let c ← get
  match c.tokens with
  | _ :: t :: _ => return t
  | _ => return { kind := .eof, line := c.lastLine, lastLine := c.lastLine, lineBreak := true }

/-- No reading goes on here. -/
def fail {α : Type} : Parse α := do
  let c ← get
  let t ← peek
  throw { remaining := c.tokens.length, line := t.line, lastLine := c.lastLine }

def advance : Parse Unit :=
  modify fun c =>
    match c.tokens with
    | t :: rest => { c with tokens := rest, lastLine := t.lastLine }
    | [] => c

def orElse {α : Type} (first second : Parse α) : Parse α :=
  tryCatch first fun _ => second

/-- Whether the line of the next token, or of a comment before it, leaves the current block. -/
def leavesBlock (quoteMayFollow : Bool) : Parse Bool := do
  let c ← get
  let t ← peek
  return t.comments.any (fun k => k.ownLine && k.indent < c.indent) ||
    (t.lineBreak && t.indent < c.indent && !(quoteMayFollow && t.opensWithQuote))

/-- Refuses a line that leaves the current block. -/
def stay (exempt quoteMayFollow : Bool) : Parse Unit := do
  if !exempt && (← leavesBlock quoteMayFollow) then fail

/-- Takes the next token into the phrase, wherever its line begins. -/
def take (exempt : Bool) : Parse Token := do
  stay exempt true
  modify fun c =>
    match c.tokens with
    | t :: rest => { c with tokens := { t with lineBreak := false, comments := [] } :: rest }
    | [] => c
  peek

/-- The token with which the phrase may go on; `none` if the phrase is over. -/
def following (p : Place) : Parse (Option Token) := do
  let t ← peek
  if p.lineEnds && t.lineBreak then return none
  stay (p.closes || p.inField) false
  return some t

def followedByOp (p : Place) (text : String) : Parse Bool := do
  match ← following p with
  | some t => return t.isOp text
  | none => return false

def followedByWord (p : Place) (text : String) : Parse Bool := do
  match ← following p with
  | some t => return t.isWord text
  | none => return false

/-- Goes behind the operator, which has to come next. -/
def expectOp (p : Place) (text : String) : Parse Unit := do
  if ← followedByOp p text then advance else fail

def expectWord (p : Place) (text : String) : Parse Unit := do
  if ← followedByWord p text then advance else fail

/-- Goes behind the operator if it comes next, and says whether it did. -/
def skipOp (p : Place) (text : String) : Parse Bool := do
  if ← followedByOp p text then
    advance
    return true
  return false

/-- Goes behind the operator if it comes next and is allowed here, and says whether it did. -/
def skipOpIf (allowed : Bool) (p : Place) (text : String) : Parse Bool := do
  if allowed then skipOp p text else return false

/-- A name, for which any word will do. -/
def name (p : Place) : Parse String := do
  stay p.inField false
  match (← peek).kind with
  | .word s =>
    advance
    return s
  | _ => fail

end Parse

end DocDrift.Source
