import DocDrift.Source.CasePattern
import DocDrift.Source.Scan
import DocDrift.Source.Statement

/-!
# Modules

The grammar of statements with bodies, and of a whole module. A body on lines of its own is indented
deeper than the block around it and ends before the first line that is indented less than its own
first line. A comment belongs to the innermost block that it is indented at least as far as.
-/

namespace DocDrift.Source

open Parse

/-- Where the first line of a statement with a body stands. -/
def headPlace : Place := {}

def Comment.node (c : Comment) : Node := .comment ⟨c.line, c.line⟩

/-- Whether a line begins that leaves the current block. -/
def dedented : Parse Bool := do
  return (← peek).lineBreak && (← peek).indent < (← get).indent

/-- Takes the comments that belong to the current block out of the way of the next token. -/
def ownComments : Parse (List Node) := do
  let leaves ← dedented
  let c ← get
  let belongs (k : Comment) : Bool := !leaves || !k.ownLine || c.indent ≤ k.indent
  match c.tokens with
  | [] => return []
  | t :: rest =>
    set { c with tokens := { t with comments := t.comments.dropWhile belongs } :: rest }
    return (t.comments.takeWhile belongs).map Comment.node

/-- Whether the word opens a further clause of the statement whose block has just ended. -/
def clauseFollows (word : String) : Parse Bool := do
  if ← dedented then return false
  return (← peek).isWord word

/-- Reads with the indentation of the next token's line, and then returns to the present one. -/
def indented {α : Type} (read : Parse α) : Parse α := do
  let outer := (← get).indent
  let inner := (← peek).indent
  modify fun c => { c with indent := inner }
  let a ← read
  modify fun c => { c with indent := outer }
  return a

/-- Whether the rest of a line is empty and the next line is indented deeper than the block. -/
def opensBlock : Parse Bool := do
  let t ← peek
  return t.lineBreak && (← get).indent < t.indent

/-- Goes behind the words `async` and, if it follows on the line, `word`. -/
def asyncOpens (word : String) : Parse Bool := do
  let second ← peekSecond
  return (← peek).isWord "async" && second.isWord word && !second.lineBreak

/-- The parameters of a type or function, in square brackets. -/
def typeParameters : Nat → Place → Parse Unit
  | 0, _ => fail
  | n + 1, p => do
    let _ ← take false
    typeExpression n p true
    if ← skipOp p "]" then return
    expectOp p ","
    if ← skipOp p "]" then return
    typeParameters n p

/-- The head of a function behind its first words, without the last colon. -/
def functionHead (n : Nat) : Parse String := do
  let name ← Parse.name headPlace
  if ← skipOp headPlace "[" then typeParameters n { closes := true }
  expectOp headPlace "("
  parameters n { closes := true } true
  expectOp { closes := true } ")"
  if ← skipOp headPlace "->" then typeExpression n headPlace false
  return name

/-- The head of a class behind its first word, without the last colon. -/
def classHead (n : Nat) : Parse String := do
  let name ← Parse.name headPlace
  if ← skipOp headPlace "[" then typeParameters n { closes := true }
  if ← skipOp headPlace "(" then arguments n { closes := true } true
  return name

/-- The exceptions that a handler is for. -/
def handled (n : Nat) : Parse Unit := do
  if ← followedByOp headPlace ":" then return
  let _ ← expression n headPlace
  if ← skipOp headPlace "," then
    let _ ← expression n headPlace

def decorators : Nat → Parse Unit
  | 0 => fail
  | n + 1 => do
    if (← peek).isOp "@" then
      stay false false
      advance
      let _ ← expression n statementPlace
      if !(← peek).lineBreak then fail
      decorators n

mutual

def body : Nat → Parse (List Node)
  | 0 => fail
  | n + 1 => do
    expectOp headPlace ":"
    if !(← peek).lineBreak then statementLine n
    else if ← opensBlock then indented (block n)
    else return []

def block : Nat → Parse (List Node)
  | 0 => fail
  | n + 1 => do
    let comments ← ownComments
    let t ← peek
    if t.kind == .eof || (← dedented) then
      if let some last := comments.getLast? then
        modify fun c => { c with lastLine := max c.lastLine last.span.last }
      return comments
    let statements ← statement n
    return comments ++ statements ++ (← block n)

/-- A statement with a body, or all statements of a line. -/
def statement : Nat → Parse (List Node)
  | 0 => fail
  | n + 1 => do
    let t ← peek
    let compound (read : Parse (List Node)) : Parse (List Node) := do
      let bodies ← read
      return [.compound ⟨t.line, (← get).lastLine⟩ bodies]
    match t.kind with
    | .word "if" => compound do
      advance
      let _ ← expression n headPlace
      let first ← body n
      return first ++ (← furtherBranches n)
    | .word "while" => compound do
      advance
      let _ ← expression n headPlace
      let first ← body n
      return first ++ (← clause n "else")
    | .word "for" => compound (loop n)
    | .word "with" => compound (context n)
    | .word "try" => compound do
      advance
      let first ← body n
      if ← clauseFollows "finally" then return first ++ (← clause n "finally")
      if !(← clauseFollows "except") then fail
      let second ← peekSecond
      let handlers ← handlers n (second.isOp "*")
      let otherwise ← clause n "else"
      let last ← clause n "finally"
      return first ++ handlers ++ otherwise ++ last
    | .word "def" | .word "class" => return [← definition n]
    | .op "@" =>
      decorators n
      stay false false
      let _ ← take false
      let d ← definition n
      return [.decorated ⟨t.line, (← get).lastLine⟩ d]
    | .word "async" =>
      if ← asyncOpens "def" then return [← definition n]
      if ← asyncOpens "for" then
        compound do
          advance
          loop n
      else if ← asyncOpens "with" then
        compound do
          advance
          context n
      else statementLine n
    | .word "match" =>
      match ← orElse (some <$> matchHead n) (pure none) with
      | some cursor =>
        set cursor
        compound (do
          if ← opensBlock then indented (cases n) else return [])
      | none => statementLine n
    | _ => statementLine n

def matchHead : Nat → Parse Cursor
  | 0 => fail
  | n + 1 => do
    let start ← get
    advance
    if !(← operandFollows statementPlace) then fail
    expressions n headPlace
    expectOp headPlace ":"
    if !(← peek).lineBreak then fail
    let behind ← get
    set start
    return behind

def cases : Nat → Parse (List Node)
  | 0 => fail
  | n + 1 => do
    let comments ← ownComments
    if (← peek).kind == .eof || (← dedented) then
      if let some last := comments.getLast? then
        modify fun c => { c with lastLine := max c.lastLine last.span.last }
      return comments
    if !(← peek).isWord "case" then fail
    advance
    caseHead n
    let first ← body n
    return comments ++ first ++ (← cases n)

/-- The patterns of a case and its condition. -/
def caseHead : Nat → Parse Unit
  | 0 => fail
  | n + 1 => do
    casePattern n headPlace
    if ← skipOp headPlace "," then
      if !(← followedByWord headPlace "if") && !(← followedByOp headPlace ":") then
        caseHead n
        return
    if ← followedByWord headPlace "if" then
      advance
      let _ ← expression n headPlace

/-- The `elif` and `else` clauses of a condition. -/
def furtherBranches : Nat → Parse (List Node)
  | 0 => fail
  | n + 1 => do
    if ← clauseFollows "elif" then
      advance
      let _ ← expression n headPlace
      let first ← body n
      return first ++ (← furtherBranches n)
    clause n "else"

/-- The clause that the word opens, if there is one. -/
def clause : Nat → String → Parse (List Node)
  | 0, _ => fail
  | n + 1, word => do
    if ← clauseFollows word then
      advance
      body n
    else return []

/-- The `except` clauses of a `try` statement, all with a star or none. -/
def handlers : Nat → Bool → Parse (List Node)
  | 0, _ => fail
  | n + 1, starred => do
    if ← clauseFollows "except" then
      advance
      if starred then
        expectOp headPlace "*"
        if ← followedByOp headPlace ":" then fail
      handled n
      let first ← body n
      return first ++ (← handlers n starred)
    else return []

/-- A `for` statement. -/
def loop : Nat → Parse (List Node)
  | 0 => fail
  | n + 1 => do
    advance
    targets n headPlace
    expectWord headPlace "in"
    expressions n headPlace
    let first ← body n
    return first ++ (← clause n "else")

/-- A `with` statement. -/
def context : Nat → Parse (List Node)
  | 0 => fail
  | n + 1 => do
    advance
    expressions n headPlace
    body n

def definition : Nat → Parse Node
  | 0 => fail
  | n + 1 => do
    let t ← peek
    if ← asyncOpens "def" then advance
    let form : DefinitionForm ← (do
      match (← peek).kind with
      | .word "def" => return .function
      | .word "class" => return .classBlock
      | _ => fail)
    advance
    let name ← (match form with
      | .function => functionHead n
      | .classBlock => classHead n)
    let nodes ← body n
    return .definition form name ⟨t.line, (← get).lastLine⟩ nodes

end

/-- The statements of a module, for the tokens of its source. -/
def moduleOfTokens (tokens : List Token) : Except SyntaxError (List Node) := do
  -- a level of nesting takes fewer than twenty calls and at least one token
  let (nodes, cursor) ← (block (20 * tokens.length + 100)).run { tokens }
  match cursor.tokens with
  | { kind := .eof, .. } :: _ => return nodes
  | _ => throw { remaining := cursor.tokens.length, line := 1, lastLine := 1 }

end DocDrift.Source
