import DocDrift.Source.Cursor

/-!
# Expressions

The grammar of expressions, types, patterns and parameters. A reading yields a `Piece`: the
expression as far as a docstring may be made of it, and what may be done with it. All functions
recurse on a bound for their depth that the number of tokens gives.
-/

namespace DocDrift.Source

/-- What has been read, and what it may be used for. -/
structure Piece where
  expression : Expression := .other
  /-- Whether a value may be assigned to it. -/
  target : Bool := false
  /-- Whether a star may stand before it: its first operand is a name, or has an attribute or an
  index. -/
  starred : Bool := false
  /-- Whether it may stand only as an element of a collection or as an argument. -/
  element : Bool := false
deriving Inhabited

def Token.beginsOperand (t : Token) : Bool :=
  match t.kind with
  | .word _ | .number | .string _ | .formatOpen _ => true
  | .op o => ["(", "[", "\x7b", "+", "-", "~", "*", "..."].contains o
  | _ => false

/-- Whether the word can connect two operands. -/
def connectsOperands (w : String) : Bool :=
  ["in", "not", "is", "and", "or", "if", "else", "as", "for", "async", "from"].contains w

/-- Whether the word is a value or opens an operation, so that it names nothing. -/
def isReserved (w : String) : Bool :=
  ["True", "False", "None", "not", "lambda"].contains w

def isBinary (o : String) : Bool :=
  ["+", "-", "*", "@", "/", "%", "//", "**", "|", "&", "^", "<<", ">>"].contains o

def isComparison (o : String) : Bool :=
  ["<", "<=", "==", "!=", ">=", ">", "<>"].contains o

open Parse

mutual

/-- An expression, or one that may stand only as an element. -/
def anyExpression : Nat → Place → Parse Piece
  | 0, _ => fail
  | n + 1, p => do
    let first ← operation n p
    connected n p first

def expression : Nat → Place → Parse Piece
  | 0, _ => fail
  | n + 1, p => do
    let e ← anyExpression n p
    if e.element then fail else return e

/-- What the words between whole expressions connect to the one just read. -/
def connected : Nat → Place → Piece → Parse Piece
  | 0, _, _ => fail
  | n + 1, p, left => do
    match (← following p).bind Token.word? with
    | some "and" | some "or" | some "as" =>
      advance
      let _ ← operation n p
      connected n p { starred := left.starred }
    | some "if" =>
      if !p.choice then return left
      advance
      let _ ← expression n p.inFrontOf
      expectWord p.inFrontOf "else"
      let _ ← expression n p
      return { starred := left.starred }
    | _ => return left

/-- An expression up to the words that connect expressions. -/
def operation : Nat → Place → Parse Piece
  | 0, _ => fail
  | n + 1, p => do
    let t ← take p.inField
    match t.kind with
    | .word "not" =>
      advance
      let _ ← operation n p
      return {}
    | .word "lambda" =>
      advance
      parameters n p.inFrontOf false
      expectOp p.inFrontOf ":"
      let _ ← expression n p
      return {}
    | .word w =>
      let second ← peekSecond
      if second.isOp ":=" && !(p.lineEnds && second.lineBreak) && !isReserved w then
        advance
        advance
        let _ ← operation n p
        return {}
      comparison n p
    | _ => comparison n p

/-- A comparison, or a single side of one. -/
def comparison : Nat → Place → Parse Piece
  | 0, _ => fail
  | n + 1, p => do
    let left ← sum n p
    comparisonRest n p left

/-- The further sides of a comparison. -/
def comparisonRest : Nat → Place → Piece → Parse Piece
  | 0, _, _ => fail
  | n + 1, p, left => do
    let more : Parse Piece := do
      let _ ← sum n p
      comparisonRest n p { starred := left.starred }
    match (← following p).map Token.kind with
    | some (.op o) =>
      if isComparison o then
        advance
        more
      else return left
    | some (.word "in") =>
      advance
      more
    | some (.word "is") =>
      advance
      if (← peek).isWord "not" then
        stay p.inField false
        advance
      more
    | some (.word "not") =>
      if (← peekSecond).isWord "in" then
        advance
        stay p.inField false
        advance
        more
      else return left
    | _ => return left

/-- Operands with operators between them. -/
def sum : Nat → Place → Parse Piece
  | 0, _ => fail
  | n + 1, p => do
    let left ← operand n p
    sumRest n p left

def sumRest : Nat → Place → Piece → Parse Piece
  | 0, _, _ => fail
  | n + 1, p, left => do
    match (← following p).map Token.kind with
    | some (.op o) =>
      if isBinary o then
        advance
        let _ ← operand n p
        sumRest n p { starred := left.starred }
      else return left
    | _ => return left

/-- An operand with the signs before it. -/
def operand : Nat → Place → Parse Piece
  | 0, _ => fail
  | n + 1, p => do
    let t ← take p.inField
    match t.kind with
    | .op "+" | .op "-" | .op "~" =>
      advance
      let _ ← operand n p
      return {}
    | .op "*" =>
      advance
      let e ← primary n p
      if e.starred then return { target := e.target } else fail
    | .word "await" =>
      let second ← peekSecond
      let connects := (second.word?.map connectsOperands).getD false
      if second.beginsOperand && !connects && !(p.lineEnds && second.lineBreak) then
        advance
        let _ ← operand n p
        return {}
      primary n p
    | _ => primary n p

/-- An operand with its attributes, indices and calls. -/
def primary : Nat → Place → Parse Piece
  | 0, _ => fail
  | n + 1, p => do
    let first ← atom n p
    primaryRest n p first

def primaryRest : Nat → Place → Piece → Parse Piece
  | 0, _, _ => fail
  | n + 1, p, left => do
    match (← following p).map Token.kind with
    | some (.op ".") =>
      advance
      let _ ← Parse.name p
      primaryRest n p { target := true, starred := true }
    | some (.op "(") =>
      advance
      arguments n p.inside true
      primaryRest n p { starred := left.starred }
    | some (.op "[") =>
      advance
      indices n p.inside p.typed true
      primaryRest n p { target := true, starred := true }
    | _ => return left

/-- A name, a literal, or something in brackets. -/
def atom : Nat → Place → Parse Piece
  | 0, _ => fail
  | n + 1, p => do
    let t ← take p.inField
    match t.kind with
    | .word "True" | .word "False" | .word "None" =>
      advance
      return {}
    | .word _ =>
      advance
      return { target := true, starred := true }
    | .number | .op "..." =>
      advance
      return {}
    | .string _ | .formatOpen _ =>
      let parts ← literals n p
      match parts with
      | [.literal text] => return { expression := .literal text }
      | _ => return { expression := .adjacent parts }
    | .op "(" =>
      advance
      inParentheses n p.inside
    | .op "[" =>
      advance
      inBrackets n p.inside
    | .op "\x7b" =>
      advance
      inBraces n p.inside
    | _ => fail

/-- A string literal and those that stand beside it. -/
def literals : Nat → Place → Parse (List LiteralPart)
  | 0, _ => fail
  | n + 1, p => do
    let t ← peek
    let before := t.comments.map LiteralPart.comment
    let text ← (do
      match t.kind with
      | .string text =>
        advance
        return text
      | .formatOpen text =>
        advance
        fields n
        return text
      | _ => fail)
    let next ← peek
    let isLiteral :=
      match next.kind with
      | .string _ | .formatOpen _ => true
      | _ => false
    if isLiteral && !(p.lineEnds && next.lineBreak) then
      stay (p.closes || p.inField) true
      return before ++ .literal text :: (← literals n p)
    return before ++ [.literal text]

/-- The replacement fields of a string literal up to its closing quotes. -/
def fields : Nat → Parse Unit
  | 0 => fail
  | n + 1 => do
    match (← peek).kind with
    | .formatClose => advance
    | .op "\x7b" =>
      advance
      field n
      fields n
    | _ => fail

/-- A replacement field behind its opening brace. -/
def field : Nat → Parse Unit
  | 0 => fail
  | n + 1 => do
    let p : Place := { closes := true, inField := true }
    if (← peek).isWord "yield" then yieldRest n p else expressions n p
    let _ ← skipOp p "="
    if (← peek).kind == .conversion then advance
    if (← peek).kind == .formatPart then
      advance
      formatFields n
    expectOp p "\x7d"

/-- The fields in the format part of a field. -/
def formatFields : Nat → Parse Unit
  | 0 => fail
  | n + 1 => do
    if (← peek).isOp "\x7b" then
      advance
      field n
      formatFields n

/-- One or more expressions with commas between them, and one behind the last if need be. -/
def expressions : Nat → Place → Parse Unit
  | 0, _ => fail
  | n + 1, p => do
    let _ ← expression n p
    if ← skipOp p "," then
      let next ← peek
      if next.beginsOperand && !(p.lineEnds && next.lineBreak) then expressions n p

def yieldRest : Nat → Place → Parse Unit
  | 0, _ => fail
  | n + 1, p => do
    advance
    match ← following p with
    | none => return
    | some t =>
      if t.isWord "from" then
        advance
        let _ ← expression n p
      else if t.beginsOperand then
        let _ ← take true
        expressions n p

/-- An element of a collection: an expression, one behind a star, or a `yield`. -/
def element : Nat → Place → Parse Piece
  | 0, _ => fail
  | n + 1, p => do
    let t ← take true
    match t.kind with
    | .op "*" =>
      advance
      let e ← anyExpression n p
      return { target := e.target && e.starred, element := !e.starred }
    | .word "yield" =>
      yieldRest n p
      return {}
    | _ => anyExpression n p

/-- The elements behind the first one, up to the closing bracket. Says whether all are targets. -/
def elements : Nat → Place → String → Parse Bool
  | 0, _, _ => fail
  | n + 1, p, close => do
    if ← skipOp p close then return true
    expectOp p ","
    if ← skipOp p close then return true
    let e ← element n p
    let rest ← elements n p close
    return e.target && rest

def comprehends : Nat → Place → Parse Bool
  | 0, _ => fail
  | _ + 1, p => do
    match (← following p).bind Token.word? with
    | some "for" => return true
    | some "async" => return true
    | _ => return false

def inParentheses : Nat → Place → Parse Piece
  | 0, _ => fail
  | n + 1, p => do
    if ← skipOp p ")" then return { target := true }
    let opening ← peek
    let first ← element n p
    if ← followedByOp p ")" then
      let closing ← peek
      advance
      if first.element then return { element := true }
      return {
        expression := .parenthesized opening.comments first.expression closing.comments
        target := first.target }
    if ← comprehends n p then
      if first.element || opening.isWord "yield" then fail
      clauses n p
      expectOp p ")"
      return {}
    let rest ← elements n p ")"
    return { target := first.target && rest }

def inBrackets : Nat → Place → Parse Piece
  | 0, _ => fail
  | n + 1, p => do
    if ← skipOp p "]" then return { target := true }
    let opening ← peek
    let first ← element n p
    if ← comprehends n p then
      if first.element || opening.isWord "yield" then fail
      clauses n p
      expectOp p "]"
      return {}
    let rest ← elements n p "]"
    return { target := first.target && rest }

def inBraces : Nat → Place → Parse Piece
  | 0, _ => fail
  | n + 1, p => do
    let opening ← peek
    if opening.isOp "\x7d" || opening.isOp "," || opening.isOp "**" then
      entries n p
      return {}
    let first ← element n p
    if ← followedByOp p ":" then
      if first.element || opening.isWord "yield" then fail
      advance
      let _ ← expression n p
      if ← comprehends n p then
        clauses n p
        expectOp p "\x7d"
      else entriesRest n p
      return {}
    if ← comprehends n p then
      if first.element || opening.isWord "yield" then fail
      clauses n p
      expectOp p "\x7d"
      return {}
    let _ ← elements n p "\x7d"
    return {}

/-- The entries of a dictionary, from the start of one or its closing brace. -/
def entries : Nat → Place → Parse Unit
  | 0, _ => fail
  | n + 1, p => do
    if ← skipOp p "\x7d" then return
    if ← skipOp p "," then
      expectOp p "\x7d"
      return
    let t ← take true
    if t.isOp "**" then
      advance
      let _ ← expression n p
    else
      let _ ← expression n p.inFrontOf
      expectOp p.inFrontOf ":"
      let _ ← expression n p
    entriesRest n p

def entriesRest : Nat → Place → Parse Unit
  | 0, _ => fail
  | n + 1, p => do
    if ← skipOp p "\x7d" then return
    expectOp p ","
    if ← skipOp p "\x7d" then return
    if ← followedByOp p "," then fail
    entries n p

/-- The clauses of a comprehension, the next of which is there. -/
def clauses : Nat → Place → Parse Unit
  | 0, _ => fail
  | n + 1, p => do
    if (← peek).isWord "async" then advance
    expectWord p.inFrontOf "for"
    targets n p.inFrontOf
    expectWord p.inFrontOf "in"
    sources n { p with choice := false }
    conditions n p

/-- The values that a clause runs over. -/
def sources : Nat → Place → Parse Unit
  | 0, _ => fail
  | n + 1, p => do
    let _ ← expression n p
    if ← skipOp p "," then
      let next ← peek
      let goesOn :=
        match next.word? with
        | some w => w != "for" && w != "if" && w != "async"
        | none => next.beginsOperand
      if goesOn then
        let _ ← take true
        sources n p

/-- The conditions behind a clause, and the clauses after them. -/
def conditions : Nat → Place → Parse Unit
  | 0, _ => fail
  | n + 1, p => do
    if ← followedByWord p "if" then
      advance
      let _ ← expression n { p with choice := false }
      conditions n p
    else if ← comprehends n p then clauses n p

/-- The targets of a `for`, up to its `in`. -/
def targets : Nat → Place → Parse Unit
  | 0, _ => fail
  | n + 1, p => do
    let t ← take p.inField
    if t.isOp "*" then
      advance
      let e ← primary n p
      if !(e.target && e.starred) then fail
    else
      let e ← primary n p
      if !e.target then fail
    if ← skipOp p "," then
      if !(← followedByWord p "in") then targets n p

def arguments : Nat → Place → Bool → Parse Unit
  | 0, _, _ => fail
  | n + 1, p, isFirst => do
    if ← skipOp p ")" then return
    if ← skipOpIf isFirst p "," then
      expectOp p ")"
      return
    let t ← take true
    let second ← peekSecond
    match t.kind with
    | .op "*" =>
      advance
      let _ ← anyExpression n p
    | .op "**" =>
      advance
      let _ ← expression n p
    | .word w =>
      if second.isOp "=" && !isReserved w then
        advance
        advance
        let _ ← expression n p
      else
        let e ← anyExpression n p
        if isFirst && !e.element && (← comprehends n p) then
          clauses n p
          if !(← followedByOp p ")") then fail
    | _ =>
      let e ← anyExpression n p
      if isFirst && !e.element && (← comprehends n p) then
        clauses n p
        if !(← followedByOp p ")") then fail
    if ← skipOp p ")" then return
    expectOp p ","
    arguments n p false

def indices : Nat → Place → Bool → Bool → Parse Unit
  | 0, _, _, _ => fail
  | n + 1, p, typed, isFirst => do
    if ← skipOpIf (!isFirst) p "]" then return
    let t ← take (p.inField || !isFirst)
    if typed && t.isOp "**" then
      advance
      let _ ← Parse.name p
    else
      if !t.isOp ":" then
        let _ ← expression n { p with typed }
      if ← skipOp p ":" then
        sliceBound n p
        if ← skipOp p ":" then sliceBound n p
    if ← skipOp p "]" then return
    expectOp p ","
    indices n p typed false

def sliceBound : Nat → Place → Parse Unit
  | 0, _ => fail
  | n + 1, p => do
    let t ← peek
    if t.beginsOperand then
      let _ ← take true
      let _ ← expression n p

/-- The parameters of a function or, untyped, of a `lambda`, without what encloses them. -/
def parameters : Nat → Place → Bool → Parse Unit
  | 0, _, _ => fail
  | n + 1, p, typed => do
    let t ← peek
    let done := t.isOp ":" || t.isOp ")"
    if !done then
      let _ ← take (p.closes || p.inField)
      parameter n p typed
      if ← skipOp p "," then parameters n p typed

def parameter : Nat → Place → Bool → Parse Unit
  | 0, _, _ => fail
  | n + 1, p, typed => do
    let t ← peek
    match t.kind with
    | .word _ =>
      advance
      if ← skipOpIf typed p ":" then typeExpression n p true
      if ← skipOp p "=" then
        let _ ← expression n p
    | .op "/" => advance
    | .op "*" =>
      advance
      let next ← peek
      if next.beginsOperand then
        let e ← primary n p
        if !(e.target && e.starred) then fail
        if ← skipOpIf typed p ":" then typeExpression n p true
    | .op "**" =>
      advance
      let e ← primary n p
      if !(e.target && e.starred) then fail
      if ← skipOpIf typed p ":" then typeExpression n p true
    | .op "(" =>
      advance
      let e ← inParentheses n p.inside
      if !e.target then fail
      if ← skipOp p "=" then
        let _ ← expression n p
    | _ => fail

/-- A type; some may have a bound behind a colon. -/
def typeExpression : Nat → Place → Bool → Parse Unit
  | 0, _, _ => fail
  | n + 1, p, bounded => do
    let t ← take p.inField
    if t.isOp "**" then
      advance
      let _ ← Parse.name p
    else
      let _ ← expression n { p with typed := true }
    if ← skipOpIf bounded p ":" then typeExpression n p true

end

end DocDrift.Source
