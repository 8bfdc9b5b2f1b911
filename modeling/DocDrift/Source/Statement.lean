import DocDrift.Source.Phrase

/-!
# Statements without a body

The statements that may share a line, with semicolons between them. Some of their keywords are
names where the keyword makes no sense.
-/

namespace DocDrift.Source

open Parse

/-- Where a statement without a body stands: the end of a line ends it. -/
def statementPlace : Place := { lineEnds := true }

def augmentedOps : List String :=
  ["+=", "-=", "*=", "/=", "@=", "//=", "%=", "**=", ">>=", "<<=", "&=", "^=", "|="]

/-- Whether a phrase that may go on with an operand on its line does so. -/
def operandFollows (p : Place) : Parse Bool := do
  match ← following p with
  | some t => return t.beginsOperand
  | none => return false

def dottedName : Nat → Place → Parse Unit
  | 0, _ => fail
  | n + 1, p => do
    let _ ← Parse.name p
    if ← skipOp p "." then dottedName n p

/-- Imported names with commas between them, and one behind the last if need be. -/
def importList : Nat → Place → Parse Unit
  | 0, _ => fail
  | n + 1, p => do
    dottedName n p
    if ← followedByWord p "as" then
      advance
      let _ ← Parse.name p
    if ← skipOp p "," then
      let next ← peek
      if next.word?.isSome && !(p.lineEnds && next.lineBreak) then importList n p

def nameList : Nat → Place → Parse Unit
  | 0, _ => fail
  | n + 1, p => do
    let _ ← Parse.name p
    if ← skipOp p "," then nameList n p

def conditionList : Nat → Place → Parse Unit
  | 0, _ => fail
  | n + 1, p => do
    let _ ← expression n p
    if ← skipOp p "," then conditionList n p

def relativeDots : Nat → Parse Unit
  | 0 => fail
  | n + 1 => do
    let t ← peek
    if t.isOp "." || t.isOp "..." then
      stay false false
      advance
      relativeDots n

/-- What stands behind `from`. -/
def importFrom (n : Nat) : Parse Unit := do
  let p : Place := {}
  let t ← peek
  if t.isOp "." || t.isOp "..." then
    relativeDots n
    if !(← followedByWord p "import") then dottedName n p
  else dottedName n p
  let future := t.isWord "__future__"
  expectWord p "import"
  let next ← peek
  if next.isOp "(" then
    stay false false
    advance
    importList n { closes := true }
    expectOp { closes := true } ")"
  else if next.isOp "*" && !future then
    stay false false
    advance
  else importList n statementPlace

/-- The pieces of an expression statement with commas between them. -/
def pieces : Nat → Parse (List Piece)
  | 0 => fail
  | n + 1 => do
    let e ← expression n statementPlace
    if ← skipOp statementPlace "," then
      if ← operandFollows statementPlace then return e :: (← pieces n)
    return [e]

/-- An expression statement or an assignment. The answer lists the expressions of the former. -/
def expressionStatement : Nat → Parse (List Expression)
  | 0 => fail
  | n + 1 => do
    if (← peek).isWord "yield" then
      yieldRest n statementPlace
      return [.other]
    let items ← pieces n
    let targets := items.all Piece.target
    match (← following statementPlace).map Token.kind with
    | some (.op o) =>
      if o == "=" || augmentedOps.contains o then
        if !targets then fail
        advance
        let _ ← take false
        let _ ← expressionStatement n
        return [.other]
      else if o == ":" then
        if !targets then fail
        advance
        typeExpression n statementPlace true
        if ← skipOp statementPlace "=" then
          let _ ← take false
          let _ ← expressionStatement n
        return [.other]
      else return items.map Piece.expression
    | _ => return items.map Piece.expression

/-- Goes behind the word that names the statement and reads the rest of it. -/
def keywordStatement (rest : Parse Unit) : Parse (Option (List Expression)) := do
  advance
  rest
  return none

def statementOver : Parse Bool := do
  let t ← peek
  return t.lineBreak || t.isOp ";"

/-- A `print` or `exec` with operands behind it, or a `type` alias. -/
def softStatement (n : Nat) (word : String) : Parse Unit := do
  let p := statementPlace
  advance
  if word == "print" then
    let chevron ← skipOp p ">>"
    if chevron then
      let _ ← take false
      expressions n p
    else if ← operandFollows p then expressions n p
    else fail
  else if word == "exec" then
    let t ← peek
    if t.lineBreak then fail
    match t.kind with
    | .string _ | .formatOpen _ =>
      let parts ← literals n p
      if parts.length != 1 then fail
    | .word w => if w == "in" then fail else advance
    | _ => fail
    if ← followedByWord p "in" then
      advance
      conditionList n p
  else
    if (← peek).lineBreak then fail
    typeExpression n {} true
    expectOp {} "="
    typeExpression n p true
  if !(← statementOver) then fail

/-- One statement without a body. The answer lists the expressions of an expression statement. -/
def smallStatement (n : Nat) : Parse (Option (List Expression)) := do
  let p := statementPlace
  match (← peek).kind with
  | .word "import" => keywordStatement (importList n p)
  | .word "from" => keywordStatement (importFrom n)
  | .word "pass" | .word "break" | .word "continue" => keywordStatement (pure ())
  | .word "assert" => keywordStatement (conditionList n p)
  | .word "del" => keywordStatement (expressions n p)
  | .word "global" | .word "nonlocal" => keywordStatement (nameList n p)
  | .word "return" => keywordStatement do
    if ← operandFollows p then expressions n p
  | .word "raise" => keywordStatement do
    if (← operandFollows p) && !(← followedByWord p "from") then expressions n p
    if ← followedByWord p "from" then
      advance
      let _ ← expression n p
  | .word "print" =>
    if (← peekSecond).isOp ">>" && !(← peekSecond).lineBreak then
      softStatement n "print"
      return none
    orElse
      (do
        let items ← expressionStatement n
        if !(← statementOver) then fail
        return some items)
      (do
        softStatement n "print"
        return none)
  | .word "exec" =>
    orElse
      (do
        softStatement n "exec"
        return none)
      (do return some (← expressionStatement n))
  | .word "type" =>
    orElse
      (do
        softStatement n "type"
        return none)
      (do return some (← expressionStatement n))
  | _ => return some (← expressionStatement n)

/-- The statements of one line, from the first of them to the end of the line. -/
def statementLine : Nat → Parse (List Node)
  | 0 => fail
  | n + 1 => do
    let t ← take false
    let what ← smallStatement n
    let span : LineRange := ⟨t.line, (← get).lastLine⟩
    let node : Node :=
      match what with
      | some items => .expression span items
      | none => .simple span
    if ← skipOp statementPlace ";" then
      if (← peek).lineBreak then return [node] else return node :: (← statementLine n)
    if (← peek).lineBreak then return [node] else fail

end DocDrift.Source
