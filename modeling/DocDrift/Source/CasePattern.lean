import DocDrift.Source.Phrase

/-!
# Patterns of a `match` statement

Alternatives of literals, names, sequences, mappings and classes, each of which may be given a name.
-/

namespace DocDrift.Source

open Parse

/-- A number with an optional sign, and a second one behind a sign. -/
def numberPattern (p : Place) : Parse Unit := do
  let _ ← skipOp p "-"
  let number : Parse Unit := do
    if (← take p.inField).kind == .number then advance else fail
  number
  if (← followedByOp p "+") || (← followedByOp p "-") then
    advance
    number

def dottedRest : Nat → Place → Parse Unit
  | 0, _ => fail
  | n + 1, p => do
    if ← skipOp p "." then
      let _ ← Parse.name p
      dottedRest n p

mutual

def casePattern : Nat → Place → Parse Unit
  | 0, _ => fail
  | n + 1, p => do
    alternatives n p
    if ← followedByWord p "as" then
      advance
      let _ ← Parse.name p

/-- Patterns with bars between them. -/
def alternatives : Nat → Place → Parse Unit
  | 0, _ => fail
  | n + 1, p => do
    closedPattern n p
    if ← skipOp p "|" then alternatives n p

/-- A pattern without bars. -/
def closedPattern : Nat → Place → Parse Unit
  | 0, _ => fail
  | n + 1, p => do
    let t ← take p.inField
    match t.kind with
    | .op "*" | .op "**" =>
      advance
      let _ ← Parse.name p
    | .op "[" =>
      advance
      casePatterns n p.inside "]"
    | .op "(" =>
      advance
      casePatterns n p.inside ")"
    | .op "\x7b" =>
      advance
      keyedPatterns n p.inside
    | .string _ | .formatOpen _ =>
      let _ ← literals n p
    | .number | .op "-" => numberPattern p
    | .word w =>
      advance
      if isReserved w && w != "not" && w != "lambda" then return
      if ← skipOp p "=" then closedPattern n p
      else
        dottedRest n p
        if ← skipOp p "(" then casePatterns n p.inside ")"
    | _ => fail

/-- Patterns with commas between them, up to the closing bracket. -/
def casePatterns : Nat → Place → String → Parse Unit
  | 0, _, _ => fail
  | n + 1, p, close => do
    if ← skipOp p close then return
    let _ ← take true
    casePattern n p
    if ← skipOp p close then return
    expectOp p ","
    casePatterns n p close

/-- The entries of a mapping pattern, up to its closing brace. -/
def keyedPatterns : Nat → Place → Parse Unit
  | 0, _ => fail
  | n + 1, p => do
    if ← skipOp p "\x7d" then return
    let t ← take true
    if t.isOp "*" || t.isOp "**" then closedPattern n p
    else
      alternatives n p
      expectOp p ":"
      casePattern n p
    if ← skipOp p "\x7d" then return
    expectOp p ","
    keyedPatterns n p

end

end DocDrift.Source
