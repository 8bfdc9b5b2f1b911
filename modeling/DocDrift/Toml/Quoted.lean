import DocDrift.Toml.Reader

/-!
# Strings of TOML

Strings on one line and on several, with escapes between double quotes and without any between
single ones.
-/

namespace DocDrift.Toml.Reader

def isHex (c : Char) : Bool :=
  c.isDigit || ('a' ≤ c && c ≤ 'f') || ('A' ≤ c && c ≤ 'F')

def hexValue (c : Char) : Nat :=
  if c.isDigit then c.toNat - '0'.toNat
  else if 'a' ≤ c then c.toNat - 'a'.toNat + 10
  else c.toNat - 'A'.toNat + 10

def digitsValue (base : Nat) (ds : List Char) : Nat :=
  ds.foldl (fun n c => base * n + hexValue c) 0

/-- Reads the number of a character with exactly `n` digits. -/
def codePoint (n : Nat) : Reader Char := do
  let label := some s!"unicode {n}-digit hex code"
  let start ← offset
  let ds := ((← rest).take n).takeWhile isHex
  let value := digitsValue 16 ds
  if ds.length < n then fail (describe label [])
  else if h : value.isValidChar then
    drop n
    pure (Char.ofNatAux value h)
  else failAt start (describe label [] ++ "\nvalue is out of range\n")

/-- What may follow a backslash. -/
def escapes : List String :=
  ["b", "f", "n", "r", "t", "u", "U", "\\", "\""].map fun s => "\x60" ++ s ++ "\x60"

def escape : Reader Char := do
  let c ← peek
  drop 1
  match c with
  | some 'b' => pure '\x08'
  | some 'f' => pure '\x0c'
  | some 'n' => pure '\n'
  | some 'r' => pure '\x0d'
  | some 't' => pure '\t'
  | some '\\' => pure '\\'
  | some '"' => pure '"'
  | some 'u' => codePoint 4
  | some 'U' => codePoint 8
  | _ => fail (describe (some "escape sequence") escapes)

/-- Reads a string between double quotes behind the first one. -/
def basicRest : Nat → Reader (List Char)
  | 0 => pure []
  | fuel + 1 => do
    match ← peek with
    | some '"' => drop 1; pure []
    | some '\\' =>
      drop 1
      let c ← escape
      return c :: (← basicRest fuel)
    | some c =>
      if isPrintable c then
        drop 1
        return c :: (← basicRest fuel)
      else fail (describe (some "basic string") [])
    | none => fail (describe (some "basic string") [])

def isLiteral (c : Char) : Bool := isPrintable c && c != '\''

/-- Reads a string between single quotes behind the first one. -/
def literalRest : Reader (List Char) := do
  let s ← takeWhile isLiteral
  if ← accept "'" then pure s else fail (describe (some "literal string") [])

/-- Takes the line end and the blanks that a backslash at the end of a line hides, if there is a
line end. -/
def hiddenBreak : Reader Bool := fun s =>
  let r := s.rest.dropWhile isBlank
  match r with
  | '\n' :: _ | '\x0d' :: '\n' :: _ =>
    let t := r.dropWhile fun c => isBlank c || c == '\n' || c == '\x0d'
    .ok (true, s.drop (s.rest.length - t.length))
  | _ => .ok (false, s)

/-- Reads a string between triple quotes behind the first three. The quotes in front of the last
three belong to the string. -/
def longRest (quote : Char) (label : String) : Nat → Reader (List Char)
  | 0 => pure []
  | fuel + 1 => do
    match ← peek with
    | none => fail (describe (some label) [])
    | some c =>
      if c = quote then
        let n := ((← rest).takeWhile (· == quote)).length
        if 3 ≤ n then
          drop (min n 5)
          pure (List.replicate (min n 5 - 3) quote)
        else
          drop n
          if (← peek).isNone then fail (describe (some label) [])
          return List.replicate n quote ++ (← longRest quote label fuel)
      else if c = '\\' && quote = '"' then
        drop 1
        if ← hiddenBreak then longRest quote label fuel
        else
          let d ← escape
          return d :: (← longRest quote label fuel)
      else if isPrintable c then
        drop 1
        return c :: (← longRest quote label fuel)
      else if ← newline then return '\n' :: (← longRest quote label fuel)
      else fail (describe (some label) [])

/-- Reads a string on several lines; a line end behind the first three quotes does not count. -/
def long (quote : Char) (label : String) : Reader String := do
  drop 3
  discard newline
  return String.ofList (← longRest quote label ((← rest).length + 1))

/-- Reads a string between double quotes on one line. -/
def basic : Reader String := do
  drop 1
  return String.ofList (← basicRest ((← rest).length + 1))

/-- Reads a string between single quotes on one line. -/
def literal : Reader String := do
  drop 1
  return String.ofList (← literalRest)

def string : Reader String := do
  let s ← rest
  if ['"', '"', '"'].isPrefixOf s then long '"' "multiline basic string"
  else if ['\'', '\'', '\''].isPrefixOf s then long '\'' "multiline literal string"
  else if s.head? = some '"' then basic
  else literal

end DocDrift.Toml.Reader
