import DocDrift.Toml.Quoted

/-!
# Values of TOML
-/

namespace DocDrift.Toml.Reader

/-- Reads digits with single underscores between them and leaves the underscores out. There must be
a digit behind each underscore. -/
def digitRun (isDigit : Char → Bool) : Nat → Reader (List Char)
  | 0 => pure []
  | fuel + 1 => do
    let ds ← takeWhile isDigit
    if ds.isEmpty then fail (describe none ["digit"])
    if ← accept "_" then return ds ++ (← digitRun isDigit fuel) else pure ds

def digits (isDigit : Char → Bool) : Reader (List Char) := do
  digitRun isDigit ((← rest).length + 1)

/-- Whether the text begins with digits in this number and then this character. -/
def startsWithDigits (n : Nat) (c : Char) (s : List Char) : Bool :=
  ((s.take n).all Char.isDigit) && s[n]? == some c

/-- Reads two digits that write a number within bounds. -/
def twoDigits (low high : Nat) : Reader Nat := do
  let ds := ((← rest).take 2).takeWhile Char.isDigit
  let n := digitsValue 10 ds
  if ds.length = 2 ∧ low ≤ n ∧ n ≤ high then drop 2; pure n
  else fail (describe (some "date-time") [])

/-- Takes a character that must come next in a date or time. -/
def mark (c : String) : Reader Unit := do
  if !(← accept c) then fail (describe (some "date-time") [])

/-- Reads a time behind its hours. -/
def timeRest : Reader Unit := do
  mark ":"
  discard (twoDigits 0 59)
  mark ":"
  discard (twoDigits 0 60)
  match ← rest with
  | '.' :: c :: _ => if c.isDigit then drop 1; discard (takeWhile Char.isDigit)
  | _ => pure ()

/-- Reads the distance from universal time, if there is one. -/
def timeOffset : Reader Unit := do
  match ← peek with
  | some 'Z' | some 'z' => drop 1
  | some '+' | some '-' =>
    drop 1
    discard (twoDigits 0 23)
    mark ":"
    discard (twoDigits 0 59)
  | _ => pure ()

def daysIn (year month : Nat) : Nat :=
  if month = 2 then
    if year % 4 = 0 ∧ (year % 100 ≠ 0 ∨ year % 400 = 0) then 29 else 28
  else if month = 4 ∨ month = 6 ∨ month = 9 ∨ month = 11 then 30 else 31

def startsTime (s : List Char) : Bool :=
  startsWithDigits 2 ':' s && decide (digitsValue 10 (s.take 2) ≤ 23)

/-- Reads a date and the time that may follow it. -/
def date : Reader Scalar := do
  let year := digitsValue 10 ((← rest).take 4)
  drop 5
  let month ← twoDigits 1 12
  mark "-"
  discard (twoDigits 1 (daysIn year month))
  match ← rest with
  | c :: s =>
    if (c = 'T' || c = 't' || c = ' ') && startsTime s then
      drop 3
      timeRest
      timeOffset
  | [] => pure ()
  pure .datetime

/-- The integers that a document may hold. -/
def inBounds (n : Int) : Bool := -0x8000000000000000 ≤ n && n < 0x8000000000000000

def integer (start : Nat) (n : Int) : Reader Scalar := do
  if inBounds n then pure (.integer n)
  else
    failAt start (if n < 0 then "number too small to fit in target type"
      else "number too large to fit in target type")

/-- Reads an integer behind the two characters that tell its base. -/
def based (base : Nat) (isDigit : Char → Bool) : Reader Scalar := do
  let start ← offset
  drop 2
  integer start (digitsValue base (← digits isDigit))

/-- The floating-point number with these parts. Far out of reach of its exponents it is infinite or
zero. -/
def floatOf (negative : Bool) (whole fraction : List Char) (exponent : Int) : Float :=
  let significand := digitsValue 10 (whole ++ fraction)
  let e := exponent - fraction.length
  let magnitude := e + (toString significand).length
  let f :=
    if significand = 0 ∨ magnitude < -400 then 0
    else if 400 < magnitude then 1 / 0
    else Float.ofScientific significand (e < 0) e.natAbs
  if negative then -f else f

def finite (start : Nat) (f : Float) : Reader Scalar := do
  if f.isInf && 0 < f then failAt start (describe (some "floating-point number") [])
  else pure (.float f)

def exponent : Reader (Option Int) := do
  match ← peek with
  | some 'e' | some 'E' =>
    drop 1
    let negative := (← peek) == some '-'
    if negative || (← peek) == some '+' then drop 1
    let n : Int := digitsValue 10 (← digits Char.isDigit)
    pure (some (if negative then -n else n))
  | _ => pure none

/-- The infinite number and the number that is none. -/
def special (negative : Bool) : Reader Scalar := do
  let sign (f : Float) : Float := if negative then -f else f
  if ← accept "inf" then pure (.float (sign (1 / 0)))
  else if ← accept "nan" then pure (.float (sign (0 / 0)))
  else fail ""

/-- Reads a number in decimal digits, its sign included. -/
def decimal : Reader Scalar := do
  let start ← offset
  let negative := (← peek) == some '-'
  if negative || (← peek) == some '+' then drop 1
  match ← peek with
  | none => fail ""
  | some c =>
    if !c.isDigit then special negative
    else
      let whole ← if c = '0' then do drop 1; pure ['0'] else digits Char.isDigit
      if ← accept "." then
        let fraction ← digits Char.isDigit
        finite start (floatOf negative whole fraction ((← exponent).getD 0))
      else
        match ← exponent with
        | some e => finite start (floatOf negative whole [] e)
        | none =>
          let n : Int := digitsValue 10 whole
          integer start (if negative then -n else n)

/-- Reads a number, a date or a time. -/
def number : Reader Scalar := do
  let s ← rest
  if startsWithDigits 4 '-' s then date
  else if startsTime s then
    drop 2
    timeRest
    pure .datetime
  else
    match s with
    | '0' :: 'x' :: _ => based 16 isHex
    | '0' :: 'o' :: _ => based 8 fun c => '0' ≤ c && c ≤ '7'
    | '0' :: 'b' :: _ => based 2 fun c => c == '0' || c == '1'
    | _ => decimal

/-- What a value could have been when nothing else fits. -/
def notAString : String := describe (some "string") ["\x60\"\x60", "\x60'\x60"]

def word (w : String) (s : Scalar) : Reader Scalar := do
  if ← accept w then pure s else fail notAString

def scalar : Reader Scalar := do
  match ← peek with
  | none => fail ""
  | some c =>
    if c = '"' || c = '\'' then return .string (← string)
    else if c = '+' || c = '-' || c.isDigit then number
    else
      match c with
      | 't' => word "true" (.boolean true)
      | 'f' => word "false" (.boolean false)
      | 'i' => word "inf" (.float (1 / 0))
      | 'n' => word "nan" (.float (0 / 0))
      | '_' | '.' => fail (describe none ["leading digit"])
      | _ => fail notAString

def isBare (c : Char) : Bool := c.isAlphanum || c == '-' || c == '_'

/-- Reads one part of a name. -/
def simpleKey : Reader Key := do
  let (name, span) ← spanned do
    match ← peek with
    | some '"' => basic
    | some '\'' => literal
    | _ =>
      let s ← takeWhile isBare
      if s.isEmpty then fail (describe (some "key") []) else pure (String.ofList s)
  pure ⟨name, span⟩

/-- Reads a name, dots and blanks included. -/
def keyFrom : Nat → Reader (List Key)
  | 0 => pure []
  | fuel + 1 => do
    blanks
    let k ← simpleKey
    blanks
    if ← accept "." then return k :: (← keyFrom fuel) else pure [k]

/-- How deep values and names may be nested. -/
def depthLimit : Nat := 80

def key : Reader (List Key) := do
  let start ← offset
  let k ← keyFrom ((← rest).length + 1)
  if depthLimit ≤ k.length then
    failAt start (describe (some "key") [] ++ "\nrecursion limit exceeded\n")
  else pure k

/-- Takes the sign between a name and its value, with the blanks behind it. -/
def equals : Reader Unit := do
  if ← accept "=" then blanks else fail (describe none ["\x60.\x60", "\x60=\x60"])

def arrayItems (value : Reader Node) : Nat → Reader (List Node)
  | 0 => pure []
  | fuel + 1 => do
    allTrivia
    if ← accept "]" then pure []
    else
      let item ← value
      allTrivia
      if ← accept "," then return item :: (← arrayItems value fuel)
      else if ← accept "]" then pure [item]
      else fail (describe (some "array") ["\x60]\x60"])

def braceEntries (value : Reader Node) (table : Node) : Nat → Reader Node
  | 0 => pure table
  | fuel + 1 => do
    let start ← offset
    let path ← key
    equals
    let item ← value
    blanks
    match path.getLast? with
    | none => pure table
    | some last =>
      let change := table.changeAt .dottedBraces
        (Node.addEntry (decide (1 < path.length)) none last item) [] path.dropLast
      match change with
      | .error e => failAt start e.message
      | .ok table =>
        if ← accept "," then braceEntries value table fuel
        else if ← accept "\x7d" then pure table
        else fail (describe (some "inline table") ["\x60\x7d\x60"])

def braces (value : Reader Node) : Reader Node := do
  blanks
  let table := Node.table none .braces []
  if ← accept "\x7d" then pure table
  else braceEntries value table ((← rest).length + 1)

/-- Reads a value that is nested at most so deep. -/
def value : Nat → Reader Node
  | 0 => fail "recursion limit exceeded\n"
  | depth + 1 => do
    match ← peek with
    | some '[' =>
      let (items, span) ← spanned do
        drop 1
        arrayItems (value depth) ((← rest).length + 1)
      return .array span items
    | some '\x7b' =>
      let (table, span) ← spanned do
        drop 1
        braces (value depth)
      match table with
      | .table _ kind entries => return .table (some span) kind entries
      | other => pure other
    | _ =>
      let (s, span) ← spanned scalar
      return .scalar span s

end DocDrift.Toml.Reader
