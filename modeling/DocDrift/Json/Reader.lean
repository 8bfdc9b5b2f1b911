import DocDrift.Decimal.Shortest
import DocDrift.Text.Utf8

/-!
# Reading JSON

A text is read from left to right, and whoever reads it knows which type of value comes next. A
failure says how many octets of the text lie behind its place. Some complaints about a value are
placed only once the value has been left.
-/

namespace DocDrift.Json

open Text (octets)

inductive Fault where
  /-- A complaint about the meaning of a value. -/
  | meaning (text : String)
  | endInList
  | endInObject
  | endInString
  | endInValue
  | expectedColon
  | expectedListEnd
  | expectedObjectEnd
  | expectedWord
  | expectedValue
  | invalidEscape
  | invalidNumber
  | numberOutOfRange
  | controlCharacter
  | keyNotString
  | loneSurrogate
  | trailingComma
  | trailingCharacters
  | unpairedSurrogate
deriving DecidableEq, Repr

def Fault.message : Fault → String
  | meaning text => text
  | endInList => "EOF while parsing a list"
  | endInObject => "EOF while parsing an object"
  | endInString => "EOF while parsing a string"
  | endInValue => "EOF while parsing a value"
  | expectedColon => "expected \x60:\x60"
  | expectedListEnd => "expected \x60,\x60 or \x60]\x60"
  | expectedObjectEnd => "expected \x60,\x60 or \x60\x7d\x60"
  | expectedWord => "expected ident"
  | expectedValue => "expected value"
  | invalidEscape => "invalid escape"
  | invalidNumber => "invalid number"
  | numberOutOfRange => "number out of range"
  | controlCharacter => "control character (\\u0000-\\u001F) found while parsing a string"
  | keyNotString => "key must be a string"
  | loneSurrogate => "lone leading surrogate in hex escape"
  | trailingComma => "trailing comma"
  | trailingCharacters => "trailing characters"
  | unpairedSurrogate => "unexpected end of hex escape"

inductive Place where
  /-- So many octets before the end of the text. -/
  | octetsLeft (n : Nat)
  /-- In the value that was being read when so much was left. -/
  | inValue (rest : List Char)
deriving DecidableEq, Repr

structure ReadError where
  fault : Fault
  place : Place
deriving DecidableEq, Repr

/-- Reads a value from the front of a text. -/
abbrev Reader (α : Type) := StateT (List Char) (Except ReadError) α

namespace Reader

/-- Fails at the present place, or so many octets behind it. -/
def failAt {α : Type} (fault : Fault) (rest : List Char) (behind : Nat) : Except ReadError α :=
  .error ⟨fault, .octetsLeft (octets rest - behind)⟩

/-- Fails in front of the next octet. -/
def failHere {α : Type} (fault : Fault) : Reader α := fun s => failAt fault s 0

/-- Fails behind the next octet. -/
def failNext {α : Type} (fault : Fault) : Reader α := fun s => failAt fault s 1

def complain {α : Type} (text : String) : Reader α := fun s => .error ⟨.meaning text, .inValue s⟩

/-- Places a complaint where a value has been left. -/
def ReadError.settle (e : ReadError) : ReadError :=
  match e.place with
  | .octetsLeft _ => e
  | .inValue rest => { e with place := .octetsLeft (octets rest) }

/-- Reads a value and places the complaints about it. -/
def settled {α : Type} (r : Reader α) : Reader α := fun s =>
  match r s with
  | .ok x => .ok x
  | .error e => .error (ReadError.settle e)

def isSpace (c : Char) : Bool := c == ' ' || c == '\n' || c == '\t' || c == '\r'

/-- Skips blanks and shows the next character. -/
def peek : Reader (Option Char) := fun s =>
  let s := s.dropWhile isSpace
  .ok (s.head?, s)

/-- Shows the next character, blank or not. -/
def look : Reader (Option Char) := fun s => .ok (s.head?, s)

def skip : Reader Unit := fun s => .ok ((), s.drop 1)

/-- Reads the rest of a word whose first letter has been taken. -/
def wordRest : List Char → Reader Unit
  | [] => fun s => .ok ((), s)
  | c :: word => fun s =>
    match s with
    | [] => failAt .endInValue s 0
    | d :: rest => if c = d then wordRest word rest else failAt .expectedWord s 1

def isHex (c : Char) : Bool :=
  c.isDigit || ('a' ≤ c && c ≤ 'f') || ('A' ≤ c && c ≤ 'F')

def hexValue (c : Char) : Nat :=
  if c.isDigit then c.toNat - '0'.toNat
  else if 'a' ≤ c then c.toNat - 'a'.toNat + 10
  else c.toNat - 'A'.toNat + 10

/-- What is wrong with the four hexadecimal digits in front of the text, if something is. -/
def hexFault? (s : List Char) : Option ReadError :=
  if octets s < 4 then some ⟨.endInString, .octetsLeft 0⟩
  else if 4 ≤ (s.takeWhile isHex).length then none
  else some ⟨.invalidEscape, .octetsLeft (octets s - 4)⟩

inductive StringState where
  | plain
  /-- Behind a backslash. -/
  | escaped
  /-- Inside an escape by number, so many digits before its end; `lead` is the first half of a pair
  of surrogates. -/
  | digits (lead : Option Nat) (owed value : Nat)
  /-- Behind the first half of a pair of surrogates. -/
  | paired (lead : Nat)
  /-- Behind that half and a backslash. -/
  | pairedEscape (lead : Nat)
deriving DecidableEq, Repr

/-- The characters that stand for others behind a backslash. -/
def simpleEscape? : Char → Option Char
  | '"' => some '"'
  | '\\' => some '\\'
  | '/' => some '/'
  | 'b' => some '\x08'
  | 'f' => some '\x0c'
  | 'n' => some '\n'
  | 'r' => some '\r'
  | 't' => some '\t'
  | _ => none

def isLead (n : Nat) : Bool := 0xD800 ≤ n && n ≤ 0xDBFF
def isTrail (n : Nat) : Bool := 0xDC00 ≤ n && n ≤ 0xDFFF

/-- What the last digit of an escape by number makes of it. -/
def closeDigits (lead : Option Nat) (n : Nat) : Option (Option Char × StringState) :=
  match lead with
  | none =>
    if isTrail n then none
    else if isLead n then some (none, .paired n)
    else some (some (Char.ofNat n), .plain)
  | some first =>
    if isTrail n then
      some (some (Char.ofNat (0x10000 + 1024 * (first - 0xD800) + (n - 0xDC00))), .plain)
    else none

/-- Reads one character of a string. `none` says that the string ends there. -/
def stringStep (state : StringState) (c : Char) (rest : List Char) :
    Except ReadError (Option (Option Char × StringState)) :=
  match state with
  | .plain =>
    if c = '"' then .ok none
    else if c = '\\' then .ok (some (none, .escaped))
    else if c.toNat < 32 then failAt .controlCharacter rest 0
    else .ok (some (some c, .plain))
  | .escaped =>
    match simpleEscape? c with
    | some d => .ok (some (some d, .plain))
    | none =>
      if c = 'u' then
        match hexFault? rest with
        | some e => .error e
        | none => .ok (some (none, .digits none 4 0))
      else failAt .invalidEscape (c :: rest) 1
  | .digits lead owed value =>
    let value := 16 * value + hexValue c
    if owed ≤ 1 then
      match closeDigits lead value with
      | some next => .ok (some next)
      | none => failAt .loneSurrogate rest 0
    else .ok (some (none, .digits lead (owed - 1) value))
  | .paired lead =>
    if c = '\\' then .ok (some (none, .pairedEscape lead))
    else failAt .unpairedSurrogate (c :: rest) 1
  | .pairedEscape lead =>
    if c = 'u' then
      match hexFault? rest with
      | some e => .error e
      | none => .ok (some (none, .digits (some lead) 4 0))
    else failAt .unpairedSurrogate (c :: rest) 1

/-- Reads a string behind its opening quote. -/
def stringFrom (state : StringState) : List Char → Except ReadError (List Char × List Char)
  | [] => failAt .endInString [] 0
  | c :: rest =>
    match stringStep state c rest with
    | .error e => .error e
    | .ok none => .ok ([], rest)
    | .ok (some (out, next)) =>
      match stringFrom next rest with
      | .error e => .error e
      | .ok (s, rest) => .ok (out.toList ++ s, rest)

def stringBody : Reader String := fun s =>
  match stringFrom .plain s with
  | .ok (out, rest) => .ok (String.ofList out, rest)
  | .error e => .error e

inductive SkipState where
  | plain
  | escaped
  | digits (owed : Nat)
deriving DecidableEq, Repr

/-- Skips a string behind its opening quote. Numbers of surrogates are not looked at. -/
def skipStringFrom (state : SkipState) : List Char → Except ReadError (List Char)
  | [] => failAt .endInString [] 0
  | c :: rest =>
    match state with
    | .plain =>
      if c = '"' then .ok rest
      else if c = '\\' then skipStringFrom .escaped rest
      else if c.toNat < 32 then failAt .controlCharacter (c :: rest) 0
      else skipStringFrom .plain rest
    | .escaped =>
      if (simpleEscape? c).isSome then skipStringFrom .plain rest
      else if c = 'u' then
        match hexFault? rest with
        | some e => .error e
        | none => skipStringFrom (.digits 4) rest
      else failAt .invalidEscape (c :: rest) 1
    | .digits owed =>
      if owed ≤ 1 then skipStringFrom .plain rest else skipStringFrom (.digits (owed - 1)) rest

def skipString : Reader Unit := fun s =>
  match skipStringFrom .plain s with
  | .ok rest => .ok ((), rest)
  | .error e => .error e

def digits : Reader (List Char) := fun s =>
  .ok (s.takeWhile Char.isDigit, s.dropWhile Char.isDigit)

def natOf (ds : List Char) : Nat := ds.foldl (fun n c => 10 * n + (c.toNat - '0'.toNat)) 0

def largest64 : Nat := 0xFFFFFFFFFFFFFFFF

/-- A number as it is read: whole numbers are exact, all others are floating-point numbers. -/
inductive Number where
  | natural (n : Nat)
  /-- The number `-n`. -/
  | negative (n : Nat)
  | float (f : Float)

/-- The floating-point number near `significand * 10 ^ exponent`, which is first scaled in steps
that the powers of ten below `10 ^ 309` can express. -/
def scaled? (f : Float) (exponent : Int) : Nat → Option Float
  | 0 => some f
  | fuel + 1 =>
    if 0 ≤ exponent ∧ exponent ≤ 308 then
      let g := f * Float.ofScientific 1 false exponent.toNat
      if g.isInf then none else some g
    else if exponent < 0 ∧ -308 ≤ exponent then
      some (f / Float.ofScientific 1 false (-exponent).toNat)
    else if f == 0 then some f
    else if 0 ≤ exponent then none
    else scaled? (f / Float.ofScientific 1 false 308) (exponent + 308) fuel

def assemble (positive : Bool) (significand : Nat) (exponent : Int) : Reader Number :=
  match scaled? (UInt64.ofNat significand).toFloat exponent 8 with
  | some f => pure (.float (if positive then f else -f))
  | none => failHere .numberOutOfRange

def largestExponent : Nat := 0x7FFFFFFF

/-- Reads the exponent of a number, its letter included. -/
def exponentPart (positive : Bool) (significand : Nat) (start : Int) : Reader Number := do
  skip
  let sign ← look
  if sign == some '+' || sign == some '-' then skip
  match ← look with
  | none => failHere .endInValue
  | some c =>
    if !c.isDigit then failNext .invalidNumber
    else
      let ds ← digits
      let n := natOf ds
      if largestExponent < n then
        if significand ≠ 0 && sign != some '-' then failHere .numberOutOfRange
        else pure (.float (if positive then 0 else -0))
      else assemble positive significand (if sign == some '-' then start - n else start + n)

/-- As many digits as fit into 64 bits behind `n`, and how many do not. -/
def fitting (n : Nat) : List Char → Nat × Nat × Nat
  | [] => (n, 0, 0)
  | c :: rest =>
    let m := 10 * n + (c.toNat - '0'.toNat)
    if m ≤ largest64 then
      let r := fitting m rest
      (r.1, r.2.1 + 1, r.2.2)
    else (n, 0, rest.length + 1)

/-- Reads what follows the point of a number, the point included. -/
def decimalPart (positive : Bool) (significand : Nat) (start : Int) : Reader Number := do
  skip
  let ds ← digits
  if ds.isEmpty then
    match ← look with
    | some _ => failNext .invalidNumber
    | none => failHere .endInValue
  else
    let r := fitting significand ds
    let exponent := start - (r.2.1 : Int)
    match ← look with
    | some 'e' | some 'E' => exponentPart positive r.1 exponent
    | _ => assemble positive r.1 exponent

/-- Reads a number behind its sign. -/
def number (positive : Bool) : Reader Number := do
  match ← look with
  | none => failHere .endInValue
  | some c =>
    if !c.isDigit then failNext .invalidNumber
    else if c = '0' then
      skip
      if (← look).any Char.isDigit then failNext .invalidNumber else tail 0 0
    else
      let r := fitting 0 (← digits)
      tail r.1 r.2.2
where
  /-- Reads on behind the whole part, `dropped` of whose digits did not fit. -/
  tail (significand dropped : Nat) : Reader Number := do
    match ← look with
    | some '.' => decimalPart positive significand dropped
    | some 'e' | some 'E' => exponentPart positive significand dropped
    | _ =>
      if dropped ≠ 0 then assemble positive significand dropped
      else if positive then pure (.natural significand)
      else if 1 ≤ significand && significand ≤ 0x8000000000000000 then pure (.negative significand)
      else pure (.float (-(UInt64.ofNat significand).toFloat))

def skipNumber : Reader Unit := do
  match ← look with
  | none => failHere .invalidNumber
  | some c =>
    if !c.isDigit then failNext .invalidNumber
    else if c = '0' then
      skip
      if (← look).any Char.isDigit then failNext .invalidNumber
    else discard digits
    match ← look with
    | some '.' =>
      skip
      if (← digits).isEmpty then
        if (← look).isSome then failNext .invalidNumber else failHere .invalidNumber
      match ← look with
      | some 'e' | some 'E' => exponent
      | _ => pure ()
    | some 'e' | some 'E' => exponent
    | _ => pure ()
where
  /-- Skips an exponent, its letter included. -/
  exponent : Reader Unit := do
    skip
    let sign ← look
    if sign == some '+' || sign == some '-' then skip
    match ← look with
    | none => failHere .invalidNumber
    | some c => if c.isDigit then discard digits else failNext .invalidNumber

/-- The brackets that are open while a value is skipped. -/
inductive Bracket where
  | list
  | object
deriving DecidableEq, Repr

def Bracket.close : Bracket → Char
  | list => ']'
  | object => '\x7d'

def Bracket.endFault : Bracket → Fault
  | list => .endInList
  | object => .endInObject

def Bracket.commaFault : Bracket → Fault
  | list => .expectedListEnd
  | object => .expectedObjectEnd

/-- What comes next while a value is skipped. -/
inductive Skipping where
  /-- A value. -/
  | value
  /-- What may stand behind a value, or, if `fresh`, behind an opening bracket. -/
  | after (fresh : Bool)
  /-- A name and its colon. -/
  | name
deriving DecidableEq, Repr

/-- Takes one step in skipping a value; `none` says that it is over. -/
def skipStep (stack : List Bracket) : Skipping → Reader (Option (List Bracket × Skipping))
  | .value => do
    let next := some (stack, Skipping.after false)
    match ← peek with
    | none => failHere .endInValue
    | some 'n' => skip; wordRest "ull".toList; pure next
    | some 't' => skip; wordRest "rue".toList; pure next
    | some 'f' => skip; wordRest "alse".toList; pure next
    | some '-' => skip; skipNumber; pure next
    | some '"' => skip; skipString; pure next
    | some '[' => skip; pure (some (.list :: stack, .after true))
    | some '\x7b' => skip; pure (some (.object :: stack, .after true))
    | some c => if c.isDigit then skipNumber; pure next else failNext .expectedValue
  | .after fresh => do
    match stack with
    | [] => pure none
    | b :: below =>
      let go := if b = .object then Skipping.name else .value
      match ← peek with
      | none => failHere b.endFault
      | some c =>
        if c = ',' && !fresh then skip; pure (some (stack, go))
        else if c = b.close then skip; pure (some (below, .after false))
        else if fresh then pure (some (stack, go))
        else failNext b.commaFault
  | .name => do
    match ← peek with
    | none => failHere .endInObject
    | some '"' => skip; skipString
    | some _ => failNext .keyNotString
    match ← peek with
    | none => failHere .endInObject
    | some ':' => skip; pure (some (stack, .value))
    | some _ => failNext .expectedColon

def skipLoop (stack : List Bracket) (state : Skipping) : Nat → Reader Unit
  | 0 => failHere .endInValue
  | fuel + 1 => do
    match ← skipStep stack state with
    | none => pure ()
    | some (stack, state) => skipLoop stack state fuel

/-- Skips a value of any type. Each step takes a character or is followed by one that does. -/
def skipValue : Reader Unit := fun s => skipLoop [] .value (3 * s.length + 3) s

end Reader

/-- The place of a fault in a text, counted from 1 in lines and from 0 in octets of the line. -/
structure Position where
  line : Nat
  column : Nat
deriving DecidableEq, Repr

/-- The position behind so many octets of a text. -/
def positionAt (index : Nat) : List Char → Position → Position
  | [], p => p
  | c :: rest, p =>
    if index = 0 then p
    else if c = '\n' then positionAt (index - 1) rest ⟨p.line + 1, 0⟩
    else
      let size := min c.utf8Size index
      positionAt (index - size) rest ⟨p.line, p.column + size⟩

def ReadError.message (text : String) (e : ReadError) : String :=
  let s := text.toList
  let left := match e.place with
    | .octetsLeft n => n
    | .inValue rest => octets rest
  let p := positionAt (octets s - left) s ⟨1, 0⟩
  s!"{e.fault.message} at line {p.line} column {p.column}"

end DocDrift.Json
