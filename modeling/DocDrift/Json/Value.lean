/-!
# JSON values

The values that are written, and their text: on one line, or with each item on a line of its own.
-/

namespace DocDrift

/-- A value to be written. Members keep their order. -/
inductive Json where
  | null
  | bool (b : Bool)
  | number (n : Nat)
  | string (s : String)
  | array (items : List Json)
  | object (members : List (String × Json))

namespace Json

inductive Layout where
  /-- Everything on one line without blanks. -/
  | compact
  /-- Every item on a line of its own, two blanks further in than its container. -/
  | indented
deriving DecidableEq, Repr

namespace Layout

/-- What stands in front of an item at the given depth. -/
def lineBreak : Layout → Nat → List Char
  | compact, _ => []
  | indented, depth => '\n' :: List.replicate (2 * depth) ' '

def colon : Layout → List Char
  | compact => [':']
  | indented => [':', ' ']

end Layout

def hexDigit (n : Nat) : Char :=
  if n < 10 then Char.ofNat ('0'.toNat + n) else Char.ofNat ('a'.toNat + (n - 10))

/-- The text of one character inside a string. -/
def escapeChar (c : Char) : List Char :=
  if c = '"' then ['\\', '"']
  else if c = '\\' then ['\\', '\\']
  else if c = '\x08' then ['\\', 'b']
  else if c = '\x0c' then ['\\', 'f']
  else if c = '\n' then ['\\', 'n']
  else if c = '\r' then ['\\', 'r']
  else if c = '\t' then ['\\', 't']
  else if c.toNat < 32 then
    ['\\', 'u', '0', '0', hexDigit (c.toNat / 16), hexDigit (c.toNat % 16)]
  else [c]

def quote (s : String) : List Char :=
  '"' :: (s.toList.flatMap escapeChar ++ ['"'])

mutual

/-- The text of a value at the given depth. -/
def write (l : Layout) (depth : Nat) : Json → List Char
  | null => "null".toList
  | bool true => "true".toList
  | bool false => "false".toList
  | number n => (toString n).toList
  | string s => quote s
  | array [] => ['[', ']']
  | array (item :: rest) =>
    '[' :: (l.lineBreak (depth + 1) ++ write l (depth + 1) item ++
      (writeItems l (depth + 1) rest ++ (l.lineBreak depth ++ [']'])))
  | object [] => ['\x7b', '\x7d']
  | object ((name, value) :: rest) =>
    '\x7b' :: (l.lineBreak (depth + 1) ++ quote name ++ (l.colon ++ write l (depth + 1) value) ++
      (writeMembers l (depth + 1) rest ++ (l.lineBreak depth ++ ['\x7d'])))

def writeItems (l : Layout) (depth : Nat) : List Json → List Char
  | [] => []
  | item :: rest => ',' :: (l.lineBreak depth ++ write l depth item ++ writeItems l depth rest)

def writeMembers (l : Layout) (depth : Nat) : List (String × Json) → List Char
  | [] => []
  | (name, value) :: rest =>
    ',' :: (l.lineBreak depth ++ quote name ++ (l.colon ++ write l depth value) ++
      writeMembers l depth rest)

end

def render (l : Layout) (j : Json) : String := String.ofList (write l 0 j)

end Json

end DocDrift
