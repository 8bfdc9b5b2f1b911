import DocDrift.Text.Lines
import DocDrift.Toml.Value

/-!
# Documents

A document is read line by line. A header says which table the following entries go to.
-/

namespace DocDrift.Toml

structure Draft where
  root : Node
  /-- The names that lead to the table of the last header. -/
  current : List Key

namespace Draft

def empty : Draft := ⟨.table none .declared [], []⟩

def names (path : List Key) : List String := path.map Key.name

def openTable (d : Draft) (path : List Key) (span : Span) (item : Bool) :
    Except Conflict Draft := do
  match path.getLast? with
  | none => return d
  | some last =>
    let parent := path.dropLast
    let open_ := if item then Node.declareItem else Node.declare
    let root ← d.root.changeAt .implied (open_ (names parent) last span) [] parent
    return ⟨root, path⟩

/-- Makes an entry in the table of the last header. -/
def add (d : Draft) (path : List Key) (value : Node) (stop : Nat) : Except Conflict Draft := do
  match path.getLast? with
  | none => return d
  | some last =>
    let parent := path.dropLast
    let enter (table : Node) : Except Conflict Node :=
      (table.reachTo stop).changeAt .dotted
        (Node.addEntry (!parent.isEmpty) (some (names d.current)) last value) [] parent
    return { d with root := ← d.root.changeAt .implied enter [] d.current }

end Draft

namespace Reader

/-- The outcome of a change to the draft; a conflict is placed at `start`. -/
def settle (start : Nat) (r : Except Conflict Draft) : Reader Draft :=
  match r with
  | .ok d => pure d
  | .error e => failAt start e.message

def header (d : Draft) : Reader Draft := do
  let start ← offset
  let item ← accept "[["
  if !item then drop 1
  let close := if item then "]]" else "]"
  let path ← key
  if !(← accept close) then
    fail (describe (some "table header") ["\x60.\x60", "\x60" ++ close ++ "\x60"])
  let stop ← offset
  lineRest
  settle start (d.openTable path ⟨start, stop⟩ item)

def entry (d : Draft) : Reader Draft := do
  let start ← offset
  let path ← key
  equals
  let item ← value depthLimit
  let stop ← offset
  lineRest
  settle start (d.add path item stop)

def statements (d : Draft) : Nat → Reader Draft
  | 0 => pure d
  | fuel + 1 => do
    blanks
    match ← peek with
    | none => pure d
    | some '#' =>
      comment
      lineEnd ""
      statements d fuel
    | some '[' => statements (← header d) fuel
    | some c =>
      if c = '\n' || c = '\x0d' then
        if ← newline then statements d fuel else fail ""
      else statements (← entry d) fuel

def document : Reader Node := do
  discard (accept "\uFEFF")
  return (← statements .empty ((← rest).length + 1)).root

end Reader

/-- The table that a document writes. -/
def parse (text : String) : Except Fault Node :=
  (Reader.document.run ⟨0, text.toList⟩).map Prod.fst

/-- The line of a text and the place in the line at which an octet lies, both from zero. -/
structure LinePlace where
  line : Nat
  column : Nat
deriving DecidableEq, Repr

/-- Where an octet lies, when the text is reached at `p`. -/
def linePlaceFrom (octet : Nat) : List Char → LinePlace → LinePlace
  | [], p => p
  | c :: rest, p =>
    if octet < c.utf8Size then p
    else
      linePlaceFrom (octet - c.utf8Size) rest
        (if c = '\n' then ⟨p.line + 1, 0⟩ else ⟨p.line, p.column + 1⟩)

/-- Where an octet of a text lies. The octet behind the text lies behind its last character, in the
same line even if that character ends it. -/
def linePlace (octet : Nat) (text : List Char) : LinePlace :=
  let size := Text.octets text
  if size = 0 then ⟨0, octet⟩
  else
    let last := min octet (size - 1)
    let p := linePlaceFrom last text ⟨0, 0⟩
    ⟨p.line, p.column + (octet - last)⟩

/-- The size of the character at an octet; nothing behind the text. -/
def sizeAt (octet : Nat) : List Char → Nat
  | [] => 0
  | c :: rest => if octet < c.utf8Size then c.utf8Size else sizeAt (octet - c.utf8Size) rest

def Place.span (text : List Char) : Place → Span
  | .character offset => ⟨offset, offset + sizeAt offset text⟩
  | .part span => span

/-- The report on a fault: the place, the line with the part underlined, and the message. -/
def Fault.report (text : String) (f : Fault) : String :=
  match f.place with
  | none => f.message ++ "\n"
  | some place =>
    let s := text.toList
    let span := place.span s
    let p := linePlace span.start s
    let line := (Text.splitAt '\n' s)[p.line]?.getD []
    let number := toString (p.line + 1)
    let margin := String.ofList (List.replicate (number.length + 1) ' ')
    let width := max 1 (min (span.stop - span.start) (Text.octets line - p.column))
    s!"TOML parse error at line {number}, column {p.column + 1}\n" ++ margin ++ "|\n" ++
      number ++ " | " ++ String.ofList line ++ "\n" ++
      margin ++ "|" ++ String.ofList (List.replicate (p.column + 1) ' ') ++
      String.ofList (List.replicate width '^') ++ "\n" ++ f.message ++ "\n"

end DocDrift.Toml
