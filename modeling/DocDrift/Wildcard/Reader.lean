import DocDrift.Wildcard.Piece

/-!
# Reading wildcard patterns

Question marks, stars, bracketed characters and braced alternatives are the signs of a pattern, and a
backslash takes the meaning from the sign behind it. Two stars stand for directories where slashes
or the ends of the pattern or of an alternative set them apart; elsewhere they are one run.
-/

namespace DocDrift.Wildcard

structure Members where
  /-- The ranges, the last one first. -/
  ranges : List (Char × Char) := []
  /-- Whether a hyphen behind the last range waits for its other end. -/
  isOpen : Bool := false

namespace Members

def push (m : Members) (c : Char) : Members := { ranges := (c, c) :: m.ranges }

/-- Moves the end of the last range to `c`, which must not be in front of its start. -/
def stretch (m : Members) (c : Char) : Option Members :=
  match m.ranges with
  | [] => none
  | (a, _) :: ranges => if c < a then none else some { ranges := (a, c) :: ranges }

/-- Reads one character. A hyphen at the front stands for itself. -/
def add (m : Members) (c : Char) : Option Members :=
  if m.isOpen then m.stretch c
  else if c = '-' && !m.ranges.isEmpty then some { m with isOpen := true }
  else some (m.push c)

/-- The ranges in order. A hyphen at the end stands for itself. -/
def finish (m : Members) : List (Char × Char) :=
  (if m.isOpen then m.push '-' else m).ranges.reverse

end Members

/-- The octets that a range of characters admits: the last octet of its first character up to the
first octet of its last one, and the other octets of both. -/
def octetRanges (r : Char × Char) : List OctetRange :=
  let single (b : UInt8) : OctetRange := ⟨b, b⟩
  let first := String.utf8EncodeChar r.1
  let last := String.utf8EncodeChar r.2
  if r.1 = r.2 then first.map single
  else
    let middle := (first.getLast?.toList.zip last.head?.toList).map fun p => ⟨p.1, p.2⟩
    first.dropLast.map single ++ middle ++ last.tail.map single

inductive Bracketed where
  /-- The bracket is closed. -/
  | closed (piece : Piece) (rest : List Char)
  /-- There is no bracket to close it. -/
  | unclosed
  /-- A range ends in front of its start. -/
  | faulty

/-- Reads what follows an opening bracket. A closing bracket at the front stands for itself. -/
def readBracketed (s : List Char) : Bracketed :=
  let negated := s.head? == some '!' || s.head? == some '^'
  let s := if negated then s.drop 1 else s
  let body := s.take 1 ++ (s.drop 1).takeWhile (· ≠ ']')
  match body.foldlM Members.add {} with
  | none => .faulty
  | some m =>
    match s.drop body.length with
    | [] => .unclosed
    | _ :: rest => .closed (.among negated (m.finish.flatMap octetRanges)) rest

structure Draft where
  /-- The pieces of the branch that is being read, the last one first. -/
  pieces : List Piece := []
  /-- The open braces, the innermost one first: the branches that are complete, the last one first,
  and the pieces in front of the brace. -/
  groups : List (List (List Piece) × List Piece) := []
  /-- Whether an opening bracket still is a sign. -/
  brackets : Bool := true

/-- Whether nothing is left of a piece. -/
def Piece.isBlank : Piece → Bool
  | .either branches => branches.isEmpty
  | _ => false

namespace Draft

def push (d : Draft) (piece : Piece) : Draft := { d with pieces := piece :: d.pieces }

def openGroup (d : Draft) : Draft := { d with pieces := [], groups := ([], d.pieces) :: d.groups }

/-- A comma separates branches inside of braces and stands for itself outside. -/
def comma (d : Draft) : Draft :=
  match d.groups with
  | [] => d.push (.character ',')
  | (branches, before) :: groups =>
    { d with pieces := [], groups := (d.pieces.reverse :: branches, before) :: groups }

/-- Closes a brace. Blank branches do not count. -/
def closeGroup (d : Draft) : Option Draft :=
  match d.groups with
  | [] => none
  | (branches, before) :: groups =>
    let branches := ((d.pieces.reverse :: branches).filter fun b => !b.all Piece.isBlank).reverse
    some { d with pieces := .either branches :: before, groups }

/-- Replaces the last piece, which is the slash in front of two stars, unless it stands for
directories already. -/
def joinDirectories (d : Draft) (piece : Piece) : Draft :=
  match d.pieces with
  | .ahead :: _ => d
  | .inside :: _ => d
  | pieces => { d with pieces := piece :: pieces.drop 1 }

/-- Whether two stars end here because their branch does. -/
def endsBranch (d : Draft) (next : Option Char) : Bool :=
  match next with
  | none => true
  | some c => !d.groups.isEmpty && (c == ',' || c == '}')

/-- Reads two stars between the characters `before` and `next`, and tells whether they take the
slash behind them as well. -/
def stars (d : Draft) (before next : Option Char) : Draft × Bool :=
  if d.pieces.isEmpty then
    if next.isNone || next == some '/' then (d.push .ahead, true) else (d.push .run, false)
  else if before == some '/' ||
      (!d.groups.isEmpty && (before == some ',' || before == some '\x7b')) then
    if next == some '/' then (d.joinDirectories .between, true)
    else if d.endsBranch next then (d.joinDirectories .inside, false)
    else (d.push .run, false)
  else (d.push .run, false)

end Draft

/-- Reads the rest of a pattern behind the character `before`, with fuel for each character. -/
def readPieces : Nat → Draft → Option Char → List Char → Option (List Piece)
  | 0, _, _, _ => none
  | _ + 1, d, _, [] => if d.groups.isEmpty then some d.pieces.reverse else none
  | fuel + 1, d, before, c :: rest =>
    match c with
    | '?' => readPieces fuel (d.push .one) (some c) rest
    | '*' =>
      if rest.head? == some '*' then
        let rest := rest.drop 1
        let (d, takesSlash) := d.stars before rest.head?
        if takesSlash then readPieces fuel d (some '/') (rest.drop 1)
        else readPieces fuel d (some c) rest
      else readPieces fuel (d.push .run) (some c) rest
    | '[' =>
      if d.brackets then
        match readBracketed rest with
        | .closed piece rest => readPieces fuel (d.push piece) (some ']') rest
        | .unclosed =>
          readPieces fuel { d.push (.character c) with brackets := false } (some c) rest
        | .faulty => none
      else readPieces fuel (d.push (.character c)) (some c) rest
    | '\x7b' => readPieces fuel d.openGroup (some c) rest
    | '\x7d' => do readPieces fuel (← d.closeGroup) (some c) rest
    | ',' => readPieces fuel d.comma (some c) rest
    | '\\' =>
      match rest with
      | [] => none
      | e :: rest => readPieces fuel (d.push (.character e)) (some e) rest
    | _ => readPieces fuel (d.push (.character c)) (some c) rest

def read (s : List Char) : Option (List Piece) := readPieces (s.length + 1) {} none s

end DocDrift.Wildcard
