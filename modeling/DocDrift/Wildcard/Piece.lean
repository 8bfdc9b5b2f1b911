/-!
# Wildcard patterns

A pattern is a list of pieces, and it is held against the octets of a slash-separated path. A piece
may stand for several starts of a path; what it leaves over is listed once for each of them, so a
pattern fits a path when it can leave over nothing.
-/

namespace DocDrift.Wildcard

abbrev Octets := List UInt8

def slash : UInt8 := 47

/-- The octets from the least to the greatest of two. -/
structure OctetRange where
  least : UInt8
  greatest : UInt8
deriving DecidableEq, Repr

def OctetRange.contains (r : OctetRange) (b : UInt8) : Bool := r.least ≤ b && b ≤ r.greatest

inductive Piece where
  /-- A character that stands for itself. -/
  | character (c : Char)
  /-- One octet other than a slash. -/
  | one
  /-- Any octets other than slashes. -/
  | run
  /-- One octet in the ranges, or one outside of them. -/
  | among (negated : Bool) (ranges : List OctetRange)
  /-- Nothing, a slash, or whatever ends in a slash: the directories in front of a name. -/
  | ahead
  /-- A slash and whatever follows it. -/
  | inside
  /-- A slash, or two slashes with anything between them. -/
  | between
  /-- One of several patterns; without any, nothing. -/
  | either (branches : List (List Piece))
deriving Repr

/-- What follows the slashes of a path, one for each of them. -/
def afterSlashes : Octets → List Octets
  | [] => []
  | b :: rest => if b = slash then rest :: afterSlashes rest else afterSlashes rest

/-- What is left of a path behind a run without slashes. -/
def afterRun : Octets → List Octets
  | [] => [[]]
  | b :: rest => if b = slash then [b :: rest] else (b :: rest) :: afterRun rest

/-- The ends of a path, itself included. -/
def ends : Octets → List Octets
  | [] => [[]]
  | b :: rest => (b :: rest) :: ends rest

/-- What is left behind the first octet, if it is one of those asked for. -/
def afterOctet (p : UInt8 → Bool) : Octets → List Octets
  | [] => []
  | b :: rest => if p b then [rest] else []

/-- What is left behind a given start. -/
def afterStart (start : Octets) (path : Octets) : List Octets :=
  if start.isPrefixOf path then [path.drop start.length] else []

mutual

/-- What a piece can leave over of a path. -/
def Piece.rests : Piece → Octets → List Octets
  | .character c, path => afterStart (String.utf8EncodeChar c) path
  | .one, path => afterOctet (· ≠ slash) path
  | .run, path => afterRun path
  | .among negated ranges, path => afterOctet (fun b => ranges.any (·.contains b) != negated) path
  | .ahead, path => path :: afterSlashes path
  | .inside, path => (afterOctet (· = slash) path).flatMap ends
  | .between, path => (afterOctet (· = slash) path).flatMap fun rest => rest :: afterSlashes rest
  | .either branches, path => if branches.isEmpty then [path] else branchRests branches path

/-- What a list of pieces can leave over of some paths, without repetitions. -/
def rests : List Piece → List Octets → List Octets
  | [], paths => paths
  | piece :: pattern, paths => rests pattern (paths.flatMap fun path => piece.rests path).eraseDups

/-- What one of several patterns can leave over of a path. -/
def branchRests : List (List Piece) → Octets → List Octets
  | [], _ => []
  | branch :: branches, path => rests branch [path] ++ branchRests branches path

end

/-- Whether a pattern fits a whole path. Directories alone, with no name behind them, fit every
path. -/
def fits (pattern : List Piece) (path : Octets) : Bool :=
  match pattern with
  | [.ahead] => true
  | _ => (rests pattern [path]).any List.isEmpty

end DocDrift.Wildcard
