import DocDrift.Text.Lines

/-!
# Paths

A path keeps its spelling, and its meaning is the list of its components: repeated and trailing
slashes and inner dots do not count, a leading dot does. Two paths name the same place relative to
a directory when their components agree.
-/

namespace DocDrift

/-- A slash-separated path as it was spelled. -/
structure Path where
  text : String
deriving DecidableEq, Repr, Inhabited

inductive Component where
  /-- The slash in front of an absolute path. -/
  | root
  /-- A dot in front of a relative path. -/
  | here
  /-- Two dots. -/
  | up
  /-- A name. -/
  | name (text : String)
deriving DecidableEq, Repr

namespace Component

def text : Component → String
  | root => "/"
  | here => "."
  | up => ".."
  | name s => s

/-- The sort order of components: the root, the dot, the two dots, then names by code point. -/
def lt : Component → Component → Bool
  | root, root => false
  | root, _ => true
  | here, root => false
  | here, here => false
  | here, _ => true
  | up, up => false
  | up, name _ => true
  | up, _ => false
  | name s, name t => decide (s < t)
  | name _, _ => false

end Component

namespace Path

/-- The meaning of a piece between slashes; empty pieces and inner dots have none. -/
def component? (piece : List Char) : Option Component :=
  if piece.isEmpty || piece == ['.'] then none
  else if piece == ['.', '.'] then some .up
  else some (.name (String.ofList piece))

def components (p : Path) : List Component :=
  let pieces := Text.splitAt '/' p.text.toList
  let first : List Component :=
    match p.text.toList, pieces with
    | '/' :: _, _ => [.root]
    | _, ['.'] :: _ => [.here]
    | _, _ => []
  first ++ pieces.filterMap component?

/-- Whether two spellings have the same components. -/
def same (p q : Path) : Bool := p.components == q.components

/-- The spelling with one slash between the components. -/
def ofComponents : List Component → Path
  | [] => ⟨""⟩
  | .root :: rest => ⟨"/" ++ "/".intercalate (rest.map Component.text)⟩
  | parts => ⟨"/".intercalate (parts.map Component.text)⟩

def isAbsolute (p : Path) : Bool := p.text.startsWith "/"

/-- The last component, if it is a name. -/
def fileName? (p : Path) : Option String :=
  match p.components.getLast? with
  | some (.name s) => some s
  | _ => none

/-- The parts of a file name before and after its last dot. A name without a dot, or with only a
leading one, has no second part. -/
def splitName (s : String) : String × Option String :=
  match Text.splitLast ['.'] s.toList with
  | some (before, rest) =>
    if before.isEmpty then (s, none) else (String.ofList before, some (String.ofList rest))
  | none => (s, none)

def stem? (p : Path) : Option String :=
  p.fileName?.map fun s => (splitName s).1

/-- What follows the last dot of the file name. -/
def extension? (p : Path) : Option String :=
  p.fileName?.bind fun s => (splitName s).2

/-- Whether a piece behind the first one has no meaning. -/
def isIdle (piece : List Char) : Bool := piece.isEmpty || piece == ['.']

/-- The pieces without the idle ones at their end; the first piece stays. -/
def dropIdle : List (List Char) → List (List Char)
  | [] => []
  | first :: rest => first :: (rest.reverse.dropWhile isIdle).reverse

/-- The spelling with these pieces. A single empty piece is what remains of the slash in front of
an absolute path. -/
def ofPieces (pieces : List (List Char)) : Path :=
  if pieces = [[]] then ⟨"/"⟩ else ⟨String.ofList (['/'].intercalate pieces)⟩

/-- The path without its last component, spelled like the path. -/
def parent? (p : Path) : Option Path :=
  match p.components.getLast? with
  | none => none
  | some .root => none
  | some _ =>
    match (dropIdle (Text.splitAt '/' p.text.toList)).dropLast with
    | [] => some ⟨""⟩
    | pieces => some (ofPieces (dropIdle pieces))

def child (p : Path) (name : String) : Path :=
  if p.text.isEmpty then ⟨name⟩
  else if p.text.endsWith "/" then ⟨p.text ++ name⟩
  else ⟨p.text ++ "/" ++ name⟩

/-- What remains of `p` behind the directory `base`, if `p` lies at or under it. -/
def relativeTo? (p base : Path) : Option Path :=
  if base.components.isPrefixOf p.components then
    some (ofComponents (p.components.drop base.components.length))
  else none

/-- The order of paths: component by component. -/
def lt (p q : Path) : Bool := go p.components q.components
where
  /-- The lexicographic order of component lists. -/
  go : List Component → List Component → Bool
    | [], [] => false
    | [], _ :: _ => true
    | _ :: _, [] => false
    | a :: as, b :: bs => a.lt b || (a == b && go as bs)

/-- The components joined by slashes, the form in which repositories name files. -/
def slashed (p : Path) : String :=
  "/".intercalate (p.components.map Component.text)

end Path

end DocDrift
