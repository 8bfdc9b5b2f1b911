/-!
# Configuration trees

What a TOML document says, before anything is known about the settings that it should hold. Tables
keep the order in which their entries were made.
-/

namespace DocDrift.Toml

/-- A part of a text, in octets from its beginning; `stop` is the first octet behind it. -/
structure Span where
  start : Nat
  stop : Nat
deriving DecidableEq, Repr

structure Key where
  name : String
  span : Span
deriving DecidableEq, Repr

inductive Scalar where
  | string (s : String)
  | integer (n : Int)
  | float (f : Float)
  | boolean (b : Bool)
  | datetime

inductive TableKind where
  /-- By a header of its own, or as the document. -/
  | declared
  /-- By a header of a table inside it. -/
  | implied
  /-- By a dotted name in front of an equals sign. -/
  | dotted
  /-- Between braces. -/
  | braces
  /-- By a dotted name between braces. -/
  | dottedBraces
deriving DecidableEq, Repr

namespace TableKind

/-- Whether nothing but the tables and values inside it has been declared. -/
def isImplicit : TableKind → Bool
  | implied | dotted | dottedBraces => true
  | declared | braces => false

def isDotted : TableKind → Bool
  | dotted | dottedBraces => true
  | declared | implied | braces => false

def isInline : TableKind → Bool
  | braces | dottedBraces => true
  | declared | implied | dotted => false

end TableKind

inductive Node where
  | scalar (span : Span) (s : Scalar)
  | array (span : Span) (items : List Node)
  | table (span : Option Span) (kind : TableKind) (entries : List (Key × Node))
  /-- Tables that share a name and a header each. -/
  | tables (items : List Node)

namespace Node

def span? : Node → Option Span
  | scalar span _ => some span
  | array span _ => some span
  | table span _ _ => span
  | tables _ => none

def typeName : Node → String
  | scalar _ (.string _) => "string"
  | scalar _ (.integer _) => "integer"
  | scalar _ (.float _) => "float"
  | scalar _ (.boolean _) => "boolean"
  | scalar _ .datetime => "datetime"
  | array _ _ => "array"
  | table _ kind _ => if kind.isInline then "inline table" else "table"
  | tables _ => "array of tables"

end Node

inductive Conflict where
  /-- The name is taken in the table with this path, if it is told. -/
  | duplicate (name : String) (table : Option (List String))
  /-- The path leads through a value that is no table. -/
  | notATable (path : List String) (found : String)
deriving DecidableEq, Repr

def Conflict.message : Conflict → String
  | duplicate name none => s!"duplicate key \x60{name}\x60"
  | duplicate name (some []) => s!"duplicate key \x60{name}\x60 in document root"
  | duplicate name (some path) =>
    let table := ".".intercalate path
    s!"duplicate key \x60{name}\x60 in table \x60{table}\x60"
  | notATable path found =>
    let name := ".".intercalate path
    s!"dotted key \x60{name}\x60 attempted to extend non-table type ({found})"

/-- The entries with the one of this name replaced, or with a new one behind the others. -/
def replaceEntry (key : Key) (node : Node) : List (Key × Node) → List (Key × Node)
  | [] => [(key, node)]
  | (k, old) :: rest =>
    if k.name = key.name then (k, node) :: rest else (k, old) :: replaceEntry key node rest

def valueOf? (name : String) (entries : List (Key × Node)) : Option Node :=
  (entries.find? fun e => e.1.name == name).map Prod.snd

/-- Changes the table to which a path leads. Tables that do not exist yet are made, of the kind
`made`; a table behind a dotted name must not have been declared. -/
def Node.changeAt (made : TableKind) (f : Node → Except Conflict Node) (done : List String) :
    List Key → Node → Except Conflict Node
  | [], node => f node
  | key :: path, .table span kind entries => do
    let refuse (found : String) : Except Conflict Node :=
      .error (.notATable (done ++ [key.name]) found)
    let go (n : Node) : Except Conflict Node := n.changeAt made f (done ++ [key.name]) path
    let next ←
      match valueOf? key.name entries with
      | none => go (.table none made [])
      | some (.tables items) =>
        match items.getLast? with
        | some last => (go last).map fun last => .tables (items.dropLast ++ [last])
        | none => refuse "array of tables"
      | some (.table s k es) =>
        if k.isInline ≠ made.isInline then refuse (Node.table s k es).typeName
        else if made.isDotted && !k.isImplicit then .error (.duplicate key.name none)
        else go (.table s k es)
      | some other => refuse other.typeName
    return .table span kind (replaceEntry key next entries)
  | _ :: _, other => .error (.notATable done other.typeName)

/-- Makes an entry in a table; `dotted` says whether a dotted name led to the table, and `shown`
is the path to tell when the name is taken. -/
def Node.addEntry (dotted : Bool) (shown : Option (List String)) (key : Key) (value : Node) :
    Node → Except Conflict Node
  | .table span kind entries =>
    if kind.isDotted ≠ dotted then .error (.duplicate key.name none)
    else if (valueOf? key.name entries).isSome then .error (.duplicate key.name shown)
    else .ok (.table span kind (entries ++ [(key, value)]))
  | other => .error (.notATable [key.name] other.typeName)

/-- Opens the table of a header inside its parent. -/
def Node.declare (path : List String) (key : Key) (span : Span) : Node → Except Conflict Node
  | .table s kind entries =>
    let others := entries.filter fun e => e.1.name != key.name
    match valueOf? key.name entries with
    | none => .ok (.table s kind (others ++ [(key, .table (some span) .declared [])]))
    | some (.table _ .implied inner) =>
      .ok (.table s kind (others ++ [(key, .table (some span) .declared inner)]))
    | some _ => .error (.duplicate key.name (some path))
  | other => .error (.notATable path other.typeName)

/-- Opens another table of a header with doubled brackets inside its parent. -/
def Node.declareItem (path : List String) (key : Key) (span : Span) : Node → Except Conflict Node
  | .table s kind entries =>
    let item := Node.table (some span) .declared []
    match valueOf? key.name entries with
    | none => .ok (.table s kind (entries ++ [(key, .tables [item])]))
    | some (.tables items) =>
      .ok (.table s kind (replaceEntry key (.tables (items ++ [item])) entries))
    | some _ => .error (.duplicate key.name (some path))
  | other => .error (.notATable path other.typeName)

/-- The table with its span reaching to `stop`. -/
def Node.reachTo (stop : Nat) : Node → Node
  | .table (some span) kind entries => .table (some ⟨span.start, stop⟩) kind entries
  | other => other

end DocDrift.Toml
