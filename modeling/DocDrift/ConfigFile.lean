import DocDrift.Complaint
import DocDrift.Config
import DocDrift.Toml.Document

/-!
# The configuration file

What the tables of the file mean. Unknown settings are refused, and missing ones keep their
standard values.
-/

namespace DocDrift

open Complaint Toml

namespace Toml

/-- A value together with the part of the text to blame for it. -/
structure Blamed where
  node : Node
  span : Option Span

namespace Blamed

/-- The value of an entry. A value without a place of its own is blamed on its name. -/
def ofEntry (key : Key) (node : Node) : Blamed := ⟨node, node.span?.or (some key.span)⟩

def refuse {α : Type} (b : Blamed) (message : String) : Except Fault α :=
  .error ⟨message, b.span.map .part⟩

/-- The description of the value in a complaint. -/
def found (b : Blamed) : String :=
  match b.node with
  | .scalar _ (.string s) => Complaint.text s
  | .scalar _ (.integer n) => Complaint.integer n
  | .scalar _ (.float f) => Complaint.float .positional f
  | .scalar _ (.boolean x) => Complaint.boolean x
  | .scalar _ .datetime => "map"
  | .array _ _ => "sequence"
  | .table _ _ _ => "map"
  | .tables _ => "sequence"

def wrong {α : Type} (b : Blamed) (expected : String) : Except Fault α :=
  b.refuse (wrongType b.found expected)

def bool (b : Blamed) : Except Fault Bool :=
  match b.node with
  | .scalar _ (.boolean x) => .ok x
  | _ => b.wrong "a boolean"

def count (b : Blamed) : Except Fault Nat :=
  match b.node with
  | .scalar _ (.integer n) =>
    if 0 ≤ n then .ok n.toNat else b.refuse (wrongValue b.found "usize")
  | _ => b.wrong "usize"

def path (b : Blamed) : Except Fault Path :=
  match b.node with
  | .scalar _ (.string s) => .ok ⟨s⟩
  | _ => b.wrong "path string"

def unknownKey {α : Type} (key : Key) (known : List String) : Except Fault α :=
  .error ⟨unknownField key.name known, some (.part key.span)⟩

end Blamed

end Toml

namespace VcsKind

/-- The names that a file may use. -/
def fileNames : List (String × VcsKind) :=
  [("git", git), ("hg", mercurial), ("mercurial", mercurial)]

def ofFileName (name : String) (span : Option Span) : Except Fault VcsKind :=
  match fileNames.lookup name with
  | some k => .ok k
  | none => .error ⟨unknownVariant name (fileNames.map Prod.fst), span.map .part⟩

/-- The kind of system that the only entry of a table names. Its value must be empty. -/
def ofEntry (key : Key) (node : Node) : Except Fault VcsKind := do
  let k ← ofFileName key.name (some key.span)
  let b := Blamed.ofEntry key node
  match node with
  | .array _ items => if items.isEmpty then return k else b.refuse "expected empty table"
  | .tables items => if items.isEmpty then return k else b.refuse "expected empty array"
  | .table _ _ entries => if entries.isEmpty then return k else b.refuse "expected empty table"
  | other => b.refuse s!"expected table, found {other.typeName}"

def ofNode (b : Blamed) : Except Fault VcsKind :=
  match b.node with
  | .scalar span (.string s) => ofFileName s (some span)
  | .table _ kind entries =>
    match entries with
    | [] =>
      b.refuse (if kind.isInline then "wanted exactly 1 element, found 0 elements"
        else "expected table with exactly 1 entry, found empty table")
    | (key, node) :: rest =>
      if kind.isInline && !rest.isEmpty then
        b.refuse "wanted exactly 1 element, more than 1 element"
      else ofEntry key node
  | _ => b.refuse "wanted string or table"

end VcsKind

namespace ExecutableConfig

def fields : List String := ["executable"]

def title : String := "struct ExecutableConfig"

def ofEntry (e : Key × Node) : Except Fault Path :=
  if e.1.name = "executable" then (Blamed.ofEntry e.1 e.2).path
  else Blamed.unknownKey e.1 fields

/-- The settings that a value makes: a table, or an array with the values in order. -/
def ofNode (b : Blamed) : Except Fault ExecutableConfig :=
  match b.node with
  | .table _ _ entries => do
    match (← entries.mapM ofEntry).head? with
    | some p => return ⟨p⟩
    | none => b.refuse (missingField "executable")
  | .array _ items =>
    match items with
    | [] => b.refuse (tooShort title 1 0)
    | item :: _ => do return ⟨← (Blamed.mk item (item.span?.or b.span)).path⟩
  | .tables items =>
    match items with
    | [] => b.refuse (tooShort title 1 0)
    | item :: _ => do return ⟨← (Blamed.mk item (item.span?.or b.span)).path⟩
  | .scalar _ .datetime => b.refuse (unknownField "$__toml_private_datetime" fields)
  | _ => b.wrong title

end ExecutableConfig

namespace Config

def fields : List String := ["vcs", "follow_rename", "max_changes", "jobs", "git", "hg"]

def set (c : Config) (key : Key) (node : Node) : Except Fault Config := do
  let b := Blamed.ofEntry key node
  match key.name with
  | "vcs" => return { c with vcs := ← VcsKind.ofNode b }
  | "follow_rename" => return { c with followRename := ← b.bool }
  | "max_changes" => return { c with maxChanges := ← b.count }
  | "jobs" => return { c with jobs := some (← b.count) }
  | "git" => return { c with git := ← ExecutableConfig.ofNode b }
  | "hg" => return { c with hg := ← ExecutableConfig.ofNode b }
  | _ => Blamed.unknownKey key fields

def ofDocument : Node → Except Fault Config
  | .table _ _ entries => entries.foldlM (fun c e => c.set e.1 e.2) {}
  | _ => .ok {}

def ofText (text : String) : Except Failure Config :=
  match Toml.parse text >>= ofDocument with
  | .ok c => .ok c
  | .error f => .error (.toml (f.report text))

def ofFile (files : FileTree) (path : Path) : Except Failure Config := do
  ofText (← files.readText path)

end Config

end DocDrift
