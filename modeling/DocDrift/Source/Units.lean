import DocDrift.Source.Docstring
import DocDrift.Text.Blank
import DocDrift.Text.Lines
import DocDrift.Unit

/-!
# The documented units of a module

Every definition whose body opens with a docstring is a unit, however deep it lies and whether or
not what encloses it is documented. A function directly inside a class is a method. The module is a
unit of its own if it opens with a docstring.
-/

namespace DocDrift.Source

inductive Enclosure where
  | module
  | classBlock
  | function
deriving DecidableEq, Repr

/-- What the body of a definition lies in. -/
def DefinitionForm.enclosure : DefinitionForm → Enclosure
  | function => .function
  | .classBlock => .classBlock

def DefinitionForm.unitKind (form : DefinitionForm) (enclosing : Enclosure) : UnitKind :=
  match form, enclosing with
  | .classBlock, _ => .classBlock
  | .function, .classBlock => .method
  | .function, _ => .function

abbrev SourceLines := Array (List Char)

/-- Whether a line, counted from 1, is blank. Lines beyond the end are. -/
def SourceLines.blank (source : SourceLines) (line : Nat) : Bool :=
  match source[line - 1]? with
  | some text => Text.isBlankLine text
  | none => true

/-- The last line up to `last` that is not blank, but not a line before `first`. -/
def SourceLines.lastFilled (source : SourceLines) (first : Nat) : Nat → Nat
  | 0 => 0
  | last + 1 =>
    if first < last + 1 && source.blank (last + 1) then lastFilled source first last
    else last + 1

/-- The unit of a body that covers `span`, if the body is documented. -/
def documentedUnit? (source : SourceLines) (name : String) (kind : UnitKind) (span : LineRange)
    (body : List Node) : Option DocumentedUnit := do
  let doc ← docstring? body
  let docRange ← LineRange.ofBounds? doc.first doc.last
  let last := max (source.lastFilled span.first span.last) docRange.last
  let bodyRange ← LineRange.ofBounds? span.first last
  return { qualifiedName := name, kind, docRange, bodyRange }

mutual

/-- The units at and under a node, whose enclosing definitions have the names `scope`. -/
def Node.units (source : SourceLines) (scope : List String) (enclosing : Enclosure) :
    Node → List DocumentedUnit
  | .comment _ | .expression _ _ | .simple _ => []
  | .definition form name span body =>
    let names := scope ++ [name]
    let own := documentedUnit? source (".".intercalate names) (form.unitKind enclosing) span body
    own.toList ++ unitsOfNodes source names form.enclosure body
  | .decorated _ definition => definition.units source scope enclosing
  | .compound _ bodies => unitsOfNodes source scope enclosing bodies

/-- The units at and under a list of nodes. -/
def unitsOfNodes (source : SourceLines) (scope : List String) (enclosing : Enclosure) :
    List Node → List DocumentedUnit
  | [] => []
  | n :: rest => n.units source scope enclosing ++ unitsOfNodes source scope enclosing rest

end

/-- The units of a module in source order, the module itself first. -/
def moduleUnits (source : SourceLines) (name : String) (body : List Node) : List DocumentedUnit :=
  let own := documentedUnit? source name .module ⟨1, source.size⟩ body
  own.toList ++ unitsOfNodes source [] .module body

end DocDrift.Source
