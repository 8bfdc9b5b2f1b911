import DocDrift.Lines.Range
import DocDrift.Source.Token

/-!
# Syntax trees

As much of the structure of a Python module as documentation depends on: statements with the lines
they cover, the nesting of definitions, and those expressions that may be a docstring, with the
comments inside them.
-/

namespace DocDrift.Source

/-- A member of a row of adjacent string literals. -/
inductive LiteralPart where
  | literal (text : String)
  | comment (c : Comment)
deriving DecidableEq, Repr

/-- An expression, as far as it may be a docstring. -/
inductive Expression where
  /-- One string literal, as written; of one with replacement fields the opening only. -/
  | literal (text : String)
  /-- Two or more string literals side by side. -/
  | adjacent (parts : List LiteralPart)
  /-- An expression in parentheses, with the comments before and behind it inside them. -/
  | parenthesized (before : List Comment) (inner : Expression) (behind : List Comment)
  /-- Any other expression. -/
  | other
deriving DecidableEq, Repr, Inhabited

inductive DefinitionForm where
  | function
  | classBlock
deriving DecidableEq, Repr

inductive Node where
  | comment (span : LineRange)
  /-- A statement of one or more expressions. -/
  | expression (span : LineRange) (items : List Expression)
  /-- Any other statement without a body. -/
  | simple (span : LineRange)
  /-- A function or class; the span begins at its first keyword. -/
  | definition (form : DefinitionForm) (name : String) (span : LineRange) (body : List Node)
  /-- A definition behind its decorators. -/
  | decorated (span : LineRange) (definition : Node)
  /-- Any other statement with bodies; the statements of all bodies in order. -/
  | compound (span : LineRange) (bodies : List Node)
deriving Repr, Inhabited

namespace Node

def span : Node → LineRange
  | comment s | expression s _ | simple s | definition _ _ s _ | decorated s _ | compound s _ => s

def isComment : Node → Bool
  | comment _ => true
  | _ => false

end Node

end DocDrift.Source
