import DocDrift.Source.Syntax

/-!
# Docstrings

A body is documented when its first statement, comments aside, is a single expression that is a
string literal or a row of them, none of which has replacement fields or is made of bytes.
Parentheses around it do no harm unless a comment stands directly inside them.
-/

namespace DocDrift.Source

/-- The letters of a string literal in front of its quotes. -/
def literalPrefix (text : List Char) : List Char :=
  let isQuote (c : Char) : Bool := c == '"' || c == '\''
  if text.any isQuote then text.takeWhile fun c => !isQuote c else []

theorem literalPrefix_append {quote : Char} {letters : List Char} (hquote : quote ∈ ['"', '\''])
    (hletters : ∀ c ∈ letters, c ∉ ['"', '\'']) (rest : List Char) :
    literalPrefix (letters ++ quote :: rest) = letters := by
  have hisQuote : (quote == '"' || quote == '\'') = true := by simpa using hquote
  have hno : ∀ c ∈ letters, (!(c == '"' || c == '\'')) = true := by
    intro c hc
    simpa using hletters c hc
  rw [literalPrefix, if_pos (by simp [List.any_append, hisQuote]),
    List.takeWhile_append_of_pos hno, List.takeWhile_cons_of_neg (by simp [hisQuote]),
    List.append_nil]

/-- Whether the literal is neither made of bytes nor has replacement fields. -/
def isPlainLiteral (text : String) : Bool :=
  (literalPrefix text.toList).all fun c => c.toLower != 'f' && c.toLower != 'b'

/-- Whether a member of a row of literals does no harm to a docstring. -/
def LiteralPart.isPlain : LiteralPart → Bool
  | literal text => isPlainLiteral text
  | comment _ => true

/-- Whether the expression, alone in a statement, documents the body that it opens. -/
def Expression.isDocumentation : Expression → Bool
  | literal text => isPlainLiteral text
  | adjacent parts => parts.all LiteralPart.isPlain
  | parenthesized [] inner [] => inner.isDocumentation
  | parenthesized _ _ _ => false
  | other => false

/-- The statement that documents a body. -/
def docstring? (body : List Node) : Option LineRange :=
  match body.find? fun n => !n.isComment with
  | some (.expression span [e]) => if e.isDocumentation then some span else none
  | _ => none

end DocDrift.Source
