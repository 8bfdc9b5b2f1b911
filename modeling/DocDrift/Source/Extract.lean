import DocDrift.Failure
import DocDrift.Source.Grammar
import DocDrift.Source.Units

/-!
# The documented units of a source

A source with a syntax error has none. If a single token put in front of the place of the error
makes the whole source readable, the error is that this token is missing.
-/

namespace DocDrift.Source

structure MissingToken where
  /-- Its name in the report. -/
  name : String
  /-- Puts it in front of the token at which reading stopped. -/
  insert : Token → List Token

/-- A token on the line of the next one, which then goes on with that line. -/
def MissingToken.inLine (name : String) (kind : TokenKind) : MissingToken where
  name
  insert t :=
    [{ kind, line := t.line, lastLine := t.line, comments := t.comments },
      { t with lineBreak := false, comments := [] }]

/-- The tokens whose absence is recognised, in the order in which they are tried. -/
def missingTokens : List MissingToken :=
  [.inLine "identifier" (.word "identifier"), .inLine ")" (.op ")"), .inLine "]" (.op "]"),
    .inLine "\x7d" (.op "\x7d"),
    { name := "_newline", insert := fun t => [{ t with lineBreak := true }] }]

/-- The tokens with a missing one put in, if the whole source can then be read. -/
def repair? (tokens : List Token) (e : SyntaxError) : Option MissingToken :=
  let place := tokens.length - e.remaining
  match tokens.drop place with
  | [] => none
  | t :: rest =>
    missingTokens.find? fun m =>
      (moduleOfTokens (tokens.take place ++ m.insert t ++ rest)).isOk

def syntaxFailure (path : Path) (tokens : List Token) (e : SyntaxError) : Failure :=
  match repair? tokens e with
  | some m => .parse path e.lastLine ("missing \x60" ++ m.name ++ "\x60")
  | none =>
    let atEnd := (tokens.getLast?.map Token.kind) == some .eof && e.remaining ≤ 1
    let first := (tokens.head?.map Token.line).getD 1
    .parse path (if atEnd then first else e.line) "invalid syntax"

/-- The documented units of a source in source order. The module is named after its file. -/
def extractUnits (path : Path) (content : String) : Except Failure (List DocumentedUnit) :=
  let source := content.toList
  let tokens := scan source
  match moduleOfTokens tokens with
  | .ok nodes => .ok (moduleUnits (Text.lines source).toArray (path.stem?.getD "") nodes)
  | .error e => .error (syntaxFailure path tokens e)

end DocDrift.Source
