/-!
# Tokens of Python source

A token knows its lines, and what stands between it and the token before: comments, and whether a
line ended. Which words are keywords, and where the end of a line ends a statement, is for the
grammar to say.
-/

namespace DocDrift.Source

structure Comment where
  line : Nat
  /-- The width of the blanks before it on its line. -/
  indent : Nat
  /-- Whether a line ended between the token before and the comment. -/
  ownLine : Bool
deriving DecidableEq, Repr, Inhabited

inductive TokenKind where
  /-- A name or a keyword. -/
  | word (text : String)
  /-- A number. -/
  | number
  /-- A string literal without replacement fields, as written. -/
  | string (text : String)
  /-- The prefix and the opening quotes of a string literal with replacement fields. -/
  | formatOpen (text : String)
  /-- The closing quotes of a string literal with replacement fields. -/
  | formatClose
  /-- An operator or a delimiter. -/
  | op (text : String)
  /-- The conversion of a replacement field, such as `!r`. -/
  | conversion
  /-- The colon that opens the format part of a replacement field. -/
  | formatPart
  /-- A character that begins no token, or a string literal without an end. -/
  | stray
  /-- The end of the source. -/
  | eof
deriving DecidableEq, Repr, Inhabited

structure Token where
  kind : TokenKind
  /-- The line of its first character. -/
  line : Nat
  /-- The line of its last character. -/
  lastLine : Nat
  /-- The comments between the token before and this one. -/
  comments : List Comment := []
  /-- Whether a line ended between the token before and this one. -/
  lineBreak : Bool := false
  /-- The width of the blanks between the last line end and the token. -/
  indent : Nat := 0
deriving DecidableEq, Repr, Inhabited

namespace Token

def isOp (t : Token) (text : String) : Bool :=
  match t.kind with
  | .op s => s == text
  | _ => false

def isWord (t : Token) (text : String) : Bool :=
  match t.kind with
  | .word s => s == text
  | _ => false

def word? (t : Token) : Option String :=
  match t.kind with
  | .word s => some s
  | _ => none

/-- Whether the token begins with a quote rather than with a string prefix. -/
def opensWithQuote (t : Token) : Bool :=
  let quote (s : String) : Bool :=
    match s.toList with
    | c :: _ => c == '"' || c == '\'' || c == '\x60'
    | [] => false
  match t.kind with
  | .string s => quote s
  | .formatOpen s => quote s
  | _ => false

end Token

end DocDrift.Source
