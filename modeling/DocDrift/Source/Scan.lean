import DocDrift.Source.Token
import DocDrift.Text.Identifier

/-!
# From source text to tokens

`scan` splits a source into tokens, the last of which is the end of the source. String literals
with replacement fields become a sequence of tokens: the opening quotes, for each field a brace, the
tokens of its expression and a brace, and the closing quotes.
-/

namespace DocDrift.Source

/-! ### Between tokens -/

/-- Blanks that do not count as indentation. -/
def isOddBlank (c : Char) : Bool :=
  c == '\x0b' || c == '\uFEFF' || c == '\u2060' || c == '\u200B'

structure Gap where
  line : Nat
  lineBreak : Bool := false
  indent : Nat := 0
  /-- The comments, last one first. -/
  comments : List Comment := []
  /-- Whether the text passed belongs to a comment. -/
  inComment : Bool := false
  /-- Whether an odd blank has been passed, after which line ends no longer count. -/
  odd : Bool := false
deriving Repr

namespace Gap

def breakLine (g : Gap) : Gap :=
  if g.odd then { g with line := g.line + 1 }
  else { g with line := g.line + 1, lineBreak := true, indent := 0, inComment := false }

def openComment (g : Gap) : Gap :=
  { g with
    comments := { line := g.line, indent := g.indent, ownLine := g.lineBreak } :: g.comments
    inComment := true
    odd := false }

/-- Passes blanks, line ends, joined lines and comments up to the next token. -/
def pass (g : Gap) : List Char → Gap × List Char
  | [] => ({ g with lineBreak := true, indent := 0 }, [])
  | '\n' :: rest => pass g.breakLine rest
  | c :: rest =>
    if g.inComment then pass g rest
    else if c = ' ' then pass { g with indent := g.indent + 1 } rest
    else if c = '\t' then pass { g with indent := g.indent + 8 } rest
    else if c = '\r' || c = '\x0c' then pass { g with indent := 0 } rest
    else if c = '#' then pass g.openComment rest
    else if isOddBlank c then pass { g with odd := true } rest
    else if c = '\\' then
      match rest with
      | [] => ({ g with lineBreak := true, indent := 0 }, [])
      | ['\r'] => ({ g with lineBreak := true, indent := 0 }, [])
      | '\n' :: more => pass { g with line := g.line + 1 } more
      | '\r' :: '\n' :: more => pass { g with line := g.line + 1 } more
      | _ => (g, c :: rest)
    else (g, c :: rest)

end Gap

/-! ### String literals -/

structure Delimiter where
  quote : Char
  triple : Bool
  raw : Bool
  bytes : Bool
  /-- Whether it holds replacement fields. -/
  format : Bool
deriving Repr, Inhabited

/-- Splits the opening of a string literal, prefix and quotes, off the text. -/
def openString? (s : List Char) : Option (Delimiter × List Char × List Char) :=
  let isPrefixLetter (c : Char) : Bool := "fFrRbBuU".toList.contains c
  let letters := s.takeWhile isPrefixLetter
  let has (c : Char) : Bool := letters.any fun l => l.toLower == c
  let make (quote : Char) (triple : Bool) : Delimiter :=
    { quote, triple, raw := has 'r', bytes := has 'b', format := has 'f' }
  match s.dropWhile isPrefixLetter with
  | '\x60' :: rest => some (make '\x60' false, letters ++ ['\x60'], rest)
  | q :: rest =>
    if q = '\'' || q = '"' then
      match rest with
      | q₁ :: q₂ :: more =>
        if q₁ = q && q₂ = q then some (make q true, letters ++ [q, q, q], more)
        else some (make q false, letters ++ [q], rest)
      | _ => some (make q false, letters ++ [q], rest)
    else none
  | [] => none

inductive StringPhase where
  /-- At the start of a stretch of text, where even a line end is taken. -/
  | fresh
  /-- Behind some text. -/
  | filled
  /-- Inside an escape of which this many characters remain. -/
  | escape (remaining : Nat)
  /-- Inside text that is taken as it is, of which this many characters remain. -/
  | verbatim (remaining : Nat)
  /-- Inside the name of an escaped character. -/
  | named
deriving Repr

/-- The outcome of scanning a string literal up to its end or to a replacement field. -/
inductive StringStop where
  | closed (taken rest : List Char)
  | field (taken rest : List Char)
  | broken

namespace StringStop

def cons (c : Char) : StringStop → StringStop
  | closed taken rest => closed (c :: taken) rest
  | field taken rest => field (c :: taken) rest
  | broken => broken

end StringStop

def hexFollows (n : Nat) (s : List Char) : Bool :=
  let isHex (c : Char) : Bool := c.isDigit || "abcdefABCDEF".toList.contains c
  (s.take n).length == n && (s.take n).all isHex

/-- The number of characters of an escape behind its backslash; none if it is no escape. -/
def escapeLength (s : List Char) : Nat :=
  match s with
  | 'u' :: rest => if hexFollows 4 rest then 5 else 0
  | 'U' :: rest => if hexFollows 8 rest then 9 else 0
  | 'x' :: rest => if hexFollows 2 rest then 3 else 0
  | '\n' :: _ => 1
  | '\r' :: '\n' :: _ => 2
  | c :: rest =>
    if "'\"abfrntv\\".toList.contains c then 1
    else if c.isDigit && (rest.take 2).length == 2 && (rest.take 2).all Char.isDigit then 3
    else 0
  | [] => 0

/-- Whether the text behind a backslash opens the name of an escaped character. -/
def namedEscape (s : List Char) : Bool :=
  match s with
  | 'N' :: '\x7b' :: c :: rest => c != '\x7d' && rest.contains '\x7d'
  | _ => false

/-- The number of characters that a backslash in a raw literal protects. -/
def rawLength (quote : Char) (s : List Char) : Nat :=
  let first : Nat :=
    match s with
    | c :: _ => if c = quote || c = '\\' then 1 else 0
    | [] => 0
  match s.drop first with
  | '\r' :: '\n' :: _ => first + 2
  | '\r' :: _ => first + 1
  | '\n' :: _ => first + 1
  | _ => first

/-- The phase behind a backslash that stands before `rest`. -/
def backslashPhase (d : Delimiter) (phase : StringPhase) (rest : List Char) : StringPhase :=
  if d.raw then
    match rawLength d.quote rest, phase with
    | 0, .filled => .filled
    | 0, _ => .fresh
    | n, _ => .verbatim n
  else if d.bytes && (rest.head? == some 'N' || rest.head? == some 'u' || rest.head? == some 'U') then
    .verbatim 2
  else if namedEscape rest then .named
  else
    match escapeLength rest with
    | 0 => .fresh
    | n => .escape n

def scanString (d : Delimiter) (phase : StringPhase) : List Char → StringStop
  | [] => .broken
  | c :: rest =>
    match phase with
    | .escape n =>
      (scanString d (if n ≤ 1 then .fresh else .escape (n - 1)) rest).cons c
    | .verbatim n =>
      (scanString d (if n ≤ 1 then .filled else .verbatim (n - 1)) rest).cons c
    | .named => (scanString d (if c = '\x7d' then .fresh else .named) rest).cons c
    | .fresh | .filled =>
      if d.format && (c = '\x7b' || c = '\x7d') then
        if rest.head? == some c then (scanString d (.escape 1) rest).cons c
        else if c = '\x7b' then .field [] rest
        else .broken
      else if c = '\\' then (scanString d (backslashPhase d phase rest) rest).cons c
      else if c = d.quote then
        if d.triple then
          match rest with
          | q₁ :: q₂ :: more =>
            if q₁ = c && q₂ = c then .closed [c, q₁, q₂] more
            else (scanString d .filled rest).cons c
          | _ => .broken
        else .closed [c] rest
      else if c = '\n' && !d.triple then
        match phase with
        | .fresh => (scanString d .filled rest).cons c
        | _ => .broken
      else (scanString d .filled rest).cons c

/-! ### Numbers -/

/-- The length of a run of digits in which each digit may have one underscore behind it. -/
def digitRun (behindDigit : Bool) : List Char → Nat
  | [] => 0
  | c :: rest =>
    if c.isDigit then 1 + digitRun true rest
    else if c = '_' && behindDigit then 1 + digitRun false rest
    else 0

/-- The length of a run of digits, each stretch of which may have an underscore before it. -/
def basedRun (isDigit : Char → Bool) : List Char → Nat
  | [] => 0
  | '_' :: d :: rest => if isDigit d then 2 + basedRun isDigit rest else 0
  | c :: rest => if isDigit c then 1 + basedRun isDigit rest else 0

/-- The length of an exponent; none if no digits follow. -/
def exponentLength (s : List Char) : Nat :=
  match s with
  | e :: rest =>
    if e = 'e' || e = 'E' then
      let sign := match rest with
        | '+' :: _ | '-' :: _ => 1
        | _ => 0
      match digitRun false (rest.drop sign) with
      | 0 => 0
      | n => 1 + sign + n
    else 0
  | [] => 0

/-- One more if the text begins with one of the given letters. -/
def suffixLength (letters : String) (s : List Char) : Nat :=
  match s with
  | c :: _ => if letters.toList.contains c then 1 else 0
  | [] => 0

/-- The length of the longest number at the start of the text. -/
def numberLength (s : List Char) : Nat :=
  let based (isDigit : Char → Bool) (rest : List Char) : Nat :=
    match basedRun isDigit rest with
    | 0 => 0
    | n => 2 + n + suffixLength "lL" (rest.drop n)
  let hex (c : Char) : Bool := c.isDigit || "abcdefABCDEF".toList.contains c
  let withBase : Nat :=
    match s with
    | '0' :: c :: rest =>
      if c = 'x' || c = 'X' then based hex rest
      else if c = 'o' || c = 'O' then based (fun d => "01234567".toList.contains d) rest
      else if c = 'b' || c = 'B' then based (fun d => d == '0' || d == '1') rest
      else 0
    | _ => 0
  if withBase > 0 then withBase
  else
    let whole := digitRun false s
    match s.drop whole with
    | '.' :: rest =>
      let part := digitRun false rest
      if whole == 0 && part == 0 then 0
      else
        let rest := rest.drop part
        let exponent := exponentLength rest
        whole + 1 + part + exponent + suffixLength "jJ" (rest.drop exponent)
    | rest =>
      if whole == 0 then 0
      else
        match exponentLength rest with
        | 0 => whole + suffixLength "lLjJ" rest
        | n => whole + n + suffixLength "jJ" (rest.drop n)

/-! ### Operators -/

/-- The operators and delimiters, longer ones before their beginnings. -/
def operators : List String :=
  ["**=", "//=", ">>=", "<<=", "...", "!=", "<>", "<=", ">=", "==", "->", "+=", "-=", "*=", "/=",
    "@=", "%=", "&=", "^=", "|=", "**", "//", "<<", ">>", ":=", "+", "-", "*", "/", "%", "@", "&",
    "|", "^", "~", "<", ">", "=", "(", ")", "[", "]", "\x7b", "\x7d", ",", ":", ".", ";"]

def operator? (s : List Char) : Option String :=
  operators.find? fun o => o.toList.isPrefixOf s

/-! ### The whole source -/

structure Field where
  /-- The literal that holds it. -/
  delimiter : Delimiter
  /-- The number of brackets open inside it. -/
  depth : Nat := 0
  /-- The number of `lambda` words outside brackets whose colon is still to come. -/
  lambdas : Nat := 0
  /-- Whether it stands in the format part of another field. -/
  nested : Bool := false

inductive ScanMode where
  /-- Among ordinary tokens. -/
  | code
  /-- Inside a literal with replacement fields. -/
  | literal (delimiter : Delimiter)
  /-- Inside the format part of the innermost field. -/
  | formatPart

structure Scan where
  mode : ScanMode := .code
  /-- The open replacement fields, innermost first. -/
  fields : List Field := []
  line : Nat := 1
  rest : List Char
  /-- The tokens so far, last one first. -/
  done : List Token := []

namespace Scan

def lineCount (s : List Char) : Nat := s.count '\n'

/-- Adds a token that has no gap before it. -/
def emit (s : Scan) (kind : TokenKind) (lastLine : Nat) : Scan :=
  { s with done := { kind, line := s.line, lastLine } :: s.done, line := lastLine }

def mapField (s : Scan) (f : Field → Field) : Scan :=
  match s.fields with
  | [] => s
  | field :: outer => { s with fields := f field :: outer }

def closeField (s : Scan) : Scan :=
  match s.fields with
  | [] => s
  | field :: outer =>
    { s with
      fields := outer
      mode := if field.nested then .formatPart else .literal field.delimiter }

/-- The depth of brackets in the innermost field; no field counts as depth one. -/
def depth (s : Scan) : Nat :=
  match s.fields with
  | [] => 1
  | field :: _ => field.depth

/-- Whether a colon that is followed by an equals sign belongs to it: only behind a lone name. -/
def bindsName (s : Scan) : Bool :=
  match s.done with
  | { kind := .word _, .. } :: t :: _ => t.isOp "\x7b"
  | _ => false

/-- Adjusts the innermost field for a token of its expression. -/
def track (s : Scan) (kind : TokenKind) : Scan :=
  match kind with
  | .op o =>
    if o == "(" || o == "[" || o == "\x7b" then s.mapField fun f => { f with depth := f.depth + 1 }
    else if o == ")" || o == "]" || o == "\x7d" then
      s.mapField fun f => { f with depth := f.depth - 1 }
    else if o == ":" && s.depth == 0 then s.mapField fun f => { f with lambdas := f.lambdas - 1 }
    else s
  | .word "lambda" =>
    if s.depth == 0 then s.mapField fun f => { f with lambdas := f.lambdas + 1 } else s
  | _ => s

/-- Whether a colon at this place opens the format part of a field. -/
def colonOpensFormat (s : Scan) : Bool :=
  match s.fields with
  | [] => false
  | field :: _ => field.depth == 0 && field.lambdas == 0

/-- One token among ordinary tokens. `none` ends the scan. -/
def stepCode (s : Scan) : Scan × Bool :=
  let (gap, rest) := Gap.pass { line := s.line } s.rest
  let token (kind : TokenKind) (lastLine : Nat) : Token :=
    { kind, line := gap.line, lastLine, comments := gap.comments.reverse,
      lineBreak := gap.lineBreak, indent := gap.indent }
  let add (kind : TokenKind) (length : Nat) : Scan :=
    { s with done := token kind gap.line :: s.done, line := gap.line, rest := rest.drop length }
  match rest with
  | [] => ({ s with done := token .eof gap.line :: s.done, line := gap.line, rest := [] }, false)
  | c :: behind =>
    match openString? rest with
    | some (d, opening, inside) =>
      if d.format then
        ({ s with
            done := token (.formatOpen (String.ofList opening)) gap.line :: s.done
            line := gap.line, rest := inside, mode := .literal d }, true)
      else
        match scanString d .fresh inside with
        | .closed taken rest =>
          let last := gap.line + lineCount taken
          ({ s with
              done := token (.string (String.ofList (opening ++ taken))) last :: s.done
              line := last, rest }, true)
        | _ => (add .stray 1, false)
    | none =>
      if Text.isIdentifierStart c then
        let name := c :: behind.takeWhile Text.isIdentifierPart
        let kind := TokenKind.word (String.ofList name)
        ((add kind name.length).track kind, true)
      else
        match numberLength rest with
        | n + 1 => (add .number (n + 1), true)
        | 0 =>
          match s.fields, c, behind with
          | _ :: _, '!', l :: _ =>
            if l.isLower then (add .conversion 2, true)
            else if l = '=' then (add (.op "!=") 2, true)
            else (add .stray 1, false)
          | _, _, _ =>
            if c = '\x7d' && !s.fields.isEmpty && s.depth == 0 then
              ((add (.op "\x7d") 1).closeField, true)
            else if c = ':' && s.colonOpensFormat && !(behind.head? == some '=' && s.bindsName) then
              ({ add .formatPart 1 with mode := .formatPart }, true)
            else
              match operator? rest with
              | some o => ((add (.op o) o.length).track (.op o), true)
              | none => (add .stray 1, false)

/-- One token inside a literal with replacement fields. -/
def stepLiteral (s : Scan) (d : Delimiter) : Scan × Bool :=
  match scanString d .fresh s.rest with
  | .closed taken rest =>
    ({ s.emit .formatClose (s.line + lineCount taken) with rest, mode := .code }, true)
  | .field taken rest =>
    let s := { s with line := s.line + lineCount taken }
    ({ s.emit (.op "\x7b") s.line with
        rest, mode := .code, fields := { delimiter := d } :: s.fields }, true)
  | .broken => (s.emit .stray s.line, false)

/-- One token inside the format part of a field. -/
def stepFormatPart (s : Scan) : Scan × Bool :=
  let isText (c : Char) : Bool := c != '\x7b' && c != '\x7d'
  let text := s.rest.takeWhile isText
  let s := { s with line := s.line + lineCount text, rest := s.rest.dropWhile isText }
  match s.rest, s.fields with
  | '\x7b' :: rest, field :: _ =>
    ({ s.emit (.op "\x7b") s.line with
        rest, mode := .code, fields := { delimiter := field.delimiter, nested := true } :: s.fields },
      true)
  | '\x7d' :: rest, _ => (({ s.emit (.op "\x7d") s.line with rest }).closeField, true)
  | _, _ => (s.emit .stray s.line, false)

/-- One token. The flag says whether the scan goes on. -/
def step (s : Scan) : Scan × Bool :=
  match s.mode with
  | .code => s.stepCode
  | .literal d => s.stepLiteral d
  | .formatPart => s.stepFormatPart

/-- At most `fuel` tokens. -/
def run : Nat → Scan → Scan
  | 0, s => s
  | fuel + 1, s =>
    match s.step with
    | (s, true) => run fuel s
    | (s, false) => s

end Scan

/-- The tokens of a source. The last one is the end of the source or a stray character. Every
token but the end takes at least one character, so the fuel lasts. -/
def scan (source : List Char) : List Token :=
  (Scan.run (source.length + 1) { rest := source }).done.reverse

end DocDrift.Source
