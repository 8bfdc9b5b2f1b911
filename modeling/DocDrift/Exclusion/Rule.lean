import DocDrift.Text.Blank
import DocDrift.Text.Lines
import DocDrift.Text.Utf8
import DocDrift.Wildcard.Reader

/-!
# Exclusion rules

A file of exclusion rules has one rule on a line. A rule excludes the paths that its pattern fits, or
keeps them; the last rule that fits a path decides about it. Paths are relative to the directory that
the rules govern.
-/

namespace DocDrift.Exclusion

open Wildcard

inductive Verdict where
  | exclude
  | keep
deriving DecidableEq, Repr

structure Rule where
  pattern : List Piece
  /-- Whether the rule keeps the paths that it fits. -/
  keeps : Bool
  /-- Whether the rule is about directories only. -/
  onlyDirectories : Bool
deriving Repr

/-- A line without the blanks at its end, unless a backslash protects the last one. -/
def trimLine (line : List Char) : List Char :=
  if ['\\', ' '].isSuffixOf line then line else Text.trimRight line

/-- The text of a rule without the sign in front of it. -/
structure Signed where
  text : List Char
  keeps : Bool := false
  /-- Whether the pattern begins in the governed directory itself. -/
  anchored : Bool := false

/-- Reads the signs in front of a rule. A backslash takes the meaning from an exclamation mark or a
number sign. -/
def readSigns (line : List Char) : Signed :=
  match line with
  | '\\' :: '!' :: rest => { text := '!' :: rest }
  | '\\' :: '#' :: rest => { text := '#' :: rest }
  | _ =>
    let keeps := line.head? == some '!'
    let text := if keeps then line.drop 1 else line
    let anchored := text.head? == some '/'
    { text := if anchored then text.drop 1 else text, keeps, anchored }

/-- The text without the slash that confines a rule to directories, and without a backslash in front
of that slash. -/
def dropSlash (text : List Char) : List Char :=
  let text := text.dropLast
  if text.getLast? = some '\\' then text.dropLast else text

/-- The pattern for whole paths. A name without a slash may stand in any directory, and the inside of
a directory does not include the directory. -/
def wholePattern (anchored : Bool) (text : List Char) : List Char :=
  let bare := !anchored && !text.contains '/' && text != ['*', '*']
  let text := if bare then ['*', '*', '/'] ++ text else text
  if ['/', '*', '*'].isSuffixOf text then text ++ ['/', '*'] else text

/-- The rule on a line, if there is one. Lines that begin with a number sign are comments. -/
def Rule.ofLine? (line : List Char) : Option Rule := do
  if line.head? == some '#' then none
  let line := trimLine line
  if line.isEmpty then none
  let s := readSigns line
  let onlyDirectories := s.text.getLast? == some '/'
  let text := if onlyDirectories then dropSlash s.text else s.text
  return { pattern := ← Wildcard.read (wholePattern s.anchored text), keeps := s.keeps, onlyDirectories }

/-- The lines of a file up to the first one that is not UTF-8. -/
def readableLines (content : List UInt8) : List (List Char) :=
  let pieces := (Text.splitAt 10 content).map Text.Utf8.decode?
  let readable := pieces.takeWhile Option.isSome
  let texts := readable.filterMap id
  if readable.length = pieces.length then Text.closeLines texts else texts.map Text.dropReturn

/-- The rules in a file. A byte order mark at its front does not count, and neither do lines that are
no rules. -/
def readRules (content : List UInt8) : List Rule :=
  match readableLines content with
  | [] => []
  | first :: rest => (first.dropWhile (· == '\uFEFF') :: rest).filterMap Rule.ofLine?

def Rule.concerns (r : Rule) (names : List String) (isDirectory : Bool) : Bool :=
  (isDirectory || !r.onlyDirectories) && fits r.pattern ("/".intercalate names).toUTF8.toList

def Rule.verdict (r : Rule) : Verdict := if r.keeps then .keep else .exclude

/-- What the last rule about a path says. -/
def lastVerdict? (rules : List Rule) (names : List String) (isDirectory : Bool) : Option Verdict :=
  (rules.reverse.find? (·.concerns names isDirectory)).map Rule.verdict

end DocDrift.Exclusion
