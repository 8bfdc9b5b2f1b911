/-!
# Lines of a text

A line ends at a line feed, and one carriage return before the feed belongs to the line end. What
follows the last feed is a line only if it is not empty.
-/

namespace DocDrift.Text

/-- The pieces of a list between the elements equal to `separator`; there is always at least one. -/
def splitAt {α : Type} [DecidableEq α] (separator : α) : List α → List (List α)
  | [] => [[]]
  | c :: rest =>
    if c = separator then [] :: splitAt separator rest
    else
      match splitAt separator rest with
      | [] => [[c]]
      | piece :: pieces => (c :: piece) :: pieces

theorem splitAt_ne_nil {α : Type} [DecidableEq α] (separator : α) (s : List α) :
    splitAt separator s ≠ [] := by
  cases s with
  | nil => simp [splitAt]
  | cons c rest =>
    simp only [splitAt]
    split
    · simp
    · split <;> simp

/-- The line without the one carriage return at its end, if there is one. -/
def dropReturn (line : List Char) : List Char :=
  if line.getLast? = some '\r' then line.dropLast else line

/-- The pieces up to the last line feed lose their carriage return; the open rest keeps its own. -/
def closeLines : List (List Char) → List (List Char)
  | [] => []
  | [open_] => if open_.isEmpty then [] else [open_]
  | line :: rest => dropReturn line :: closeLines rest

/-- The lines of a text, without their line ends. -/
def lines (s : List Char) : List (List Char) :=
  closeLines (splitAt '\n' s)

/-- The text before the first place where `pattern` occurs and the text after it. -/
def splitOnce (pattern : List Char) : List Char → Option (List Char × List Char)
  | [] => if pattern.isEmpty then some ([], []) else none
  | c :: rest =>
    match pattern.isPrefixOf (c :: rest) with
    | true => some ([], (c :: rest).drop pattern.length)
    | false => (splitOnce pattern rest).map fun r => (c :: r.1, r.2)

/-- The text before the last place where `pattern` occurs and the text after it. -/
def splitLast (pattern : List Char) (s : List Char) : Option (List Char × List Char) :=
  (splitOnce pattern.reverse s.reverse).map fun r => (r.2.reverse, r.1.reverse)

/-- The rest of a text that begins with `start`. -/
def after? (start : List Char) (s : List Char) : Option (List Char) :=
  if start.isPrefixOf s then some (s.drop start.length) else none

def occursIn (pattern : List Char) (s : List Char) : Bool :=
  (splitOnce pattern s).isSome

end DocDrift.Text
