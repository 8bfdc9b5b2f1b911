import DocDrift.Lines.Hunk
import DocDrift.Lines.Range

/-!
# One step back

`LineRange.retrace` takes a range of the newer revision to the older one. A hunk that replaces a
line of the range modifies it, and so does a deletion whose gap lies between two of its lines; a
hunk above the range moves it; a hunk below it does nothing. A bound that falls into a hunk goes to
the bound of the hunk's older side.
-/

namespace DocDrift

structure Retraced where
  /-- The range in the older revision, if it has lines there. -/
  range : Option LineRange
  /-- Whether some hunk modified the range. -/
  modified : Bool
deriving DecidableEq, Repr

/-- What the hunks read so far have done to the two bounds of a range. -/
structure Shifting where
  /-- By how much the first line has moved. -/
  first : Int := 0
  /-- By how much the last line has moved. -/
  last : Int := 0
  /-- The older first line, once a hunk covers the first line. -/
  pinnedFirst : Option Int := none
  /-- The older last line, once a hunk covers the last line. -/
  pinnedLast : Option Int := none
  modified : Bool := false
deriving DecidableEq, Repr

namespace Shifting

/-- Both bounds move along with a hunk above the range. -/
def moveBoth (s : Shifting) (h : Hunk) : Shifting :=
  { s with first := s.first + h.shift, last := s.last + h.shift }

/-- A deletion between two lines of the range moves the last line only. -/
def deletedInside (s : Shifting) (h : Hunk) : Shifting :=
  { s with last := s.last + h.shift, modified := true }

/-- A hunk that replaces lines of the range pins each bound that it covers. -/
def replaced (s : Shifting) (live : LineRange) (h : Hunk) : Shifting :=
  { s with
    modified := true
    pinnedFirst := if h.newStart ≤ live.first then some h.oldStart else s.pinnedFirst
    pinnedLast := if live.last ≤ h.newEnd then some h.oldEnd else s.pinnedLast
    last := if live.last ≤ h.newEnd then s.last else s.last + h.shift }

/-- Reads the hunks in order and stops at the first one below the range. -/
def run (live : LineRange) (s : Shifting) : List Hunk → Shifting
  | [] => s
  | h :: rest =>
    if h.newLength = 0 then
      if h.newStart ≤ live.first then run live (s.moveBoth h) rest
      else if live.last < h.newStart then s
      else run live (s.deletedInside h) rest
    else if h.newEnd < live.first then run live (s.moveBoth h) rest
    else if live.last < h.newStart then s
    else run live (s.replaced live h) rest

def bounds (s : Shifting) (live : LineRange) : Int × Int :=
  (s.pinnedFirst.getD (live.first + s.first), s.pinnedLast.getD (live.last + s.last))

end Shifting

namespace LineRange

/-- The range with these bounds, if it is proper and its bounds fit a line field. -/
def ofIntBounds? (first last : Int) : Option LineRange :=
  if 0 ≤ first ∧ first ≤ maxLine ∧ 0 ≤ last ∧ last ≤ maxLine then
    ofBounds? first.toNat last.toNat
  else none

/-- The range in the older revision. The hunks are meant to be in the order of the newer side. -/
def retrace (live : LineRange) (hunks : List Hunk) : Retraced :=
  let s := Shifting.run live {} hunks
  let b := s.bounds live
  { range := ofIntBounds? b.1 b.2, modified := s.modified }

end LineRange

end DocDrift
