import DocDrift.Lines.Range

/-!
# Hunks

One contiguous edit between two neighbouring revisions of a file. A side without lines has as its
start the line before which the gap lies.
-/

namespace DocDrift

/-- The number that follows in a line field. Behind the largest one the field begins again at 0. -/
def nextLine (line : Nat) : Nat := (line + 1) % (maxLine + 1)

theorem nextLine_le (line : Nat) : nextLine line ≤ maxLine :=
  Nat.le_of_lt_succ (Nat.mod_lt _ (Nat.succ_pos maxLine))

theorem nextLine_of_lt {line : Nat} (h : line < maxLine) : nextLine line = line + 1 :=
  Nat.mod_eq_of_lt (Nat.succ_lt_succ h)

theorem nextLine_maxLine : nextLine maxLine = 0 := Nat.mod_self _

/-- An edit that replaces `oldLength` lines from `oldStart` by `newLength` lines from `newStart`. -/
structure Hunk where
  oldStart : Nat
  oldLength : Nat
  newStart : Nat
  newLength : Nat
deriving DecidableEq, Repr, Inhabited

namespace Hunk

/-- All numbers of the hunk fit a line field. -/
def Fits (h : Hunk) : Prop :=
  h.oldStart ≤ maxLine ∧ h.oldLength ≤ maxLine ∧ h.newStart ≤ maxLine ∧ h.newLength ≤ maxLine

instance (h : Hunk) : Decidable h.Fits :=
  inferInstanceAs (Decidable (_ ∧ _ ∧ _ ∧ _))

/-- The hunk of a unified diff header. There an empty side names the line after which the gap
lies, so its start moves on by one. -/
def ofUnified (oldStart oldLength newStart newLength : Nat) : Hunk where
  oldStart := if oldLength = 0 then nextLine oldStart else oldStart
  oldLength := oldLength
  newStart := if newLength = 0 then nextLine newStart else newStart
  newLength := newLength

theorem ofUnified_fits {oldStart oldLength newStart newLength : Nat} (ho : oldStart ≤ maxLine)
    (hol : oldLength ≤ maxLine) (hn : newStart ≤ maxLine) (hnl : newLength ≤ maxLine) :
    (ofUnified oldStart oldLength newStart newLength).Fits := by
  have hmoved : ∀ start length, start ≤ maxLine →
      (if length = 0 then nextLine start else start) ≤ maxLine := by
    intro start length hstart
    split
    · exact nextLine_le start
    · exact hstart
  exact ⟨hmoved oldStart oldLength ho, hol, hmoved newStart newLength hn, hnl⟩

/-- The last line on the newer side; the line before the gap if there is none. -/
def newEnd (h : Hunk) : Int := h.newStart + h.newLength - 1

/-- The last line on the older side; the line before the gap if there is none. -/
def oldEnd (h : Hunk) : Int := h.oldStart + h.oldLength - 1

/-- How far the lines below the hunk move on the way to the older revision. -/
def shift (h : Hunk) : Int := (h.oldLength : Int) - h.newLength

def isInsertion (h : Hunk) : Bool := h.oldLength == 0 && decide (0 < h.newLength)

def isDeletion (h : Hunk) : Bool := h.newLength == 0 && decide (0 < h.oldLength)

end Hunk

end DocDrift
