/-!
# Line ranges

A closed range of lines, counted from 1. Values read from outside may be out of order;
`LineRange.ofBounds?` admits the proper ones only.
-/

namespace DocDrift

/-- The largest number that a line field can hold. -/
def maxLine : Nat := 0xFFFFFFFF

/-- The lines `first` to `last`, both included. -/
structure LineRange where
  first : Nat
  last : Nat
deriving DecidableEq, Repr, Inhabited

namespace LineRange

/-- A range is proper when it starts at line 1 or later and does not end before it starts. -/
def Proper (r : LineRange) : Prop := 1 ≤ r.first ∧ r.first ≤ r.last

instance (r : LineRange) : Decidable r.Proper :=
  inferInstanceAs (Decidable (1 ≤ r.first ∧ r.first ≤ r.last))

/-- The range with these bounds, if it is proper. -/
def ofBounds? (first last : Nat) : Option LineRange :=
  if 1 ≤ first ∧ first ≤ last then some ⟨first, last⟩ else none

def size (r : LineRange) : Nat := r.last - r.first + 1

def contains (r : LineRange) (line : Nat) : Bool :=
  r.first ≤ line && line ≤ r.last

/-- Whether every line of `inner` is a line of `r`, judged by the bounds. -/
def encloses (r inner : LineRange) : Bool :=
  r.first ≤ inner.first && inner.last ≤ r.last

def render (r : LineRange) : String := s!"{r.first}-{r.last}"

theorem ofBounds?_eq_some_iff {first last : Nat} {r : LineRange} :
    ofBounds? first last = some r ↔ r = ⟨first, last⟩ ∧ r.Proper := by
  unfold ofBounds? Proper
  split
  · next h =>
    constructor
    · intro hr
      cases hr
      exact ⟨rfl, h⟩
    · rintro ⟨rfl, -⟩
      rfl
  · next h =>
    constructor
    · intro hr
      cases hr
    · rintro ⟨rfl, hp⟩
      exact absurd hp h

end LineRange

end DocDrift
