import DocDrift.Proofs.Lines.Retrace

/-!
# Retracing in words

`LineRange.retrace` counts with integers of any size, a machine with words of 64 bits. What the
machine makes of a number that its words do not hold is left open here, because no such number comes
up: a hunk moves a bound by less than 2^32 lines, so the sums stay small as long as the hunks are
fewer than 2^31 - 2. That needs nothing of the hunks but that their numbers fit line fields. They
may come in any order and overlap.
-/

namespace DocDrift

/-- Whether a word of 64 bits holds the number, one bit being for the sign. -/
def Held (n : Int) : Prop := -0x8000000000000000 ≤ n ∧ n ≤ 0x7FFFFFFFFFFFFFFF

instance (n : Int) : Decidable (Held n) := inferInstanceAs (Decidable (_ ∧ _))

/-- How a machine puts a number into a word. A number that the word does not hold may become any
other, or the machine stops. -/
structure Machine where
  store : Int → Option Int
  store_held : ∀ n, Held n → store n = some n

namespace Machine

/-- A machine that stops. It comes to an end only where no number is too large for a word. -/
def stopping : Machine where
  store n := if Held n then some n else none
  store_held _ h := if_pos h

/-- A machine that keeps the last 64 bits. -/
def wrapping : Machine where
  store n := some (n.bmod 0x10000000000000000)
  store_held n h := by
    obtain ⟨hleast, hlargest⟩ := h
    rw [Int.bmod_eq_of_le (by omega) (by omega)]

/-! ## One step back on a machine -/

def add (w : Machine) (a b : Int) : Option Int := w.store (a + b)

def sub (w : Machine) (a b : Int) : Option Int := w.store (a - b)

/-- The last line of a side; the line before the gap if the side has none. -/
def sideEnd (w : Machine) (start length : Nat) : Option Int := do
  w.sub (← w.add start length) 1

def shift (w : Machine) (h : Hunk) : Option Int := w.sub h.oldLength h.newLength

def moveBoth (w : Machine) (s : Shifting) (h : Hunk) : Option Shifting := do
  let shift ← w.shift h
  return { s with first := ← w.add s.first shift, last := ← w.add s.last shift }

def deletedInside (w : Machine) (s : Shifting) (h : Hunk) : Option Shifting := do
  return { s with last := ← w.add s.last (← w.shift h), modified := true }

def replaced (w : Machine) (s : Shifting) (live : LineRange) (h : Hunk) (newEnd : Int) :
    Option Shifting := do
  let pinnedFirst := if h.newStart ≤ live.first then some (h.oldStart : Int) else s.pinnedFirst
  if live.last ≤ newEnd then
    let oldEnd ← w.sideEnd h.oldStart h.oldLength
    return { s with modified := true, pinnedFirst, pinnedLast := some oldEnd }
  else
    return { s with modified := true, pinnedFirst, last := ← w.add s.last (← w.shift h) }

def run (w : Machine) (live : LineRange) (s : Shifting) : List Hunk → Option Shifting
  | [] => some s
  | h :: rest =>
    if h.newLength = 0 then
      if h.newStart ≤ live.first then do run w live (← w.moveBoth s h) rest
      else if live.last < h.newStart then some s
      else do run w live (← w.deletedInside s h) rest
    else do
      let newEnd ← w.sideEnd h.newStart h.newLength
      if newEnd < live.first then run w live (← w.moveBoth s h) rest
      else if live.last < h.newStart then some s
      else run w live (← w.replaced s live h newEnd) rest

/-- The range in the older revision as the machine finds it. -/
def retrace (w : Machine) (live : LineRange) (hunks : List Hunk) : Option Retraced := do
  let s ← w.run live {} hunks
  -- both sums are formed even where a hunk has pinned the bound
  let first ← w.add live.first s.first
  let last ← w.add live.last s.last
  return {
    range := LineRange.ofIntBounds? (s.pinnedFirst.getD first) (s.pinnedLast.getD last)
    modified := s.modified }

end Machine

/-! ## How far the bounds move -/

namespace Shifting

/-- Neither bound has moved by more than `n` lines. -/
def MovedBy (s : Shifting) (n : Nat) : Prop :=
  (-n ≤ s.first ∧ s.first ≤ n) ∧ -n ≤ s.last ∧ s.last ≤ n

section
variable {s : Shifting} {live : LineRange} {h : Hunk} {n : Nat}

theorem MovedBy.mono {m : Nat} (hs : s.MovedBy n) (hle : n ≤ m) : s.MovedBy m := by
  obtain ⟨hfirst, hlast⟩ := hs
  constructor <;> omega

theorem shift_bounds (hh : h.Fits) : -(maxLine : Int) ≤ h.shift ∧ h.shift ≤ maxLine := by
  obtain ⟨-, hold, -, hnew⟩ := hh
  unfold Hunk.shift
  omega

theorem MovedBy.moveBoth (hs : s.MovedBy n) (hh : h.Fits) :
    (s.moveBoth h).MovedBy (n + maxLine) := by
  have := shift_bounds hh
  obtain ⟨hfirst, hlast⟩ := hs
  constructor <;> simp only [Shifting.moveBoth] <;> omega

theorem MovedBy.deletedInside (hs : s.MovedBy n) (hh : h.Fits) :
    (s.deletedInside h).MovedBy (n + maxLine) := by
  have := shift_bounds hh
  obtain ⟨hfirst, hlast⟩ := hs
  constructor <;> simp only [Shifting.deletedInside] <;> omega

theorem MovedBy.replaced (hs : s.MovedBy n) (hh : h.Fits) :
    (s.replaced live h).MovedBy (n + maxLine) := by
  have := shift_bounds hh
  obtain ⟨hfirst, hlast⟩ := hs
  constructor
  · simp only [Shifting.replaced]
    omega
  · simp only [Shifting.replaced]
    split <;> omega

end

end Shifting

/-! ## Sums that a word holds -/

namespace Machine

section
variable {w : Machine} {s : Shifting} {live : LineRange} {h : Hunk} {n : Nat}

theorem add_eq {a b : Int} (hab : Held (a + b)) : w.add a b = some (a + b) := w.store_held _ hab

theorem sub_eq {a b : Int} (hab : Held (a - b)) : w.sub a b = some (a - b) := w.store_held _ hab

theorem sideEnd_eq {start length : Nat} (hs : start ≤ maxLine) (hl : length ≤ maxLine) :
    w.sideEnd start length = some ((start : Int) + length - 1) := by
  have hsum : Held ((start : Int) + length) := by
    unfold maxLine at hs hl
    constructor <;> omega
  have hend : Held ((start : Int) + length - 1) := by
    unfold maxLine at hs hl
    constructor <;> omega
  simp only [sideEnd, add_eq hsum, Option.bind_eq_bind, Option.bind_some, sub_eq hend]

theorem newEnd_eq (hh : h.Fits) : w.sideEnd h.newStart h.newLength = some h.newEnd :=
  sideEnd_eq hh.2.2.1 hh.2.2.2

theorem oldEnd_eq (hh : h.Fits) : w.sideEnd h.oldStart h.oldLength = some h.oldEnd :=
  sideEnd_eq hh.1 hh.2.1

theorem shift_eq (hh : h.Fits) : w.shift h = some h.shift := by
  have hb := Shifting.shift_bounds hh
  have hheld : Held h.shift := by
    unfold maxLine at hb
    constructor <;> omega
  exact sub_eq hheld

/-- Two numbers have a sum that a word holds if they leave room for it. -/
theorem add_eq_of_le {a b : Int} {m k : Nat} (ha : -m ≤ a ∧ a ≤ m) (hb : -k ≤ b ∧ b ≤ k)
    (hroom : m + k ≤ 0x7FFFFFFFFFFFFFFF) : w.add a b = some (a + b) :=
  add_eq ⟨by omega, by omega⟩

theorem moveBoth_eq (hs : s.MovedBy n) (hh : h.Fits) (hroom : n + maxLine ≤ 0x7FFFFFFFFFFFFFFF) :
    w.moveBoth s h = some (s.moveBoth h) := by
  have hfirst := add_eq_of_le (w := w) hs.1 (Shifting.shift_bounds hh) hroom
  have hlast := add_eq_of_le (w := w) hs.2 (Shifting.shift_bounds hh) hroom
  simp only [moveBoth, shift_eq hh, Option.bind_eq_bind, Option.bind_some, hfirst, hlast,
    Shifting.moveBoth, Option.pure_def]

theorem deletedInside_eq (hs : s.MovedBy n) (hh : h.Fits)
    (hroom : n + maxLine ≤ 0x7FFFFFFFFFFFFFFF) :
    w.deletedInside s h = some (s.deletedInside h) := by
  have hlast := add_eq_of_le (w := w) hs.2 (Shifting.shift_bounds hh) hroom
  simp only [deletedInside, shift_eq hh, Option.bind_eq_bind, Option.bind_some, hlast,
    Shifting.deletedInside, Option.pure_def]

theorem replaced_eq (hs : s.MovedBy n) (hh : h.Fits) (hroom : n + maxLine ≤ 0x7FFFFFFFFFFFFFFF) :
    w.replaced s live h h.newEnd = some (s.replaced live h) := by
  have hlast := add_eq_of_le (w := w) hs.2 (Shifting.shift_bounds hh) hroom
  simp only [replaced, Shifting.replaced, oldEnd_eq hh, shift_eq hh, Option.bind_eq_bind,
    Option.bind_some, hlast, Option.pure_def]
  split <;> rfl

/-- As long as the words hold what the hunks can amount to, the machine does what is done with
integers, and the bounds have moved by at most that much. -/
theorem run_eq {hunks : List Hunk} (hs : s.MovedBy n) (hfits : ∀ h ∈ hunks, h.Fits)
    (hroom : n + hunks.length * maxLine ≤ 0x7FFFFFFFFFFFFFFF) :
    w.run live s hunks = some (Shifting.run live s hunks) ∧
      (Shifting.run live s hunks).MovedBy (n + hunks.length * maxLine) := by
  -- each hunk that is read uses up the room of one
  induction hunks generalizing s n with
  | nil => exact ⟨rfl, hs.mono (Nat.le_add_right ..)⟩
  | cons h hunks ih =>
    obtain ⟨hh, hrest⟩ := List.forall_mem_cons.mp hfits
    have hlength : n + (h :: hunks).length * maxLine = n + maxLine + hunks.length * maxLine := by
      rw [List.length_cons, Nat.succ_mul, Nat.add_assoc, Nat.add_comm maxLine]
    rw [hlength] at hroom ⊢
    have hstep : n + maxLine ≤ 0x7FFFFFFFFFFFFFFF := Nat.le_trans (Nat.le_add_right ..) hroom
    have hstop : s.MovedBy (n + maxLine + hunks.length * maxLine) := hs.mono (by omega)
    simp only [run, Shifting.run, moveBoth_eq hs hh hstep, deletedInside_eq hs hh hstep,
      replaced_eq hs hh hstep, newEnd_eq hh, Option.bind_eq_bind, Option.bind_some]
    split
    · split
      · exact ih (hs.moveBoth hh) hrest hroom
      · split
        · exact ⟨rfl, hstop⟩
        · exact ih (hs.deletedInside hh) hrest hroom
    · split
      · exact ih (hs.moveBoth hh) hrest hroom
      · split
        · exact ⟨rfl, hstop⟩
        · exact ih (hs.replaced hh) hrest hroom

theorem retrace_eq {hunks : List Hunk} (hlive : live.Within maxLine) (hfits : ∀ h ∈ hunks, h.Fits)
    (hcount : hunks.length < 0x7FFFFFFE) : w.retrace live hunks = some (live.retrace hunks) := by
  have hmost : 0x7FFFFFFD * maxLine + maxLine ≤ 0x7FFFFFFFFFFFFFFF := by decide
  have hlines : hunks.length * maxLine ≤ 0x7FFFFFFD * maxLine :=
    Nat.mul_le_mul_right maxLine (Nat.le_of_lt_succ hcount)
  have hstart : ({} : Shifting).MovedBy 0 := by constructor <;> simp
  obtain ⟨hrun, hfirst, hlast⟩ :
      w.run live {} hunks = some (Shifting.run live {} hunks) ∧
        (Shifting.run live {} hunks).MovedBy (0 + hunks.length * maxLine) :=
    run_eq hstart hfits (by omega)
  -- the last two sums add a bound of the range, one more number of a line field
  have hbound : ∀ line : Nat, line ≤ maxLine →
      -(maxLine : Int) ≤ line ∧ (line : Int) ≤ maxLine := by
    intro line hline
    constructor <;> omega
  have hsum₁ := add_eq_of_le (w := w) (hbound _ (Nat.le_trans hlive.1.2 hlive.2)) hfirst (by omega)
  have hsum₂ := add_eq_of_le (w := w) (hbound _ hlive.2) hlast (by omega)
  simp only [retrace, hrun, Option.bind_eq_bind, Option.bind_some, hsum₁, hsum₂, Option.pure_def,
    LineRange.retrace, Shifting.bounds]

end

end Machine

namespace LineRange

/-- Along fewer than 2^31 - 2 hunks, whatever their numbers and their order, every machine finds the
range that integers of any size lead to. It is one of lines that a line field can hold, and what
modifies an inner range modifies the outer one. -/
theorem retrace_in_words {live : LineRange} {hunks : List Hunk} (hlive : live.Within maxLine)
    (hfits : ∀ h ∈ hunks, h.Fits) (hcount : hunks.length < 0x7FFFFFFE) :
    (∀ w : Machine, w.retrace live hunks = some (live.retrace hunks)) ∧
      (∀ r, (live.retrace hunks).range = some r → r.Within maxLine) ∧
      ∀ outer : LineRange, outer.Proper → outer.encloses live = true →
        (live.retrace hunks).modified = true → (outer.retrace hunks).modified = true := by
  refine ⟨fun w => w.retrace_eq hlive hfits hcount, fun r hr => ?_, fun outer houter he hmod => ?_⟩
  · exact (ofIntBounds?_eq_some_iff.mp hr).2.2
  · exact retrace_modified_of_encloses hlive.1 houter he hmod

/-- The later hunk lies above the earlier one and takes the range close to the last line that a
field can hold. -/
theorem retrace_in_words_unordered :
    let live : LineRange := ⟨3, 9⟩
    let outer : LineRange := ⟨2, 0xFFFFFFFF⟩
    let hunks : List Hunk := [⟨5, 2, 8, 1⟩, ⟨0xFFFFFFFF, 0xFFFFFFF0, 1, 0⟩]
    Machine.stopping.retrace live hunks = some ⟨some ⟨0xFFFFFFF3, 0xFFFFFFFA⟩, true⟩ ∧
      Machine.wrapping.retrace live hunks = some ⟨some ⟨0xFFFFFFF3, 0xFFFFFFFA⟩, true⟩ ∧
      (⟨0xFFFFFFF3, 0xFFFFFFFA⟩ : LineRange).Within maxLine ∧
        (outer.retrace hunks).modified = true := by
  intro live outer hunks
  have hlive : live.Within maxLine := by decide
  have hcount : hunks.length < 0x7FFFFFFE := by simp [hunks]
  have hretrace : live.retrace hunks = ⟨some ⟨0xFFFFFFF3, 0xFFFFFFFA⟩, true⟩ := by decide +kernel
  obtain ⟨hexact, hwithin, hmono⟩ := retrace_in_words hlive (by decide) hcount
  rw [hretrace] at hexact hwithin hmono
  exact ⟨hexact _, hexact _, hwithin _ rfl, hmono outer (by decide) (by decide) rfl⟩

end LineRange

end DocDrift
