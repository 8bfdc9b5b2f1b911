import DocDrift.Lines.Retrace

/-!
# Edit scripts

The hunks between two versions of a file come in order, and what lies between them is common to
both. `older` takes one line of the newer version to the older one along such hunks. It depends on
that line alone and keeps the order of lines; `Proofs/Lines/Retrace` shows that a range goes where
its two bounds go.
-/

namespace DocDrift

/-- The hunks lead from the lines `old` and `new` to the ends of an older file of `m` and a newer
file of `n` lines. In front of each hunk both sides skip the same number of lines: at least `least`
before the first one and at least one between two hunks. As many lines follow the last hunk on the
older side as on the newer one. -/
def ScriptFrom (m n : Nat) (least old new : Nat) : List Hunk → Prop
  | [] => ∃ rest, old + rest = m + 1 ∧ new + rest = n + 1
  | h :: hunks =>
    (∃ skipped, least ≤ skipped ∧ h.oldStart = old + skipped ∧ h.newStart = new + skipped) ∧
      ScriptFrom m n 1 (h.oldStart + h.oldLength) (h.newStart + h.newLength) hunks

/-- The hunks turn an older file of `m` lines into a newer file of `n` lines. -/
def EditScript (m n : Nat) (hunks : List Hunk) : Prop := ScriptFrom m n 0 1 1 hunks

instance : (m n least old new : Nat) → (hunks : List Hunk) →
    Decidable (ScriptFrom m n least old new hunks)
  | m, n, least, old, new, [] =>
    decidable_of_iff (old ≤ m + 1 ∧ new ≤ n + 1 ∧ m + 1 - old = n + 1 - new) <| by
      constructor
      · rintro ⟨ho, hn, he⟩
        exact ⟨m + 1 - old, by omega, by omega⟩
      · rintro ⟨rest, ho, hn⟩
        omega
  | m, n, least, old, new, h :: hunks =>
    have : Decidable (∃ skipped, least ≤ skipped ∧ h.oldStart = old + skipped ∧
        h.newStart = new + skipped) :=
      decidable_of_iff (old + least ≤ h.oldStart ∧ h.oldStart + new = h.newStart + old) <| by
        constructor
        · rintro ⟨hl, he⟩
          exact ⟨h.oldStart - old, by omega, by omega, by omega⟩
        · rintro ⟨skipped, hl, ho, hn⟩
          omega
    have := instDecidableScriptFrom m n 1 (h.oldStart + h.oldLength) (h.newStart + h.newLength)
      hunks
    inferInstanceAs (Decidable (_ ∧ _))

instance (m n : Nat) (hunks : List Hunk) : Decidable (EditScript m n hunks) :=
  inferInstanceAs (Decidable (ScriptFrom ..))

/-- What a hunk tells about the lines behind it does not depend on the lines in front of it. -/
theorem ScriptFrom.le_ends {m n least old new : Nat} {hunks : List Hunk}
    (hs : ScriptFrom m n least old new hunks) : old ≤ m + 1 ∧ new ≤ n + 1 := by
  induction hunks generalizing least old new with
  | nil =>
    obtain ⟨rest, ho, hn⟩ := hs
    omega
  | cons h hunks ih =>
    obtain ⟨⟨skipped, -, ho, hn⟩, hrest⟩ := hs
    have := ih hrest
    omega

/-- All hunks of a script start at or behind its first line. -/
theorem ScriptFrom.le_newStart {m n least old new : Nat} {hunks : List Hunk}
    (hs : ScriptFrom m n least old new hunks) {h : Hunk} (hh : h ∈ hunks) : new ≤ h.newStart := by
  induction hunks generalizing least old new with
  | nil => cases hh
  | cons h' hunks ih =>
    obtain ⟨⟨skipped, -, ho, hn⟩, hrest⟩ := hs
    cases hh with
    | head => omega
    | tail _ hh =>
      have := ih hrest hh
      omega

/-! ## One line -/

/-- The line of the older file to which the newer `line` goes, if the hunks in front of `hunks`
move it by `moved`. A line inside a hunk goes where `pin` says. -/
def older (pin : Hunk → Int) (line : Nat) (moved : Int) : List Hunk → Int
  | [] => line + moved
  | h :: hunks =>
    if line < h.newStart then line + moved
    else if line < h.newStart + h.newLength then pin h
    else older pin line (moved + h.shift) hunks

/-- A way to leave a hunk on its older side. With `slack` 0 a bound goes to a line of that side or
to the line behind it, with `slack` 1 to a line of that side or to the line before it. -/
structure Hunk.PinnedBy (slack : Int) (pin : Hunk → Int) : Prop where
  nonneg : 0 ≤ slack
  le_one : slack ≤ 1
  lower : ∀ h : Hunk, h.oldStart - slack ≤ pin h
  upper : ∀ h : Hunk, pin h ≤ h.oldStart + h.oldLength - slack

theorem Hunk.pinnedBy_oldStart : Hunk.PinnedBy 0 fun h => h.oldStart where
  nonneg := by omega
  le_one := by omega
  lower h := by omega
  upper h := by omega

theorem Hunk.pinnedBy_oldEnd : Hunk.PinnedBy 1 Hunk.oldEnd where
  nonneg := by omega
  le_one := by omega
  lower h := by simp only [Hunk.oldEnd]; omega
  upper h := by simp only [Hunk.oldEnd]; omega

section
variable {m n least old new : Nat} {hunks : List Hunk} {slack : Int} {pin : Hunk → Int}

/-- What the hunks in front of a hunk and the hunk itself move the lines behind it by. -/
theorem moved_add_shift {h : Hunk} {skipped : Nat} (ho : h.oldStart = old + skipped)
    (hn : h.newStart = new + skipped) :
    (old - new : Int) + h.shift =
      ((h.oldStart + h.oldLength : Nat) : Int) - (h.newStart + h.newLength : Nat) := by
  simp only [Hunk.shift]
  omega

theorem ScriptFrom.le_older (hs : ScriptFrom m n least old new hunks)
    (hpin : Hunk.PinnedBy slack pin) {line : Nat} (hline : new ≤ line) :
    old - slack ≤ older pin line (old - new) hunks := by
  induction hunks generalizing least old new with
  | nil =>
    have := hpin.nonneg
    simp only [older]
    omega
  | cons h hunks ih =>
    obtain ⟨⟨skipped, -, ho, hn⟩, hrest⟩ := hs
    have hnonneg := hpin.nonneg
    have hlower := hpin.lower h
    simp only [older]
    split
    · omega
    · split
      · omega
      · have := ih hrest (by omega)
        -- what follows the hunk is moved by the distance of the places behind it
        rw [moved_add_shift ho hn]
        omega

theorem ScriptFrom.older_le (hs : ScriptFrom m n least old new hunks)
    (hpin : Hunk.PinnedBy slack pin) {line : Nat} (hline : line ≤ n) :
    older pin line (old - new) hunks ≤ m + 1 - slack := by
  induction hunks generalizing least old new with
  | nil =>
    obtain ⟨rest, ho, hn⟩ := hs
    have := hpin.le_one
    simp only [older]
    omega
  | cons h hunks ih =>
    obtain ⟨⟨skipped, -, ho, hn⟩, hrest⟩ := hs
    have hle_one := hpin.le_one
    have hupper := hpin.upper h
    have hends := hrest.le_ends
    simp only [older]
    split
    · omega
    · split
      · omega
      · rw [moved_add_shift ho hn]
        exact ih hrest

/-- Lines keep their order on the way to the older file. -/
theorem ScriptFrom.older_mono (hs : ScriptFrom m n least old new hunks)
    (hpin : Hunk.PinnedBy slack pin) {line line' : Nat} (hle : line ≤ line') :
    older pin line (old - new) hunks ≤ older pin line' (old - new) hunks := by
  induction hunks generalizing least old new with
  | nil =>
    simp only [older]
    omega
  | cons h hunks ih =>
    obtain ⟨⟨skipped, -, ho, hn⟩, hrest⟩ := hs
    have hnonneg := hpin.nonneg
    have hle_one := hpin.le_one
    have hlower := hpin.lower h
    have hupper := hpin.upper h
    have hbehind := fun hl : _ ≤ line' => hrest.le_older hpin hl
    simp only [older, moved_add_shift ho hn]
    by_cases hin : line < h.newStart + h.newLength
    · by_cases hin' : line' < h.newStart + h.newLength
      · split <;> split <;> omega
      · have := hbehind (by omega)
        split <;> split <;> omega
    · have hin' : ¬ line' < h.newStart + h.newLength := by omega
      have hbelow : ¬ line < h.newStart := by omega
      have hbelow' : ¬ line' < h.newStart := by omega
      simp only [hin, hin', hbelow, hbelow', if_false]
      exact ih hrest

end

/-- A line of the newer file goes to a line of the older one, but for `slack`. -/
theorem EditScript.older_le {m n line : Nat} {hunks : List Hunk} {slack : Int} {pin : Hunk → Int}
    (hs : EditScript m n hunks) (hpin : Hunk.PinnedBy slack pin) (hline : line ≤ n) :
    older pin line 0 hunks ≤ m + 1 - slack :=
  ScriptFrom.older_le hs hpin hline

theorem EditScript.le_older {m n line : Nat} {hunks : List Hunk} {slack : Int} {pin : Hunk → Int}
    (hs : EditScript m n hunks) (hpin : Hunk.PinnedBy slack pin) (hline : 1 ≤ line) :
    1 - slack ≤ older pin line 0 hunks :=
  ScriptFrom.le_older hs hpin hline

theorem EditScript.older_mono {m n line line' : Nat} {hunks : List Hunk} {slack : Int}
    {pin : Hunk → Int} (hs : EditScript m n hunks) (hpin : Hunk.PinnedBy slack pin)
    (hle : line ≤ line') : older pin line 0 hunks ≤ older pin line' 0 hunks :=
  ScriptFrom.older_mono hs hpin hle

/-! ## Lines that no hunk replaces -/

/-- By how much the hunks above a line move it. -/
def shiftAbove (line : Nat) : List Hunk → Int
  | [] => 0
  | h :: hunks =>
    if h.newStart + h.newLength ≤ line then h.shift + shiftAbove line hunks
    else shiftAbove line hunks

def Hunk.covers (h : Hunk) (line : Nat) : Prop :=
  h.newStart ≤ line ∧ line < h.newStart + h.newLength

instance (h : Hunk) (line : Nat) : Decidable (h.covers line) :=
  inferInstanceAs (Decidable (_ ∧ _))

theorem shiftAbove_eq_zero {line : Nat} {hunks : List Hunk}
    (h : ∀ h ∈ hunks, line < h.newStart + h.newLength) : shiftAbove line hunks = 0 := by
  induction hunks with
  | nil => rfl
  | cons h' hunks ih =>
    have := h h' (List.mem_cons_self ..)
    simp only [shiftAbove, Nat.not_le.mpr this, if_false]
    exact ih fun x hx => h x (List.mem_cons_of_mem _ hx)

/-- A line that no hunk replaces moves by the shifts of the hunks above it. -/
theorem ScriptFrom.older_eq {m n least old new : Nat} {hunks : List Hunk} {pin : Hunk → Int}
    {line : Nat} {moved : Int} (hs : ScriptFrom m n least old new hunks)
    (hline : ∀ h ∈ hunks, ¬ h.covers line) :
    older pin line moved hunks = line + moved + shiftAbove line hunks := by
  induction hunks generalizing least old new moved with
  | nil => simp [older, shiftAbove]
  | cons h hunks ih =>
    have hh := hline h (List.mem_cons_self ..)
    simp only [Hunk.covers] at hh
    simp only [older, shiftAbove]
    by_cases hbelow : line < h.newStart
    · have hrest : ∀ h' ∈ hunks, line < h'.newStart + h'.newLength := fun h' hh' => by
        have := hs.2.le_newStart hh'
        omega
      rw [shiftAbove_eq_zero hrest]
      have : ¬ h.newStart + h.newLength ≤ line := by omega
      simp [hbelow, this]
    · have habove : h.newStart + h.newLength ≤ line := by omega
      simp only [hbelow, habove, Nat.not_lt.mpr habove, if_true, if_false]
      rw [ih hs.2 fun h' hh' => hline h' (List.mem_cons_of_mem _ hh')]
      omega

end DocDrift
