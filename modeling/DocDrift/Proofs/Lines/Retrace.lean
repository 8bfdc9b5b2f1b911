import DocDrift.Proofs.Lines.Script

/-!
# Ranges along a script

Along the hunks of a script `LineRange.retrace` takes the two bounds of a range to the older file
one by one, and it reports a modification exactly when some hunk touches the range. Hence ranges
stay inside their files and nested ranges stay nested.
-/

namespace DocDrift

/-- Whether the hunk replaces a line of the range or has its gap between two of its lines. -/
def Hunk.touches (h : Hunk) (live : LineRange) : Prop :=
  h.newStart ≤ live.last ∧ live.first < h.newStart + h.newLength

instance (h : Hunk) (live : LineRange) : Decidable (h.touches live) :=
  inferInstanceAs (Decidable (_ ∧ _))

/-! ## The two bounds -/

namespace Shifting

/-- What a hunk that touches the range does, be it a deletion or not. -/
def meet (s : Shifting) (live : LineRange) (h : Hunk) : Shifting where
  first := s.first
  last := if live.last < h.newStart + h.newLength then s.last else s.last + h.shift
  pinnedFirst := if h.newStart ≤ live.first then some h.oldStart else s.pinnedFirst
  pinnedLast := if live.last < h.newStart + h.newLength then some h.oldEnd else s.pinnedLast
  modified := true

section
variable {live : LineRange} {s : Shifting} {hunks : List Hunk}

theorem deletedInside_eq_meet {h : Hunk} (ht : h.touches live) (hempty : h.newLength = 0) :
    s.deletedInside h = s.meet live h := by
  obtain ⟨hlast, hfirst⟩ := ht
  have h₁ : ¬ h.newStart ≤ live.first := by omega
  have h₂ : ¬ live.last < h.newStart + h.newLength := by omega
  simp only [deletedInside, meet, h₁, h₂, if_false]

theorem replaced_eq_meet {h : Hunk} : s.replaced live h = s.meet live h := by
  have he : live.last ≤ h.newEnd ↔ live.last < h.newStart + h.newLength := by
    simp only [Hunk.newEnd]
    omega
  simp only [replaced, meet, he]

/-- A hunk lies above the range, below it, or it touches the range. -/
theorem run_cons (hlive : live.Proper) (h : Hunk) :
    run live s (h :: hunks) =
      if h.newStart + h.newLength ≤ live.first then run live (s.moveBoth h) hunks
      else if live.last < h.newStart then s
      else run live (s.meet live h) hunks := by
  have hle := hlive.2
  have he : h.newEnd < live.first ↔ h.newStart + h.newLength ≤ live.first := by
    simp only [Hunk.newEnd]
    omega
  simp only [run, he]
  by_cases hempty : h.newLength = 0
  · have hgap : h.newStart ≤ live.first ↔ h.newStart + h.newLength ≤ live.first := by omega
    rw [if_pos hempty]
    simp only [hgap]
    split
    · rfl
    · split
      · rfl
      · have ht : h.touches live := ⟨by omega, by omega⟩
        rw [deletedInside_eq_meet ht hempty]
  · simp only [hempty, if_false, replaced_eq_meet]

/-- Hunks below the range are not even read. -/
theorem run_below (hlive : live.Proper) (h : ∀ h ∈ hunks, live.last < h.newStart) :
    run live s hunks = s := by
  cases hunks with
  | nil => rfl
  | cons h' hunks =>
    have hbelow := h h' (List.mem_cons_self ..)
    have hle := hlive.2
    rw [run_cons hlive, if_neg (by omega), if_pos hbelow]

/-- Once the hunks start behind the first line, nothing moves that line any more. -/
theorem run_behind (hlive : live.Proper) (h : ∀ h ∈ hunks, live.first < h.newStart) :
    (run live s hunks).first = s.first ∧ (run live s hunks).pinnedFirst = s.pinnedFirst := by
  induction hunks generalizing s with
  | nil => exact ⟨rfl, rfl⟩
  | cons h' hunks ih =>
    have hh := h h' (List.mem_cons_self ..)
    rw [run_cons hlive, if_neg (by omega)]
    split
    · exact ⟨rfl, rfl⟩
    · have hrest := ih (s := s.meet live h') fun x hx => h x (List.mem_cons_of_mem _ hx)
      have hpin : ¬ h'.newStart ≤ live.first := by omega
      simpa only [meet, hpin, if_false] using hrest

theorem run_modified_of_modified (hlive : live.Proper) (h : s.modified = true) :
    (run live s hunks).modified = true := by
  induction hunks generalizing s with
  | nil => exact h
  | cons h' hunks ih =>
    rw [run_cons hlive]
    split
    · exact ih h
    · split
      · exact h
      · exact ih rfl

/-- A hunk that touches the inner range is read for the outer one too, in whatever order the hunks
come. -/
theorem run_modified_of_encloses {inner outer : LineRange} {s t : Shifting}
    (hinner : inner.Proper) (houter : outer.Proper) (hfirst : outer.first ≤ inner.first)
    (hlast : inner.last ≤ outer.last) (hs : s.modified = true → t.modified = true)
    (hmod : (run inner s hunks).modified = true) : (run outer t hunks).modified = true := by
  induction hunks generalizing s t with
  | nil => exact hs hmod
  | cons h hunks ih =>
    have hle := hinner.2
    rw [run_cons hinner] at hmod
    split at hmod
    · -- above the inner range: the outer one may reach up to the hunk, but lies not above it
      rw [run_cons houter, if_neg (c := outer.last < h.newStart) (by omega)]
      split
      · exact ih (s := s.moveBoth h) (t := t.moveBoth h) hs hmod
      · exact run_modified_of_modified houter rfl
    · split at hmod
      · exact run_modified_of_modified houter (hs hmod)
      · rw [run_cons houter, if_neg (by omega), if_neg (by omega)]
        exact run_modified_of_modified houter rfl

end

section
variable {live : LineRange} {s : Shifting} {hunks : List Hunk} {m n least old new : Nat}

theorem run_first (hs : ScriptFrom m n least old new hunks) (hlive : live.Proper)
    (hpin : s.pinnedFirst = none) :
    ((run live s hunks).bounds live).1 =
      older (fun h => h.oldStart) live.first s.first hunks := by
  simp only [bounds]
  induction hunks generalizing s least old new with
  | nil => simp only [run, older, hpin, Option.getD_none]
  | cons h hunks ih =>
    have hle := hlive.2
    rw [run_cons hlive, older]
    by_cases habove : h.newStart + h.newLength ≤ live.first
    · rw [if_pos habove, if_neg (by omega), if_neg (by omega)]
      exact ih hs.2 hpin
    · have hall : ∀ x ∈ hunks, live.first < x.newStart := fun x hx => by
        have := hs.2.le_newStart hx
        omega
      have hrest := run_behind (s := s.meet live h) hlive hall
      rw [if_neg habove]
      by_cases hfirst : live.first < h.newStart
      · have hpinned : ¬ h.newStart ≤ live.first := by omega
        rw [if_pos hfirst]
        split
        · rw [hpin, Option.getD_none]
        · rw [hrest.1, hrest.2]
          simp only [meet, hpinned, if_false, hpin, Option.getD_none]
      · have hpinned : h.newStart ≤ live.first := by omega
        have hbelow : ¬ live.last < h.newStart := by omega
        rw [if_neg hfirst, if_neg hbelow, if_pos (by omega), hrest.2]
        simp only [meet, hpinned, if_true, Option.getD_some]

theorem run_last (hs : ScriptFrom m n least old new hunks) (hlive : live.Proper)
    (hpin : s.pinnedLast = none) :
    ((run live s hunks).bounds live).2 = older Hunk.oldEnd live.last s.last hunks := by
  simp only [bounds]
  induction hunks generalizing s least old new with
  | nil => simp only [run, older, hpin, Option.getD_none]
  | cons h hunks ih =>
    have hle := hlive.2
    rw [run_cons hlive, older]
    by_cases habove : h.newStart + h.newLength ≤ live.first
    · rw [if_pos habove, if_neg (by omega), if_neg (by omega)]
      exact ih hs.2 hpin
    · rw [if_neg habove]
      by_cases hbelow : live.last < h.newStart
      · rw [if_pos hbelow, if_pos hbelow, hpin, Option.getD_none]
      · rw [if_neg hbelow, if_neg hbelow]
        by_cases hin : live.last < h.newStart + h.newLength
        · have hall : ∀ x ∈ hunks, live.last < x.newStart := fun x hx => by
            have := hs.2.le_newStart hx
            omega
          rw [if_pos hin, run_below hlive hall]
          simp only [meet, hin, if_true, Option.getD_some]
        · have hnext := ih (s := s.meet live h) hs.2 (by simp only [meet, hin, if_false, hpin])
          rw [if_neg hin, hnext]
          simp only [meet, hin, if_false]

theorem run_modified (hs : ScriptFrom m n least old new hunks) (hlive : live.Proper) :
    (run live s hunks).modified = true ↔ s.modified = true ∨ ∃ h ∈ hunks, h.touches live := by
  induction hunks generalizing s least old new with
  | nil => simp [run]
  | cons h hunks ih =>
    have hle := hlive.2
    rw [run_cons hlive]
    simp only [List.mem_cons, exists_eq_or_imp]
    split
    · next habove =>
      have hnot : ¬ h.touches live := fun ht => by
        have := ht.2
        omega
      rw [ih hs.2]
      simp only [moveBoth, hnot, false_or]
    · split
      · next hbelow =>
        have hnot : ¬ h.touches live := fun ht => by
          have := ht.1
          omega
        have hrest : ¬ ∃ x ∈ hunks, x.touches live := by
          rintro ⟨x, hx, ht⟩
          have := hs.2.le_newStart hx
          have := ht.1
          omega
        simp only [hnot, hrest, or_false]
      · next hbelow =>
        have ht : h.touches live := ⟨by omega, by omega⟩
        rw [ih hs.2]
        simp only [meet, ht, true_or, or_true]

end

end Shifting

/-! ## Ranges -/

namespace LineRange

/-- Whether the range consists of lines of a file of `n` lines. -/
def Within (r : LineRange) (n : Nat) : Prop := r.Proper ∧ r.last ≤ n

instance (r : LineRange) (n : Nat) : Decidable (r.Within n) :=
  inferInstanceAs (Decidable (_ ∧ _))

theorem encloses_iff {outer inner : LineRange} :
    outer.encloses inner = true ↔ outer.first ≤ inner.first ∧ inner.last ≤ outer.last := by
  simp only [encloses, Bool.and_eq_true, decide_eq_true_eq]

theorem ofIntBounds?_eq_some_iff {first last : Int} {r : LineRange} :
    ofIntBounds? first last = some r ↔ first = r.first ∧ last = r.last ∧ r.Within maxLine := by
  simp only [ofIntBounds?]
  split
  · rw [ofBounds?_eq_some_iff]
    constructor
    · rintro ⟨rfl, hp⟩
      exact ⟨by dsimp only; omega, by dsimp only; omega, hp, by dsimp only; omega⟩
    · rintro ⟨rfl, rfl, hp, -⟩
      exact ⟨rfl, hp⟩
  · next h =>
    constructor
    · intro hr
      cases hr
    · rintro ⟨rfl, rfl, hp, hmax⟩
      have := hp.2
      omega

section
variable {live inner outer r r' : LineRange} {hunks : List Hunk} {m n : Nat}

theorem retrace_modified_iff (hs : EditScript m n hunks) (hlive : live.Proper) :
    (live.retrace hunks).modified = true ↔ ∃ h ∈ hunks, h.touches live := by
  simp only [retrace, Shifting.run_modified hs hlive, Bool.false_eq_true, false_or]

/-- The two bounds of a range go to the older file independently of each other. -/
theorem retrace_range_eq_some_iff (hs : EditScript m n hunks) (hlive : live.Proper) :
    (live.retrace hunks).range = some r ↔
      older (fun h => h.oldStart) live.first 0 hunks = r.first ∧
        older Hunk.oldEnd live.last 0 hunks = r.last ∧ r.Within maxLine := by
  have hfirst := Shifting.run_first (s := {}) hs hlive rfl
  have hlast := Shifting.run_last (s := {}) hs hlive rfl
  simp only [retrace, ofIntBounds?_eq_some_iff, hfirst, hlast]

/-- A range of the newer file becomes a range of the older one. -/
theorem retrace_within (hs : EditScript m n hunks) (hlive : live.Within n)
    (hr : (live.retrace hunks).range = some r) : r.Within m := by
  obtain ⟨-, hlast, hmax⟩ := (retrace_range_eq_some_iff hs hlive.1).mp hr
  have hle := hs.older_le Hunk.pinnedBy_oldEnd hlive.2
  exact ⟨hmax.1, by omega⟩

/-- The lines of a file of at most `maxLine` lines all fit a range, so a range gets lost on the way
to it only if its bounds cross. -/
theorem retrace_isSome_iff (hs : EditScript m n hunks) (hlive : live.Within n)
    (hm : m ≤ maxLine) :
    (∃ r, (live.retrace hunks).range = some r) ↔
      older (fun h => h.oldStart) live.first 0 hunks ≤ older Hunk.oldEnd live.last 0 hunks := by
  have hge := hs.le_older Hunk.pinnedBy_oldStart hlive.1.1
  have hle := hs.older_le Hunk.pinnedBy_oldEnd hlive.2
  constructor
  · rintro ⟨r, hr⟩
    obtain ⟨hfirst, hlast, hmax⟩ := (retrace_range_eq_some_iff hs hlive.1).mp hr
    have := hmax.1.2
    omega
  · intro h
    refine ⟨⟨(older (fun h => h.oldStart) live.first 0 hunks).toNat,
      (older Hunk.oldEnd live.last 0 hunks).toNat⟩, ?_⟩
    rw [retrace_range_eq_some_iff hs hlive.1]
    exact ⟨by dsimp only; omega, by dsimp only; omega, ⟨by dsimp only; omega, by dsimp only; omega⟩,
      by dsimp only; omega⟩

/-! ## Nested ranges -/

/-- Nested ranges stay nested. -/
theorem retrace_encloses (hs : EditScript m n hunks) (hinner : inner.Proper)
    (houter : outer.Proper) (he : outer.encloses inner = true)
    (hr : (inner.retrace hunks).range = some r) (hr' : (outer.retrace hunks).range = some r') :
    r'.encloses r = true := by
  rw [encloses_iff] at he ⊢
  obtain ⟨hfirst, hlast, -⟩ := (retrace_range_eq_some_iff hs hinner).mp hr
  obtain ⟨hfirst', hlast', -⟩ := (retrace_range_eq_some_iff hs houter).mp hr'
  have := hs.older_mono Hunk.pinnedBy_oldStart he.1
  have := hs.older_mono Hunk.pinnedBy_oldEnd he.2
  omega

/-- An outer range does not get lost before an inner one. -/
theorem retrace_isSome_of_encloses (hs : EditScript m n hunks) (hinner : inner.Proper)
    (houter : outer.Within n) (he : outer.encloses inner = true) (hm : m ≤ maxLine)
    (hr : (inner.retrace hunks).range = some r) : ∃ r', (outer.retrace hunks).range = some r' := by
  rw [encloses_iff] at he
  obtain ⟨hfirst, hlast, hmax⟩ := (retrace_range_eq_some_iff hs hinner).mp hr
  rw [retrace_isSome_iff hs houter hm]
  have := hs.older_mono Hunk.pinnedBy_oldStart he.1
  have := hs.older_mono Hunk.pinnedBy_oldEnd he.2
  have := hmax.1.2
  omega

/-- What modifies an inner range modifies the outer one. -/
theorem retrace_modified_of_encloses (hinner : inner.Proper) (houter : outer.Proper)
    (he : outer.encloses inner = true) (hmod : (inner.retrace hunks).modified = true) :
    (outer.retrace hunks).modified = true := by
  obtain ⟨hfirst, hlast⟩ := encloses_iff.mp he
  exact Shifting.run_modified_of_encloses hinner houter hfirst hlast id hmod

/-! ## Ranges that no hunk touches -/

/-- No line of a range that is not modified is replaced, and the hunks above each of its lines are
those above the range. -/
theorem unmodified_line (hs : EditScript m n hunks) (hlive : live.Proper)
    (hmod : (live.retrace hunks).modified = false) {line : Nat} (hfirst : live.first ≤ line)
    (hlast : line ≤ live.last) :
    (∀ h ∈ hunks, ¬ h.covers line) ∧ shiftAbove line hunks = shiftAbove live.first hunks := by
  have hnot : ∀ h ∈ hunks, ¬ h.touches live := by
    intro h hh ht
    rw [(retrace_modified_iff hs hlive).mpr ⟨h, hh, ht⟩] at hmod
    cases hmod
  clear hs hmod
  induction hunks with
  | nil => exact ⟨by simp, rfl⟩
  | cons h hunks ih =>
    obtain ⟨hcovers, hshift⟩ := ih fun h hh => hnot h (List.mem_cons_of_mem _ hh)
    have hh := hnot h (List.mem_cons_self ..)
    simp only [Hunk.touches] at hh
    have habove : h.newStart + h.newLength ≤ line ↔ h.newStart + h.newLength ≤ live.first := by
      omega
    constructor
    · rintro x (_ | ⟨_, hx⟩)
      · simp only [Hunk.covers]
        omega
      · exact hcovers x hx
    · simp only [shiftAbove, habove, hshift]

/-- A range that is not modified moves as a whole. -/
theorem retrace_unmodified (hs : EditScript m n hunks) (hlive : live.Proper)
    (hmod : (live.retrace hunks).modified = false) (hr : (live.retrace hunks).range = some r) :
    (r.first : Int) = live.first + shiftAbove live.first hunks ∧
      (r.last : Int) = live.last + shiftAbove live.first hunks := by
  obtain ⟨hfirst, hlast, -⟩ := (retrace_range_eq_some_iff hs hlive).mp hr
  have h₁ := unmodified_line hs hlive hmod Nat.le.refl hlive.2
  have h₂ := unmodified_line hs hlive hmod hlive.2 Nat.le.refl
  rw [ScriptFrom.older_eq hs h₁.1] at hfirst
  rw [ScriptFrom.older_eq hs h₂.1, h₂.2] at hlast
  omega

end

end LineRange

end DocDrift
