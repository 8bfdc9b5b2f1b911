import DocDrift.Proofs.Lines.Retrace
import Mathlib.Order.Bounds.Basic

/-!
# What a range stands for

The lines of the older file that a range stands for are the images of its lines that no hunk
replaces, the older sides of the hunks that replace one of its lines, and the lines deleted between
two of its lines. `LineRange.retrace` gives the least range that holds all of them, and none if
there are none.
-/

namespace DocDrift

theorem LineRange.contains_iff {r : LineRange} {line : Nat} :
    r.contains line = true ↔ r.first ≤ line ∧ line ≤ r.last := by
  simp only [contains, Bool.and_eq_true, decide_eq_true_eq]

namespace Hunk

/-- Whether the line is one of those on the older side of the hunk. -/
def replaces (h : Hunk) (line : Nat) : Prop :=
  h.oldStart ≤ line ∧ line < h.oldStart + h.oldLength

/-- Whether the hunk replaces a line of the range by others, or by none. -/
def consumes (h : Hunk) (live : LineRange) : Prop :=
  ∃ line, live.contains line = true ∧ h.covers line

/-- Whether the hunk only deletes lines, and does so between two lines of the range. -/
def deletesInside (h : Hunk) (live : LineRange) : Prop :=
  h.isDeletion = true ∧ live.first < h.newStart ∧ h.newStart ≤ live.last

/-- Whether the hunk only inserts lines, those of the range among them. -/
def inserts (h : Hunk) (live : LineRange) : Prop :=
  h.isInsertion = true ∧ h.covers live.first ∧ h.covers live.last

end Hunk

/-- A range of the newer file stands for a line of the older one. -/
inductive Ancestor (hunks : List Hunk) (live : LineRange) : Nat → Prop
  | kept {line old : Nat} : live.contains line = true → (∀ h ∈ hunks, ¬ h.covers line) →
      (old : Int) = line + shiftAbove line hunks → Ancestor hunks live old
  | replaced {h : Hunk} {old : Nat} : h ∈ hunks → h.consumes live → h.replaces old →
      Ancestor hunks live old
  | deleted {h : Hunk} {old : Nat} : h ∈ hunks → h.deletesInside live → h.replaces old →
      Ancestor hunks live old

/-! ## The lines beside a hunk -/

section
variable {m n least old new : Nat} {hunks : List Hunk} {h h' : Hunk} {pin : Hunk → Int}

theorem ScriptFrom.add_least_le (hs : ScriptFrom m n least old new hunks) (hh : h ∈ hunks) :
    new + least ≤ h.newStart := by
  induction hunks generalizing least old new with
  | nil => cases hh
  | cons head hunks ih =>
    obtain ⟨⟨skipped, hl, ho, hn⟩, hrest⟩ := hs
    cases hh with
    | head => omega
    | tail _ hh =>
      have := ih hrest hh
      omega

/-- Two hunks of a script do not even touch each other. -/
theorem ScriptFrom.apart (hs : ScriptFrom m n least old new hunks) (hh : h ∈ hunks)
    (hh' : h' ∈ hunks) :
    h = h' ∨ h.newStart + h.newLength < h'.newStart ∨ h'.newStart + h'.newLength < h.newStart := by
  induction hunks generalizing least old new with
  | nil => cases hh
  | cons head hunks ih =>
    cases hh with
    | head =>
      cases hh' with
      | head => exact .inl rfl
      | tail _ hh' => exact .inr (.inl (hs.2.add_least_le hh'))
    | tail _ hh =>
      cases hh' with
      | head => exact .inr (.inr (hs.2.add_least_le hh))
      | tail _ hh' => exact ih hs.2 hh hh'

theorem ScriptFrom.older_of_covers (hs : ScriptFrom m n least old new hunks) (hh : h ∈ hunks)
    {line : Nat} (hc : h.covers line) (moved : Int) : older pin line moved hunks = pin h := by
  induction hunks generalizing least old new moved with
  | nil => cases hh
  | cons head hunks ih =>
    obtain ⟨hfirst, hlast⟩ := hc
    cases hh with
    | head => rw [older, if_neg (by omega), if_pos hlast]
    | tail _ hh =>
      have := hs.2.add_least_le hh
      rw [older, if_neg (by omega), if_neg (by omega)]
      exact ih hs.2 hh _

/-- The line in front of a hunk stays the line in front of it. -/
theorem ScriptFrom.older_before (hs : ScriptFrom m n least old new hunks) (hh : h ∈ hunks)
    {line : Nat} (hnew : new ≤ line) (hline : line + 1 = h.newStart) :
    older pin line (old - new) hunks = h.oldStart - 1 := by
  induction hunks generalizing least old new with
  | nil => cases hh
  | cons head hunks ih =>
    obtain ⟨⟨skipped, -, ho, hn⟩, hrest⟩ := hs
    cases hh with
    | head =>
      rw [older, if_pos (by omega)]
      omega
    | tail _ hh =>
      have := hrest.add_least_le hh
      rw [older, if_neg (by omega), if_neg (by omega), moved_add_shift ho hn]
      exact ih hrest hh (by omega)

/-- The line behind a hunk stays the line behind it. -/
theorem ScriptFrom.older_behind (hs : ScriptFrom m n least old new hunks) (hh : h ∈ hunks) :
    older pin (h.newStart + h.newLength) (old - new) hunks = h.oldStart + h.oldLength := by
  induction hunks generalizing least old new with
  | nil => cases hh
  | cons head hunks ih =>
    obtain ⟨⟨skipped, -, ho, hn⟩, hrest⟩ := hs
    cases hh with
    | head =>
      rw [older, if_neg (by omega), if_neg (by omega), moved_add_shift ho hn]
      cases hunks with
      | nil =>
        rw [older]
        omega
      | cons next hunks =>
        have := hrest.add_least_le (List.mem_cons_self ..)
        rw [older, if_pos (by omega)]
        omega
    | tail _ hh =>
      have := hrest.add_least_le hh
      rw [older, if_neg (by omega), if_neg (by omega), moved_add_shift ho hn]
      exact ih hrest hh

theorem ScriptFrom.not_covers_before (hs : ScriptFrom m n least old new hunks) (hh : h ∈ hunks)
    {line : Nat} (hline : line + 1 = h.newStart) : ∀ h' ∈ hunks, ¬ h'.covers line := by
  intro h' hh' hc
  obtain ⟨hfirst, hlast⟩ := hc
  rcases hs.apart hh hh' with rfl | hlt | hlt <;> omega

theorem ScriptFrom.not_covers_behind (hs : ScriptFrom m n least old new hunks) (hh : h ∈ hunks) :
    ∀ h' ∈ hunks, ¬ h'.covers (h.newStart + h.newLength) := by
  intro h' hh' hc
  obtain ⟨hfirst, hlast⟩ := hc
  rcases hs.apart hh hh' with rfl | hlt | hlt <;> omega

end

/-! ## The bounds of the ancestors -/

section
variable {m n old : Nat} {hunks : List Hunk} {live : LineRange}

theorem Ancestor.first_le (hs : EditScript m n hunks) (hlive : live.Within n)
    (ha : Ancestor hunks live old) : older (fun h => h.oldStart) live.first 0 hunks ≤ old := by
  cases ha with
  | @kept line _ hline hkept hold =>
    have hmono := hs.older_mono Hunk.pinnedBy_oldStart (LineRange.contains_iff.mp hline).1
    rw [ScriptFrom.older_eq hs hkept] at hmono
    omega
  | @replaced h _ hh hc hold =>
    obtain ⟨line, hline, hc⟩ := hc
    have hmono := hs.older_mono Hunk.pinnedBy_oldStart (LineRange.contains_iff.mp hline).1
    rw [ScriptFrom.older_of_covers hs hh hc] at hmono
    have := hold.1
    omega
  | @deleted h _ hh hd hold =>
    obtain ⟨-, hfirst, -⟩ := hd
    have hpos := hlive.1.1
    have hmono := hs.older_mono Hunk.pinnedBy_oldStart (Nat.le_sub_one_of_lt hfirst)
    have hbefore : older (fun h => h.oldStart) (h.newStart - 1) 0 hunks = h.oldStart - 1 :=
      ScriptFrom.older_before hs hh (by omega) (by omega)
    have := hold.1
    omega

theorem Ancestor.le_last (hs : EditScript m n hunks) (ha : Ancestor hunks live old) :
    old ≤ older Hunk.oldEnd live.last 0 hunks := by
  cases ha with
  | @kept line _ hline hkept hold =>
    have hmono := hs.older_mono Hunk.pinnedBy_oldEnd (LineRange.contains_iff.mp hline).2
    rw [ScriptFrom.older_eq hs hkept] at hmono
    omega
  | @replaced h _ hh hc hold =>
    obtain ⟨line, hline, hc⟩ := hc
    have hmono := hs.older_mono Hunk.pinnedBy_oldEnd (LineRange.contains_iff.mp hline).2
    rw [ScriptFrom.older_of_covers hs hh hc, Hunk.oldEnd] at hmono
    have := hold.2
    omega
  | @deleted h _ hh hd hold =>
    obtain ⟨hdel, -, hlast⟩ := hd
    have hempty : h.newLength = 0 := by
      simp only [Hunk.isDeletion, Bool.and_eq_true, beq_iff_eq] at hdel
      exact hdel.1
    have hle : h.newStart + h.newLength ≤ live.last := by omega
    have hmono := hs.older_mono Hunk.pinnedBy_oldEnd hle
    have hbehind : older Hunk.oldEnd (h.newStart + h.newLength) 0 hunks =
        h.oldStart + h.oldLength := ScriptFrom.older_behind hs hh
    have := hold.2
    omega

theorem Ancestor.of_older {pin : Hunk → Int} {line : Nat} (hs : EditScript m n hunks)
    (hline : live.contains line = true) (hkept : ∀ h ∈ hunks, ¬ h.covers line)
    (hold : older pin line 0 hunks = old) : Ancestor hunks live old := by
  rw [ScriptFrom.older_eq hs hkept] at hold
  exact .kept hline hkept (by omega)

theorem Hunk.isInsertion_of_covers {h : Hunk} {line : Nat} (hc : h.covers line)
    (hzero : h.oldLength = 0) : h.isInsertion = true := by
  obtain ⟨hfirst, hlast⟩ := hc
  have hpos : 0 < h.newLength := by omega
  simp only [Hunk.isInsertion, hzero, hpos, decide_true, Bool.and_self, beq_self_eq_true]

/-- The first line goes to an ancestor, unless some hunk has inserted the whole range. -/
theorem Ancestor.first (hs : EditScript m n hunks) (hlive : live.Proper)
    (hno : ∀ h ∈ hunks, ¬ h.inserts live)
    (hold : older (fun h => h.oldStart) live.first 0 hunks = old) : Ancestor hunks live old := by
  have hin : live.contains live.first = true := LineRange.contains_iff.mpr ⟨Nat.le.refl, hlive.2⟩
  by_cases hkept : ∀ h ∈ hunks, ¬ h.covers live.first
  · exact .of_older hs hin hkept hold
  · push Not at hkept
    obtain ⟨h, hh, hc⟩ := hkept
    have hstart : h.oldStart = old := by
      rw [ScriptFrom.older_of_covers hs hh hc] at hold
      exact Int.ofNat.inj hold
    rcases Nat.eq_zero_or_pos h.oldLength with hzero | hpos
    · -- the range goes on behind the insertion, with a line that no hunk replaces
      have hlast : h.newStart + h.newLength ≤ live.last := by
        by_contra hlt
        have hc' : h.covers live.last := ⟨Nat.le_trans hc.1 hlive.2, Nat.lt_of_not_le hlt⟩
        exact hno h hh ⟨Hunk.isInsertion_of_covers hc hzero, hc, hc'⟩
      have hbehind : older Hunk.oldEnd (h.newStart + h.newLength) 0 hunks =
          h.oldStart + h.oldLength := ScriptFrom.older_behind hs hh
      apply Ancestor.of_older hs _ (ScriptFrom.not_covers_behind hs hh) (hbehind.trans (by omega))
      exact LineRange.contains_iff.mpr ⟨Nat.le_of_lt hc.2, hlast⟩
    · exact .replaced hh ⟨live.first, hin, hc⟩ ⟨by omega, by omega⟩

/-- The last line goes to an ancestor, unless some hunk has inserted the whole range. -/
theorem Ancestor.last (hs : EditScript m n hunks) (hlive : live.Proper)
    (hno : ∀ h ∈ hunks, ¬ h.inserts live)
    (hold : older Hunk.oldEnd live.last 0 hunks = old) : Ancestor hunks live old := by
  have hin : live.contains live.last = true := LineRange.contains_iff.mpr ⟨hlive.2, Nat.le.refl⟩
  by_cases hkept : ∀ h ∈ hunks, ¬ h.covers live.last
  · exact .of_older hs hin hkept hold
  · push Not at hkept
    obtain ⟨h, hh, hc⟩ := hkept
    have hend : (h.oldStart + h.oldLength : Int) - 1 = old := by
      rw [ScriptFrom.older_of_covers hs hh hc, Hunk.oldEnd] at hold
      exact hold
    rcases Nat.eq_zero_or_pos h.oldLength with hzero | hpos
    · -- the range begins above the insertion, with a line that no hunk replaces
      have hfirst : live.first < h.newStart := by
        by_contra hle
        have hc' : h.covers live.first :=
          ⟨Nat.le_of_not_lt hle, Nat.lt_of_le_of_lt hlive.2 hc.2⟩
        exact hno h hh ⟨Hunk.isInsertion_of_covers hc hzero, hc', hc⟩
      have hpos := hlive.1
      have hline : h.newStart - 1 + 1 = h.newStart := by omega
      have hbefore : older Hunk.oldEnd (h.newStart - 1) 0 hunks = h.oldStart - 1 :=
        ScriptFrom.older_before hs hh (by omega) hline
      apply Ancestor.of_older hs _ (ScriptFrom.not_covers_before hs hh hline)
        (hbefore.trans (by omega))
      have := hc.1
      exact LineRange.contains_iff.mpr ⟨by omega, by omega⟩
    · exact .replaced hh ⟨live.last, hin, hc⟩ ⟨by omega, by omega⟩

/-- A range that was inserted as a whole goes nowhere and stands for nothing. -/
theorem retrace_of_inserts (hs : EditScript m n hunks) (hlive : live.Within n) {h : Hunk}
    (hh : h ∈ hunks) (hi : h.inserts live) :
    (live.retrace hunks).range = none ∧ ∀ old, ¬ Ancestor hunks live old := by
  obtain ⟨hins, hc, hc'⟩ := hi
  have hfirst : older (fun h => h.oldStart) live.first 0 hunks = h.oldStart :=
    ScriptFrom.older_of_covers hs hh hc 0
  have hlast : older Hunk.oldEnd live.last 0 hunks = h.oldStart - 1 := by
    simp only [Hunk.isInsertion, Bool.and_eq_true, beq_iff_eq] at hins
    rw [ScriptFrom.older_of_covers hs hh hc', Hunk.oldEnd, hins.1]
    omega
  constructor
  · apply Option.eq_none_iff_forall_ne_some.mpr
    intro r hr
    obtain ⟨hr₁, hr₂, hproper, -⟩ := (LineRange.retrace_range_eq_some_iff hs hlive.1).mp hr
    have := hproper.2
    omega
  · intro old ha
    have := ha.first_le hs hlive
    have := ha.le_last hs
    omega

/-- A range that was not inserted as a whole goes to the hull of its ancestors. -/
theorem exists_hull (hs : EditScript m n hunks) (hlive : live.Within n) (hm : m ≤ maxLine)
    (hno : ∀ h ∈ hunks, ¬ h.inserts live) :
    ∃ r, (live.retrace hunks).range = some r ∧ r.Within m ∧
      IsLeast {old | Ancestor hunks live old} r.first ∧
      IsGreatest {old | Ancestor hunks live old} r.last := by
  have hge := hs.le_older Hunk.pinnedBy_oldStart hlive.1.1
  have hnonneg : 0 ≤ older (fun h => h.oldStart) live.first 0 hunks := by omega
  have hancestor := Ancestor.first hs hlive.1 hno (Int.toNat_of_nonneg hnonneg).symm
  have hle := hancestor.le_last hs
  rw [Int.toNat_of_nonneg hnonneg] at hle
  obtain ⟨r, hr⟩ := (LineRange.retrace_isSome_iff hs hlive hm).mpr hle
  obtain ⟨hfirst, hlast, -⟩ := (LineRange.retrace_range_eq_some_iff hs hlive.1).mp hr
  refine ⟨r, hr, LineRange.retrace_within hs hlive hr, ⟨?_, ?_⟩, ⟨?_, ?_⟩⟩
  · exact Ancestor.first hs hlive.1 hno hfirst
  · intro old ha
    have := ha.first_le hs hlive
    omega
  · exact Ancestor.last hs hlive.1 hno hlast
  · intro old ha
    have := ha.le_last hs
    omega

theorem Hunk.touches_iff {h : Hunk} (hlive : live.Proper) (hne : 0 < h.oldLength + h.newLength) :
    h.touches live ↔ h.consumes live ∨ h.deletesInside live := by
  have hle := hlive.2
  constructor
  · intro ht
    obtain ⟨hlast, hfirst⟩ := ht
    rcases Nat.eq_zero_or_pos h.newLength with hzero | hpos
    · have hold : 0 < h.oldLength := by omega
      exact .inr ⟨by simp [Hunk.isDeletion, hzero, hold], by omega, hlast⟩
    · refine .inl ⟨max live.first h.newStart, LineRange.contains_iff.mpr ?_, ?_⟩
      · omega
      · constructor <;> omega
  · intro ht
    rcases ht with ⟨line, hline, hc⟩ | ⟨hdel, hfirst, hlast⟩
    · obtain ⟨hmin, hmax⟩ := LineRange.contains_iff.mp hline
      obtain ⟨hc, hc'⟩ := hc
      constructor <;> omega
    · constructor <;> omega

end

/-- A range of the newer file goes to the hull of the lines that it stands for in the older one, and
to nothing if there are none, which is so exactly if one hunk has inserted the whole range. It is
modified exactly if a hunk replaces one of its lines or deletes lines between two of them. -/
theorem retrace_eq_hull {m n : Nat} {hunks : List Hunk} {live : LineRange}
    (hs : EditScript m n hunks) (hne : ∀ h ∈ hunks, 0 < h.oldLength + h.newLength)
    (hm : m ≤ maxLine) (hlive : live.Within n) :
    (∀ r, (live.retrace hunks).range = some r ↔
      IsLeast {old | Ancestor hunks live old} r.first ∧
        IsGreatest {old | Ancestor hunks live old} r.last) ∧
    ((live.retrace hunks).range = none ↔ ∀ old, ¬ Ancestor hunks live old) ∧
    ((∀ old, ¬ Ancestor hunks live old) ↔ ∃ h ∈ hunks, h.inserts live) ∧
    (∀ r, (live.retrace hunks).range = some r → r.Within m) ∧
    ((live.retrace hunks).modified = true ↔
      ∃ h ∈ hunks, h.consumes live ∨ h.deletesInside live) := by
  have hmod : (live.retrace hunks).modified = true ↔
      ∃ h ∈ hunks, h.consumes live ∨ h.deletesInside live := by
    rw [LineRange.retrace_modified_iff hs hlive.1]
    apply exists_congr
    intro h
    apply and_congr_right
    intro hh
    exact Hunk.touches_iff hlive.1 (hne h hh)
  by_cases hins : ∃ h ∈ hunks, h.inserts live
  · obtain ⟨h, hh, hi⟩ := hins
    obtain ⟨hnone, hno⟩ := retrace_of_inserts hs hlive hh hi
    refine ⟨fun r => ?_, ⟨fun _ => hno, fun _ => hnone⟩, ⟨fun _ => ⟨h, hh, hi⟩, fun _ => hno⟩, ?_,
      hmod⟩
    · constructor
      · intro hr
        cases hnone.symm.trans hr
      · intro hr
        exact absurd hr.1.1 (hno r.first)
    · intro r hr
      cases hnone.symm.trans hr
  · have hno : ∀ h ∈ hunks, ¬ h.inserts live := fun h hh hi => hins ⟨h, hh, hi⟩
    obtain ⟨r, hr, hwithin, hleast, hgreatest⟩ := exists_hull hs hlive hm hno
    have hsome : ¬ ∀ old, ¬ Ancestor hunks live old := fun hall => hall r.first hleast.1
    refine ⟨fun r' => ?_, ⟨fun hnone => ?_, fun hall => absurd hall hsome⟩,
      ⟨fun hall => absurd hall hsome, fun hi => absurd hi hins⟩, fun r' hr' => ?_, hmod⟩
    · constructor
      · intro hr'
        cases hr.symm.trans hr'
        exact ⟨hleast, hgreatest⟩
      · intro hhull
        have hfirst := hleast.unique hhull.1
        have hlast := hgreatest.unique hhull.2
        rw [hr]
        cases r
        cases r'
        cases hfirst
        cases hlast
        rfl
    · cases hr.symm.trans hnone
    · cases hr.symm.trans hr'
      exact hwithin

/-- The first two lines of the range were inserted in front of line 2 and the last two replace lines
3 to 5; the deletion of line 8 is out of reach. -/
theorem retrace_eq_hull_straddled :
    let hunks : List Hunk := [⟨2, 0, 2, 3⟩, ⟨3, 3, 6, 2⟩, ⟨8, 1, 10, 0⟩]
    let live : LineRange := ⟨3, 7⟩
    EditScript 9 10 hunks ∧ (∀ h ∈ hunks, 0 < h.oldLength + h.newLength) ∧ 9 ≤ maxLine ∧
      live.Within 10 ∧ live.retrace hunks = ⟨some ⟨2, 5⟩, true⟩ ∧
      IsLeast {old | Ancestor hunks live old} 2 ∧ IsGreatest {old | Ancestor hunks live old} 5 := by
  intro hunks live
  have hs : EditScript 9 10 hunks := by decide
  have hne : ∀ h ∈ hunks, 0 < h.oldLength + h.newLength := by decide
  have hlive : live.Within 10 := by decide
  have hr : live.retrace hunks = ⟨some ⟨2, 5⟩, true⟩ := by decide
  have hhull := ((retrace_eq_hull hs hne (by decide) hlive).1 ⟨2, 5⟩).mp (by rw [hr])
  exact ⟨hs, hne, by decide, hlive, hr, hhull⟩

end DocDrift
