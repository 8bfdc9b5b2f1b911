import DocDrift.Check.Conclusion
import DocDrift.Proofs.Report.Lines
import Mathlib.Data.List.Basic
import Mathlib.Tactic.Push

/-!
# Outdated units in the outputs

A unit is outdated if it changed more often than tolerated. The text report marks the outdated
units, the list for editors has a line for each of them, and the exit status tells whether there is
one. All three speak of the same units. Tolerating more changes leaves some of these units out and
adds none, and nothing else in any report depends on how many changes are tolerated.
-/

namespace DocDrift.Report

def Subject.outdated (maxChanges : Nat) (u : Subject) : Bool :=
  decide (maxChanges < u.2.changesSinceCount)

/-! ## Marks in the text -/

def beforeMark (u : Subject) : String :=
  titleLine u.1.path u.2.unit ++ "\n" ++ (docLine u ++ "\n" ++ countText u.2.changesSinceCount)

def afterMark (u : Subject) : String :=
  if u.2.truncatedByRename then "\n" ++ (renameNote ++ "\n") else "\n"

/-- The text about some units in which those have a mark that the flags say. -/
def markedText : List Bool → List Subject → String
  | marked :: marks, u :: rest =>
    beforeMark u ++ (markText marked ++ (afterMark u ++ markedText marks rest))
  | _, _ => ""

/-- The texts differ from one another where one has a mark and the other has none: the mark does not
begin with the line feed that stands in its place. -/
theorem markText_append_inj {marked marked' : Bool} {u : Subject} {s t : String}
    (h : markText marked ++ (afterMark u ++ s) = markText marked' ++ (afterMark u ++ t)) :
    marked = marked' ∧ s = t := by
  have hfeed : ∀ r, ((afterMark u) ++ r).toList.head? = some '\n' := by
    intro r
    unfold afterMark
    split <;> simp
  have hblank : ∀ r, (markText true ++ r).toList.head? = some ' ' := by
    intro r
    simp [markText]
  have hempty : ∀ r, markText false ++ r = r := fun r => String.empty_append
  cases marked with
  | false =>
    cases marked' with
    | false =>
      rw [String.append_right_inj, String.append_right_inj] at h
      exact ⟨rfl, h⟩
    | true =>
      have := hblank (afterMark u ++ t)
      rw [← h, hempty, hfeed] at this
      cases this
  | true =>
    cases marked' with
    | false =>
      have := hblank (afterMark u ++ s)
      rw [h, hempty, hfeed] at this
      cases this
    | true =>
      rw [String.append_right_inj, String.append_right_inj] at h
      exact ⟨rfl, h⟩

/-- The text shows which units have a mark. -/
theorem markedText_inj {us : List Subject} {marks marks' : List Bool}
    (hlen : marks.length = us.length) (hlen' : marks'.length = us.length)
    (h : markedText marks us = markedText marks' us) : marks = marks' := by
  induction us generalizing marks marks' with
  | nil => rw [List.length_eq_zero_iff.mp hlen, List.length_eq_zero_iff.mp hlen']
  | cons u rest ih =>
    cases marks with
    | nil => cases hlen
    | cons marked marks =>
      cases marks' with
      | nil => cases hlen'
      | cons marked' marks' =>
        rw [markedText, markedText, String.append_right_inj] at h
        obtain ⟨rfl, hrest⟩ := markText_append_inj h
        rw [ih (Nat.succ.inj hlen) (Nat.succ.inj hlen') hrest]

theorem unlines_append (ls ms : List String) : unlines (ls ++ ms) = unlines ls ++ unlines ms := by
  simp [unlines]

theorem unlines_textLines (maxChanges : Nat) (u : Subject) :
    unlines (textLines maxChanges u.1 u.2) =
      beforeMark u ++ (markText (u.outdated maxChanges) ++ afterMark u) := by
  rw [textLines_eq]
  unfold beforeMark afterMark Subject.outdated
  cases u.2.truncatedByRename <;> simp [unlines, String.append_assoc]

theorem render_text (maxChanges : Nat) (analyses : List FileAnalysis) :
    render .text maxChanges analyses =
      markedText ((subjects analyses).map (Subject.outdated maxChanges)) (subjects analyses) := by
  have hunits : ∀ us : List Subject, unlines (us.flatMap fun u => textLines maxChanges u.1 u.2) =
      markedText (us.map (Subject.outdated maxChanges)) us := by
    intro us
    induction us with
    | nil => rfl
    | cons u rest ih =>
      rw [List.flatMap_cons, unlines_append, ih, unlines_textLines, List.map_cons, markedText,
        String.append_assoc, String.append_assoc]
  exact hunits (subjects analyses)

/-! ## The list for editors -/

def lintEntries (maxChanges : Nat) (analyses : List FileAnalysis) : List String :=
  ((subjects analyses).filter (Subject.outdated maxChanges)).map fun u =>
    lintEntry u.1.path u.2.unit u.2.changesSinceCount

theorem unlines_eq_empty_iff {ls : List String} : unlines ls = "" ↔ ls = [] := by
  cases ls with
  | nil => exact iff_of_true rfl rfl
  | cons l ls =>
    refine iff_of_false ?_ (List.cons_ne_nil _ _)
    simp only [unlines, List.map_cons, String.join_cons, String.append_eq_empty_iff]
    rintro ⟨⟨-, hfeed⟩, -⟩
    exact absurd hfeed (by decide)

theorem outdated_mono {maxChanges maxChanges' : Nat} (h : maxChanges ≤ maxChanges') (u : Subject)
    (hu : u.outdated maxChanges' = true) : u.outdated maxChanges = true := by
  simp only [Subject.outdated, decide_eq_true_eq] at *
  omega

/-- Who tolerates more is told of some of the same units, in the same order. -/
theorem lintEntries_sublist {maxChanges maxChanges' : Nat} (h : maxChanges ≤ maxChanges')
    (analyses : List FileAnalysis) :
    (lintEntries maxChanges' analyses).Sublist (lintEntries maxChanges analyses) := by
  apply List.Sublist.map
  exact List.monotone_filter_right _ (outdated_mono h)

theorem render_lint_ne_empty_iff {maxChanges : Nat} {analyses : List FileAnalysis} :
    render .lint maxChanges analyses ≠ "" ↔
      ∃ u ∈ subjects analyses, Subject.outdated maxChanges u = true := by
  have hlines : render .lint maxChanges analyses = unlines (lintEntries maxChanges analyses) :=
    render_lint_eq maxChanges analyses
  rw [hlines, ne_eq, unlines_eq_empty_iff, lintEntries, List.map_eq_nil_iff,
    List.filter_eq_nil_iff]
  push Not
  rfl

/-! ## The exit status -/

/-- Whether the unit, were it the only one, would show in the exit status. -/
def Subject.raises (maxChanges : Nat) (u : Subject) : Bool :=
  Check.status ⟨.text, maxChanges, true⟩ [{ u.1 with units := [u.2] }] [] == 1

theorem status_eq_one_iff {format : OutputFormat} {maxChanges : Nat}
    {analyses : List FileAnalysis} :
    Check.status ⟨format, maxChanges, true⟩ analyses [] = 1 ↔
      ∃ u ∈ subjects analyses, Subject.outdated maxChanges u = true := by
  have hnone : outdated maxChanges analyses = [] ↔
      ¬ ∃ u ∈ subjects analyses, Subject.outdated maxChanges u = true := by
    rw [outdated, List.filter_eq_nil_iff]
    push Not
    rfl
  rw [Check.status]
  by_cases h : outdated maxChanges analyses = []
  · simp [h, hnone.mp h]
  · simp [h, not_not.mp (mt hnone.mpr h), Check.outdatedStatus]

theorem raises_eq_outdated (maxChanges : Nat) (u : Subject) :
    u.raises maxChanges = u.outdated maxChanges := by
  rw [Bool.eq_iff_iff, Subject.raises, beq_iff_eq, status_eq_one_iff]
  simp [subjects, Subject.outdated]

theorem conclude_status_ok (style : Check.Style) (paths : List Path)
    (analyses : List FileAnalysis) :
    (Check.conclude style paths (analyses.map .ok)).status = Check.status style analyses [] := by
  have hanalyses : Check.analyses (analyses.map .ok) = analyses := by
    rw [Check.analyses, List.filterMap_map]
    exact List.filterMap_some
  have hskipped : Check.skipped paths (analyses.map .ok) = [] := by
    rw [Check.skipped, List.filterMap_eq_nil_iff]
    intro result hresult
    obtain ⟨a, -, ha⟩ := List.mem_map.mp (List.of_mem_zip hresult).2
    rw [← ha]
  rw [Check.conclude, hanalyses, hskipped]

/-! ## Agreement -/

/-- All outputs of a check say the same about outdated units: the marks of the text stand at them,
the list for editors has an entry for each of them in order, and each of them, but no other unit,
shows in the exit status. So unless files are skipped, the status tells whether the list is empty. -/
structure Agreement (maxChanges : Nat) (analyses : List FileAnalysis) : Prop where
  text : ∀ marks : List Bool, marks.length = (subjects analyses).length →
    (render .text maxChanges analyses = markedText marks (subjects analyses) ↔
      marks = (subjects analyses).map (Subject.outdated maxChanges))
  lint : render .lint maxChanges analyses =
    String.join ((lintEntries maxChanges analyses).map (· ++ "\n"))
  raising : (subjects analyses).filter (Subject.raises maxChanges) =
    (subjects analyses).filter (Subject.outdated maxChanges)
  status : ∀ (format : OutputFormat) (paths : List Path),
    let c := Check.conclude ⟨format, maxChanges, true⟩ paths (analyses.map .ok)
    (c.status = 1 ↔ ∃ u ∈ subjects analyses, Subject.raises maxChanges u = true) ∧
      (c.status = 1 ↔ render .lint maxChanges analyses ≠ "")

theorem agreement (maxChanges : Nat) (analyses : List FileAnalysis) :
    Agreement maxChanges analyses := by
  have htext := render_text maxChanges analyses
  constructor
  · intro marks hlen
    constructor
    · intro h
      exact markedText_inj hlen (by simp) (h.symm.trans htext)
    · rintro rfl
      exact htext
  · exact render_lint_eq maxChanges analyses
  · exact congrArg (List.filter · _) (funext (raises_eq_outdated maxChanges))
  · intro format paths c
    have hstatus : c.status = 1 ↔
        ∃ u ∈ subjects analyses, Subject.outdated maxChanges u = true := by
      rw [conclude_status_ok]
      exact status_eq_one_iff
    refine ⟨?_, hstatus.trans render_lint_ne_empty_iff.symm⟩
    simpa only [raises_eq_outdated] using hstatus

/-- All outputs agree on what is outdated, whatever is tolerated. Whoever tolerates more gets the
same text but for the marks, a part of the list for editors, and the same JSON. -/
theorem outputs_agree (analyses : List FileAnalysis) {maxChanges maxChanges' : Nat}
    (h : maxChanges ≤ maxChanges') :
    Agreement maxChanges analyses ∧ Agreement maxChanges' analyses ∧
      (lintEntries maxChanges' analyses).Sublist (lintEntries maxChanges analyses) ∧
      render .json maxChanges analyses = render .json maxChanges' analyses :=
  ⟨agreement _ _, agreement _ _, lintEntries_sublist h analyses, rfl⟩

/-- Two files whose units changed twice, not at all and once, the first of them reported twice. -/
def threeUnits : List FileAnalysis :=
  let unit (name : String) : DocumentedUnit := ⟨name, .function, ⟨2, 2⟩, ⟨1, 3⟩⟩
  let often : FileAnalysis := ⟨⟨"f.py"⟩, 3, [⟨unit "f", ⟨"a", false⟩, 2, 2, true⟩,
    ⟨unit "g", ⟨"c", true⟩, 0, 0, false⟩]⟩
  [often, ⟨⟨"h.py"⟩, 2, [⟨unit "h", ⟨"b", false⟩, 1, 1, false⟩]⟩, often]

theorem outputs_agree_threeUnits :
    let often := "f.py:f (function)\n    docstring: last changed 2 revisions ago, in revision a\n" ++
      "    code changes since: 2  [potentially outdated]\n" ++
      "    note: history stops at a rename that was not followed\n" ++
      "f.py:g (function)\n    docstring: last changed 0 revisions ago, in revision c\n" ++
      "    code changes since: 0\n"
    let twice := "f.py:2:1: DOC100 Potentially outdated docstring: " ++
      "2 code changes in f since last docstring change\n"
    let once := "h.py:2:1: DOC100 Potentially outdated docstring: " ++
      "1 code change in h since last docstring change\n"
    0 ≤ 1 ∧ render .text 1 threeUnits = often ++
        "h.py:h (function)\n    docstring: unchanged since creation in revision b\n" ++
        "    code changes since: 1\n" ++ often ∧
      render .lint 0 threeUnits = twice ++ once ++ twice ∧
      render .lint 1 threeUnits = twice ++ twice ∧
      Agreement 0 threeUnits ∧ Agreement 1 threeUnits ∧
      (lintEntries 1 threeUnits).Sublist (lintEntries 0 threeUnits) ∧
      render .json 0 threeUnits = render .json 1 threeUnits :=
  ⟨by decide, by decide +kernel, by decide +kernel, by decide +kernel,
    outputs_agree threeUnits (by decide)⟩

end DocDrift.Report
