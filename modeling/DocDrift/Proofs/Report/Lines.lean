import DocDrift.Report.Render

/-!
# The lines of the reports

The text report and the list for editors, spelled out line by line. What is said about the reports
elsewhere is said of these lines.
-/

namespace DocDrift.Report

abbrev Subject := FileAnalysis × UnitStatistic

/-- The units of all files in order, each with the analysis of its file. -/
def subjects (analyses : List FileAnalysis) : List Subject :=
  analyses.flatMap fun a => a.units.map fun s => (a, s)

/-! ## Spelling -/

def titleLine (path : Path) (unit : DocumentedUnit) : String :=
  path.text ++ (":" ++ (unit.qualifiedName ++ (" (" ++ (unit.kind.name ++ ")"))))

/-- The line about documentation that is as old as the file. -/
def creationLine (revision : String) : String :=
  "    docstring: " ++ ("unchanged since creation in revision " ++ revision)

/-- The line about documentation that has changed since, by the age of the change. -/
def changeLine (age : Nat) (revision : String) : String :=
  "    docstring: " ++ ("last changed " ++ (toString age ++
    ((if age = 1 then " revision" else " revisions") ++ (" ago, in revision " ++ revision))))

def countText (count : Nat) : String := "    code changes since: " ++ toString count

def markText (marked : Bool) : String := if marked then "  [potentially outdated]" else ""

/-- The line about a unit whose history goes on beyond a rename. -/
def renameNote : String := "    note: history stops at a rename that was not followed"

def lintEntry (path : Path) (unit : DocumentedUnit) (count : Nat) : String :=
  path.text ++ (":" ++ (toString unit.docRange.first ++
    (":1: DOC100 Potentially outdated docstring: " ++ (toString count ++
      ((if count = 1 then " code change in " else " code changes in ") ++
        (unit.qualifiedName ++ " since last docstring change"))))))

def docLine (u : Subject) : String :=
  let revision := String.ofList (u.2.lastDocRevision.id.toList.take 12)
  if sinceCreation u.1 u.2 then creationLine revision
  else changeLine u.2.lastDocRevisionAge revision

/-! ## What the reports write -/

-- an interpolated text has its strings in this form
theorem toString_string (s : String) : toString s = s := rfl

theorem docLine_eq (u : Subject) : docLine u = "    docstring: " ++ docChange u.1 u.2 := by
  unfold docChange docLine Revision.shortId
  cases sinceCreation u.1 u.2 with
  | true => simp [creationLine, toString_string]
  | false =>
    by_cases hage : u.2.lastDocRevisionAge = 1 <;>
      simp [changeLine, plural, toString_string, hage, ← String.toList_inj]

theorem flag_eq (maxChanges : Nat) (s : UnitStatistic) :
    flag maxChanges s = markText (decide (maxChanges < s.changesSinceCount)) := rfl

theorem textLines_eq (maxChanges : Nat) (u : Subject) :
    textLines maxChanges u.1 u.2 =
      titleLine u.1.path u.2.unit :: docLine u ::
        (countText u.2.changesSinceCount ++
          markText (decide (maxChanges < u.2.changesSinceCount))) ::
        (if u.2.truncatedByRename then [renameNote] else []) := by
  have htitle : s!"{u.1.path.text}:{u.2.unit.qualifiedName} ({u.2.unit.kind.name})" =
      titleLine u.1.path u.2.unit := by
    simp [titleLine, toString_string, String.append_assoc]
  have hcount : ∀ mark : String, s!"    code changes since: {u.2.changesSinceCount}{mark}" =
      countText u.2.changesSinceCount ++ mark := by
    intro mark
    unfold countText
    rfl
  rw [docLine_eq, ← htitle, ← flag_eq, ← hcount]
  rfl

theorem render_text_eq (maxChanges : Nat) (analyses : List FileAnalysis) :
    render .text maxChanges analyses =
      String.join (((subjects analyses).flatMap fun u => textLines maxChanges u.1 u.2).map
        (· ++ "\n")) := rfl

theorem lintLine_eq (u : Subject) :
    lintLine u.1 u.2 = lintEntry u.1.path u.2.unit u.2.changesSinceCount := by
  by_cases hcount : u.2.changesSinceCount = 1 <;>
    simp [lintLine, lintEntry, lintCode, plural, toString_string, hcount, ← String.toList_inj]

/-- The list for editors has an entry for each unit that changed more often than tolerated. -/
theorem render_lint_eq (maxChanges : Nat) (analyses : List FileAnalysis) :
    render .lint maxChanges analyses =
      String.join ((((subjects analyses).filter fun u =>
        decide (maxChanges < u.2.changesSinceCount)).map fun u =>
          lintEntry u.1.path u.2.unit u.2.changesSinceCount).map (· ++ "\n")) := by
  have hentries : (fun u : Subject => lintLine u.1 u.2) = fun u =>
      lintEntry u.1.path u.2.unit u.2.changesSinceCount := funext lintLine_eq
  rw [← hentries]
  rfl

end DocDrift.Report
