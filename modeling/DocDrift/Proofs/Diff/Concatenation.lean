import DocDrift.Proofs.Diff.Accounting
import DocDrift.Proofs.Text.Pieces

/-!
# Diffs behind each other

What is complete when a section begins stays as it is, and nothing of it has a part in how the
section is read. So a diff whose last hunk has all its lines can be put in front of another that
begins with a section, and both are read as they are alone.
-/

namespace DocDrift.Diff

/-! ## Complete sections -/

/-- The reader behind sections that were complete before its own; the last of them stands first. -/
def Reader.behind (r : Reader) (done : List DiffSection) : Reader :=
  { r with done := r.done ++ done }

section
variable {r r' : Reader} {done : List DiffSection} {l : List Char} {ls rest : List (List Char)}

theorem close_behind : (r.behind done).close = r.close.behind done := by
  unfold Reader.close Reader.behind
  cases hr : r.current with
  | none => simp only [hr]
  | some s => cases hb : r.binary <;> rfl

theorem sections_behind : (r.behind done).sections = done.reverse ++ r.sections := by
  rw [Reader.sections, close_behind, Reader.behind, List.reverse_append, Reader.sections]

theorem bodyLine_behind : (r.behind done).bodyLine l = (r.bodyLine l).map (·.behind done) := by
  unfold Reader.bodyLine
  split <;> rfl

theorem opened_behind : (r.behind done).opened l = (r.opened l).behind done := by
  unfold Reader.opened
  change (if _ && r.current.isNone then _ else _) = _
  split <;> rfl

theorem headLine_behind : (r.behind done).headLine l = (r.headLine l).map (·.behind done) := by
  cases hgit : "diff --git ".toList.isPrefixOf l with
  | true =>
    obtain ⟨names, rfl⟩ := List.isPrefixOf_iff_prefix.mp hgit
    rw [Reader.headLine, Reader.headLine, Text.after?_append, close_behind]
    rfl
  | false =>
    rw [headLine_eq hgit, headLine_eq hgit, opened_behind]
    change (if (r.opened l).current.isNone then _ else _) = _
    split
    · rfl
    split
    · rfl
    split
    · rfl
    split
    · split <;> rfl
    · rfl

theorem line_behind : (r.behind done).line l = (r.line l).map (·.behind done) := by
  rw [Reader.line, Reader.line]
  change (if 0 < r.oldOwed ∨ 0 < r.newOwed then _ else _) = _
  split
  · exact bodyLine_behind
  · exact headLine_behind

/-- A run of the reader leaves what is complete at its start as it is, and does not depend on it. -/
theorem readLines_behind :
    readLines (r.behind done) ls = (readLines r ls).map (·.behind done) := by
  induction ls generalizing r with
  | nil => rfl
  | cons l ls ih =>
    rw [readLines, readLines, line_behind]
    cases r.line l with
    | error e => rfl
    | ok next => exact ih

theorem readLines_append (h : readLines r ls = .ok r') :
    readLines r (ls ++ rest) = readLines r' rest := by
  induction ls generalizing r with
  | nil =>
    cases h
    rfl
  | cons l ls ih =>
    rw [readLines] at h
    rw [List.cons_append, readLines]
    cases hl : r.line l with
    | error e =>
      rw [hl] at h
      cases h
    | ok next =>
      rw [hl] at h
      exact ih h

/-- A section is read behind a reader that owes nothing as it is alone. -/
theorem readLines_section (hold : r.oldOwed = 0) (hnew : r.newOwed = 0) (names : List Char) :
    (readLines r (("diff --git ".toList ++ names) :: rest)).map Reader.sections =
      ((readLines {} (("diff --git ".toList ++ names) :: rest)).map Reader.sections).map
        (r.sections ++ ·) := by
  have hbehind : ∀ s, Reader.between r.close.done s false =
      (Reader.between [] s false).behind r.close.done := fun _ => rfl
  rw [readLines_opening hold hnew, readLines_opening rfl rfl, hbehind, readLines_behind]
  change _ = ((readLines (.between [] _ false) rest).map _).map _
  cases readLines (.between [] _ false) rest with
  | error e => rfl
  | ok last => exact congrArg Except.ok sections_behind

end

/-! ## Texts -/

/-- The text ends with the end of a line, and the reader gets through it. -/
structure Front (text : String) (r : Reader) : Prop where
  ended : text = "" ∨ ∃ front, text.toList = front ++ ['\n']
  reads : readLines {} (Text.lines text.toList) = .ok r

/-- Behind the text no line of a hunk is owed. -/
structure Closed (text : String) (r : Reader) : Prop extends Front text r where
  oldOwed : r.oldOwed = 0
  newOwed : r.newOwed = 0

section
variable {first second : String} {r : Reader}

theorem Front.read (h : Front first r) : Diff.read first = .ok r.sections := by
  rw [Diff.read, h.reads]
  rfl

theorem Front.read_followed (h : Front first r) (second : String) : Diff.read (first ++ second) =
    (readLines r (Text.lines second.toList)).map Reader.sections := by
  have hended : first.toList = [] ∨ ∃ front, first.toList = front ++ ['\n'] := by
    rcases h.ended with rfl | hfeed
    · exact .inl rfl
    · exact .inr hfeed
  rw [Diff.read, String.toList_append, Text.lines_append_of_ended hended, readLines_append h.reads]

/-- A text that begins with a section has the line that opens it for its first. -/
theorem lines_section (h : "diff --git ".toList <+: second.toList) :
    ∃ names rest, Text.lines second.toList = ("diff --git ".toList ++ names) :: rest := by
  obtain ⟨text, htext⟩ := h
  rw [← htext]
  exact Text.lines_of_prefix (c := ' ') (s := "diff --git".toList) (by decide) (by decide) text

/-- Behind a diff that owes nothing, sections are read as they are alone, and refused for the same
reason. -/
theorem read_append (hfirst : Closed first r)
    (hsecond : second = "" ∨ "diff --git ".toList <+: second.toList) :
    read first = .ok r.sections ∧
      read (first ++ second) = (read second).map (r.sections ++ ·) ∧
      ∀ e, read (first ++ second) = .error e ↔ read second = .error e := by
  have happend : read (first ++ second) = (read second).map (r.sections ++ ·) := by
    rw [hfirst.read_followed]
    rcases hsecond with rfl | hsection
    · change Except.ok r.sections = Except.ok (r.sections ++ [])
      rw [List.append_nil]
    · obtain ⟨names, rest, hlines⟩ := lines_section hsection
      rw [read, hlines, readLines_section hfirst.oldOwed hfirst.newOwed]
  refine ⟨hfirst.read, happend, fun e => ?_⟩
  rw [happend]
  cases read second with
  | error e' => exact Iff.rfl
  | ok sections => simp [Except.map]

/-- The section of a binary file leaves nothing behind. -/
theorem read_append_binary :
    let first := "diff --git a/x b/x\nBinary files a/x and b/x differ\n"
    let second := "diff --git a/f b/f\n@@ -1 +1 @@\n-x\n+y\n"
    Closed first ⟨[], some { oldPath := some ⟨"x"⟩, newPath := some ⟨"x"⟩ }, true, 0, 0⟩ ∧
      read (first ++ second) = .ok
        [{ oldPath := some ⟨"f"⟩, newPath := some ⟨"f"⟩, hunks := [⟨1, 1, 1, 1⟩] }] := by
  intro first second
  have hlines : Text.lines first.toList =
      ["diff --git a/x b/x".toList, "Binary files a/x and b/x differ".toList] := by
    decide +kernel
  have hlines' : Text.lines second.toList =
      ["diff --git a/f b/f".toList, "@@ -1 +1 @@".toList, "-x".toList, "+y".toList] := by
    decide +kernel
  have hfirst : Closed first
      ⟨[], some { oldPath := some ⟨"x"⟩, newPath := some ⟨"x"⟩ }, true, 0, 0⟩ :=
    { ended := .inr ⟨"diff --git a/x b/x\nBinary files a/x and b/x differ".toList, by decide⟩
      reads := by rw [hlines]; rfl
      oldOwed := rfl
      newOwed := rfl }
  have hsecond : "diff --git ".toList <+: second.toList :=
    ⟨"a/f b/f\n@@ -1 +1 @@\n-x\n+y\n".toList, by decide⟩
  obtain ⟨-, happend, -⟩ := read_append hfirst (.inr hsecond)
  refine ⟨hfirst, ?_⟩
  rw [happend, read, hlines']
  rfl

/-- A diff that is cut off within a hunk is noticed if a section follows. -/
theorem read_append_owing (hfirst : Front first r) (howed : 0 < r.oldOwed ∨ 0 < r.newOwed)
    (hsecond : "diff --git ".toList <+: second.toList) :
    ∃ l ∈ (Text.lines second.toList).head?, read (first ++ second) =
      .error (.diff s!"hunk ended early before line: {String.ofList l}") := by
  obtain ⟨names, rest, hlines⟩ := lines_section hsecond
  refine ⟨"diff --git ".toList ++ names, by rw [hlines]; rfl, ?_⟩
  rw [hfirst.read_followed, hlines, readLines, Reader.line, if_pos howed, bodyLine_refused r rfl]
  rfl

end

end DocDrift.Diff
