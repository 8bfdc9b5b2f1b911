import DocDrift.Proofs.Diff.Change

/-!
# Plain diffs

In a plain diff no line opens the section of a file; the names of both sides stand in front of its
hunks. The reader opens a section at the first name of an old side, and no later name opens another.
So a plain diff is read as one section, with the hunks of all its files under the names of the last.
-/

namespace DocDrift.Diff

structure PlainFile where
  old : Path
  new : Path
  /-- What may follow the name of the old side behind a tab. -/
  oldStamp : Option (List Char)
  newStamp : Option (List Char)
  hunks : List HunkText
  old_untabbed : '\t' ∉ old.text.toList
  new_untabbed : '\t' ∉ new.text.toList
  old_unquoted : old.text.toList.getLast? ≠ some '"'
  new_unquoted : new.text.toList.getLast? ≠ some '"'

namespace PlainFile

def lines (f : PlainFile) : List (List Char) :=
  ("--- ".toList ++ FileChange.sideText 'a' (some f.old) f.oldStamp) ::
    ("+++ ".toList ++ FileChange.sideText 'b' (some f.new) f.newStamp) ::
      f.hunks.flatMap HunkText.lines

def told (f : PlainFile) : DiffSection where
  oldPath := some f.old
  newPath := some f.new
  hunks := f.hunks.map fun t => t.header.hunk

/-- The section that the files are read as. The names are those of the last one. -/
def merged (s : DiffSection) (files : List PlainFile) (last : PlainFile) : DiffSection :=
  { s with
    oldPath := last.told.oldPath
    newPath := last.told.newPath
    hunks := s.hunks ++ (files ++ [last]).flatMap fun f => f.told.hunks }

section
variable {done : List DiffSection} {s : DiffSection} {binary : Bool} {rest : List (List Char)}

/-- The names of a file replace those of the one before it, whose hunks stay in the section. -/
theorem readLines_lines (f : PlainFile) :
    readLines (.between done s binary) (f.lines ++ rest) =
      readLines (.between done (merged s [] f) binary) rest := by
  have hold : sidePath? (FileChange.sideText 'a' (some f.old) f.oldStamp) = some f.old :=
    sidePath?_of_last f.old_untabbed f.old_unquoted (.inl rfl) f.oldStamp
  have hnew : sidePath? (FileChange.sideText 'b' (some f.new) f.newStamp) = some f.new :=
    sidePath?_of_last f.new_untabbed f.new_unquoted (.inr rfl) f.newStamp
  rw [lines, readLines_named, hold, hnew]
  simp [merged, told]

theorem readLines_files (files : List PlainFile) (last : PlainFile) :
    readLines (.between done s binary) ((files ++ [last]).flatMap lines) =
      .ok (.between done (merged s files last) binary) := by
  induction files generalizing s with
  | nil =>
    rw [List.nil_append, List.flatMap_singleton, ← List.append_nil last.lines, readLines_lines,
      readLines]
  | cons f files ih =>
    rw [List.cons_append, List.flatMap_cons, readLines_lines, ih]
    simp [merged]

/-- The first name of an old side opens a section. -/
theorem readLines_oldSide (name : List Char) :
    readLines {} (("--- ".toList ++ name) :: rest) =
      readLines (.between [] {} false) (("--- ".toList ++ name) :: rest) := by
  rfl

end

end PlainFile

/-- A plain diff is read as one section, however many files it has. So only a diff of a single file
is read as what it tells. -/
theorem read_plain {text : String} {files : List PlainFile} {last : PlainFile}
    (h : Text.lines text.toList = (files ++ [last]).flatMap PlainFile.lines) :
    read text = .ok [PlainFile.merged {} files last] ∧
      (read text = .ok ((files ++ [last]).map PlainFile.told) ↔ files = []) := by
  have hfirst : ∃ name rest, (files ++ [last]).flatMap PlainFile.lines =
      ("--- ".toList ++ name) :: rest := by
    cases files with
    | nil => exact ⟨_, _, rfl⟩
    | cons f files => exact ⟨_, _, rfl⟩
  have hread : read text = .ok [PlainFile.merged {} files last] := by
    obtain ⟨name, rest, hlines⟩ := hfirst
    rw [read, h, hlines, PlainFile.readLines_oldSide, ← hlines, PlainFile.readLines_files]
    rfl
  refine ⟨hread, ?_⟩
  rw [hread]
  constructor
  · intro hsplit
    have hlength := congrArg List.length (Except.ok.inj hsplit)
    simpa using hlength
  · rintro rfl
    simp [PlainFile.merged, PlainFile.told]

/-- The hunks of a first file stand under the names of the second. -/
theorem read_plain_twoFiles :
    let text := "--- a/a.py\n+++ b/a.py\n@@ -1 +1 @@\n-x\n+y\n" ++
      "--- a/b.py\t2020\n+++ b/c.py\n@@ -5,0 +6 @@\n+--- a/d.py\n"
    read text = .ok [{ oldPath := some ⟨"b.py"⟩, newPath := some ⟨"c.py"⟩
                       hunks := [⟨1, 1, 1, 1⟩, ⟨6, 0, 6, 1⟩] }] ∧
      read text ≠ .ok [{ oldPath := some ⟨"a.py"⟩, newPath := some ⟨"a.py"⟩
                         hunks := [⟨1, 1, 1, 1⟩] },
                       { oldPath := some ⟨"b.py"⟩, newPath := some ⟨"c.py"⟩
                         hunks := [⟨6, 0, 6, 1⟩] }] := by
  intro text
  let first : PlainFile :=
    { old := ⟨"a.py"⟩, new := ⟨"a.py"⟩, oldStamp := none, newStamp := none
      hunks := [{ head := "@@ -1 +1 @@".toList, header := ⟨1, 1, 1, 1⟩
                  body := ["-x".toList, "+y".toList]
                  reads := rfl, settles := .removed _ (.added _ .nil) }]
      old_untabbed := by decide, new_untabbed := by decide
      old_unquoted := by decide, new_unquoted := by decide }
  let last : PlainFile :=
    { old := ⟨"b.py"⟩, new := ⟨"c.py"⟩, oldStamp := some "2020".toList, newStamp := none
      hunks := [{ head := "@@ -5,0 +6 @@".toList, header := ⟨5, 0, 6, 1⟩
                  body := ["+--- a/d.py".toList]
                  reads := rfl, settles := .added _ .nil }]
      old_untabbed := by decide, new_untabbed := by decide
      old_unquoted := by decide, new_unquoted := by decide }
  have hlines : Text.lines text.toList = ([first] ++ [last]).flatMap PlainFile.lines := by
    decide +kernel
  have hread := read_plain hlines
  exact ⟨hread.1, fun hsplit => List.cons_ne_nil _ _ (hread.2.mp hsplit)⟩

end DocDrift.Diff
