import DocDrift.Proofs.Diff.Change
import DocDrift.Proofs.Diff.Numbers

/-!
# Patches

A patch is the text of a diff with all that git may put into it. It is read as what it was made of:
one section for each file, with its paths, its marks and its hunks. What the lines of a hunk say
does not matter, since their number tells where the hunk ends.
-/

namespace DocDrift.Diff

/-! ## Hunks -/

inductive BodyLine where
  | removed (text : List Char)
  | added (text : List Char)
  | kept (text : List Char)
  /-- A remark about the line before, as that no line feed follows it. -/
  | remark (text : List Char)

namespace BodyLine

def line : BodyLine → List Char
  | removed text => '-' :: text
  | added text => '+' :: text
  | kept text => ' ' :: text
  | remark text => '\\' :: text

def isOld : BodyLine → Bool
  | removed _ | kept _ => true
  | added _ | remark _ => false

def isNew : BodyLine → Bool
  | added _ | kept _ => true
  | removed _ | remark _ => false

theorem dropReturn_cons {c : Char} (hc : c ≠ '\r') (text : List Char) :
    Text.dropReturn (c :: text) = c :: Text.dropReturn text :=
  Text.dropReturn_append hc [] text

/-- A body settles what its lines of either side amount to, in whatever order they stand. -/
theorem settles (body : List BodyLine) :
    Settles (body.countP isOld) (body.countP isNew) (body.map fun l => Text.dropReturn l.line) := by
  induction body with
  | nil => exact .nil
  | cons l body ih =>
    rw [List.countP_cons, List.countP_cons, List.map_cons]
    cases l with
    | removed text =>
      rw [line, dropReturn_cons (by decide)]
      exact .removed _ ih
    | added text =>
      rw [line, dropReturn_cons (by decide)]
      exact .added _ ih
    | kept text =>
      rw [line, dropReturn_cons (by decide)]
      exact .kept _ ih
    | remark text =>
      rw [line, dropReturn_cons (by decide)]
      exact .remark _ ih

end BodyLine

/-- A hunk as a patch writes it. Its body has as many lines of either side as its header says. -/
structure PatchHunk where
  old : HunkSide
  new : HunkSide
  /-- What stands behind the closing mark of the header. -/
  heading : List Char
  body : List BodyLine
  old_lines : body.countP BodyLine.isOld = old.length
  new_lines : body.countP BodyLine.isNew = new.length
  heading_closed : '\n' ∉ heading
  body_closed : ∀ l ∈ body, '\n' ∉ l.line

namespace PatchHunk

def lines (t : PatchHunk) : List (List Char) :=
  hunkLine t.old t.new t.heading :: t.body.map BodyLine.line

/-- What the hunk tells. An empty side begins one line later than its header says. -/
def hunk (t : PatchHunk) : Hunk where
  oldStart := if t.old.length = 0 then t.old.start + 1 else t.old.start
  oldLength := t.old.length
  newStart := if t.new.length = 0 then t.new.start + 1 else t.new.start
  newLength := t.new.length

/-- No start of an empty side is so large that the line field could not hold the one behind it. -/
theorem hunk_eq (t : PatchHunk) :
    t.hunk = .ofUnified t.old.start t.old.length t.new.start t.new.length := by
  have hstart : ∀ s : HunkSide, (if s.length = 0 then s.start + 1 else s.start) =
      if s.length = 0 then nextLine s.start else s.start := by
    intro s
    split
    · next h => exact (nextLine_of_lt (s.start_lt h)).symm
    · rfl
  rw [hunk, hstart t.old, hstart t.new]
  rfl

theorem hunk_fits (t : PatchHunk) : t.hunk.Fits := by
  rw [hunk_eq]
  exact Hunk.ofUnified_fits t.old.start_le t.old.length_le t.new.start_le t.new.length_le

/-- The hunk as its lines are read, without the carriage returns at their ends. -/
def asRead (t : PatchHunk) : HunkText where
  head := hunkLine t.old t.new (Text.dropReturn t.heading)
  header := ⟨t.old.start, t.old.length, t.new.start, t.new.length⟩
  body := t.body.map fun l => Text.dropReturn l.line
  reads := hunkHeader_hunkLine t.old t.new _
  settles := t.old_lines ▸ t.new_lines ▸ BodyLine.settles t.body

theorem dropReturn_hunkLine (old new : HunkSide) (heading : List Char) :
    Text.dropReturn (hunkLine old new heading) = hunkLine old new (Text.dropReturn heading) := by
  have h := Text.dropReturn_append (c := '@') (by decide)
    ("@@ ".toList ++ (('-' :: old.text) ++ ' ' :: '+' :: new.text) ++ [' ', '@']) heading
  simpa [hunkLine] using h

theorem dropReturn_lines (t : PatchHunk) : t.lines.map Text.dropReturn = t.asRead.lines := by
  simp [lines, HunkText.lines, asRead, dropReturn_hunkLine]

theorem lines_closed (t : PatchHunk) : ∀ l ∈ t.lines, '\n' ∉ l := by
  rw [lines, List.forall_mem_cons]
  constructor
  · have hnumbers : ∀ s : HunkSide, '\n' ∉ s.text := fun s => s.not_mem_text (by decide) (by decide)
    simp [hunkLine, hnumbers, t.heading_closed]
  · intro l hl
    obtain ⟨b, hb, rfl⟩ := List.mem_map.mp hl
    exact t.body_closed b hb

end PatchHunk

/-! ## Sections -/

/-- A line between the one that opens a section and the names of its sides. -/
inductive HeadLine where
  | newFile (mode : List Char)
  | deletedFile (mode : List Char)
  | renameFrom
  | renameTo
  /-- Any other line, which tells the reader nothing. -/
  | note (text : List Char)
deriving DecidableEq

namespace HeadLine

@[simp] def isNewFile : HeadLine → Bool
  | newFile _ => true
  | _ => false

@[simp] def isDeletedFile : HeadLine → Bool
  | deletedFile _ => true
  | _ => false

def text (old new : Path) (l : HeadLine) : List Char :=
  match l with
  | newFile mode => "new file mode".toList ++ mode
  | deletedFile mode => "deleted file mode".toList ++ mode
  | renameFrom => "rename from ".toList ++ old.text.toList
  | renameTo => "rename to ".toList ++ new.text.toList
  | note text => text

/-- The line has no line end inside, and it is a note only if it cannot be taken for another. -/
def Proper : HeadLine → Prop
  | newFile mode | deletedFile mode => '\n' ∉ mode ∧ '\r' ∉ mode
  | renameFrom | renameTo => True
  | note text => isNote text = true ∧ '\n' ∉ text ∧ '\r' ∉ text

instance : ∀ l : HeadLine, Decidable l.Proper
  | newFile mode | deletedFile mode => inferInstanceAs (Decidable ('\n' ∉ mode ∧ '\r' ∉ mode))
  | renameFrom | renameTo => inferInstanceAs (Decidable True)
  | note text => inferInstanceAs (Decidable (isNote text = true ∧ '\n' ∉ text ∧ '\r' ∉ text))

end HeadLine

/-- What a patch says of one file. A side that is absent stands there as the empty device. -/
structure FilePatch where
  old : Path
  new : Path
  isNew : Bool
  isDeleted : Bool
  isRename : Bool
  head : List HeadLine
  /-- Whether the names of both sides stand in front of the hunks. -/
  named : Bool
  hunks : List PatchHunk
  old_verbatim : old.Verbatim
  new_verbatim : new.Verbatim
  head_proper : ∀ l ∈ head, l.Proper
  new_of_newFile : head.any HeadLine.isNewFile = true → isNew = true
  deleted_of_deletedFile : head.any HeadLine.isDeletedFile = true → isDeleted = true
  renameFrom_mem : .renameFrom ∈ head ↔ isRename = true
  renameTo_mem : .renameTo ∈ head ↔ isRename = true
  unnamed : named = false → isRename = true ∧ isNew = false ∧ isDeleted = false ∧ hunks = []

namespace FilePatch
variable {p : FilePatch} {done : List DiffSection} {s : DiffSection} {rest : List (List Char)}

def oldSide? (p : FilePatch) : Option Path := if p.isNew then none else some p.old

def newSide? (p : FilePatch) : Option Path := if p.isDeleted then none else some p.new

def sideLines (p : FilePatch) : List (List Char) :=
  if p.named then
    ["--- ".toList ++ FileChange.sideText 'a' p.oldSide? none,
      "+++ ".toList ++ FileChange.sideText 'b' p.newSide? none]
  else []

def headLines (p : FilePatch) : List (List Char) :=
  ("diff --git ".toList ++ bothNames p.old p.new) ::
    (p.head.map (HeadLine.text p.old p.new) ++ p.sideLines)

def lines (p : FilePatch) : List (List Char) := p.headLines ++ p.hunks.flatMap PatchHunk.lines

def told (p : FilePatch) : DiffSection where
  oldPath := p.oldSide?
  newPath := p.newSide?
  hunks := p.hunks.map PatchHunk.hunk
  isNew := p.isNew
  isDeleted := p.isDeleted
  isRename := p.isRename

/-- A section behind some of the lines that follow its first. -/
def headed (p : FilePatch) (head : List HeadLine) (s : DiffSection) : DiffSection :=
  { s with
    oldPath := if .renameFrom ∈ head then some p.old else s.oldPath
    newPath := if .renameTo ∈ head then some p.new else s.newPath
    isNew := s.isNew || head.any HeadLine.isNewFile
    isDeleted := s.isDeleted || head.any HeadLine.isDeletedFile
    isRename := s.isRename || decide (.renameFrom ∈ head ∨ .renameTo ∈ head) }

theorem headed_cons (l : HeadLine) (head : List HeadLine) :
    p.headed head (p.headed [l] s) = p.headed (l :: head) s := by
  cases l <;> simp [headed]

theorem readLines_headLine {l : HeadLine} (h : l.Proper) :
    readLines (.between done s false) (l.text p.old p.new :: rest) =
      readLines (.between done (p.headed [l] s) false) rest := by
  have hchange : ∀ change, Changes (l.text p.old p.new) change → change s = p.headed [l] s →
      readLines (.between done s false) (l.text p.old p.new :: rest) =
        readLines (.between done (p.headed [l] s) false) rest := by
    intro change hc he
    rw [readLines_change hc, he]
  cases l with
  | newFile mode => exact hchange _ (changes_added mode) (by simp [headed])
  | deletedFile mode => exact hchange _ (changes_removed mode) (by simp [headed])
  | renameFrom => exact hchange _ (changes_renameFrom p.old_verbatim) (by simp [headed])
  | renameTo => exact hchange _ (changes_renameTo p.new_verbatim) (by simp [headed])
  | note text =>
    have hnote : ∀ l ∈ [text], isNote l = true := by simpa using h.1
    have hsame : p.headed [.note text] s = s := by simp [headed]
    rw [hsame]
    exact readLines_notes hnote

theorem readLines_head {head : List HeadLine} (h : ∀ l ∈ head, l.Proper) :
    readLines (.between done s false) (head.map (HeadLine.text p.old p.new) ++ rest) =
      readLines (.between done (p.headed head s) false) rest := by
  induction head generalizing s with
  | nil => simp [headed]
  | cons l head ih =>
    obtain ⟨hl, hhead⟩ := List.forall_mem_cons.mp h
    rw [List.map_cons, List.cons_append, readLines_headLine hl, ih hhead, headed_cons]

theorem oldSide?_verbatim (p : FilePatch) : ∀ q ∈ p.oldSide?, q.Verbatim := by
  unfold oldSide?
  split <;> simp [p.old_verbatim]

theorem newSide?_verbatim (p : FilePatch) : ∀ q ∈ p.newSide?, q.Verbatim := by
  unfold newSide?
  split <;> simp [p.new_verbatim]

/-- A mark shows in the absence of a side, so it may but need not stand in a line of its own. -/
theorem mark_eq {line mark : Bool} (h : line = true → mark = true) (q : Path) :
    (line || (if mark then none else some q).isNone) = mark := by
  cases mark with
  | true => simp
  | false =>
    cases line with
    | true => exact absurd (h rfl) (by simp)
    | false => rfl

/-- In front of the hunks the section has the paths and the marks, whatever its first line was taken
to say. -/
theorem readLines_sideLines (p : FilePatch) (old? new? : Option Path) :
    readLines (.between done (p.headed p.head { oldPath := old?, newPath := new? }) false)
        (p.sideLines ++ rest) =
      readLines (.between done { p.told with hunks := [] } false) rest := by
  have hnew : (p.head.any HeadLine.isNewFile || p.oldSide?.isNone) = p.isNew :=
    mark_eq p.new_of_newFile p.old
  have hdeleted : (p.head.any HeadLine.isDeletedFile || p.newSide?.isNone) = p.isDeleted :=
    mark_eq p.deleted_of_deletedFile p.new
  have hrename : decide (.renameFrom ∈ p.head ∨ .renameTo ∈ p.head) = p.isRename := by
    simp [p.renameFrom_mem, p.renameTo_mem]
  unfold sideLines
  cases hnamed : p.named with
  | true =>
    rw [if_pos rfl, List.cons_append, List.singleton_append, readLines_change (changes_oldSide _),
      readLines_change (changes_newSide _),
      FileChange.sidePath?_sideText (.inl rfl) p.oldSide?_verbatim,
      FileChange.sidePath?_sideText (.inr rfl) p.newSide?_verbatim]
    simp only [headed, Bool.false_or, hnew, hdeleted, hrename, told]
  | false =>
    obtain ⟨hr, hn, hd, -⟩ := p.unnamed hnamed
    have hold : p.oldSide? = some p.old := by simp [oldSide?, hn]
    have hnewSide : p.newSide? = some p.new := by simp [newSide?, hd]
    rw [hold, Option.isNone_some, Bool.or_false] at hnew
    rw [hnewSide, Option.isNone_some, Bool.or_false] at hdeleted
    rw [if_neg (by simp), List.nil_append]
    simp only [headed, Bool.false_or, hnew, hdeleted, p.renameFrom_mem.mpr hr,
      p.renameTo_mem.mpr hr, hr, or_self, decide_true, if_true, told, hold, hnewSide]

theorem readLines_lines {r : Reader} (ho : r.oldOwed = 0) (hn : r.newOwed = 0) (p : FilePatch) :
    readLines r (p.headLines ++ (p.hunks.map PatchHunk.asRead).flatMap HunkText.lines ++ rest) =
      readLines (.between r.close.done p.told false) rest := by
  have hhunks : (p.hunks.map PatchHunk.asRead).map (fun t => t.header.hunk) = p.told.hunks := by
    rw [List.map_map]
    exact List.map_congr_left fun t _ => t.hunk_eq.symm
  rw [headLines, List.append_assoc, List.cons_append, readLines_opening ho hn, List.append_assoc,
    readLines_head p.head_proper, readLines_sideLines, readLines_hunks, hhunks]
  rfl

/-! ## Lines -/

theorem sideText_closed {side : Char} (hside : side = 'a' ∨ side = 'b') {path? : Option Path}
    (h : ∀ q ∈ path?, q.Verbatim) : '\n' ∉ FileChange.sideText side path? none ∧
      '\r' ∉ FileChange.sideText side path? none := by
  unfold FileChange.sideText
  cases path? with
  | none => simp
  | some q =>
    have hq := (h q rfl).closed
    rcases hside with rfl | rfl <;> simp [stampText, hq]

theorem text_closed (p : FilePatch) {l : HeadLine} (h : l.Proper) :
    '\n' ∉ l.text p.old p.new ∧ '\r' ∉ l.text p.old p.new := by
  have hold := p.old_verbatim.closed
  have hnew := p.new_verbatim.closed
  unfold HeadLine.text
  cases l with
  | newFile mode | deletedFile mode =>
    have hmode : '\n' ∉ mode ∧ '\r' ∉ mode := h
    simp [hmode]
  | renameFrom | renameTo => simp [hold, hnew]
  | note text => exact h.2

theorem headLines_closed (p : FilePatch) : ∀ l ∈ p.headLines, '\n' ∉ l ∧ '\r' ∉ l := by
  have hold := p.old_verbatim.closed
  have hnew := p.new_verbatim.closed
  intro l hl
  rw [headLines, List.mem_cons, List.mem_append, List.mem_map] at hl
  rcases hl with rfl | ⟨head, hhead, rfl⟩ | hl
  · simp [bothNames, hold, hnew]
  · exact p.text_closed (p.head_proper head hhead)
  · unfold sideLines at hl
    split at hl
    · have holdSide := sideText_closed (.inl rfl) p.oldSide?_verbatim
      have hnewSide := sideText_closed (.inr rfl) p.newSide?_verbatim
      rw [List.mem_cons, List.mem_singleton] at hl
      rcases hl with rfl | rfl
      · simp [holdSide]
      · simp [hnewSide]
    · cases hl

theorem lines_closed (p : FilePatch) : ∀ l ∈ p.lines, '\n' ∉ l := by
  intro l hl
  rw [lines, List.mem_append, List.mem_flatMap] at hl
  rcases hl with hl | ⟨t, -, hl⟩
  · exact (p.headLines_closed l hl).1
  · exact t.lines_closed l hl

theorem dropReturn_lines (p : FilePatch) : p.lines.map Text.dropReturn =
    p.headLines ++ (p.hunks.map PatchHunk.asRead).flatMap HunkText.lines := by
  have hhead : p.headLines.map Text.dropReturn = p.headLines.map id :=
    List.map_congr_left fun l hl => Text.dropReturn_of_not_mem (p.headLines_closed l hl).2
  rw [lines, List.map_append, hhead, List.map_id, List.map_flatMap, List.flatMap_map]
  simp only [PatchHunk.dropReturn_lines]

end FilePatch

def patchText (patches : List FilePatch) : List Char :=
  (patches.flatMap FilePatch.lines).flatMap (· ++ ['\n'])

theorem lines_patchText (patches : List FilePatch) : Text.lines (patchText patches) =
    patches.flatMap fun p =>
      p.headLines ++ (p.hunks.map PatchHunk.asRead).flatMap HunkText.lines := by
  have hclosed : ∀ l ∈ patches.flatMap FilePatch.lines, '\n' ∉ l := by
    intro l hl
    obtain ⟨p, -, hp⟩ := List.mem_flatMap.mp hl
    exact p.lines_closed l hp
  rw [patchText, Text.lines_flatMap hclosed, List.map_flatMap]
  simp only [FilePatch.dropReturn_lines]

/-- A patch is read as the files that it was made of, and every number of its hunks fits. -/
theorem read_patchText (patches : List FilePatch) :
    read (String.ofList (patchText patches)) = .ok (patches.map FilePatch.told) ∧
      ∀ p ∈ patches, ∀ h ∈ p.told.hunks, h.Fits := by
  constructor
  · have hsections := readLines_sections (r := {})
      (fun _ ho hn p _ => FilePatch.readLines_lines ho hn p) rfl rfl patches
    rw [read, String.toList_ofList, lines_patchText, hsections]
    simp [Reader.sections, Reader.close, List.map_eq_flatMap]
  · intro p _ h hh
    obtain ⟨t, -, rfl⟩ := List.mem_map.mp hh
    exact t.hunk_fits

/-- A new file, whose only line looks like the name of a side. -/
example :
    patchText [{ old := ⟨"f.py"⟩, new := ⟨"f.py"⟩, isNew := true, isDeleted := false,
                 isRename := false, head := [.newFile " 100644".toList], named := true
                 hunks := [{ old := ⟨0, 0, false, by decide, by decide, by decide⟩
                             new := ⟨1, 1, true, by decide, by decide, by decide⟩
                             heading := " @@".toList
                             body := [.added "++ b/f.py".toList, .remark " No newline".toList]
                             old_lines := rfl, new_lines := rfl, heading_closed := by decide
                             body_closed := by decide }]
                 old_verbatim := by decide, new_verbatim := by decide
                 head_proper := by decide +kernel, new_of_newFile := fun _ => rfl
                 deleted_of_deletedFile := nofun, renameFrom_mem := by decide
                 renameTo_mem := by decide, unnamed := nofun }] =
      ("diff --git a/f.py b/f.py\nnew file mode 100644\n--- /dev/null\n+++ b/f.py\n" ++
        "@@ -0,0 +1 @@ @@\n+++ b/f.py\n\\ No newline\n").toList := by
  decide +kernel

end DocDrift.Diff
