import DocDrift.Diff.Reader
import DocDrift.Proofs.Diff.Header

/-!
# Changes as a diff writes them

A diff has a section for every file that changed. Read among other sections, a section says the same
of its file as it does alone: the hunks, and the names in front of them or in the lines that record
a rename. A section without either is read under the name that its first line seems to end with.
-/

namespace DocDrift.Diff

/-- Whether a line in the header of a section tells the reader nothing. -/
def isNote (line : List Char) : Bool :=
  !"diff --git ".toList.isPrefixOf line && !Reader.isBinaryLine line &&
    (Reader.sectionLine? line).isNone && !"@@ ".toList.isPrefixOf line

/-- The lines are those that a hunk owes of its old and of its new side, among remarks. -/
inductive Settles : Nat → Nat → List (List Char) → Prop where
  | nil : Settles 0 0 []
  | removed {old new : Nat} {rest : List (List Char)} (text : List Char) :
    Settles old new rest → Settles (old + 1) new (('-' :: text) :: rest)
  | added {old new : Nat} {rest : List (List Char)} (text : List Char) :
    Settles old new rest → Settles old (new + 1) (('+' :: text) :: rest)
  | kept {old new : Nat} {rest : List (List Char)} (text : List Char) :
    Settles old new rest → Settles (old + 1) (new + 1) ((' ' :: text) :: rest)
  | empty {old new : Nat} {rest : List (List Char)} :
    Settles old new rest → Settles (old + 1) (new + 1) ([] :: rest)
  | remark {old new : Nat} {rest : List (List Char)} (text : List Char) :
    Settles old new rest → Settles old new (('\\' :: text) :: rest)

structure HunkText where
  /-- The line that opens the hunk. -/
  head : List Char
  /-- What that line says. -/
  header : HunkHeader
  body : List (List Char)
  reads : hunkHeader head = .ok header
  settles : Settles header.oldLength header.newLength body

/-- What became of a file; a mode follows where the file came into being or ceased to be. -/
inductive Fate where
  | edited
  | added (mode : List Char)
  | removed (mode : List Char)
  | renamed

inductive Contents where
  /-- Nothing, as for an empty file. -/
  | nothing
  /-- The news that binary files differ. -/
  | binary (files : List Char)
  /-- The names of both sides, with what may follow each behind a tab, and the hunks. -/
  | hunks (oldStamp newStamp : Option (List Char)) (hunks : List HunkText)

structure FileChange where
  old : Path
  new : Path
  fate : Fate
  /-- The header lines in front of those that tell the fate. -/
  preface : List (List Char)
  /-- The header lines behind them. -/
  notes : List (List Char)
  contents : Contents
  old_plain : old.Plain
  new_plain : new.Plain
  preface_notes : ∀ l ∈ preface, isNote l = true
  notes_notes : ∀ l ∈ notes, isNote l = true

def HunkText.lines (t : HunkText) : List (List Char) := t.head :: t.body

namespace FileChange

def fateLines (c : FileChange) : List (List Char) :=
  match c.fate with
  | .edited => []
  | .added mode => ["new file mode".toList ++ mode]
  | .removed mode => ["deleted file mode".toList ++ mode]
  | .renamed =>
    ["rename from ".toList ++ c.old.text.toList, "rename to ".toList ++ c.new.text.toList]

/-- The name of the old side in front of the hunks; none for a new file. -/
def oldSide? (c : FileChange) : Option Path :=
  match c.fate with
  | .added _ => none
  | _ => some c.old

/-- The name of the new side in front of the hunks; none for a file that is gone. -/
def newSide? (c : FileChange) : Option Path :=
  match c.fate with
  | .removed _ => none
  | _ => some c.new

def sideText (side : Char) (path? : Option Path) (stamp : Option (List Char)) : List Char :=
  match path? with
  | none => "/dev/null".toList
  | some p => side :: '/' :: (p.text.toList ++ stampText stamp)

def contentLines (c : FileChange) : List (List Char) :=
  match c.contents with
  | .nothing => []
  | .binary files => ["Binary files ".toList ++ (files ++ " differ".toList)]
  | .hunks oldStamp newStamp hunks =>
    ("--- ".toList ++ sideText 'a' c.oldSide? oldStamp) ::
      ("+++ ".toList ++ sideText 'b' c.newSide? newStamp) :: hunks.flatMap HunkText.lines

def lines (c : FileChange) : List (List Char) :=
  ("diff --git ".toList ++ bothNames c.old c.new) ::
    (c.preface ++ (c.fateLines ++ (c.notes ++ c.contentLines)))

def opened (c : FileChange) : DiffSection :=
  let paths := bothPaths (bothNames c.old c.new)
  { oldPath := paths.1, newPath := paths.2 }

def headed (c : FileChange) : DiffSection :=
  match c.fate with
  | .edited => c.opened
  | .added _ => { c.opened with isNew := true }
  | .removed _ => { c.opened with isDeleted := true }
  | .renamed => { c.opened with isRename := true, oldPath := some c.old, newPath := some c.new }

def summary (c : FileChange) : DiffSection :=
  match c.contents with
  | .hunks _ _ hunks =>
    { c.headed with
      oldPath := c.oldSide?
      newPath := c.newSide?
      hunks := hunks.map fun t => t.header.hunk }
  | _ => c.headed

def isBinary (c : FileChange) : Bool :=
  match c.contents with
  | .binary _ => true
  | _ => false

/-- What the reader makes of the section; sections of binary files are dropped. -/
def summaries (c : FileChange) : List DiffSection :=
  if c.isBinary then [] else [c.summary]

end FileChange

/-! ## Reading a section -/

/-- A reader between two lines of a section. -/
def Reader.between (done : List DiffSection) (s : DiffSection) (binary : Bool) : Reader :=
  ⟨done, some s, binary, 0, 0⟩

section
variable {done : List DiffSection} {s : DiffSection} {binary : Bool} {line : List Char}
  {rest : List (List Char)}

theorem headLine_note {r : Reader} (hr : r.current = some s) (h : isNote line = true) :
    r.headLine line = .ok r := by
  simp only [isNote, Bool.and_eq_true, Bool.not_eq_true'] at h
  obtain ⟨⟨⟨hdiff, hbinary⟩, hsection⟩, hhunk⟩ := h
  unfold Reader.headLine
  rw [Text.after?_eq_none hdiff]
  simp only [hr, Option.isNone_some, Bool.and_false, Bool.false_eq_true, if_false, hbinary,
    Option.isNone_iff_eq_none.mp hsection, hhunk]

theorem isBinaryLine_cons {c : Char} (hc : c ≠ 'B') (text : List Char) :
    Reader.isBinaryLine (c :: text) = false := by
  have h : "Binary files ".toList.isPrefixOf (c :: text) = false := by
    simp [List.isPrefixOf_cons_cons, Ne.symm hc]
  rw [Reader.isBinaryLine, h, Bool.false_and]

theorem isNote_remark (text : List Char) : isNote ('\\' :: text) = true := by
  simp [isNote, isBinaryLine_cons, Reader.sectionLine?, Text.after?, List.isPrefixOf_cons_cons]

theorem readLines_notes {notes : List (List Char)} (h : ∀ l ∈ notes, isNote l = true) :
    readLines (.between done s binary) (notes ++ rest) =
      readLines (.between done s binary) rest := by
  induction notes with
  | nil => rfl
  | cons l notes ih =>
    have hl := headLine_note (r := .between done s binary) rfl (h l List.mem_cons_self)
    rw [List.cons_append, readLines, Reader.line, if_neg (by simp [Reader.between]), hl]
    exact ih fun x hx => h x (List.mem_cons_of_mem _ hx)

/-- The line makes the reader change the section that it reads. -/
structure Changes (line : List Char) (change : DiffSection → DiffSection) : Prop where
  not_opening : "diff --git ".toList.isPrefixOf line = false
  not_binary : Reader.isBinaryLine line = false
  sectionLine : Reader.sectionLine? line = some change

theorem readLines_change {change : DiffSection → DiffSection} (h : Changes line change) :
    readLines (.between done s binary) (line :: rest) =
      readLines (.between done (change s) binary) rest := by
  rw [readLines, Reader.line, if_neg (by simp [Reader.between]), Reader.headLine,
    Text.after?_eq_none h.not_opening]
  simp only [Reader.between, Option.isNone_some, Bool.and_false, Bool.false_eq_true, if_false,
    h.not_binary, h.sectionLine, Reader.update, Option.map_some]

theorem changes_added (mode : List Char) :
    Changes ("new file mode".toList ++ mode) fun s => { s with isNew := true } := by
  constructor <;> simp [isBinaryLine_cons, Reader.sectionLine?, List.isPrefixOf_cons_cons]

theorem changes_removed (mode : List Char) :
    Changes ("deleted file mode".toList ++ mode) fun s => { s with isDeleted := true } := by
  constructor <;> simp [isBinaryLine_cons, Reader.sectionLine?, List.isPrefixOf_cons_cons]

theorem changes_renameFrom {p : Path} (hp : p.Verbatim) :
    Changes ("rename from ".toList ++ p.text.toList)
      fun s => { s with isRename := true, oldPath := some p } := by
  constructor <;>
    simp [isBinaryLine_cons, Reader.sectionLine?, List.isPrefixOf_cons_cons, Text.after?,
      unquoted_verbatim hp, pathOf]

theorem changes_renameTo {p : Path} (hp : p.Verbatim) :
    Changes ("rename to ".toList ++ p.text.toList)
      fun s => { s with isRename := true, newPath := some p } := by
  constructor <;>
    simp [isBinaryLine_cons, Reader.sectionLine?, List.isPrefixOf_cons_cons, Text.after?,
      unquoted_verbatim hp, pathOf]

theorem changes_oldSide (name : List Char) :
    Changes ("--- ".toList ++ name)
      fun s => { s with oldPath := sidePath? name
                        isNew := s.isNew || (sidePath? name).isNone } := by
  constructor <;>
    simp [isBinaryLine_cons, Reader.sectionLine?, List.isPrefixOf_cons_cons, Text.after?]

theorem changes_newSide (name : List Char) :
    Changes ("+++ ".toList ++ name)
      fun s => { s with newPath := sidePath? name
                        isDeleted := s.isDeleted || (sidePath? name).isNone } := by
  constructor <;>
    simp [isBinaryLine_cons, Reader.sectionLine?, List.isPrefixOf_cons_cons, Text.after?]

theorem readLines_binary (files : List Char) :
    readLines (.between done s binary)
        (("Binary files ".toList ++ (files ++ " differ".toList)) :: rest) =
      readLines (.between done s true) rest := by
  have hline :
      Reader.isBinaryLine ("Binary files ".toList ++ (files ++ " differ".toList)) = true := by
    rw [Reader.isBinaryLine, Bool.and_eq_true, List.isPrefixOf_iff_prefix,
      List.isSuffixOf_iff_suffix]
    exact ⟨List.prefix_append _ _, (List.suffix_append _ _).trans (List.suffix_append _ _)⟩
  have hafter : Text.after? "diff --git ".toList
      ("Binary files ".toList ++ (files ++ " differ".toList)) = none := by
    simp [Text.after?]
  rw [readLines, Reader.line, if_neg (by simp [Reader.between]), Reader.headLine, hafter]
  simp only [Reader.between, Option.isNone_some, Bool.and_false, Bool.false_eq_true, if_false,
    hline, if_true]

theorem readLines_body {old new : Nat} {body : List (List Char)} (h : Settles old new body) :
    readLines ⟨done, some s, binary, old, new⟩ (body ++ rest) =
      readLines (.between done s binary) rest := by
  induction h with
  | nil => rfl
  | removed | added | kept | empty =>
    simpa [readLines, Reader.line, Reader.bodyLine] using by assumption
  | @remark old new body text _ ih =>
    have hline : (⟨done, some s, binary, old, new⟩ : Reader).line ('\\' :: text) =
        .ok ⟨done, some s, binary, old, new⟩ := by
      rw [Reader.line]
      split
      · rfl
      · exact headLine_note rfl (isNote_remark text)
    rw [List.cons_append, readLines, hline]
    exact ih

theorem readLines_hunk (t : HunkText) :
    readLines (.between done s binary) (t.lines ++ rest) =
      readLines (.between done { s with hunks := s.hunks ++ [t.header.hunk] } binary) rest := by
  have hreads := t.reads
  obtain ⟨text, htext⟩ : ∃ text, t.head = '@' :: '@' :: ' ' :: text := by
    cases hafter : Text.after? "@@ ".toList t.head with
    | none =>
      rw [hunkHeader, hafter] at hreads
      cases hreads
    | some text => exact ⟨text, Text.after?_eq_some_iff.mp hafter⟩
  have hhead : (Reader.between done s binary).headLine t.head =
      .ok ⟨done, some { s with hunks := s.hunks ++ [t.header.hunk] }, binary, t.header.oldLength,
        t.header.newLength⟩ := by
    rw [htext] at hreads ⊢
    simp [Reader.headLine, Reader.between, Reader.sectionLine?, Text.after?, isBinaryLine_cons,
      List.isPrefixOf_cons_cons, hreads, Reader.update]
  rw [HunkText.lines, List.cons_append, readLines, Reader.line, if_neg (by simp [Reader.between]),
    hhead]
  exact readLines_body t.settles

theorem readLines_hunks (hunks : List HunkText) :
    readLines (.between done s binary) (hunks.flatMap HunkText.lines ++ rest) =
      readLines (.between done { s with hunks := s.hunks ++ hunks.map fun t => t.header.hunk }
        binary) rest := by
  induction hunks generalizing s with
  | nil => simp
  | cons t hunks ih =>
    rw [List.flatMap_cons, List.append_assoc, readLines_hunk, ih]
    simp

/-- Names of both sides replace those that the section has, and hunks follow those that it has. -/
theorem readLines_named (old new : List Char) (hunks : List HunkText) :
    readLines (.between done s binary)
        (("--- ".toList ++ old) :: ("+++ ".toList ++ new) :: hunks.flatMap HunkText.lines ++ rest) =
      readLines (.between done
        { s with
          oldPath := sidePath? old
          newPath := sidePath? new
          isNew := s.isNew || (sidePath? old).isNone
          isDeleted := s.isDeleted || (sidePath? new).isNone
          hunks := s.hunks ++ hunks.map fun t => t.header.hunk } binary) rest := by
  rw [List.cons_append, List.cons_append, readLines_change (changes_oldSide old),
    readLines_change (changes_newSide new), readLines_hunks]

end

/-! ## Reading sections -/

section
variable {r : Reader}

theorem close_owed (r : Reader) : r.close.oldOwed = r.oldOwed ∧ r.close.newOwed = r.newOwed := by
  unfold Reader.close
  cases r.current <;> exact ⟨rfl, rfl⟩

/-- The first line of a section completes the section in front of it. -/
theorem readLines_opening (ho : r.oldOwed = 0) (hn : r.newOwed = 0) (names : List Char)
    (rest : List (List Char)) :
    readLines r (("diff --git ".toList ++ names) :: rest) =
      readLines (.between r.close.done
        { oldPath := (bothPaths names).1, newPath := (bothPaths names).2 } false) rest := by
  rw [readLines, Reader.line, if_neg (by omega), Reader.headLine, Text.after?_append]
  simp only [Reader.between, close_owed, ho, hn]

/-- Sections that are read the same way behind whatever else is complete. -/
theorem readLines_sections {α : Type} {lines : α → List (List Char)} {told : α → DiffSection}
    {isBinary : α → Bool}
    (h : ∀ r : Reader, r.oldOwed = 0 → r.newOwed = 0 → ∀ a rest, readLines r (lines a ++ rest) =
      readLines (.between r.close.done (told a) (isBinary a)) rest)
    (ho : r.oldOwed = 0) (hn : r.newOwed = 0) (as : List α) :
    (readLines r (as.flatMap lines)).map Reader.sections =
      .ok (r.sections ++ as.flatMap fun a => if isBinary a then [] else [told a]) := by
  induction as generalizing r with
  | nil => simp [readLines, Except.map]
  | cons a as ih =>
    rw [List.flatMap_cons, h r ho hn, ih rfl rfl]
    cases hb : isBinary a <;> simp [Reader.between, Reader.sections, Reader.close, hb]

end

namespace FileChange

section
variable {done : List DiffSection} {s : DiffSection} {r : Reader}

theorem readLines_fateLines (c : FileChange) (rest : List (List Char)) :
    readLines (.between done c.opened false) (c.fateLines ++ rest) =
      readLines (.between done c.headed false) rest := by
  unfold fateLines headed
  cases c.fate with
  | edited => rfl
  | added mode => exact readLines_change (changes_added mode)
  | removed mode => exact readLines_change (changes_removed mode)
  | renamed =>
    rw [List.cons_append, readLines_change (changes_renameFrom c.old_plain.verbatim),
      List.singleton_append, readLines_change (changes_renameTo c.new_plain.verbatim)]

theorem sidePath?_sideText {side : Char} (hside : side = 'a' ∨ side = 'b') {path? : Option Path}
    (h : ∀ p ∈ path?, p.Verbatim) (stamp : Option (List Char)) :
    sidePath? (sideText side path? stamp) = path? := by
  cases path? with
  | none => rfl
  | some p => exact sidePath?_verbatim (h p rfl) hside stamp

theorem oldSide?_verbatim (c : FileChange) : ∀ p ∈ c.oldSide?, p.Verbatim := by
  unfold oldSide?
  cases c.fate <;> simp [c.old_plain.verbatim]

theorem newSide?_verbatim (c : FileChange) : ∀ p ∈ c.newSide?, p.Verbatim := by
  unfold newSide?
  cases c.fate <;> simp [c.new_plain.verbatim]

theorem readLines_contentLines (c : FileChange) (rest : List (List Char)) :
    readLines (.between done c.headed false) (c.contentLines ++ rest) =
      readLines (.between done c.summary c.isBinary) rest := by
  unfold contentLines summary isBinary
  cases c.contents with
  | nothing => rfl
  | binary files => exact readLines_binary files
  | hunks oldStamp newStamp hunks =>
    rw [readLines_named, sidePath?_sideText (.inl rfl) c.oldSide?_verbatim,
      sidePath?_sideText (.inr rfl) c.newSide?_verbatim]
    congr 2
    unfold headed opened oldSide? newSide?
    cases c.fate <;> rfl

/-- A section is read the same way behind whatever else is complete. -/
theorem readLines_lines (ho : r.oldOwed = 0) (hn : r.newOwed = 0) (c : FileChange)
    (rest : List (List Char)) :
    readLines r (c.lines ++ rest) =
      readLines (.between r.close.done c.summary c.isBinary) rest := by
  have hopen : ∀ rest, readLines r (("diff --git ".toList ++ bothNames c.old c.new) :: rest) =
      readLines (.between r.close.done c.opened false) rest :=
    readLines_opening ho hn (bothNames c.old c.new)
  rw [lines, List.cons_append, hopen]
  simp only [List.append_assoc]
  rw [readLines_notes c.preface_notes, readLines_fateLines, readLines_notes c.notes_notes,
    readLines_contentLines]

theorem readLines_flatMap (ho : r.oldOwed = 0) (hn : r.newOwed = 0) (changes : List FileChange) :
    (readLines r (changes.flatMap lines)).map Reader.sections =
      .ok (r.sections ++ changes.flatMap summaries) :=
  readLines_sections (fun _ ho hn => readLines_lines ho hn) ho hn changes

end

end FileChange

/-- A diff in sections reads as what the sections tell. -/
theorem read_changes {text : String} {changes : List FileChange}
    (h : Text.lines text.toList = changes.flatMap FileChange.lines) :
    read text = .ok (changes.flatMap FileChange.summaries) := by
  rw [read, h, FileChange.readLines_flatMap rfl rfl]
  rfl

/-- The text of a diff that has a section for each of the changes. -/
def diffText (changes : List FileChange) : List Char :=
  (changes.flatMap FileChange.lines).flatMap (· ++ ['\n'])

theorem lines_diffText {changes : List FileChange}
    (h : ∀ l ∈ changes.flatMap FileChange.lines, '\n' ∉ l ∧ '\r' ∉ l) :
    Text.lines (diffText changes) = changes.flatMap FileChange.lines :=
  Text.lines_flatMap_eq_self h

end DocDrift.Diff
