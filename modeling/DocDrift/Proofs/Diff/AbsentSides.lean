import DocDrift.Proofs.Diff.Change

/-!
# Absent sides

A file that a diff calls new has no old side, and one that it calls deleted no new side. Such a side
is read as absent only in a section that names both sides in front of its hunks, where the empty
device stands for it. The first line of a section gives two paths whatever became of the file. So an
empty file that was added or removed keeps both.
-/

namespace DocDrift.Diff

inductive Side where
  | old
  | new
deriving DecidableEq

namespace Side

def letter : Side → Char
  | old => 'a'
  | new => 'b'

/-- How the line begins that says that there is no such side. -/
def mark : Side → List Char
  | old => "new file mode".toList
  | new => "deleted file mode".toList

theorem letter_ne (side : Side) : side.letter ≠ '"' ∧ side.letter ≠ '\t' ∧ side.letter ≠ '/' := by
  cases side <;> decide

end Side

end DocDrift.Diff

namespace DocDrift.DiffSection
open Diff

def path? (s : DiffSection) : Side → Option Path
  | .old => s.oldPath
  | .new => s.newPath

/-- Whether the section says that there is no such side. -/
def lacks (s : DiffSection) : Side → Bool
  | .old => s.isNew
  | .new => s.isDeleted

/-- A path is missing exactly where the section says that the file is new or deleted. -/
def Agrees (s : DiffSection) : Prop :=
  (s.oldPath = none ↔ s.isNew = true) ∧ (s.newPath = none ↔ s.isDeleted = true)

theorem agrees_iff (s : DiffSection) :
    s.Agrees ↔ ∀ side, s.path? side = none ↔ s.lacks side = true := by
  constructor
  · intro h side
    cases side with
    | old => exact h.1
    | new => exact h.2
  · intro h
    exact ⟨h .old, h .new⟩

/-- The section behind one more line of its head. -/
def told (s : DiffSection) (l : List Char) : DiffSection :=
  match Reader.sectionLine? l with
  | some change => change s
  | none => s

end DocDrift.DiffSection

namespace DocDrift.Diff

/-! ## Names -/

/-- The name of a side as a diff writes it, in quotes if it has characters that need them. -/
structure SideName where
  text : List Char
  quoted : Bool

def SideName.written (n : SideName) (side : Side) : List Char :=
  if n.quoted then '"' :: side.letter :: '/' :: (n.text ++ ['"'])
  else side.letter :: '/' :: n.text

/-- Both names as the first line of a section writes them. -/
def sectionNames (old new : SideName) : List Char := old.written .old ++ ' ' :: new.written .new

section
variable {c d : Char}

theorem dropRight_cons (h : d ≠ c) (s : List Char) : dropRight c (d :: s) = d :: dropRight c s := by
  unfold dropRight
  rw [List.reverse_cons, List.dropWhile_append]
  split
  · next hnil => simp [List.isEmpty_iff.mp hnil, h]
  · simp

theorem head?_unquoted (hquote : c ≠ '"') (htab : c ≠ '\t') (s : List Char) :
    (unquoted (c :: s)).head? = some c := by
  unfold unquoted
  rw [dropRight_cons htab, List.dropWhile_cons, beq_false_of_ne hquote, if_neg (by simp),
    dropRight_cons hquote]
  rfl

theorem unquoted_quote (s : List Char) : unquoted ('"' :: s) = unquoted s := by
  unfold unquoted
  rw [dropRight_cons (by decide), List.dropWhile_cons, if_pos (by simp)]

/-- A name with the letter of its side is not that of the empty device. -/
theorem sidePath?_written (n : SideName) (side : Side) (stamp : Option (List Char)) :
    sidePath? (n.written side ++ stampText stamp) ≠ none := by
  obtain ⟨hquote, htab, hslash⟩ := side.letter_ne
  have hhead : (unquoted ((n.written side ++ stampText stamp).takeWhile (· != '\t'))).head? =
      some side.letter := by
    unfold SideName.written
    split
    · simp [htab, unquoted_quote, head?_unquoted hquote htab]
    · simp [htab, head?_unquoted hquote htab]
  have hdevice : unquoted ((n.written side ++ stampText stamp).takeWhile (· != '\t')) ≠
      "/dev/null".toList := by
    intro h
    have hfirst : "/dev/null".toList.head? = some '/' := by simp
    rw [h, hfirst] at hhead
    exact hslash (Option.some.inj hhead).symm
  unfold sidePath?
  simp only [hdevice, if_false]
  exact Option.some_ne_none _

/-- Blanks at the end of a text stand behind any part of it that ends otherwise. -/
theorem trim_append {first last : Char} {p : List Char} (hfirst : Text.isBlank first = false)
    (hlast : Text.isBlank last = false) (s t : List Char) :
    Text.trim (first :: (s ++ ((p ++ [last]) ++ t))) =
      first :: (s ++ ((p ++ [last]) ++ Text.trimRight t)) := by
  have hp : Text.trimRight (p ++ [last]) = p ++ [last] :=
    Text.trimRight_eq_self (by simpa using hlast)
  have hend : Text.trimRight ((p ++ [last]) ++ t) = (p ++ [last]) ++ Text.trimRight t := by
    rw [Text.trimRight_append_eq]
    split
    · next hnil => rw [hp, hnil, List.append_nil]
    · rfl
  unfold Text.trim
  rw [List.dropWhile_cons, hfirst, if_neg (by simp), ← List.cons_append, Text.trimRight_append_eq,
    hend, if_neg (by simp)]
  rfl

theorem splitLast_trim_isSome {first : Char} {p : List Char} (hfirst : Text.isBlank first = false)
    (hp : '/' ∉ p) (s t : List Char) : (Text.splitLast (p ++ ['/'])
      (Text.trim (first :: (s ++ ((p ++ ['/']) ++ t))))).isSome = true := by
  have hreverse : (p ++ ['/']).reverse = '/' :: p.reverse := by simp
  have hmem : '/' ∉ p.reverse := by simpa using hp
  rw [trim_append hfirst (by decide), ← List.cons_append, Text.splitLast_append hreverse hmem]
  split <;> rfl

/-- The first line of a section gives a path for either side, whatever the names are. -/
theorem bothPaths_sectionNames (old new : SideName) :
    (bothPaths (sectionNames old new)).1 ≠ none ∧ (bothPaths (sectionNames old new)).2 ≠ none := by
  obtain ⟨first, rest, hold, hblank⟩ : ∃ first rest, old.written .old = first :: rest ∧
      Text.isBlank first = false := by
    unfold SideName.written
    cases old.quoted with
    | true => exact ⟨_, _, rfl, by decide⟩
    | false => exact ⟨_, _, rfl, by decide⟩
  -- the name of the new side begins with its letter or with a quote in front of it
  have hsplit : ((Text.splitLast " b/".toList (Text.trim (sectionNames old new))).or
      (Text.splitLast " \"b/".toList (Text.trim (sectionNames old new)))).isSome = true := by
    rw [sectionNames, hold, Option.isSome_or, Bool.or_eq_true]
    cases hquoted : new.quoted with
    | true =>
      right
      have h := splitLast_trim_isSome (p := " \"b".toList) hblank (by decide) rest
        (new.text ++ ['"'])
      simpa [SideName.written, hquoted, Side.letter] using h
    | false =>
      left
      have h := splitLast_trim_isSome (p := " b".toList) hblank (by decide) rest new.text
      simpa [SideName.written, hquoted, Side.letter] using h
  obtain ⟨r, hr⟩ := Option.isSome_iff_exists.mp hsplit
  unfold bothPaths
  simp only [hr]
  exact ⟨Option.some_ne_none _, Option.some_ne_none _⟩

end

/-! ## The head of a section -/

/-- Whether the line can stand between the one that opens a section and the names of its sides. -/
def isHeadLine (l : List Char) : Bool :=
  !"diff --git ".toList.isPrefixOf l && !Reader.isBinaryLine l && !"--- ".toList.isPrefixOf l &&
    !"+++ ".toList.isPrefixOf l && !"@@ ".toList.isPrefixOf l

section
variable {done : List DiffSection} {s : DiffSection} {l : List Char} {head rest : List (List Char)}

theorem readLines_headLine (h : isHeadLine l = true) :
    readLines (.between done s false) (l :: rest) =
      readLines (.between done (s.told l) false) rest := by
  simp only [isHeadLine, Bool.and_eq_true, Bool.not_eq_true'] at h
  obtain ⟨⟨⟨⟨hdiff, hbinary⟩, -⟩, -⟩, hhunk⟩ := h
  unfold DiffSection.told
  cases hsection : Reader.sectionLine? l with
  | some change => exact readLines_change ⟨hdiff, hbinary, hsection⟩
  | none =>
    have hnote : isNote l = true := by
      simp only [isNote, hdiff, hbinary, hsection, hhunk]
      rfl
    have hnotes : ∀ k ∈ [l], isNote k = true := List.forall_mem_singleton.mpr hnote
    exact readLines_notes hnotes

theorem readLines_head (h : ∀ l ∈ head, isHeadLine l = true) :
    readLines (.between done s false) (head ++ rest) =
      readLines (.between done (head.foldl DiffSection.told s) false) rest := by
  induction head generalizing s with
  | nil => rfl
  | cons l head ih =>
    obtain ⟨hl, hhead⟩ := List.forall_mem_cons.mp h
    rw [List.cons_append, readLines_headLine hl, ih hhead]
    rfl

theorem new_not_marked (h : Side.old.mark.isPrefixOf l = true) :
    Side.new.mark.isPrefixOf l = false := by
  unfold Side.mark at h ⊢
  obtain ⟨text, rfl⟩ := List.isPrefixOf_iff_prefix.mp h
  simp [List.isPrefixOf_cons_cons]

/-- A line of the head leaves no side without a path, and it marks the side that it speaks of. -/
theorem told_side (h : isHeadLine l = true) (side : Side) :
    (s.path? side ≠ none → (s.told l).path? side ≠ none) ∧
      (s.told l).lacks side = (s.lacks side || side.mark.isPrefixOf l) := by
  simp only [isHeadLine, Bool.and_eq_true, Bool.not_eq_true'] at h
  obtain ⟨⟨⟨-, hminus⟩, hplus⟩, -⟩ := h
  unfold DiffSection.told Reader.sectionLine?
  rw [Text.after?_eq_none hminus, Text.after?_eq_none hplus]
  by_cases hold : Side.old.mark.isPrefixOf l = true
  · rw [if_pos (show "new file mode".toList.isPrefixOf l = true from hold)]
    cases side with
    | old => rw [hold, Bool.or_true]; exact ⟨id, rfl⟩
    | new => rw [new_not_marked hold, Bool.or_false]; exact ⟨id, rfl⟩
  rw [if_neg (show ¬ "new file mode".toList.isPrefixOf l = true from hold)]
  rw [Bool.not_eq_true] at hold
  by_cases hnew : Side.new.mark.isPrefixOf l = true
  · rw [if_pos (show "deleted file mode".toList.isPrefixOf l = true from hnew)]
    cases side with
    | old => rw [hold, Bool.or_false]; exact ⟨id, rfl⟩
    | new => rw [hnew, Bool.or_true]; exact ⟨id, rfl⟩
  rw [if_neg (show ¬ "deleted file mode".toList.isPrefixOf l = true from hnew)]
  rw [Bool.not_eq_true] at hnew
  have hmark : side.mark.isPrefixOf l = false := by
    cases side with
    | old => exact hold
    | new => exact hnew
  rw [hmark, Bool.or_false]
  -- what is left is a rename, which gives the side a path, or nothing
  cases Text.after? "rename from ".toList l with
  | some name => cases side <;> simp [DiffSection.path?, DiffSection.lacks]
  | none =>
    cases Text.after? "rename to ".toList l with
    | some name => cases side <;> simp [DiffSection.path?, DiffSection.lacks]
    | none => exact ⟨id, rfl⟩

theorem head_side (h : ∀ l ∈ head, isHeadLine l = true) (side : Side) (hs : s.path? side ≠ none) :
    (head.foldl DiffSection.told s).path? side ≠ none ∧
      (head.foldl DiffSection.told s).lacks side =
        (s.lacks side || head.any side.mark.isPrefixOf) := by
  induction head generalizing s with
  | nil => simp [hs]
  | cons l head ih =>
    obtain ⟨hl, hhead⟩ := List.forall_mem_cons.mp h
    obtain ⟨hpath, hlacks⟩ := told_side (s := s) hl side
    rw [List.foldl_cons, List.any_cons, ← Bool.or_assoc, ← hlacks]
    exact ih hhead (hpath hs)

end

/-! ## Sections -/

structure GitSection where
  old : SideName
  new : SideName
  /-- The lines between the first one and the contents. -/
  head : List (List Char)
  contents : Contents
  head_lines : ∀ l ∈ head, isHeadLine l = true

namespace GitSection

def name (t : GitSection) : Side → SideName
  | .old => t.old
  | .new => t.new

/-- Whether the head says that there is no such side. -/
def lacks (t : GitSection) (side : Side) : Bool := t.head.any side.mark.isPrefixOf

/-- Whether the sides are named in front of hunks. -/
def isNamed (t : GitSection) : Bool :=
  match t.contents with
  | .hunks .. => true
  | _ => false

def isBinary (t : GitSection) : Bool :=
  match t.contents with
  | .binary _ => true
  | _ => false

/-- What names a side in front of the hunks. -/
def sideText (t : GitSection) (side : Side) (stamp : Option (List Char)) : List Char :=
  if t.lacks side then "/dev/null".toList else (t.name side).written side ++ stampText stamp

def contentLines (t : GitSection) : List (List Char) :=
  match t.contents with
  | .nothing => []
  | .binary files => ["Binary files ".toList ++ (files ++ " differ".toList)]
  | .hunks oldStamp newStamp hunks =>
    ("--- ".toList ++ t.sideText .old oldStamp) ::
      ("+++ ".toList ++ t.sideText .new newStamp) :: hunks.flatMap HunkText.lines

def lines (t : GitSection) : List (List Char) :=
  ("diff --git ".toList ++ sectionNames t.old t.new) :: (t.head ++ t.contentLines)

def opened (t : GitSection) : DiffSection :=
  let paths := bothPaths (sectionNames t.old t.new)
  { oldPath := paths.1, newPath := paths.2 }

def headed (t : GitSection) : DiffSection := t.head.foldl DiffSection.told t.opened

def summary (t : GitSection) : DiffSection :=
  match t.contents with
  | .hunks oldStamp newStamp hunks =>
    let old? := sidePath? (t.sideText .old oldStamp)
    let new? := sidePath? (t.sideText .new newStamp)
    { t.headed with
      oldPath := old?
      newPath := new?
      isNew := t.headed.isNew || old?.isNone
      isDeleted := t.headed.isDeleted || new?.isNone
      hunks := t.headed.hunks ++ hunks.map fun u => u.header.hunk }
  | _ => t.headed

/-- What the reader makes of the section; sections of binary files are dropped. -/
def summaries (t : GitSection) : List DiffSection :=
  if t.isBinary then [] else [t.summary]

section
variable {r : Reader}

theorem readLines_contentLines {done : List DiffSection} (t : GitSection)
    (rest : List (List Char)) :
    readLines (.between done t.headed false) (t.contentLines ++ rest) =
      readLines (.between done t.summary t.isBinary) rest := by
  unfold contentLines summary isBinary
  cases t.contents with
  | nothing => rfl
  | binary files => exact readLines_binary files
  | hunks oldStamp newStamp hunks => exact readLines_named _ _ hunks

theorem readLines_lines (ho : r.oldOwed = 0) (hn : r.newOwed = 0) (t : GitSection)
    (rest : List (List Char)) :
    readLines r (t.lines ++ rest) =
      readLines (.between r.close.done t.summary t.isBinary) rest := by
  rw [lines, List.cons_append, readLines_opening ho hn, List.append_assoc,
    readLines_head t.head_lines]
  exact t.readLines_contentLines rest

end

/-- In front of its contents a section has both paths, and marks the sides that its head denies. -/
theorem headed_side (t : GitSection) (side : Side) :
    t.headed.path? side ≠ none ∧ t.headed.lacks side = t.lacks side := by
  have hopened : t.opened.path? side ≠ none ∧ t.opened.lacks side = false := by
    obtain ⟨hold, hnew⟩ := bothPaths_sectionNames t.old t.new
    cases side with
    | old => exact ⟨hold, rfl⟩
    | new => exact ⟨hnew, rfl⟩
  obtain ⟨hpath, hlacks⟩ := head_side t.head_lines side hopened.1
  rw [hopened.2, Bool.false_or] at hlacks
  exact ⟨hpath, hlacks⟩

/-- The empty device, and nothing else, is read as no side. -/
theorem sidePath?_sideText (t : GitSection) (side : Side) (stamp : Option (List Char)) :
    (sidePath? (t.sideText side stamp)).isNone = t.lacks side := by
  unfold sideText
  cases t.lacks side with
  | true => rfl
  | false =>
    rw [Option.isNone_eq_false_iff, Option.isSome_iff_ne_none]
    exact sidePath?_written (t.name side) side stamp

/-- A section marks the sides that its head denies, and such a side has no path exactly if the
section names its sides. -/
theorem summary_side (t : GitSection) (side : Side) :
    t.summary.lacks side = t.lacks side ∧
      (t.summary.path? side = none ↔ t.lacks side = true ∧ t.isNamed = true) := by
  obtain ⟨hpath, hlacks⟩ := t.headed_side side
  unfold summary isNamed
  cases t.contents with
  | nothing => exact ⟨hlacks, by simp [hpath]⟩
  | binary files => exact ⟨hlacks, by simp [hpath]⟩
  | hunks oldStamp newStamp hunks =>
    cases side with
    | old =>
      have hname := t.sidePath?_sideText .old oldStamp
      change t.headed.isNew = _ at hlacks
      change (t.headed.isNew || _) = _ ∧ (sidePath? _ = none ↔ _)
      rw [hlacks, hname, ← Option.isNone_iff_eq_none, hname]
      simp
    | new =>
      have hname := t.sidePath?_sideText .new newStamp
      change t.headed.isDeleted = _ at hlacks
      change (t.headed.isDeleted || _) = _ ∧ (sidePath? _ = none ↔ _)
      rw [hlacks, hname, ← Option.isNone_iff_eq_none, hname]
      simp

theorem summary_agrees_iff (t : GitSection) :
    t.summary.Agrees ↔ (t.isNamed = false → ∀ side, t.lacks side = false) := by
  have hside : ∀ side, (t.summary.path? side = none ↔ t.summary.lacks side = true) ↔
      (t.lacks side = true → t.isNamed = true) := by
    intro side
    obtain ⟨hmarked, hpath⟩ := t.summary_side side
    rw [hpath, hmarked, and_iff_left_iff_imp]
  rw [DiffSection.agrees_iff]
  simp only [hside]
  cases t.isNamed <;> simp

theorem mem_summaries {s : DiffSection} {ts : List GitSection} :
    s ∈ ts.flatMap summaries ↔ ∃ t ∈ ts, t.isBinary = false ∧ s = t.summary := by
  rw [List.mem_flatMap]
  refine exists_congr fun t => and_congr_right fun _ => ?_
  unfold summaries
  cases t.isBinary <;> simp

end GitSection

/-- A diff in sections is read section by section. A side is marked as absent exactly if the head of
its section denies it, but it is without a path only if the section also names its sides. So paths
and marks agree exactly if every section that denies a side names its sides or is dropped. -/
theorem read_absentSides {text : String} {ts : List GitSection}
    (h : Text.lines text.toList = ts.flatMap GitSection.lines) :
    read text = .ok (ts.flatMap GitSection.summaries) ∧
      (∀ t ∈ ts, ∀ side, t.summary.lacks side = t.lacks side ∧
        (t.summary.path? side = none ↔ t.lacks side = true ∧ t.isNamed = true)) ∧
      ((∀ s ∈ ts.flatMap GitSection.summaries, s.Agrees) ↔
        ∀ t ∈ ts, t.isBinary = false → t.isNamed = false → ∀ side, t.lacks side = false) := by
  refine ⟨?_, fun t _ side => t.summary_side side, ?_⟩
  · rw [read, h, readLines_sections (fun _ ho hn => GitSection.readLines_lines ho hn) rfl rfl]
    rfl
  · constructor
    · intro hagree t ht hbinary
      exact t.summary_agrees_iff.mp (hagree _ (GitSection.mem_summaries.mpr ⟨t, ht, hbinary, rfl⟩))
    · intro hnamed s hs
      obtain ⟨t, ht, hbinary, rfl⟩ := GitSection.mem_summaries.mp hs
      exact t.summary_agrees_iff.mpr (hnamed t ht hbinary)

/-- An empty file that was added keeps the path of its old side, a file with a line that was removed
loses that of its new side. -/
theorem read_absentSides_emptyFile :
    let text := "diff --git a/e.py b/e.py\nnew file mode 100644\nindex 0000000..e69de29\n" ++
      "diff --git \"a/\\303\\251.py\" \"b/\\303\\251.py\"\ndeleted file mode 100644\n" ++
      "--- \"a/\\303\\251.py\"\n+++ /dev/null\n@@ -1 +0,0 @@\n-x\n"
    let added : DiffSection :=
      { oldPath := some ⟨"e.py"⟩, newPath := some ⟨"e.py"⟩, isNew := true }
    let removed : DiffSection :=
      { oldPath := some ⟨"\\303\\251.py"⟩, hunks := [⟨1, 1, 1, 0⟩], isDeleted := true }
    read text = .ok [added, removed] ∧ removed.Agrees ∧ ¬ ∀ s ∈ [added, removed], s.Agrees := by
  intro text added removed
  let empty : GitSection :=
    { old := ⟨"e.py".toList, false⟩, new := ⟨"e.py".toList, false⟩
      head := ["new file mode 100644".toList, "index 0000000..e69de29".toList]
      contents := .nothing
      head_lines := by decide }
  let gone : GitSection :=
    { old := ⟨"\\303\\251.py".toList, true⟩, new := ⟨"\\303\\251.py".toList, true⟩
      head := ["deleted file mode 100644".toList]
      contents := .hunks none none
        [{ head := "@@ -1 +0,0 @@".toList, header := ⟨1, 1, 0, 0⟩, body := ["-x".toList]
           reads := rfl, settles := .removed _ .nil }]
      head_lines := by decide }
  have hlines : Text.lines text.toList = [empty, gone].flatMap GitSection.lines := by
    decide +kernel
  have hsummaries : [empty, gone].flatMap GitSection.summaries = [added, removed] := by
    decide +kernel
  obtain ⟨hread, -, hagree⟩ := read_absentSides hlines
  rw [hsummaries] at hread hagree
  refine ⟨hread, ⟨by simp [removed], by simp [removed]⟩, ?_⟩
  rw [hagree]
  intro hnamed
  exact Bool.noConfusion (hnamed empty (by simp) rfl rfl .old)

end DocDrift.Diff
