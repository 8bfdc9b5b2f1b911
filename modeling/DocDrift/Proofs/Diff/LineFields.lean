import DocDrift.Proofs.Diff.Accounting
import DocDrift.Proofs.Diff.Numbers

/-!
# Numbers within line fields

Reading a diff comes to an end with its sections or with a message about the diff, whatever the text
is. A header of a hunk is taken only if its numbers fit line fields, and the hunk begins on either
side where the header says, one line later if that side is empty. One number has none behind it: the
empty side that begins at the largest line begins at line 0 of the hunk.
-/

namespace DocDrift

namespace Text

/-- The text is the number in decimal digits, perhaps with a plus sign in front. -/
def WritesNumber (s : List Char) (n : Nat) : Prop :=
  ∃ digits, digits ≠ [] ∧ (∀ c ∈ digits, c.isDigit = true) ∧ (s = digits ∨ s = '+' :: digits) ∧
    Nat.ofDigitChars 10 digits 0 = n

theorem isDigit_of_digitsValue {s : List Char} {n m : Nat} (h : digitsValue n s = some m) :
    ∀ c ∈ s, c.isDigit = true := by
  induction s generalizing n with
  | nil => exact nofun
  | cons c s ih =>
    rw [digitsValue] at h
    split at h
    · next hc => exact List.forall_mem_cons.mpr ⟨hc, ih h⟩
    · cases h

theorem writesNumber_of_unsigned? {largest n : Nat} {s : List Char}
    (h : unsigned? largest s = some n) : WritesNumber s n ∧ n ≤ largest := by
  have hvalue : ∀ digits, digits ≠ [] → (s = digits ∨ s = '+' :: digits) →
      (digitsValue 0 digits).filter (· ≤ largest) = some n → WritesNumber s n ∧ n ≤ largest := by
    intro digits hne hs hfilter
    obtain ⟨hdigits, hle⟩ := Option.filter_eq_some_iff.mp hfilter
    have hall := isDigit_of_digitsValue hdigits
    rw [digitsValue_eq_ofDigitChars hall] at hdigits
    exact ⟨⟨digits, hne, hall, hs, Option.some.inj hdigits⟩, of_decide_eq_true hle⟩
  unfold unsigned? at h
  split at h
  next digits =>
    cases digits with
    | nil => cases h
    | cons c digits => exact hvalue (c :: digits) (List.cons_ne_nil _ _) (.inr rfl) h
  next =>
    cases s with
    | nil => cases h
    | cons c digits => exact hvalue (c :: digits) (List.cons_ne_nil _ _) (.inl rfl) h

end Text

namespace Diff

/-! ## Headers -/

/-- The text names a side of a hunk by its start and its length, a length of one being left out. -/
def NamesSide (s : List Char) (start length : Nat) : Prop :=
  Text.WritesNumber s start ∧ length = 1 ∨
    ∃ before behind, s = before ++ ',' :: behind ∧ Text.WritesNumber before start ∧
      Text.WritesNumber behind length

namespace HunkHeader

/-- The line says what the header does: both sides between the marks, and what follows them. -/
def WrittenAs (h : HunkHeader) (line : List Char) : Prop :=
  ∃ old new heading,
    line = "@@ -".toList ++ (old ++ (" +".toList ++ (new ++ (" @@".toList ++ heading)))) ∧
      NamesSide old h.oldStart h.oldLength ∧ NamesSide new h.newStart h.newLength

def Fits (h : HunkHeader) : Prop :=
  (h.oldStart ≤ maxLine ∧ h.oldLength ≤ maxLine) ∧ h.newStart ≤ maxLine ∧ h.newLength ≤ maxLine

end HunkHeader

section
variable {s l : List Char} {start length : Nat} {h : HunkHeader}

theorem namesSide_of_sideRange? (hs : sideRange? s = some (start, length)) :
    NamesSide s start length ∧ start ≤ maxLine ∧ length ≤ maxLine := by
  unfold sideRange? at hs
  split at hs
  · next before behind hsplit =>
    simp only [Option.bind_eq_bind, Option.bind_eq_some_iff, Option.pure_def] at hs
    obtain ⟨a, ha, b, hb, heq⟩ := hs
    cases heq
    obtain ⟨hstart, hstartLe⟩ := Text.writesNumber_of_unsigned? ha
    obtain ⟨hlength, hlengthLe⟩ := Text.writesNumber_of_unsigned? hb
    have hs := Text.splitOnce_eq_some hsplit
    exact ⟨.inr ⟨before, behind, hs, hstart, hlength⟩, hstartLe, hlengthLe⟩
  · simp only [Option.bind_eq_bind, Option.bind_eq_some_iff, Option.pure_def] at hs
    obtain ⟨a, ha, heq⟩ := hs
    cases heq
    obtain ⟨hstart, hle⟩ := Text.writesNumber_of_unsigned? ha
    exact ⟨.inl ⟨hstart, rfl⟩, hle, by decide⟩

/-- A header is cut out of its line at marks that the line has. -/
theorem writtenAs_of_hunkHeader (hl : hunkHeader l = .ok h) : h.WrittenAs l ∧ h.Fits := by
  unfold hunkHeader at hl
  split at hl
  case h_2 => cases hl
  next rest hrest =>
  split at hl
  case h_2 => cases hl
  next numbers heading hnumbers =>
  split at hl
  case h_2 => cases hl
  next old new hsides =>
  split at hl
  case h_2 => cases hl
  next oldSide hold =>
  split at hl
  case h_2 => cases hl
  next newSide hnew =>
  split at hl
  case h_2 => cases hl
  next oldStart oldLength hreadOld =>
  split at hl
  case h_2 => cases hl
  next newStart newLength hreadNew =>
  cases hl
  obtain ⟨holdSide, holdFits⟩ := namesSide_of_sideRange? hreadOld
  obtain ⟨hnewSide, hnewFits⟩ := namesSide_of_sideRange? hreadNew
  refine ⟨⟨oldSide, newSide, heading, ?_, holdSide, hnewSide⟩, holdFits, hnewFits⟩
  rw [Text.after?_eq_some_iff.mp hrest, Text.splitOnce_eq_some hnumbers,
    Text.splitOnce_eq_some hsides, Text.after?_eq_some_iff.mp hold, Text.after?_eq_some_iff.mp hnew]
  simp

/-! ## Hunks -/

/-- A side that begins at `start` in the header begins at `moved` in the hunk. That is one line
later if the side is empty, unless it begins at the largest line. -/
def MovesTo (start length moved : Nat) : Prop :=
  (moved = start + (if length = 0 then 1 else 0) ↔ ¬ (length = 0 ∧ start = maxLine)) ∧
    (length = 0 → start = maxLine → moved = 0)

theorem movesTo_nextLine (hs : start ≤ maxLine) :
    MovesTo start length (if length = 0 then nextLine start else start) := by
  unfold MovesTo
  split
  · next hempty =>
    rcases Nat.lt_or_eq_of_le hs with hlt | rfl
    · have hne := Nat.ne_of_lt hlt
      simp [hempty, nextLine_of_lt hlt, hne]
    · simp [hempty, nextLine_maxLine]
  · next hlines => simp [hlines]

theorem HunkHeader.Fits.hunk (hh : h.Fits) : h.hunk.Fits :=
  Hunk.ofUnified_fits hh.1.1 hh.1.2 hh.2.1 hh.2.2

/-! ## Reading -/

/-- The numbers that the reader keeps fit line fields, and each of its hunks is that of a header
among the lines. -/
structure Reader.Keeps (r : Reader) (ls : List (List Char)) : Prop where
  oldOwed : r.oldOwed ≤ maxLine
  newOwed : r.newOwed ≤ maxLine
  counted : ∀ k ∈ r.hunks, ∃ l ∈ ls, ∃ h, hunkHeader l = .ok h ∧ k = h.hunk

section
variable {r r' : Reader} {ls : List (List Char)} {e : Failure}

theorem Reader.Keeps.hunks (hr : r.Keeps ls) : ∀ k ∈ r.hunks, k.Fits := by
  intro k hk
  obtain ⟨l, -, h, hl, rfl⟩ := hr.counted k hk
  exact (writtenAs_of_hunkHeader hl).2.hunk

/-- What a line does to the reader, if it is not refused. -/
theorem line_keeps (hr : r.Keeps ls) (hl : l ∈ ls) :
    (∃ r', r.line l = .ok r' ∧ r'.Keeps ls) ∨ ∃ message, r.line l = .error (.diff message) := by
  unfold Reader.line
  split
  · -- a line that is owed only lowers the counters
    cases hbody : isBodyLine l with
    | true =>
      refine .inl ⟨_, bodyLine_taken r hbody, ?_, ?_, hr.counted⟩
      · exact Nat.le_trans (Nat.sub_le ..) hr.oldOwed
      · exact Nat.le_trans (Nat.sub_le ..) hr.newOwed
    | false => exact .inr ⟨_, bodyLine_refused r hbody⟩
  · cases hhunk : r.current.isSome && isHunkLine l with
    | true =>
      obtain ⟨hinside, hopens⟩ := Bool.and_eq_true_iff.mp hhunk
      -- the one kind of line that sets them
      rw [headLine_hunk hopens hinside]
      cases hheader : hunkHeader l with
      | error fault => exact .inr ⟨_, rfl⟩
      | ok h =>
        obtain ⟨-, hfits⟩ := writtenAs_of_hunkHeader hheader
        refine .inl ⟨_, rfl, hfits.1.2, hfits.2.2, ?_⟩
        rw [counting_hunks hinside, List.forall_mem_append, List.forall_mem_singleton]
        exact ⟨hr.counted, l, hl, h, hheader, rfl⟩
    | false =>
      obtain ⟨r', hread, hold, hnew, -, hsub⟩ := headLine_outside hhunk
      exact .inl ⟨r', hread, hold ▸ hr.oldOwed, hnew ▸ hr.newOwed,
        fun k hk => hr.counted k (hsub.subset hk)⟩

/-- Lines are read up to the last one, or up to one that is refused. -/
theorem readLines_keeps {taken : List (List Char)} (hr : r.Keeps ls) (htaken : taken ⊆ ls) :
    (∃ r', readLines r taken = .ok r' ∧ r'.Keeps ls) ∨
      ∃ message, readLines r taken = .error (.diff message) := by
  induction taken generalizing r with
  | nil => exact .inl ⟨r, rfl, hr⟩
  | cons l taken ih =>
    obtain ⟨hl, hrest⟩ := List.cons_subset.mp htaken
    rw [readLines]
    rcases line_keeps hr hl with ⟨r', hread, hr'⟩ | ⟨message, hrefused⟩
    · rw [hread]
      exact ih hr' hrest
    · exact .inr ⟨message, by rw [hrefused]⟩

end

end

/-- Every text is read or refused with a message. On the way all numbers fit line fields, and the
hunks are those of headers, in which the lines say the numbers that are read. A hunk starts where it
should, except for an empty side at the largest line. -/
theorem read_numbers_fit (text : String) :
    ((∃ sections, read text = .ok sections) ∨ ∃ message, read text = .error (.diff message)) ∧
      (∀ ls r, ls <+: Text.lines text.toList → readLines {} ls = .ok r →
        r.oldOwed ≤ maxLine ∧ r.newOwed ≤ maxLine ∧ ∀ k ∈ r.hunks, k.Fits) ∧
      (∀ sections, read text = .ok sections → ∀ s ∈ sections, ∀ k ∈ s.hunks,
        ∃ l ∈ Text.lines text.toList, ∃ h, hunkHeader l = .ok h ∧ k = h.hunk) ∧
      ∀ l h, hunkHeader l = .ok h → h.WrittenAs l ∧
        MovesTo h.oldStart h.oldLength h.hunk.oldStart ∧
        MovesTo h.newStart h.newLength h.hunk.newStart ∧
        h.hunk.oldLength = h.oldLength ∧ h.hunk.newLength = h.newLength := by
  have hstart : Reader.Keeps {} (Text.lines text.toList) := ⟨Nat.zero_le _, Nat.zero_le _, nofun⟩
  refine ⟨?_, ?_, ?_, ?_⟩
  · rcases readLines_keeps hstart (List.Subset.refl _) with ⟨r, hr, -⟩ | ⟨message, hrefused⟩
    · exact .inl ⟨r.sections, by rw [read, hr]; rfl⟩
    · exact .inr ⟨message, by rw [read, hrefused]; rfl⟩
  · intro ls r hls hr
    rcases readLines_keeps hstart hls.subset with ⟨r', hr', hkeeps⟩ | ⟨message, hrefused⟩
    · cases hr.symm.trans hr'
      exact ⟨hkeeps.oldOwed, hkeeps.newOwed, hkeeps.hunks⟩
    · cases hr.symm.trans hrefused
  · intro sections hread s hs k hk
    rcases readLines_keeps hstart (List.Subset.refl _) with ⟨r, hr, hkeeps⟩ | ⟨message, hrefused⟩
    · rw [read, hr] at hread
      cases hread
      exact hkeeps.counted k ((sections_hunks r).subset (List.mem_flatMap.mpr ⟨s, hs, hk⟩))
    · rw [read, hrefused] at hread
      cases hread
  · intro l h hl
    obtain ⟨hwritten, hold, hnew⟩ := writtenAs_of_hunkHeader hl
    exact ⟨hwritten, movesTo_nextLine hold.1, movesTo_nextLine hnew.1, rfl, rfl⟩

/-- A header that is taken, though no line field holds the start that its hunk should have. -/
theorem read_numbers_fit_largest :
    let line := "@@ -4294967295,0 +1 @@".toList
    let header : HunkHeader := ⟨0xFFFFFFFF, 0, 1, 1⟩
    hunkHeader line = .ok header ∧ header.WrittenAs line ∧ header.hunk = ⟨0, 0, 1, 1⟩ := by
  intro line header
  have hread : hunkHeader line = .ok header := rfl
  obtain ⟨-, -, -, hheaders⟩ := read_numbers_fit "--- a/f\n+++ b/f\n@@ -4294967295,0 +1 @@\n+x\n"
  obtain ⟨hwritten, ⟨-, hlargest⟩, -⟩ := hheaders line header hread
  have hstart : header.hunk.oldStart = 0 := hlargest rfl rfl
  refine ⟨hread, hwritten, ?_⟩
  calc header.hunk = ⟨header.hunk.oldStart, 0, 1, 1⟩ := rfl
    _ = ⟨0, 0, 1, 1⟩ := by rw [hstart]

end Diff

end DocDrift
