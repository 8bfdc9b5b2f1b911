import DocDrift.Diff.Header
import DocDrift.Proofs.Text.Pieces

/-!
# Numbers in the header of a hunk

The header of a hunk gives back the numbers that it was written with, whether a length of one is
written or left out, and whatever stands behind its closing mark.
-/

namespace DocDrift

namespace Text

theorem isDigit_of_mem_toDigits {n : Nat} {c : Char} (h : c ∈ Nat.toDigits 10 n) :
    c.isDigit = true :=
  Nat.isDigit_of_mem_toDigits (by decide) (by decide) h

theorem digitsValue_eq_ofDigitChars {s : List Char} (h : ∀ c ∈ s, c.isDigit = true) (n : Nat) :
    digitsValue n s = some (Nat.ofDigitChars 10 s n) := by
  induction s generalizing n with
  | nil => rfl
  | cons c s ih =>
    obtain ⟨hc, hs⟩ := List.forall_mem_cons.mp h
    rw [digitsValue, if_pos hc, ih hs, Nat.ofDigitChars_cons]

theorem unsigned?_toDigits {largest n : Nat} (h : n ≤ largest) :
    unsigned? largest (Nat.toDigits 10 n) = some n := by
  have hdigits : ∀ c ∈ Nat.toDigits 10 n, c.isDigit = true := fun _ => isDigit_of_mem_toDigits
  have hvalue : digitsValue 0 (Nat.toDigits 10 n) = some n := by
    rw [digitsValue_eq_ofDigitChars hdigits, Nat.ofDigitChars_ten_toDigits]
  cases hs : Nat.toDigits 10 n with
  | nil => exact absurd hs Nat.toDigits_ne_nil
  | cons c s =>
    rw [hs] at hdigits hvalue
    have hplus : c ≠ '+' := by
      rintro rfl
      exact absurd (hdigits _ List.mem_cons_self) (by decide)
    simp [unsigned?, hplus, hvalue, h]

end Text

namespace Diff

/-- The numbers of one side of a hunk. The start of an empty side moves on by one when it is read,
so it must not be the last that a line field can hold. -/
structure HunkSide where
  start : Nat
  length : Nat
  /-- Whether a length of one is left out. -/
  terse : Bool
  start_le : start ≤ maxLine
  length_le : length ≤ maxLine
  start_lt : length = 0 → start < maxLine

namespace HunkSide

def lengthText (s : HunkSide) : List Char :=
  if s.terse && s.length == 1 then [] else ',' :: Nat.toDigits 10 s.length

def text (s : HunkSide) : List Char := Nat.toDigits 10 s.start ++ s.lengthText

theorem not_mem_text (s : HunkSide) {c : Char} (hdigit : c.isDigit = false) (hcomma : c ≠ ',') :
    c ∉ s.text := by
  have hnumber : ∀ n : Nat, c ∉ Nat.toDigits 10 n := by
    intro n hmem
    rw [Text.isDigit_of_mem_toDigits hmem] at hdigit
    cases hdigit
  unfold text lengthText
  split <;> simp [hnumber, hcomma]

theorem sideRange?_text (s : HunkSide) : sideRange? s.text = some (s.start, s.length) := by
  have hcomma : ',' ∉ Nat.toDigits 10 s.start := by
    intro hmem
    exact absurd (Text.isDigit_of_mem_toDigits hmem) (by decide)
  have hstart := Text.unsigned?_toDigits s.start_le
  have hlength := Text.unsigned?_toDigits s.length_le
  cases h : s.terse && s.length == 1 with
  | true =>
    simp only [Bool.and_eq_true, beq_iff_eq] at h
    have hsplit := Text.splitOnce_of_not_mem (List.mem_singleton_self ',') hcomma
    simp [sideRange?, text, lengthText, h, hsplit, hstart]
  | false =>
    have hsplit := Text.splitOnce_singleton hcomma (Nat.toDigits 10 s.length)
    simp [sideRange?, text, lengthText, h, hsplit, hstart, hlength]

end HunkSide

def hunkLine (old new : HunkSide) (heading : List Char) : List Char :=
  "@@ ".toList ++ ((('-' :: old.text) ++ ' ' :: '+' :: new.text) ++ (" @@".toList ++ heading))

theorem hunkHeader_hunkLine (old new : HunkSide) (heading : List Char) :
    hunkHeader (hunkLine old new heading) = .ok ⟨old.start, old.length, new.start, new.length⟩ := by
  let numbers := '-' :: old.text ++ ' ' :: '+' :: new.text
  have hopening : Text.after? "@@ ".toList (hunkLine old new heading) =
      some (numbers ++ (" @@".toList ++ heading)) := Text.after?_append _ _
  -- the first closing mark is the one in front of the heading
  have hmark : '@' ∉ numbers := by simp [numbers, HunkSide.not_mem_text]
  have hclosing : Text.splitOnce " @@".toList (numbers ++ (" @@".toList ++ heading)) =
      some (numbers, heading) := by
    have hsplit := Text.splitOnce_append (c := ' ') (q := ['@', '@']) (by decide) numbers heading
    rwa [Text.splitOnce_of_not_mem (c := '@') (by decide) hmark] at hsplit
  have hblank : ' ' ∉ '-' :: old.text := by simp [HunkSide.not_mem_text]
  have hsides : Text.splitOnce [' '] numbers = some ('-' :: old.text, '+' :: new.text) :=
    Text.splitOnce_singleton hblank _
  have hold : Text.after? ['-'] ('-' :: old.text) = some old.text := Text.after?_append ['-'] _
  have hnew : Text.after? ['+'] ('+' :: new.text) = some new.text := Text.after?_append ['+'] _
  simp only [hunkHeader, hopening, hclosing, hsides, hold, hnew, HunkSide.sideRange?_text]
  rfl

end Diff

end DocDrift
