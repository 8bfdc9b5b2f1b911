import DocDrift.Text.Blank
import DocDrift.Text.Lines

/-!
# Texts that are put together

What the readers of texts find in a text that is put together of pieces: the pieces between
separators, the lines, the text without the blanks at its ends, and the places of a pattern.
-/

namespace DocDrift.Text

/-! ## Separators -/

section
variable {α : Type} [DecidableEq α] {separator : α} {s : List α}

theorem splitAt_of_not_mem (h : separator ∉ s) : splitAt separator s = [s] := by
  induction s with
  | nil => rfl
  | cons c rest ih =>
    rw [List.mem_cons, not_or] at h
    simp only [splitAt, if_neg (Ne.symm h.1), ih h.2]

theorem splitAt_append_cons (s rest : List α) :
    splitAt separator (s ++ separator :: rest) = splitAt separator s ++ splitAt separator rest := by
  induction s with
  | nil => simp [splitAt]
  | cons c s ih =>
    rw [List.cons_append, splitAt, splitAt, ih]
    split
    · rfl
    · cases hs : splitAt separator s with
      | nil => exact absurd hs (splitAt_ne_nil _ _)
      | cons p pieces => rfl

theorem splitAt_append (h : separator ∉ s) (rest : List α) :
    splitAt separator (s ++ separator :: rest) = s :: splitAt separator rest := by
  rw [splitAt_append_cons, splitAt_of_not_mem h, List.singleton_append]

/-- What has no separator belongs to the first piece. -/
theorem splitAt_append_of_not_mem (h : separator ∉ s) {rest p : List α} {pieces : List (List α)}
    (hrest : splitAt separator rest = p :: pieces) :
    splitAt separator (s ++ rest) = (s ++ p) :: pieces := by
  induction s with
  | nil => exact hrest
  | cons c s ih =>
    rw [List.mem_cons, not_or] at h
    simp only [List.cons_append, splitAt, if_neg (Ne.symm h.1), ih h.2]

/-- Pieces that a separator opens. -/
theorem splitAt_flatMap_cons {pieces : List (List α)} (h : ∀ p ∈ pieces, separator ∉ p) :
    splitAt separator (pieces.flatMap (separator :: ·)) = [] :: pieces := by
  induction pieces with
  | nil => rfl
  | cons p pieces ih =>
    have hrest := ih fun q hq => h q (List.mem_cons_of_mem _ hq)
    have hp := h p List.mem_cons_self
    cases pieces with
    | nil => simp [splitAt, splitAt_of_not_mem hp]
    | cons q pieces =>
      rw [List.flatMap_cons, List.flatMap_cons, List.cons_append, List.cons_append, splitAt,
        if_pos rfl, splitAt_append hp]
      rw [List.flatMap_cons, List.cons_append, splitAt, if_pos rfl] at hrest
      rw [(List.cons.inj hrest).2]

/-- Pieces that a separator ends. -/
theorem splitAt_flatMap_append {pieces : List (List α)} (h : ∀ p ∈ pieces, separator ∉ p) :
    splitAt separator (pieces.flatMap (· ++ [separator])) = pieces ++ [[]] := by
  induction pieces with
  | nil => rfl
  | cons p pieces ih =>
    rw [List.flatMap_cons, List.append_assoc, List.singleton_append,
      splitAt_append (h p List.mem_cons_self), ih fun q hq => h q (List.mem_cons_of_mem _ hq)]
    rfl

end

/-! ## Lines -/

theorem closeLines_append (pieces : List (List Char)) {rest : List (List Char)} (h : rest ≠ []) :
    closeLines (pieces ++ rest) = pieces.map dropReturn ++ closeLines rest := by
  induction pieces with
  | nil => rfl
  | cons p pieces ih =>
    obtain ⟨q, later, hlater⟩ := List.exists_cons_of_ne_nil
      (List.append_ne_nil_of_right_ne_nil pieces h)
    rw [List.cons_append, List.map_cons, List.cons_append, ← ih, hlater, closeLines]
    simp

theorem lines_append_cons (s rest : List Char) :
    lines (s ++ '\n' :: rest) = (splitAt '\n' s).map dropReturn ++ lines rest := by
  rw [lines, splitAt_append_cons, closeLines_append _ (splitAt_ne_nil _ _), lines]

theorem lines_append {line : List Char} (h : '\n' ∉ line) (rest : List Char) :
    lines (line ++ '\n' :: rest) = dropReturn line :: lines rest := by
  rw [lines_append_cons, splitAt_of_not_mem h, List.map_singleton, List.singleton_append]

/-- The lines of a text that is empty or ends with a line feed go on with those of what follows. -/
theorem lines_append_of_ended {s : List Char} (h : s = [] ∨ ∃ front, s = front ++ ['\n'])
    (rest : List Char) : lines (s ++ rest) = lines s ++ lines rest := by
  obtain rfl | ⟨front, rfl⟩ := h
  · rfl
  · have hends := lines_append_cons front []
    rw [List.append_assoc, List.singleton_append, lines_append_cons, hends,
      show lines [] = [] from rfl, List.append_nil]

theorem lines_flatMap {ls : List (List Char)} (h : ∀ l ∈ ls, '\n' ∉ l) :
    lines (ls.flatMap (· ++ ['\n'])) = ls.map dropReturn := by
  induction ls with
  | nil => rfl
  | cons l ls ih =>
    rw [List.flatMap_cons, List.append_assoc, List.singleton_append,
      lines_append (h l List.mem_cons_self), ih fun q hq => h q (List.mem_cons_of_mem _ hq),
      List.map_cons]

theorem dropReturn_of_not_mem {line : List Char} (h : '\r' ∉ line) : dropReturn line = line := by
  unfold dropReturn
  rw [if_neg]
  intro hlast
  exact h (List.mem_of_getLast? hlast)

/-- Nothing in front of a character other than the carriage return is part of the line end. -/
theorem dropReturn_append {c : Char} (hc : c ≠ '\r') (s t : List Char) :
    dropReturn (s ++ c :: t) = s ++ c :: dropReturn t := by
  have hlast : (s ++ c :: t).getLast? = some '\r' ↔ t.getLast? = some '\r' := by
    rw [List.getLast?_append, List.getLast?_cons, Option.some_or]
    cases t.getLast? <;> simp [hc]
  unfold dropReturn
  by_cases ht : t.getLast? = some '\r'
  · have hne : t ≠ [] := by
      rintro rfl
      cases ht
    rw [if_pos (hlast.mpr ht), if_pos ht, List.dropLast_append_of_ne_nil (List.cons_ne_nil c t),
      List.dropLast_cons_of_ne_nil hne]
  · rw [if_neg (mt hlast.mp ht), if_neg ht]

/-- A text begins with its first line. -/
theorem lines_of_prefix {c : Char} {s : List Char} (hs : '\n' ∉ s ++ [c]) (hc : c ≠ '\r')
    (text : List Char) : ∃ l rest, lines (s ++ c :: text) = (s ++ c :: l) :: rest := by
  obtain ⟨p, pieces, hp⟩ := List.exists_cons_of_ne_nil (splitAt_ne_nil '\n' text)
  have hsplit := splitAt_append_of_not_mem hs hp
  rw [List.append_assoc, List.append_assoc, List.singleton_append, List.singleton_append] at hsplit
  cases pieces with
  | nil => exact ⟨p, [], by simp [lines, hsplit, closeLines]⟩
  | cons q pieces =>
    refine ⟨dropReturn p, closeLines (q :: pieces), ?_⟩
    rw [lines, hsplit, closeLines, dropReturn_append hc]
    simp

/-- Lines without line ends of their own are read as they are. -/
theorem lines_flatMap_eq_self {ls : List (List Char)} (h : ∀ l ∈ ls, '\n' ∉ l ∧ '\r' ∉ l) :
    lines (ls.flatMap (· ++ ['\n'])) = ls := by
  have hmap : ls.map dropReturn = ls.map id :=
    List.map_congr_left fun l hl => dropReturn_of_not_mem (h l hl).2
  rw [lines_flatMap fun l hl => (h l hl).1, hmap, List.map_id]

/-! ## Blanks -/

/-- The text is not empty, and neither its first nor its last character is blank. -/
def Trimmed (s : List Char) : Prop :=
  (∃ c ∈ s.head?, isBlank c = false) ∧ ∃ c ∈ s.getLast?, isBlank c = false

instance (s : List Char) : Decidable (Trimmed s) :=
  decidable_of_iff (s.head?.any (!isBlank ·) = true ∧ s.getLast?.any (!isBlank ·) = true)
    (by simp [Trimmed, Option.any_eq_true])

section
variable {s : List Char}

def isHexDigit (c : Char) : Bool :=
  let n := c.toNat
  (48 ≤ n && n ≤ 57) || (65 ≤ n && n ≤ 70) || (97 ≤ n && n ≤ 102)

theorem isBlank_of_isHexDigit {c : Char} (h : isHexDigit c = true) : isBlank c = false := by
  simp only [isHexDigit, Bool.or_eq_true, Bool.and_eq_true, decide_eq_true_eq] at h
  simp only [isBlank, Bool.or_eq_false_iff, Bool.and_eq_false_iff, decide_eq_false_iff_not,
    beq_eq_false_iff_ne]
  omega

theorem trimRight_eq_self (h : ∀ c ∈ s.getLast?, isBlank c = false) : trimRight s = s := by
  unfold trimRight
  rw [← List.head?_reverse] at h
  cases hs : s.reverse with
  | nil => rw [List.reverse_eq_nil_iff.mp hs]; rfl
  | cons c rest =>
    rw [hs] at h
    rw [List.dropWhile_cons, h c rfl, if_neg (by simp), ← hs, List.reverse_reverse]

theorem mem_of_mem_trimRight {c : Char} (h : c ∈ trimRight s) : c ∈ s :=
  List.mem_reverse.mp ((List.dropWhile_subset _) (List.mem_reverse.mp h))

/-- What is left does not end in a blank. -/
theorem isBlank_of_getLast?_trimRight : ∀ c ∈ (trimRight s).getLast?, isBlank c = false := by
  intro c hc
  have hhead := List.head?_dropWhile_not isBlank s.reverse
  rw [trimRight, List.getLast?_reverse] at hc
  rwa [hc] at hhead

theorem trimRight_eq_self_iff : trimRight s = s ↔ ∀ c ∈ s.getLast?, isBlank c = false := by
  refine ⟨fun h => ?_, trimRight_eq_self⟩
  have hlast := isBlank_of_getLast?_trimRight (s := s)
  rwa [h] at hlast

/-- The blanks at the end of two texts are those of the second one, and if nothing else is in it, those
of the first as well. -/
theorem trimRight_append_eq (s t : List Char) :
    trimRight (s ++ t) = if trimRight t = [] then trimRight s else s ++ trimRight t := by
  unfold trimRight
  rw [List.reverse_append, List.dropWhile_append]
  cases t.reverse.dropWhile isBlank <;> simp

theorem trim_eq_self {first : Char} {rest : List Char} (hfirst : isBlank first = false)
    (hlast : ∀ c ∈ (first :: rest).getLast?, isBlank c = false) :
    trim (first :: rest) = first :: rest := by
  unfold trim
  rw [List.dropWhile_cons, hfirst, if_neg (by simp), trimRight_eq_self hlast]

theorem trimmed_of_isHexDigit (hne : s ≠ []) (h : s.all isHexDigit = true) : Trimmed s := by
  have hblank : ∀ c ∈ s, isBlank c = false := fun c hc =>
    isBlank_of_isHexDigit (List.all_eq_true.mp h c hc)
  constructor
  · exact ⟨s.head hne, List.head?_eq_some_head hne, hblank _ (List.head_mem hne)⟩
  · exact ⟨s.getLast hne, List.getLast?_eq_some_getLast hne, hblank _ (List.getLast_mem hne)⟩

theorem Trimmed.trim_eq (h : Trimmed s) : trim s = s := by
  obtain ⟨⟨c, hc, hfirst⟩, d, hd, hlast⟩ := h
  cases s with
  | nil => cases hc
  | cons first rest =>
    cases hc
    exact trim_eq_self hfirst fun e he => by
      rw [hd] at he
      cases he
      exact hlast

end

/-! ## Places of a pattern -/

section
variable {c : Char} {q s : List Char}

theorem after?_eq_some_iff {start rest : List Char} :
    after? start s = some rest ↔ s = start ++ rest := by
  unfold after?
  constructor
  · intro h
    split at h
    · next hp =>
      rw [List.isPrefixOf_iff_prefix] at hp
      obtain ⟨t, rfl⟩ := hp
      rw [List.drop_left] at h
      rw [Option.some.inj h]
    · cases h
  · rintro rfl
    rw [if_pos (List.isPrefixOf_iff_prefix.mpr (List.prefix_append _ _)), List.drop_left]

theorem after?_append (start rest : List Char) : after? start (start ++ rest) = some rest :=
  after?_eq_some_iff.mpr rfl

theorem after?_eq_none {start : List Char} (h : start.isPrefixOf s = false) :
    after? start s = none := by
  rw [after?, h, if_neg (by simp)]

theorem splitOnce_eq_some {pattern before rest : List Char}
    (h : splitOnce pattern s = some (before, rest)) : s = before ++ (pattern ++ rest) := by
  induction s generalizing before with
  | nil =>
    rw [splitOnce] at h
    split at h
    · next hp =>
      cases h
      rw [List.isEmpty_iff.mp hp]
      rfl
    · cases h
  | cons x s ih =>
    rw [splitOnce] at h
    split at h
    · next hp =>
      cases h
      rw [List.isPrefixOf_iff_prefix] at hp
      obtain ⟨t, ht⟩ := hp
      rw [← ht, List.drop_left, List.nil_append]
    · rw [Option.map_eq_some_iff] at h
      obtain ⟨⟨before', rest'⟩, hs, hr⟩ := h
      cases hr
      rw [ih hs, List.cons_append]

theorem splitOnce_of_not_mem {pattern : List Char} (hc : c ∈ pattern) (h : c ∉ s) :
    splitOnce pattern s = none := by
  cases hs : splitOnce pattern s with
  | none => rfl
  | some r =>
    obtain ⟨before, rest⟩ := r
    have hmem : c ∈ s := by
      rw [splitOnce_eq_some hs]
      simp [hc]
    exact absurd hmem h

theorem splitLast_eq_some {pattern before rest : List Char}
    (h : splitLast pattern s = some (before, rest)) : s = before ++ (pattern ++ rest) := by
  unfold splitLast at h
  rw [Option.map_eq_some_iff] at h
  obtain ⟨⟨later, earlier⟩, hs, hr⟩ := h
  cases hr
  rw [← List.reverse_inj, splitOnce_eq_some hs]
  simp

theorem splitOnce_prefix (t : List Char) :
    splitOnce (c :: q) ((c :: q) ++ t) = some ([], t) := by
  have h : (c :: q).isPrefixOf ((c :: q) ++ t) = true := by
    rw [List.isPrefixOf_iff_prefix]
    exact List.prefix_append _ _
  rw [List.cons_append, splitOnce, ← List.cons_append, h, List.drop_left]

/-- A pattern whose first character does not recur in it does not begin in a text without it and
end in that pattern. -/
theorem isPrefixOf_append (hq : c ∉ q) {t : List Char} (hs : s ≠ []) :
    (c :: q).isPrefixOf (s ++ ((c :: q) ++ t)) = (c :: q).isPrefixOf s := by
  rw [Bool.eq_iff_iff, List.isPrefixOf_iff_prefix, List.isPrefixOf_iff_prefix]
  constructor
  · intro h
    by_cases hlen : (c :: q).length ≤ s.length
    · exact List.prefix_of_prefix_length_le h (List.prefix_append _ _) hlen
    · exfalso
      -- it would begin in `s` and go on in the pattern behind, so `c` would stand in it again
      obtain ⟨v, hv⟩ := List.prefix_of_prefix_length_le (List.prefix_append s ((c :: q) ++ t)) h
        (by omega)
      rw [← hv, List.prefix_append_right_inj] at h
      cases s with
      | nil => exact hs rfl
      | cons x s =>
        rw [List.cons_append] at hv
        obtain ⟨rfl, rfl⟩ := List.cons.inj hv
        cases v with
        | nil => simp at hlen
        | cons y v =>
          have hy := (List.cons_prefix_cons.mp h).1
          exact hq (by simp [hy])
  · intro h
    exact h.trans (List.prefix_append _ _)

theorem splitOnce_append (hq : c ∉ q) (s t : List Char) :
    splitOnce (c :: q) (s ++ ((c :: q) ++ t)) =
      match splitOnce (c :: q) s with
      | some (before, rest) => some (before, rest ++ ((c :: q) ++ t))
      | none => some (s, t) := by
  induction s with
  | nil => exact splitOnce_prefix t
  | cons x s ih =>
    have hpre := isPrefixOf_append hq (t := t) (List.cons_ne_nil x s)
    rw [List.cons_append] at hpre ⊢
    rw [splitOnce, hpre, splitOnce]
    cases h : (c :: q).isPrefixOf (x :: s) with
    | true =>
      rw [List.isPrefixOf_iff_prefix] at h
      simp only
      rw [← List.cons_append, List.drop_append_of_le_length h.length_le]
    | false =>
      simp only [ih]
      cases splitOnce (c :: q) s <;> rfl

theorem splitOnce_singleton (h : c ∉ s) (t : List Char) :
    splitOnce [c] (s ++ c :: t) = some (s, t) := by
  have hsplit := splitOnce_append (c := c) (q := []) (by simp) s t
  rw [splitOnce_of_not_mem List.mem_cons_self h] at hsplit
  exact hsplit

/-- The last place of a pattern behind whose last character that one does not recur. -/
theorem splitLast_append {pattern : List Char} (hp : pattern.reverse = c :: q) (hq : c ∉ q)
    (s t : List Char) :
    splitLast pattern (s ++ (pattern ++ t)) =
      match splitLast pattern t with
      | some (before, rest) => some (s ++ (pattern ++ before), rest)
      | none => some (s, t) := by
  have hsplit := splitOnce_append hq t.reverse s.reverse
  have hreverse : (s ++ (pattern ++ t)).reverse = t.reverse ++ ((c :: q) ++ s.reverse) := by
    rw [List.reverse_append, List.reverse_append, hp, List.append_assoc]
  have hpattern : (c :: q).reverse = pattern := by rw [← hp, List.reverse_reverse]
  unfold splitLast
  rw [hreverse, hp, hsplit]
  cases splitOnce (c :: q) t.reverse with
  | none => simp
  | some r =>
    simp only [Option.map_some, List.reverse_append, List.reverse_reverse, hpattern,
      List.append_assoc]

end

end DocDrift.Text
