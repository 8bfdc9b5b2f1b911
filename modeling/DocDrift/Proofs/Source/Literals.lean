import DocDrift.Source.Docstring
import DocDrift.Source.Scan
import Mathlib.Data.List.Basic

/-!
# How string literals are opened

The scanner decides by the letters in front of a quote whether a literal is made of bytes and
whether it has replacement fields; docstrings are told from other literals by the text in front of
the first quote of the token. Both see the same letters unless the literal is in backquotes, which
the scanner takes for quotes and the other does not.
-/

namespace DocDrift.Source

def isPrefixLetter (c : Char) : Bool := "fFrRbBuU".toList.contains c

theorem not_isPrefixLetter_of_quote {q : Char} (h : q ∈ ['"', '\'', '\x60']) :
    isPrefixLetter q = false := by
  simp only [List.mem_cons, List.not_mem_nil, or_false] at h
  obtain rfl | rfl | rfl := h <;> rfl

structure Delimiter.SpelledBy (d : Delimiter) (letters : List Char) : Prop where
  isPrefix : ∀ c ∈ letters, isPrefixLetter c = true
  isQuote : d.quote ∈ ['"', '\'', '\x60']
  bytes : d.bytes = letters.any fun l => l.toLower == 'b'
  format : d.format = letters.any fun l => l.toLower == 'f'

theorem spelledBy_of_openString? {s opening inside : List Char} {d : Delimiter}
    (h : openString? s = some (d, opening, inside)) :
    ∃ letters rest more, d.SpelledBy letters ∧ opening = letters ++ d.quote :: rest ∧
      s = letters ++ d.quote :: more := by
  have hsplit := (List.takeWhile_append_dropWhile (p := isPrefixLetter) (l := s)).symm
  unfold openString? at h
  have hletters : ∀ c ∈ s.takeWhile isPrefixLetter, isPrefixLetter c = true :=
    List.all_eq_true.mp (List.all_takeWhile)
  simp only at h
  split at h
  · next hdrop =>
    cases h
    exact ⟨s.takeWhile isPrefixLetter, [], _, ⟨hletters, by simp, rfl, rfl⟩, rfl,
      hdrop ▸ hsplit⟩
  · next q rest hback hdrop =>
    split at h
    · next hquote =>
      have hmem : q ∈ ['"', '\'', '\x60'] := by
        simp only [Bool.or_eq_true, decide_eq_true_eq] at hquote
        obtain rfl | rfl := hquote <;> simp
      split at h
      · split at h <;> cases h
        · exact ⟨s.takeWhile isPrefixLetter, [q, q], _, ⟨hletters, hmem, rfl, rfl⟩, rfl,
            hdrop ▸ hsplit⟩
        · exact ⟨s.takeWhile isPrefixLetter, [], _, ⟨hletters, hmem, rfl, rfl⟩, rfl, hdrop ▸ hsplit⟩
      · cases h
        exact ⟨s.takeWhile isPrefixLetter, [], _, ⟨hletters, hmem, rfl, rfl⟩, rfl, hdrop ▸ hsplit⟩
    · cases h
  · cases h

theorem exists_openString? {d : Delimiter} {letters : List Char} (h : d.SpelledBy letters)
    (rest : List Char) : ∃ d' opening inside,
      openString? (letters ++ d.quote :: rest) = some (d', opening, inside) ∧
        d'.quote = d.quote ∧ d'.bytes = d.bytes ∧ d'.format = d.format := by
  have hquote := not_isPrefixLetter_of_quote h.isQuote
  have htake : (letters ++ d.quote :: rest).takeWhile isPrefixLetter = letters := by
    rw [List.takeWhile_append_of_pos h.isPrefix, List.takeWhile_cons_of_neg (by simp [hquote]),
      List.append_nil]
  have hdrop : (letters ++ d.quote :: rest).dropWhile isPrefixLetter = d.quote :: rest := by
    rw [List.dropWhile_append_of_pos h.isPrefix, List.dropWhile_cons_of_neg (by simp [hquote])]
  obtain ⟨-, hmem, hbytes, hformat⟩ := h
  obtain ⟨quote, triple, raw, bytes, format⟩ := d
  unfold openString?
  simp only [show (fun c => "fFrRbBuU".toList.contains c) = isPrefixLetter from rfl, htake, hdrop]
  split
  · next h =>
    cases h
    exact ⟨_, _, _, rfl, rfl, hbytes.symm, hformat.symm⟩
  · next hback heq =>
    cases heq
    have hq : (decide (quote = '\'') || decide (quote = '"')) = true := by
      simp only [List.mem_cons, List.not_mem_nil, or_false] at hmem
      obtain rfl | rfl | rfl := hmem
      · rfl
      · rfl
      · exact absurd rfl hback
    rw [if_pos hq]
    split
    · split <;> exact ⟨_, _, _, rfl, rfl, hbytes.symm, hformat.symm⟩
    · exact ⟨_, _, _, rfl, rfl, hbytes.symm, hformat.symm⟩
  · next h => cases h

theorem Delimiter.SpelledBy.isPlainLiteral_iff {d : Delimiter} {letters rest : List Char}
    {text : String} (h : d.SpelledBy letters) (htext : text.toList = letters ++ d.quote :: rest)
    (hquote : d.quote ≠ '\x60') :
    isPlainLiteral text = true ↔ d.bytes = false ∧ d.format = false := by
  have hmem : d.quote ∈ ['"', '\''] := by
    have hquotes := h.isQuote
    simp only [List.mem_cons, List.not_mem_nil, or_false] at hquotes ⊢
    rcases hquotes with h | h | h
    · exact .inl h
    · exact .inr h
    · exact absurd h hquote
  have hno : ∀ c ∈ letters, c ∉ ['"', '\''] := by
    intro c hc hquoted
    have hletter := h.isPrefix c hc
    simp only [List.mem_cons, List.not_mem_nil, or_false] at hquoted
    obtain rfl | rfl := hquoted
    · exact absurd hletter (by decide)
    · exact absurd hletter (by decide)
  have hprefix : literalPrefix text.toList = letters := by
    rw [htext]
    exact literalPrefix_append hmem hno rest
  rw [isPlainLiteral, hprefix, h.bytes, h.format, List.all_eq_true, List.any_eq_false,
    List.any_eq_false]
  simp only [Bool.and_eq_true, bne_iff_ne, beq_iff_eq, ne_eq]
  exact ⟨fun h => ⟨fun c hc => (h c hc).2, fun c hc => (h c hc).1⟩,
    fun h c hc => ⟨h.2 c hc, h.1 c hc⟩⟩

/-- If the quote is no backquote, the prefix of a literal tells how it has been opened. -/
theorem isPlainLiteral_iff {d : Delimiter} {text : String}
    (h : (openString? text.toList).map Prod.fst = some d) (hquote : d.quote ≠ '\x60') :
    isPlainLiteral text = true ↔ d.bytes = false ∧ d.format = false := by
  obtain ⟨⟨_, opening, inside⟩, hopen, hfirst⟩ := Option.map_eq_some_iff.mp h
  cases hfirst
  obtain ⟨letters, _, rest, hspelled, -, htext⟩ := spelledBy_of_openString? hopen
  exact hspelled.isPlainLiteral_iff htext hquote

/-! ### Tokens of a source -/

/-- How the string literal has been opened that is or begins with the token. -/
def Token.delimiter? (t : Token) : Option Delimiter :=
  match t.kind with
  | .string text | .formatOpen text => (openString? text.toList).map Prod.fst
  | _ => none

/-- A literal shows how it has been opened, and whether it has replacement fields. -/
def TokenKind.Delimited : TokenKind → Prop
  | .string text => ∃ d, (openString? text.toList).map Prod.fst = some d
  | .formatOpen text => ∃ d, (openString? text.toList).map Prod.fst = some d ∧ d.format = true
  | _ => True

/-- What follows the opening of a literal does not change how it has been opened, save that two
quotes may turn into three. -/
theorem exists_delimiter {s opening inside : List Char} {d : Delimiter}
    (h : openString? s = some (d, opening, inside)) (rest : List Char) :
    ∃ d', (openString? (opening ++ rest)).map Prod.fst = some d' ∧ d'.format = d.format := by
  obtain ⟨letters, more, -, hspelled, rfl, -⟩ := spelledBy_of_openString? h
  rw [List.append_assoc, List.cons_append]
  obtain ⟨d', _, _, heq, -, -, hformat⟩ := exists_openString? hspelled (more ++ rest)
  exact ⟨d', by rw [heq]; rfl, hformat⟩

namespace Scan

/-- All tokens so far show how they have been opened. -/
def Delimited (s : Scan) : Prop := ∀ t ∈ s.done, t.kind.Delimited

@[simp] theorem done_mapField (s : Scan) (f : Field → Field) : (s.mapField f).done = s.done := by
  unfold mapField
  split <;> rfl

@[simp] theorem done_closeField (s : Scan) : s.closeField.done = s.done := by
  unfold closeField
  split <;> rfl

@[simp] theorem done_track (s : Scan) (kind : TokenKind) : (s.track kind).done = s.done := by
  unfold track
  repeat' split
  all_goals simp

theorem Delimited.add {s s' : Scan} {t : Token} (h : s.Delimited) (hdone : s'.done = t :: s.done)
    (ht : t.kind.Delimited) : s'.Delimited := by
  rw [Delimited, hdone, List.forall_mem_cons]
  exact ⟨ht, h⟩

theorem delimited_stepCode {s : Scan} (h : s.Delimited) : s.stepCode.1.Delimited := by
  unfold stepCode
  simp only
  split
  · exact h.add rfl trivial
  · next c behind hrest =>
    split
    · next d opening inside hopen =>
      split
      · next hformat =>
        -- The token of a literal with replacement fields is the opening alone.
        obtain ⟨d', hd', hsame⟩ := exists_delimiter hopen []
        rw [List.append_nil] at hd'
        refine h.add rfl ⟨d', ?_, hsame.trans hformat⟩
        rw [String.toList_ofList]
        exact hd'
      · split
        · next taken rest hclosed =>
          obtain ⟨d', hd', -⟩ := exists_delimiter hopen taken
          refine h.add rfl ⟨d', ?_⟩
          rw [String.toList_ofList]
          exact hd'
        · exact h.add rfl trivial
    · repeat' split
      all_goals first
        | exact h.add rfl trivial
        | exact h.add (done_track _ _) trivial
        | exact h.add (done_closeField _) trivial

theorem delimited_stepLiteral {s : Scan} (h : s.Delimited) (d : Delimiter) :
    (s.stepLiteral d).1.Delimited := by
  unfold stepLiteral
  split <;> exact h.add rfl trivial

theorem delimited_stepFormatPart {s : Scan} (h : s.Delimited) : s.stepFormatPart.1.Delimited := by
  unfold stepFormatPart
  simp only
  split
  · exact h.add rfl trivial
  · exact h.add (done_closeField _) trivial
  · exact h.add rfl trivial

theorem delimited_step {s : Scan} (h : s.Delimited) : s.step.1.Delimited := by
  unfold step
  split
  · exact delimited_stepCode h
  · exact delimited_stepLiteral h _
  · exact delimited_stepFormatPart h

theorem delimited_run (fuel : Nat) : ∀ s : Scan, s.Delimited → (run fuel s).Delimited := by
  induction fuel with
  | zero => exact fun s h => h
  | succ fuel ih =>
    intro s h
    have hstep := delimited_step h
    rw [run]
    split
    · next s' heq => exact ih s' (by simpa [heq] using hstep)
    · next s' heq => simpa [heq] using hstep

end Scan

theorem delimited_of_mem_scan {source : List Char} {t : Token} (h : t ∈ scan source) :
    t.kind.Delimited :=
  Scan.delimited_run _ _ (by simp [Scan.Delimited]) t (List.mem_reverse.mp h)

end DocDrift.Source
