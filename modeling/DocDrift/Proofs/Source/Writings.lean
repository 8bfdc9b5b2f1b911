import DocDrift.Source.Docstring
import DocDrift.Source.Phrase
import DocDrift.Proofs.Source.Reading

/-!
# String literals in parentheses

The tokens that write a row of string literals in any number of parentheses, and how the grammar of
expressions reads them. Every level of the grammar hands such a phrase down unchanged, and what it
adds itself is no such phrase; so whatever level a phrase is read at, its expression tells of a row
of literals exactly if tokens that write one have been read.
-/

namespace DocDrift.Source

open Parse

namespace Token

def IsString (t : Token) : Prop := ∃ text, t.kind = .string text

/-- What a token adds to a row of literals. -/
def parts (t : Token) : List LiteralPart :=
  match t.kind with
  | .string text => t.comments.map .comment ++ [.literal text]
  | _ => []

/-- Whether a row of literals, or parentheses around one, may begin with the token. -/
def beginsWriting (t : Token) : Bool :=
  match t.kind with
  | .string _ => true
  | .op o => o == "("
  | _ => false

theorem beginsWriting_of_word {t : Token} {w : String} (h : t.kind = .word w) :
    t.beginsWriting = false := by
  simp [beginsWriting, h]

theorem isOp_iff {t : Token} {o : String} : t.isOp o = true ↔ t.kind = .op o := by
  unfold isOp
  cases t.kind <;> simp

theorem isWord_iff {t : Token} {w : String} : t.isWord w = true ↔ t.kind = .word w := by
  unfold isWord
  cases t.kind <;> simp

end Token

theorem Expression.ne_other_of_isDocumentation {e : Expression} (h : e.isDocumentation = true) :
    e ≠ .other := by
  rintro rfl
  cases h

def rowExpression (parts : List LiteralPart) : Expression :=
  match parts with
  | [.literal text] => .literal text
  | _ => .adjacent parts

theorem rowExpression_isDocumentation (parts : List LiteralPart) :
    (rowExpression parts).isDocumentation = parts.all LiteralPart.isPlain := by
  unfold rowExpression
  split <;> simp [Expression.isDocumentation, LiteralPart.isPlain]

/-- The tokens write a row of string literals in any number of parentheses; the row is on one line
if line ends count. Comments in front of the first token belong to what is around. -/
inductive Writes : Bool → List Token → Expression → Prop
  | row {lineEnds : Bool} {first : Token} {further : List Token} {text : String}
      (hfirst : first.kind = .string text) (hfurther : ∀ t ∈ further, t.IsString)
      (hline : lineEnds = true → ∀ t ∈ further, t.lineBreak = false) :
      Writes lineEnds (first :: further)
        (rowExpression (.literal text :: further.flatMap Token.parts))
  | parenthesized {lineEnds : Bool} {opening first closing : Token} {more : List Token}
      {e : Expression} (hopening : opening.kind = .op "(") (hclosing : closing.kind = .op ")")
      (h : Writes false (first :: more) e) :
      Writes lineEnds (opening :: first :: more ++ [closing])
        (.parenthesized first.comments e closing.comments)

namespace Writes

variable {lineEnds : Bool} {ts : List Token} {e : Expression}

theorem exists_cons (h : Writes lineEnds ts e) :
    ∃ first more, ts = first :: more ∧ first.beginsWriting = true := by
  cases h with
  | row hfirst => exact ⟨_, _, rfl, by simp [Token.beginsWriting, hfirst]⟩
  | parenthesized hopening => exact ⟨_, _, rfl, by simp [Token.beginsWriting, hopening]⟩

theorem beginsWriting {first : Token} {more : List Token} (h : Writes lineEnds (first :: more) e) :
    first.beginsWriting = true := by
  obtain ⟨_, _, heq, hbegins⟩ := h.exists_cons
  cases heq
  exact hbegins

/-- The gap in front of a writing is none of its own. -/
theorem withFirst {first first' : Token} {more : List Token}
    (h : Writes lineEnds (first :: more) e) (hkind : first'.kind = first.kind) :
    Writes lineEnds (first' :: more) e := by
  cases h with
  | row hfirst hfurther hline => exact .row (hkind.trans hfirst) hfurther hline
  | parenthesized hopening hclosing h => exact .parenthesized (hkind.trans hopening) hclosing h

end Writes

/-- A phrase at the place is over in front of these tokens. -/
def Stops (p : Place) (tokens : List Token) : Prop :=
  ∀ t ∈ tokens.head?, p.lineEnds = true ∧ t.lineBreak = true ∨ t.kind = .op ")" ∨ t.kind = .op "," ∨
    t.kind = .op ";"

/-- No string literal with replacement fields looks like one without. -/
def FieldsShow (tokens : List Token) : Prop :=
  ∀ text, TokenKind.formatOpen text ∈ tokens.map Token.kind → isPlainLiteral text = false

namespace FieldsShow

theorem taken {c : Cursor} (h : FieldsShow c.tokens) : FieldsShow c.taken.tokens := by
  rwa [FieldsShow, c.map_kind_taken]

theorem behind {c : Cursor} (h : FieldsShow c.tokens) : FieldsShow c.behind.tokens := by
  intro text htext
  refine h text ?_
  rw [c.tokens_behind, List.map_tail] at htext
  exact List.mem_of_mem_tail htext

end FieldsShow

structure Recognises (p : Place) (read : Parse Piece) : Prop where
  sound : ∀ c d c', Reads read c d c' → FieldsShow c.tokens → d.expression.isDocumentation = true →
    ∃ ts, c.tokens = ts ++ c'.tokens ∧ Writes p.lineEnds ts d.expression
  complete : ∀ c d c', Reads read c d c' → ∀ ts e rest, Writes p.lineEnds ts e →
    c.tokens = ts ++ rest → Stops p rest →
      d.expression = e ∧ d.element = false ∧ c'.tokens = rest

/-- What is read behind a phrase is nothing, or makes something else of it. -/
def Extends (p : Place) (left : Piece) (read : Parse Piece) : Prop :=
  ∀ c d c', Reads read c d c' →
    d = left ∧ c' = c ∨ d.expression = .other ∧ ¬Stops p c.tokens

variable {p : Place} {read : Parse Piece}

theorem recognises_fail : Recognises p fail where
  sound _ _ _ h := absurd h not_reads_fail
  complete _ _ _ h := absurd h not_reads_fail

theorem Stops.ahead {c : Cursor} (h : Stops p c.tokens) :
    c.ahead p = none ∨ c.ahead p = some c.next ∧ (c.next.kind = .eof ∨ c.next.kind = .op ")" ∨
      c.next.kind = .op "," ∨ c.next.kind = .op ";") := by
  unfold Cursor.ahead Cursor.next
  cases hc : c.tokens with
  | nil => cases p.lineEnds <;> simp
  | cons t rest =>
    have ht := h t (by simp [hc])
    simp only
    split
    · exact .inl rfl
    · next hend => exact .inr ⟨rfl, .inr (ht.resolve_left (by simpa using hend))⟩

/-- A level that reads the level below it and then what may follow. -/
theorem Recognises.bind {rest : Piece → Parse Piece} (h : Recognises p read)
    (hrest : ∀ left, Extends p left (rest left)) : Recognises p (read >>= rest) where
  sound c d c' hread hfields hd := by
    obtain ⟨left, c₁, hleft, hd'⟩ := reads_bind.mp hread
    obtain ⟨rfl, rfl⟩ | ⟨hother, -⟩ := hrest left c₁ d c' hd'
    · exact h.sound c d c' hleft hfields hd
    · exact absurd hother (Expression.ne_other_of_isDocumentation hd)
  complete c d c' hread ts e rest' hts htokens hstop := by
    obtain ⟨left, c₁, hleft, hd'⟩ := reads_bind.mp hread
    have hfound := h.complete c left c₁ hleft ts e rest' hts htokens hstop
    obtain ⟨rfl, rfl⟩ | ⟨-, hgoes⟩ := hrest left c₁ d c' hd'
    · exact hfound
    · exact absurd (hfound.2.2 ▸ hstop) hgoes

/-! ### What may follow an operand -/

/-- What has been put together with something else is no writing any more. -/
theorem Extends.other {left : Piece} (h : Extends p left read) (hleft : left.expression = .other)
    {c c' : Cursor} {d : Piece} (hread : Reads read c d c') : d.expression = .other := by
  obtain ⟨rfl, -⟩ | ⟨hother, -⟩ := h c d c' hread
  · exact hleft
  · exact hother

theorem Stops.not_word {c : Cursor} {w : String} (h : (c.ahead p).bind Token.word? = some w) :
    ¬Stops p c.tokens := by
  intro hstop
  obtain hnone | ⟨hsome, hkind⟩ := hstop.ahead
  · simp [hnone] at h
  · rw [hsome] at h
    obtain hkind | hkind | hkind | hkind := hkind <;> simp [Token.word?, hkind] at h

theorem Stops.not_kind {c : Cursor} {kind : TokenKind} (h : (c.ahead p).map Token.kind = some kind)
    (hkind : kind ≠ .eof ∧ kind ≠ .op ")" ∧ kind ≠ .op "," ∧ kind ≠ .op ";") :
    ¬Stops p c.tokens := by
  intro hstop
  obtain hnone | ⟨hsome, h'⟩ := hstop.ahead
  · simp [hnone] at h
  · simp only [hsome, Option.map_some, Option.some.injEq] at h
    subst h
    tauto

theorem connected_extends (p : Place) (n : Nat) : ∀ left, Extends p left (connected n p left) := by
  induction n with
  | zero => exact fun left c d c' h => absurd h not_reads_fail
  | succ n ih =>
    intro left c d c' h
    rw [connected] at h
    have h := reads_following_bind h
    split at h
    case h_4 hword =>
      simp only [reads_ite, reads_bind] at h
      obtain ⟨-, h⟩ | ⟨-, _, _, _, _, _, _, _, _, _, _, _, _, h⟩ := h
      · exact .inl (reads_pure.mp h)
      · exact .inr ⟨by rw [(reads_pure.mp h).1], Stops.not_word hword⟩
    case h_5 => exact .inl (reads_pure.mp h)
    all_goals
      next hword =>
      obtain ⟨_, _, _, h⟩ := reads_bind.mp (reads_advance_bind.mp h)
      exact .inr ⟨(ih _).other rfl h, Stops.not_word hword⟩

theorem comparisonRest_extends (p : Place) (n : Nat) :
    ∀ left, Extends p left (comparisonRest n p left) := by
  induction n with
  | zero => exact fun left c d c' h => absurd h not_reads_fail
  | succ n ih =>
    intro left c d c' h
    rw [comparisonRest] at h
    have hmore {c₁ : Cursor} (h : Reads (do
        let _ ← sum n p
        comparisonRest n p { starred := left.starred }) c₁ d c') : d.expression = .other := by
      obtain ⟨_, _, _, h⟩ := reads_bind.mp h
      exact (ih _).other rfl h
    have h := reads_following_bind h
    split at h
    case h_1 o hkind =>
      obtain ⟨hcompares, h⟩ | ⟨-, h⟩ := reads_ite.mp h
      · refine .inr ⟨hmore h, Stops.not_kind hkind ?_⟩
        refine ⟨by simp, ?_, ?_, ?_⟩ <;> rintro ⟨⟩ <;> simp [isComparison] at hcompares
      · exact .inl (reads_pure.mp h)
    case h_2 hkind => exact .inr ⟨hmore h, Stops.not_kind hkind (by simp)⟩
    case h_3 hkind =>
      rw [reads_advance_bind, reads_peek_bind] at h
      obtain ⟨-, h⟩ | ⟨-, h⟩ := reads_ite.mp h
      · have h := reads_stay_bind h
        exact .inr ⟨hmore (reads_advance_bind.mp h), Stops.not_kind hkind (by simp)⟩
      · exact .inr ⟨hmore h, Stops.not_kind hkind (by simp)⟩
    case h_4 hkind =>
      obtain ⟨_, _, hsecond, h⟩ := reads_bind.mp h
      rw [reads_peekSecond hsecond] at h
      obtain ⟨-, h⟩ | ⟨-, h⟩ := reads_ite.mp h
      · have h := reads_stay_bind (reads_advance_bind.mp h)
        exact .inr ⟨hmore (reads_advance_bind.mp h), Stops.not_kind hkind (by simp)⟩
      · exact .inl (reads_pure.mp h)
    case h_5 => exact .inl (reads_pure.mp h)

theorem sumRest_extends (p : Place) (n : Nat) : ∀ left, Extends p left (sumRest n p left) := by
  induction n with
  | zero => exact fun left c d c' h => absurd h not_reads_fail
  | succ n ih =>
    intro left c d c' h
    rw [sumRest] at h
    have h := reads_following_bind h
    split at h
    case h_1 o hkind =>
      obtain ⟨hbinary, h⟩ | ⟨-, h⟩ := reads_ite.mp h
      · obtain ⟨_, _, _, h⟩ := reads_bind.mp (reads_advance_bind.mp h)
        refine .inr ⟨(ih _).other rfl h, Stops.not_kind hkind ?_⟩
        refine ⟨by simp, ?_, ?_, ?_⟩ <;> rintro ⟨⟩ <;> simp [isBinary] at hbinary
      · exact .inl (reads_pure.mp h)
    case h_2 => exact .inl (reads_pure.mp h)

theorem primaryRest_extends (p : Place) (n : Nat) :
    ∀ left, Extends p left (primaryRest n p left) := by
  induction n with
  | zero => exact fun left c d c' h => absurd h not_reads_fail
  | succ n ih =>
    intro left c d c' h
    rw [primaryRest] at h
    have h := reads_following_bind h
    split at h
    case h_4 => exact .inl (reads_pure.mp h)
    all_goals
      next hkind =>
      obtain ⟨_, _, _, h⟩ := reads_bind.mp (reads_advance_bind.mp h)
      exact .inr ⟨(ih _).other rfl h, Stops.not_kind hkind (by simp)⟩

/-! ### Single operands -/

/-- A level that looks at the first token and leaves a writing to the level below it. -/
theorem Recognises.take {exempt : Bool} {f : Token → Parse Piece} (h : Recognises p read)
    (hf : ∀ t c d c', Reads (f t) c d c' →
      Reads read c d c' ∨ d.expression = .other ∧ t.beginsWriting = false) :
    Recognises p (Parse.take exempt >>= f) where
  sound c d c' hread hfields hd := by
    obtain hread | ⟨hother, -⟩ := hf _ _ _ _ (reads_take_bind hread)
    · obtain ⟨ts, htokens, hts⟩ := h.sound _ _ _ hread hfields.taken hd
      obtain ⟨first, more, rfl, -⟩ := hts.exists_cons
      obtain ⟨t, hc, hkind⟩ := Cursor.tokens_of_taken htokens
      exact ⟨t :: more, hc, hts.withFirst hkind.symm⟩
    · exact absurd hother (Expression.ne_other_of_isDocumentation hd)
  complete c d c' hread ts e rest hts htokens hstop := by
    obtain ⟨first, more, rfl, hbegins⟩ := hts.exists_cons
    have htaken := Cursor.tokens_taken_of_cons htokens
    obtain hread | ⟨-, hno⟩ := hf _ _ _ _ (reads_take_bind hread)
    · refine h.complete _ _ _ hread (_ :: more) e rest ?_ htaken hstop
      exact hts.withFirst rfl
    · rw [Cursor.next_of_cons htaken] at hno
      exact absurd (hbegins.symm.trans hno) (by simp)

def Token.isLiteral (t : Token) : Bool :=
  match t.kind with
  | .string _ | .formatOpen _ => true
  | _ => false

/-- One literal of a row. Where it has replacement fields, the row shows its opening. -/
theorem reads_literals {n : Nat} {c c' : Cursor} {parts : List LiteralPart}
    (h : Reads (literals (n + 1) p) c parts c') :
    (∃ text, c.next.kind = .formatOpen text ∧ .literal text ∈ parts) ∨
      c.next.IsString ∧
        ((c.behind.next.isLiteral && !(p.lineEnds && c.behind.next.lineBreak)) = true ∧
            (∃ more, Reads (literals n p) c.behind more c' ∧ parts = c.next.parts ++ more) ∨
          (c.behind.next.isLiteral && !(p.lineEnds && c.behind.next.lineBreak)) = false ∧
            parts = c.next.parts ∧ c' = c.behind) := by
  rw [literals, reads_peek_bind] at h
  obtain ⟨text, c₁, htext, h⟩ := reads_bind.mp h
  rw [reads_peek_bind, reads_ite] at h
  split at htext
  · next hkind =>
    have htext := reads_advance_bind.mp htext
    obtain ⟨rfl, rfl⟩ := reads_pure.mp htext
    refine .inr ⟨⟨_, hkind⟩, ?_⟩
    obtain ⟨hgoes, h⟩ | ⟨hgoes, h⟩ := h
    · obtain ⟨more, c₂, hmore, h⟩ := reads_bind.mp (reads_stay_bind h)
      obtain ⟨rfl, rfl⟩ := reads_pure.mp h
      exact .inl ⟨hgoes, more, hmore, by simp [Token.parts, hkind]⟩
    · obtain ⟨rfl, rfl⟩ := reads_pure.mp h
      exact .inr ⟨hgoes, by simp [Token.parts, hkind], rfl⟩
  · next hkind =>
    obtain ⟨_, c₂, -, htext⟩ := reads_bind.mp (reads_advance_bind.mp htext)
    obtain ⟨rfl, rfl⟩ := reads_pure.mp htext
    refine .inl ⟨_, hkind, ?_⟩
    obtain ⟨-, h⟩ | ⟨-, h⟩ := h
    · obtain ⟨more, c₃, -, h⟩ := reads_bind.mp (reads_stay_bind h)
      rw [(reads_pure.mp h).1]
      simp
    · rw [(reads_pure.mp h).1]
      simp
  · exact absurd htext not_reads_fail

/-- The parts of a row of literals stand for the tokens that have been read. -/
theorem literals_sound (p : Place) (n : Nat) : ∀ c parts c', Reads (literals n p) c parts c' →
    FieldsShow c.tokens → parts.all LiteralPart.isPlain = true →
      ∃ first further, c.tokens = first :: further ++ c'.tokens ∧ first.IsString ∧
        (∀ t ∈ further, t.IsString) ∧ (p.lineEnds = true → ∀ t ∈ further, t.lineBreak = false) ∧
        parts = (first :: further).flatMap Token.parts := by
  induction n with
  | zero => exact fun c parts c' h => absurd h not_reads_fail
  | succ n ih =>
    intro c parts c' h hfields hplain
    obtain ⟨text, hkind, hmem⟩ | ⟨⟨text, hkind⟩, hrest⟩ := reads_literals h
    · have htokens := Cursor.tokens_of_next (c := c) (by simp [hkind])
      have hlooks := hfields text (by rw [htokens]; simp [hkind])
      exact absurd (List.all_eq_true.mp hplain _ hmem) (by simp [LiteralPart.isPlain, hlooks])
    · have htokens := Cursor.tokens_of_next (c := c) (by simp [hkind])
      rw [← c.tokens_behind] at htokens
      obtain ⟨hgoes, more, hmore, rfl⟩ | ⟨-, rfl, rfl⟩ := hrest
      · rw [List.all_append, Bool.and_eq_true] at hplain
        obtain ⟨first, further, hbehind, hfirst, hfurther, hline, rfl⟩ :=
          ih c.behind more c' hmore hfields.behind hplain.2
        refine ⟨c.next, first :: further, by rw [htokens, hbehind]; rfl, ⟨text, hkind⟩, ?_, ?_, rfl⟩
        · exact List.forall_mem_cons.mpr ⟨hfirst, hfurther⟩
        · rw [Cursor.next_of_cons hbehind] at hgoes
          exact fun hends => List.forall_mem_cons.mpr ⟨by simp_all, hline hends⟩
      · exact ⟨c.next, [], htokens, ⟨text, hkind⟩, by simp, by simp, by simp⟩

theorem Stops.not_isLiteral {c : Cursor} (h : Stops p c.tokens) :
    (c.next.isLiteral && !(p.lineEnds && c.next.lineBreak)) = false := by
  unfold Cursor.next
  cases hc : c.tokens with
  | nil => rfl
  | cons t rest =>
    obtain ⟨hends, hbreak⟩ | hkind | hkind | hkind := h t (by simp [hc])
    · simp [hends, hbreak]
    all_goals simp [Token.isLiteral, hkind]

theorem literals_complete (p : Place) (further : List Token) : ∀ n c parts c' first rest,
    Reads (literals n p) c parts c' → c.tokens = first :: further ++ rest → first.IsString →
    (∀ t ∈ further, t.IsString) → (p.lineEnds = true → ∀ t ∈ further, t.lineBreak = false) →
    Stops p rest → parts = (first :: further).flatMap Token.parts ∧ c'.tokens = rest := by
  induction further with
  | nil =>
    intro n c parts c' first rest h htokens hfirst _ _ hstop
    cases n with
    | zero => exact absurd h not_reads_fail
    | succ n =>
      have hnext := Cursor.next_of_cons htokens
      have hbehind : c.behind.tokens = rest := by rw [c.tokens_behind, htokens]; rfl
      obtain ⟨text, hkind, -⟩ | ⟨-, ⟨hgoes, -⟩ | ⟨-, rfl, rfl⟩⟩ := reads_literals h
      · obtain ⟨_, hfirst⟩ := hfirst
        simp [hnext, hfirst] at hkind
      · rw [← hbehind] at hstop
        exact absurd (hgoes.symm.trans hstop.not_isLiteral) (by simp)
      · exact ⟨by simp [hnext], hbehind⟩
  | cons second further ih =>
    intro n c parts c' first rest h htokens hfirst hfurther hline hstop
    cases n with
    | zero => exact absurd h not_reads_fail
    | succ n =>
      have hnext := Cursor.next_of_cons htokens
      have hbehind : c.behind.tokens = second :: further ++ rest := by
        rw [c.tokens_behind, htokens]
        rfl
      rw [List.forall_mem_cons] at hfurther
      obtain ⟨text, hsecond⟩ := hfurther.1
      obtain ⟨text, hkind, -⟩ | ⟨-, ⟨-, more, hmore, rfl⟩ | ⟨hgoes, -, -⟩⟩ := reads_literals h
      · obtain ⟨_, hfirst⟩ := hfirst
        simp [hnext, hfirst] at hkind
      · obtain ⟨rfl, hc'⟩ := ih n c.behind more c' second rest hmore hbehind ⟨text, hsecond⟩
          hfurther.2 (fun hends t ht => hline hends t (List.mem_cons_of_mem _ ht)) hstop
        exact ⟨by simp [hnext], hc'⟩
      · rw [Cursor.next_of_cons hbehind] at hgoes
        simp_all [Token.isLiteral]

/-! ### Parentheses -/

theorem inParentheses_sound {n : Nat} (h : ∀ m < n, Recognises p (element m p))
    (hp : p.lineEnds = false) {c c' : Cursor} {d : Piece} (hread : Reads (inParentheses n p) c d c')
    (hfields : FieldsShow c.tokens) (hd : d.expression.isDocumentation = true) :
    ∃ first more closing e, c.tokens = first :: more ++ closing :: c'.tokens ∧
      closing.kind = .op ")" ∧ Writes false (first :: more) e ∧
        d.expression = .parenthesized first.comments e closing.comments := by
  have hother := Expression.ne_other_of_isDocumentation hd
  cases n with
  | zero => exact absurd hread not_reads_fail
  | succ n =>
  rw [inParentheses] at hread
  -- Of all that may stand in parentheses, a single operand alone leaves more than `.other`.
  obtain ⟨-, hread⟩ | ⟨-, hread⟩ := reads_skipOp_bind hread
  · exact absurd (by rw [(reads_pure.mp hread).1]) hother
  obtain ⟨inner, c₁, hinner, hread⟩ := reads_bind.mp (reads_peek_bind.mp hread)
  have hread := reads_followedByOp_bind hread
  obtain ⟨hclosing, hread⟩ | ⟨-, hread⟩ := reads_ite.mp hread
  · rw [reads_peek_bind, reads_advance_bind] at hread
    obtain ⟨-, hread⟩ | ⟨-, hread⟩ := reads_ite.mp hread
    · exact absurd (by rw [(reads_pure.mp hread).1]) hother
    obtain ⟨rfl, rfl⟩ := reads_pure.mp hread
    have hkind := Token.isOp_iff.mp (Cursor.next_of_any_ahead hclosing)
    have hinnerDoc : inner.expression.isDocumentation = true := by
      revert hd
      simp only
      cases c.next.comments <;> cases c₁.next.comments <;> simp [Expression.isDocumentation]
    obtain ⟨ts, htokens, hts⟩ := (h n n.lt_succ_self).sound c inner c₁ hinner hfields hinnerDoc
    obtain ⟨first, more, rfl, -⟩ := hts.exists_cons
    have hnext := Cursor.next_of_cons htokens
    have hc₁ := Cursor.tokens_of_next (c := c₁) (by simp [hkind])
    rw [hp] at hts
    refine ⟨first, more, c₁.next, inner.expression, ?_, hkind, hts, by rw [hnext]⟩
    rw [htokens, c₁.tokens_behind, ← hc₁]
  · obtain ⟨q, c₂, -, hread⟩ := reads_bind.mp hread
    obtain ⟨-, hread⟩ | ⟨-, hread⟩ := reads_ite.mp hread
    · obtain ⟨-, hread⟩ | ⟨-, hread⟩ := reads_ite.mp hread
      · exact absurd hread not_reads_fail_bind
      · obtain ⟨_, _, _, hread⟩ := reads_bind.mp hread
        have hread := (reads_expectOp_bind hread).2
        exact absurd (by rw [(reads_pure.mp hread).1]) hother
    · obtain ⟨_, _, _, hread⟩ := reads_bind.mp hread
      exact absurd (by rw [(reads_pure.mp hread).1]) hother

theorem inParentheses_complete {n : Nat} (h : ∀ m < n, Recognises p (element m p))
    (hp : p.lineEnds = false) {c c' : Cursor} {d : Piece} {first closing : Token}
    {more rest : List Token} {e : Expression} (hread : Reads (inParentheses n p) c d c')
    (htokens : c.tokens = first :: more ++ closing :: rest) (hclosing : closing.kind = .op ")")
    (hinner : Writes false (first :: more) e) :
    d.expression = .parenthesized first.comments e closing.comments ∧ d.element = false ∧
      c'.tokens = rest := by
  have hnext := Cursor.next_of_cons htokens
  have hstop : Stops p (closing :: rest) := by simp [Stops, hclosing]
  cases n with
  | zero => exact absurd hread not_reads_fail
  | succ n =>
  rw [inParentheses] at hread
  obtain ⟨hempty, -⟩ | ⟨-, hread⟩ := reads_skipOp_bind hread
  · have hkind := Token.isOp_iff.mp (Cursor.next_of_any_ahead hempty)
    rw [hnext] at hkind
    exact absurd hinner.beginsWriting (by simp [Token.beginsWriting, hkind])
  obtain ⟨inner, c₁, hread₁, hread⟩ := reads_bind.mp (reads_peek_bind.mp hread)
  obtain ⟨rfl, helement, hc₁⟩ :=
    (h n n.lt_succ_self).complete c inner c₁ hread₁ _ e _ (hp ▸ hinner) htokens hstop
  have hread := reads_followedByOp_bind hread
  have hclosing' : (c₁.ahead p).any (·.isOp ")") = true := by
    simp [Cursor.ahead, hp, Cursor.next_of_cons hc₁, Token.isOp_iff.mpr hclosing]
  rw [hclosing', if_pos rfl, reads_peek_bind, reads_advance_bind, helement,
    if_neg Bool.false_ne_true] at hread
  obtain ⟨rfl, rfl⟩ := reads_pure.mp hread
  refine ⟨?_, rfl, ?_⟩
  · rw [hnext, Cursor.next_of_cons hc₁]
  · rw [c₁.tokens_behind, hc₁, List.tail_cons]

/-! ### The levels of the grammar -/

theorem inBrackets_other {n : Nat} {c c' : Cursor} {d : Piece}
    (h : Reads (inBrackets n p) c d c') : d.expression = .other := by
  cases n with
  | zero => exact absurd h not_reads_fail
  | succ n =>
    rw [inBrackets] at h
    simp only [reads_bind, reads_ite, reads_pure, not_reads_fail] at h
    grind

theorem inBraces_other {n : Nat} {c c' : Cursor} {d : Piece}
    (h : Reads (inBraces n p) c d c') : d.expression = .other := by
  cases n with
  | zero => exact absurd h not_reads_fail
  | succ n =>
    rw [inBraces] at h
    simp only [reads_bind, reads_ite, reads_pure, not_reads_fail] at h
    grind

/-- A row of literals is read as the expression that it is. -/
theorem reads_row {n : Nat} {c c' : Cursor} {d : Piece}
    (h : Reads (do
      let parts ← literals n p
      match parts with
      | [.literal text] => return { expression := .literal text }
      | _ => return { expression := .adjacent parts }) c d c') :
    ∃ parts, Reads (literals n p) c parts c' ∧ d = { expression := rowExpression parts } := by
  obtain ⟨parts, c₁, hparts, h⟩ := reads_bind.mp h
  refine ⟨parts, ?_⟩
  split at h
  case h_1 =>
    obtain ⟨rfl, rfl⟩ := reads_pure.mp h
    exact ⟨hparts, rfl⟩
  case h_2 hrow =>
    obtain ⟨rfl, rfl⟩ := reads_pure.mp h
    exact ⟨hparts, by rw [rowExpression.eq_2 parts hrow]⟩

/-- A row of literals that documents has been written by string literals. -/
theorem row_sound {n : Nat} {c c' : Cursor} {parts : List LiteralPart}
    (h : Reads (literals n p) c.taken parts c') (hfields : FieldsShow c.tokens)
    (hplain : (rowExpression parts).isDocumentation = true) :
    ∃ ts, c.tokens = ts ++ c'.tokens ∧ Writes p.lineEnds ts (rowExpression parts) := by
  rw [rowExpression_isDocumentation] at hplain
  obtain ⟨first, further, htokens, ⟨text, hfirst⟩, hfurther, hline, rfl⟩ :=
    literals_sound p n _ _ _ h hfields.taken hplain
  obtain ⟨t, hc, hkind⟩ := Cursor.tokens_of_taken htokens
  have hcomments := c.comments_next_taken
  rw [Cursor.next_of_cons htokens] at hcomments
  have hparts : first.parts = [.literal text] := by simp [Token.parts, hfirst, hcomments]
  refine ⟨t :: further, hc, ?_⟩
  rw [List.flatMap_cons, hparts]
  exact .row (hkind.symm.trans hfirst) hfurther hline

theorem row_complete {n : Nat} {c c' : Cursor} {parts : List LiteralPart} {first : Token}
    {further rest : List Token} {text : String} (h : Reads (literals n p) c.taken parts c')
    (htokens : c.tokens = first :: further ++ rest) (hfirst : first.kind = .string text)
    (hfurther : ∀ t ∈ further, t.IsString)
    (hline : p.lineEnds = true → ∀ t ∈ further, t.lineBreak = false) (hstop : Stops p rest) :
    parts = .literal text :: further.flatMap Token.parts ∧ c'.tokens = rest := by
  have htaken := Cursor.tokens_taken_of_cons htokens
  obtain ⟨rfl, hc'⟩ := literals_complete p further n _ _ _ _ rest h htaken ⟨text, hfirst⟩ hfurther
    hline hstop
  exact ⟨by simp [Token.parts, hfirst], hc'⟩

theorem recognises_atom {n : Nat} (h : ∀ m < n, Recognises p.inside (element m p.inside)) :
    Recognises p (atom (n + 1) p) where
  sound c d c' hread hfields hd := by
    have hother := Expression.ne_other_of_isDocumentation hd
    rw [atom] at hread
    have hread := reads_take_bind hread
    split at hread
    -- A row may begin with replacement fields as well; that it does not is seen from `hd`.
    case h_7 | h_8 =>
      obtain ⟨parts, hparts, rfl⟩ := reads_row hread
      exact row_sound hparts hfields hd
    case h_9 hkind =>
      rw [reads_advance_bind] at hread
      obtain ⟨first, more, closing, e, htokens, hclosing, he, hexpression⟩ :=
        inParentheses_sound h rfl hread hfields.taken.behind hd
      rw [c.taken.tokens_behind, c.tail_taken] at htokens
      rw [c.kind_next_taken] at hkind
      refine ⟨c.next :: first :: more ++ [closing], ?_,
        hexpression ▸ .parenthesized hkind hclosing he⟩
      rw [Cursor.tokens_of_next (c := c) (by simp [hkind]), htokens]
      simp
    case h_10 => exact absurd (inBrackets_other (reads_advance_bind.mp hread)) hother
    case h_11 => exact absurd (inBraces_other (reads_advance_bind.mp hread)) hother
    case h_12 => exact absurd hread not_reads_fail
    all_goals
      have hread := reads_advance_bind.mp hread
      exact absurd (by rw [(reads_pure.mp hread).1]) hother
  complete c d c' hread ts e rest hts htokens hstop := by
    rw [atom] at hread
    have hread := reads_take_bind hread
    rw [c.kind_next_taken] at hread
    cases hts with
    | row hfirst hfurther hline =>
      rw [Cursor.next_of_cons htokens, hfirst] at hread
      obtain ⟨parts, hparts, rfl⟩ := reads_row hread
      obtain ⟨rfl, hc'⟩ := row_complete hparts htokens hfirst hfurther hline hstop
      exact ⟨rfl, rfl, hc'⟩
    | parenthesized hopening hclosing he =>
      rw [Cursor.next_of_cons htokens, hopening] at hread
      have hread := reads_advance_bind.mp hread
      refine inParentheses_complete h rfl hread ?_ hclosing he
      rw [c.taken.tokens_behind, c.tail_taken, htokens]
      simp

theorem recognises_primary {n : Nat} (h : Recognises p (atom n p)) :
    Recognises p (primary (n + 1) p) := by
  rw [primary]
  exact h.bind (primaryRest_extends p n)

theorem recognises_operand {n : Nat} (h : Recognises p (primary n p)) :
    Recognises p (operand (n + 1) p) := by
  rw [operand]
  refine h.take fun t c d c' hread => ?_
  split at hread
  case h_4 hkind =>
    obtain ⟨e, _, _, hread⟩ := reads_bind.mp (reads_advance_bind.mp hread)
    obtain ⟨-, hread⟩ | ⟨-, hread⟩ := reads_ite.mp hread
    · exact .inr ⟨by rw [(reads_pure.mp hread).1], by simp [Token.beginsWriting, hkind]⟩
    · exact absurd hread not_reads_fail
  case h_5 hkind =>
    obtain ⟨second, _, hsecond, hread⟩ := reads_bind.mp hread
    rw [reads_peekSecond hsecond] at hread
    obtain ⟨-, hread⟩ | ⟨-, hread⟩ := reads_ite.mp hread
    · obtain ⟨_, _, _, hread⟩ := reads_bind.mp (reads_advance_bind.mp hread)
      exact .inr ⟨by rw [(reads_pure.mp hread).1], by simp [Token.beginsWriting, hkind]⟩
    · exact .inl hread
  case h_6 => exact .inl hread
  all_goals
    next hkind =>
    obtain ⟨_, _, _, hread⟩ := reads_bind.mp (reads_advance_bind.mp hread)
    exact .inr ⟨by rw [(reads_pure.mp hread).1], by simp [Token.beginsWriting, hkind]⟩

theorem recognises_sum {n : Nat} (h : Recognises p (operand n p)) :
    Recognises p (sum (n + 1) p) := by
  rw [sum]
  exact h.bind (sumRest_extends p n)

theorem recognises_comparison {n : Nat} (h : Recognises p (sum n p)) :
    Recognises p (comparison (n + 1) p) := by
  rw [comparison]
  exact h.bind (comparisonRest_extends p n)

theorem recognises_operation {n : Nat} (h : Recognises p (comparison n p)) :
    Recognises p (operation (n + 1) p) := by
  rw [operation]
  refine h.take fun t c d c' hread => ?_
  split at hread
  case h_1 hkind =>
    obtain ⟨_, _, _, hread⟩ := reads_bind.mp (reads_advance_bind.mp hread)
    exact .inr ⟨by rw [(reads_pure.mp hread).1], by simp [Token.beginsWriting, hkind]⟩
  case h_2 hkind =>
    obtain ⟨_, _, _, hread⟩ := reads_bind.mp (reads_advance_bind.mp hread)
    obtain ⟨_, _, _, hread⟩ := reads_bind.mp (reads_expectOp_bind hread).2
    exact .inr ⟨by rw [(reads_pure.mp hread).1], by simp [Token.beginsWriting, hkind]⟩
  case h_3 w hkind =>
    obtain ⟨second, _, hsecond, hread⟩ := reads_bind.mp hread
    rw [reads_peekSecond hsecond] at hread
    obtain ⟨-, hread⟩ | ⟨-, hread⟩ := reads_ite.mp hread
    · rw [reads_advance_bind, reads_advance_bind] at hread
      obtain ⟨_, _, _, hread⟩ := reads_bind.mp hread
      exact .inr ⟨by rw [(reads_pure.mp hread).1], by simp [Token.beginsWriting, hkind]⟩
    · exact .inl hread
  case h_4 => exact .inl hread

theorem recognises_anyExpression {n : Nat} (h : Recognises p (operation n p)) :
    Recognises p (anyExpression (n + 1) p) := by
  rw [anyExpression]
  exact h.bind (connected_extends p n)

theorem recognises_element {n : Nat} (h : Recognises p (anyExpression n p)) :
    Recognises p (element (n + 1) p) := by
  rw [element]
  refine h.take fun t c d c' hread => ?_
  split at hread
  case h_1 hkind =>
    obtain ⟨_, _, _, hread⟩ := reads_bind.mp (reads_advance_bind.mp hread)
    exact .inr ⟨by rw [(reads_pure.mp hread).1], by simp [Token.beginsWriting, hkind]⟩
  case h_2 hkind =>
    obtain ⟨_, _, _, hread⟩ := reads_bind.mp hread
    exact .inr ⟨by rw [(reads_pure.mp hread).1], by simp [Token.beginsWriting, hkind]⟩
  case h_3 => exact .inl hread

theorem recognises_expression {n : Nat} (h : Recognises p (anyExpression n p)) :
    Recognises p (expression (n + 1) p) := by
  rw [expression]
  refine h.bind fun left c d c' hread => ?_
  obtain ⟨-, hread⟩ | ⟨-, hread⟩ := reads_ite.mp hread
  · exact absurd hread not_reads_fail
  · exact .inl (reads_pure.mp hread)

structure RecognisedAt (n : Nat) : Prop where
  element (p : Place) : Recognises p (element n p)
  anyExpression (p : Place) : Recognises p (anyExpression n p)
  operation (p : Place) : Recognises p (operation n p)
  comparison (p : Place) : Recognises p (comparison n p)
  sum (p : Place) : Recognises p (sum n p)
  operand (p : Place) : Recognises p (operand n p)
  primary (p : Place) : Recognises p (primary n p)
  atom (p : Place) : Recognises p (atom n p)

/-- Each level has the one below it at the depth before, and operands in parentheses any smaller
depth. -/
theorem recognisedAt (n : Nat) : RecognisedAt n := by
  induction n using Nat.strongRecOn with
  | ind n ih =>
    cases n with
    | zero => constructor <;> exact fun p => recognises_fail
    | succ n =>
      have below := ih n n.lt_succ_self
      exact {
        element p := recognises_element (below.anyExpression p)
        anyExpression p := recognises_anyExpression (below.operation p)
        operation p := recognises_operation (below.comparison p)
        comparison p := recognises_comparison (below.sum p)
        sum p := recognises_sum (below.operand p)
        operand p := recognises_operand (below.primary p)
        primary p := recognises_primary (below.atom p)
        atom p := recognises_atom fun m hm => (ih m (Nat.lt_succ_of_lt hm)).element p.inside }

theorem expression_recognises (p : Place) : ∀ n, Recognises p (expression n p)
  | 0 => recognises_fail
  | n + 1 => recognises_expression ((recognisedAt n).anyExpression p)

end DocDrift.Source
