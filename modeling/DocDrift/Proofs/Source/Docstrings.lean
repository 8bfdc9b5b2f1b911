import DocDrift.Proofs.Source.Bodies
import DocDrift.Proofs.Source.Literals

/-!
# Docstrings in the source

A module or the body of a definition has a docstring exactly if its first statement is a row of
string literals in any number of parentheses, none of which is made of bytes or has replacement
fields. Two things stand apart from this. A comment directly inside parentheses hides the literals
behind it, and a comma behind the row, which makes it a tuple, is not seen.
-/

namespace DocDrift.Source

open Parse

structure Writing where
  /-- The parentheses in front of the row, the outermost first. -/
  opening : List Token
  literals : List Token
  /-- The parentheses behind the row, the outermost last. -/
  closing : List Token
  isOpening : ∀ t ∈ opening, t.kind = .op "("
  isString : ∀ t ∈ literals, t.IsString
  isClosing : ∀ t ∈ closing, t.kind = .op ")"
  literals_ne_nil : literals ≠ []
  balanced : opening.length = closing.length

namespace Writing

def tokens (w : Writing) : List Token := w.opening ++ w.literals ++ w.closing

/-- No literal is made of bytes or has replacement fields. -/
def Plain (w : Writing) : Prop :=
  ∀ t ∈ w.literals, ∃ d, t.delimiter? = some d ∧ d.bytes = false ∧ d.format = false

/-- As far as the recognition of docstrings goes, all literals are plain. -/
def LooksPlain (w : Writing) : Prop :=
  ∀ t ∈ w.literals, ∀ text, t.kind = .string text → isPlainLiteral text = true

/-- No comment stands directly inside parentheses: neither behind one that opens nor in front of one
that closes. Those between literals are no harm. -/
def Uncommented (w : Writing) : Prop :=
  ∀ t ∈ (w.opening ++ w.literals.take 1).tail ++ w.closing, t.comments = []

/-- The row does not go over the end of a line unless it is in parentheses. -/
def OnLine (w : Writing) : Prop := w.opening = [] → ∀ t ∈ w.literals.tail, t.lineBreak = false

/-- The tokens open with a statement that is nothing but the row; a comma may stand behind it. -/
def Opens (w : Writing) (tokens : List Token) : Prop :=
  ∃ (comma : Option Token) (rest : List Token), tokens = w.tokens ++ (comma.toList ++ rest) ∧
    w.OnLine ∧ (∀ t ∈ comma, t.kind = .op "," ∧ t.lineBreak = false) ∧ Ends rest

/-! ### Writings one inside the other -/

def row (literals : List Token) (h : ∀ t ∈ literals, t.IsString) (hne : literals ≠ []) :
    Writing where
  opening := []
  literals
  closing := []
  isOpening := by simp
  isString := h
  isClosing := by simp
  literals_ne_nil := hne
  balanced := rfl

/-- The writing in one more pair of parentheses. -/
def enclose (w : Writing) (o c : Token) (ho : o.kind = .op "(") (hc : c.kind = .op ")") :
    Writing where
  opening := o :: w.opening
  literals := w.literals
  closing := w.closing ++ [c]
  isOpening := List.forall_mem_cons.mpr ⟨ho, w.isOpening⟩
  isString := w.isString
  isClosing := by simpa [or_imp, forall_and, hc] using w.isClosing
  literals_ne_nil := w.literals_ne_nil
  balanced := by simp [w.balanced]

/-- Every writing is a row in one pair of parentheses after the other. -/
@[elab_as_elim]
theorem induction {motive : Writing → Prop}
    (row : ∀ literals h hne, motive (row literals h hne))
    (enclose : ∀ w o c ho hc, motive w → motive (enclose w o c ho hc)) (w : Writing) :
    motive w := by
  obtain ⟨opening, literals, closing, hopening, hstring, hclosing, hne, hbalanced⟩ := w
  induction opening generalizing closing with
  | nil =>
    obtain rfl : closing = [] := List.length_eq_zero_iff.mp hbalanced.symm
    exact row literals hstring hne
  | cons o opening ih =>
    obtain rfl | ⟨closing, c, rfl⟩ := List.eq_nil_or_concat' closing
    · cases hbalanced
    · have ho := List.forall_mem_cons.mp hopening
      have hc := List.forall_mem_append.mp hclosing
      exact enclose _ o c ho.1 (hc.2 c (List.mem_singleton_self c))
        (ih closing ho.2 hc.1 (by simpa using hbalanced))

theorem tokens_row {literals : List Token} (h : ∀ t ∈ literals, t.IsString) (hne : literals ≠ []) :
    (row literals h hne).tokens = literals :=
  List.append_nil literals

theorem tokens_enclose (w : Writing) {o c : Token} (ho : o.kind = .op "(") (hc : c.kind = .op ")") :
    (w.enclose o c ho hc).tokens = o :: w.tokens ++ [c] := by
  simp [tokens, enclose]

theorem looksPlain_enclose {w : Writing} {o c : Token} {ho : o.kind = .op "("}
    {hc : c.kind = .op ")"} : (w.enclose o c ho hc).LooksPlain ↔ w.LooksPlain := Iff.rfl

theorem uncommented_enclose {w : Writing} {o c first : Token} {more : List Token}
    (ho : o.kind = .op "(") (hc : c.kind = .op ")") (hw : w.tokens = first :: more) :
    (w.enclose o c ho hc).Uncommented ↔
      first.comments = [] ∧ c.comments = [] ∧ w.Uncommented := by
  have hfirst : w.opening ++ w.literals.take 1 =
      first :: (w.opening ++ w.literals.take 1).tail := by
    obtain ⟨l, ls, hliterals⟩ := List.exists_cons_of_ne_nil w.literals_ne_nil
    cases hopening : w.opening <;> simp_all [tokens]
  have htail : ((w.enclose o c ho hc).opening ++ (w.enclose o c ho hc).literals.take 1).tail =
      first :: (w.opening ++ w.literals.take 1).tail := by
    rw [← hfirst]
    rfl
  rw [Uncommented, htail]
  simp only [Uncommented, enclose, List.forall_mem_append, List.forall_mem_cons,
    List.not_mem_nil, false_imp_iff, implies_true, and_true]
  tauto

end Writing

theorem Token.all_isPlain_parts (t : Token) :
    t.parts.all LiteralPart.isPlain = true ↔
      ∀ text, t.kind = .string text → isPlainLiteral text = true := by
  unfold parts
  split
  · next text hkind => simp [hkind, LiteralPart.isPlain]
  · next hkind => simpa using fun text h => absurd h (hkind text)

theorem row_isDocumentation {first : Token} {further : List Token} {text : String}
    (hfirst : first.kind = .string text) (h : ∀ t ∈ first :: further, t.IsString) :
    (rowExpression (.literal text :: further.flatMap Token.parts)).isDocumentation = true ↔
      (Writing.row (first :: further) h (List.cons_ne_nil _ _)).LooksPlain ∧
        (Writing.row (first :: further) h (List.cons_ne_nil _ _)).Uncommented := by
  have hparts : first.parts.all LiteralPart.isPlain =
      [LiteralPart.literal text].all LiteralPart.isPlain := by
    simp [Token.parts, hfirst, LiteralPart.isPlain]
  have hplain : (LiteralPart.literal text :: further.flatMap Token.parts).all LiteralPart.isPlain =
      ((first :: further).flatMap Token.parts).all LiteralPart.isPlain := by
    rw [List.flatMap_cons, List.all_append, hparts]
    simp
  have huncommented : (Writing.row (first :: further) h (List.cons_ne_nil _ _)).Uncommented := by
    simp [Writing.Uncommented, Writing.row]
  rw [rowExpression_isDocumentation, hplain, List.all_flatMap, List.all_eq_true]
  simp only [huncommented, and_true, Token.all_isPlain_parts]
  rfl

theorem parenthesized_isDocumentation {before behind : List Comment} {e : Expression} :
    (Expression.parenthesized before e behind).isDocumentation = true ↔
      before = [] ∧ behind = [] ∧ e.isDocumentation = true := by
  cases before <;> cases behind <;> simp [Expression.isDocumentation]

/-- A writing stands for the expression that its tokens write. -/
theorem Writing.exists_writes (w : Writing) : ∀ lineEnds, (lineEnds = true → w.OnLine) →
    ∃ e, Writes lineEnds w.tokens e ∧
      (e.isDocumentation = true ↔ w.LooksPlain ∧ w.Uncommented) := by
  induction w using Writing.induction with
  | row literals h hne =>
    intro lineEnds hline
    obtain ⟨first, further, rfl⟩ := List.exists_cons_of_ne_nil hne
    obtain ⟨text, hfirst⟩ := h first List.mem_cons_self
    refine ⟨_, ?_, row_isDocumentation hfirst h⟩
    rw [tokens_row]
    exact .row hfirst (List.forall_mem_cons.mp h).2 fun hends => hline hends rfl
  | enclose w o c ho hc ih =>
    intro lineEnds _
    obtain ⟨e, he, hdoc⟩ := ih false nofun
    obtain ⟨first, more, hw, -⟩ := he.exists_cons
    refine ⟨.parenthesized first.comments e c.comments, ?_, ?_⟩
    · rw [tokens_enclose, hw]
      exact .parenthesized ho hc (hw ▸ he)
    · rw [parenthesized_isDocumentation, uncommented_enclose ho hc hw, hdoc, looksPlain_enclose]
      tauto

theorem Writes.exists_writing {lineEnds : Bool} {ts : List Token} {e : Expression}
    (h : Writes lineEnds ts e) : ∃ w : Writing, w.tokens = ts ∧ (lineEnds = true → w.OnLine) ∧
      (e.isDocumentation = true ↔ w.LooksPlain ∧ w.Uncommented) := by
  induction h with
  | @row lineEnds first further text hfirst hfurther hline =>
    have h : ∀ t ∈ first :: further, t.IsString :=
      List.forall_mem_cons.mpr ⟨⟨text, hfirst⟩, hfurther⟩
    refine ⟨Writing.row (first :: further) h (List.cons_ne_nil _ _), ?_, ?_,
      row_isDocumentation hfirst h⟩
    · exact Writing.tokens_row _ _
    · exact fun hends _ => hline hends
  | parenthesized hopening hclosing h ih =>
    obtain ⟨w, hw, -, hdoc⟩ := ih
    refine ⟨w.enclose _ _ hopening hclosing, ?_, ?_, ?_⟩
    · rw [Writing.tokens_enclose, hw]
    · intro _ hnil
      cases hnil
    · rw [parenthesized_isDocumentation, Writing.uncommented_enclose hopening hclosing hw, hdoc,
        Writing.looksPlain_enclose]
      tauto

/-! ### What is a docstring -/

/-- No literal is in backquotes, which no version of the language has for strings. -/
def NoBackquotes (tokens : List Token) : Prop :=
  ∀ t ∈ tokens, ∀ d ∈ t.delimiter?, d.quote ≠ '\x60'

/-- No literal with replacement fields is in backquotes. -/
def NoFieldsInBackquotes (tokens : List Token) : Prop :=
  ∀ t ∈ tokens, ∀ d ∈ t.delimiter?, d.format = true → d.quote ≠ '\x60'

instance (tokens : List Token) : Decidable (NoFieldsInBackquotes tokens) :=
  inferInstanceAs (Decidable (∀ t ∈ tokens, ∀ d ∈ t.delimiter?, d.format = true → d.quote ≠ '\x60'))

theorem Writing.looksPlain_iff {w : Writing} (hkind : ∀ t ∈ w.literals, t.kind.Delimited)
    (hquotes : NoBackquotes w.literals) : w.LooksPlain ↔ w.Plain := by
  have hplain {t : Token} {text : String} {d : Delimiter} (ht : t ∈ w.literals)
      (htext : t.kind = .string text) (hd : t.delimiter? = some d) :
      isPlainLiteral text = true ↔ d.bytes = false ∧ d.format = false := by
    have hquote := hquotes t ht d hd
    simp only [Token.delimiter?, htext] at hd
    exact isPlainLiteral_iff hd hquote
  constructor
  · intro h t ht
    obtain ⟨text, htext⟩ := w.isString t ht
    have hopened := hkind t ht
    rw [htext] at hopened
    obtain ⟨d, hd⟩ := hopened
    have hd : t.delimiter? = some d := by simp only [Token.delimiter?, htext, hd]
    exact ⟨d, hd, (hplain ht htext hd).mp (h t ht text htext)⟩
  · intro h t ht text htext
    obtain ⟨d, hd, hflags⟩ := h t ht
    exact (hplain ht htext hd).mpr hflags

theorem NoFieldsInBackquotes.fieldsShow {tokens : List Token} (h : NoFieldsInBackquotes tokens)
    (hkind : ∀ t ∈ tokens, t.kind.Delimited) : FieldsShow tokens := by
  intro text htext
  obtain ⟨t, ht, hformat⟩ := List.mem_map.mp htext
  have hopened := hkind t ht
  rw [hformat] at hopened
  obtain ⟨d, hd, hfields⟩ := hopened
  have hquote := h t ht d (by simp only [Token.delimiter?, hformat, hd, Option.mem_def]) hfields
  rw [← Bool.not_eq_true, isPlainLiteral_iff hd hquote]
  simp [hfields]

/-- The nodes open with a docstring exactly if the tokens open with a plain row of literals without
a comment directly inside parentheses around it. -/
structure Recognised (nodes : List Node) (tokens : List Token) : Prop where
  /-- Nothing but a row of literals is a docstring. -/
  only : (docstring? nodes).isSome = true → ∃ w : Writing, w.Opens tokens
  exactly : ∀ w : Writing, w.Opens tokens → NoBackquotes w.literals →
    ((docstring? nodes).isSome = true ↔ w.Plain ∧ w.Uncommented)

theorem Judges.recognised {nodes : List Node} {tokens : List Token} (h : Judges nodes tokens)
    (hkind : ∀ t ∈ tokens, t.kind.Delimited) (hfields : NoFieldsInBackquotes tokens) :
    Recognised nodes tokens where
  only hdoc := by
    obtain ⟨e, rest, ⟨ts, comma, rfl, hts, hcomma⟩, hends, -⟩ :=
      h.sound hdoc (hfields.fieldsShow hkind)
    obtain ⟨w, rfl, hline, -⟩ := hts.exists_writing
    exact ⟨w, comma, rest, rfl, hline rfl, hcomma, hends⟩
  exactly w hw hquotes := by
    obtain ⟨comma, rest, rfl, hline, hcomma, hends⟩ := hw
    obtain ⟨e, he, hdoc⟩ := w.exists_writes true fun _ => hline
    have hliterals : ∀ t ∈ w.literals, t.kind.Delimited :=
      fun t ht => hkind t (by simp [Writing.tokens, ht])
    rw [h.complete e rest ⟨w.tokens, comma, rfl, he, hcomma⟩ hends, hdoc,
      Writing.looksPlain_iff hliterals hquotes]

/-- The body has been read from the tokens, which stand behind a colon. -/
def ReadFrom (nodes : List Node) (tokens : List Token) : Prop :=
  ∃ n c c', Reads (body n) c nodes c' ∧ c.tokens.tail = tokens

theorem exists_readFrom {tokens : List Token} {nodes : List Node}
    (h : moduleOfTokens tokens = .ok nodes) {o : Occurrence} (ho : ModuleHolds nodes o) :
    ∃ front colon behind, tokens = front ++ colon :: behind ∧ colon.kind = .op ":" ∧
      ReadFrom o.definition.body behind := by
  obtain ⟨n, c, hblock⟩ := reads_of_moduleOfTokens h
  obtain ⟨-, htraced⟩ := (bodiesTraced n).block _ _ nodes c (.refl _) traced_nil hblock
  obtain ⟨hi, ho⟩ := ho
  obtain ⟨m, d, d', hreach, hbody⟩ := htraced _ (List.mem_of_getElem? hi) _ ho
  have hcolon : d.next.kind = .op ":" := by
    cases m with
    | zero => exact absurd hbody not_reads_fail
    | succ m =>
      rw [body] at hbody
      exact Token.isOp_iff.mp (reads_expectOp_bind hbody).1
  -- The gap in front of the colon may have been taken, so it is found by its kind, and what stands
  -- behind it by its length.
  obtain ⟨before, hbefore⟩ := hreach.kinds
  rw [Cursor.tokens_of_next (c := d) (by simp [hcolon]), List.map_cons, hcolon] at hbefore
  obtain ⟨front, l, hl, rfl, hback⟩ := List.map_eq_append_iff.mp hbefore.symm
  obtain ⟨colon, behind, rfl, hkind, hbehind⟩ := List.map_eq_cons_iff.mp hback
  have hlength : d.tokens.tail.length = behind.length := by
    simpa using congrArg List.length hbehind.symm
  have hsuffix : d.tokens.tail <:+ tokens := hreach.tail.trans (List.tail_suffix _)
  have hsuffix' : behind <:+ tokens := ⟨front ++ [colon], by simpa using hl.symm⟩
  have hsame : d.tokens.tail = behind :=
    (List.suffix_of_suffix_length_le hsuffix hsuffix' hlength.le).eq_of_length hlength
  exact ⟨front, colon, behind, hl, hkind, m, d, d', hbody, hsame⟩

theorem ReadFrom.judges {nodes : List Node} {tokens : List Token} (h : ReadFrom nodes tokens)
    (hne : nodes ≠ []) : Judges nodes tokens := by
  obtain ⟨n, c, c', hread, rfl⟩ := h
  exact body_judges hread hne

theorem Writing.mem_literals {w : Writing} {t : Token} (ht : t ∈ w.tokens) (h : t.IsString) :
    t ∈ w.literals := by
  obtain ⟨text, htext⟩ := h
  simp only [tokens, List.mem_append] at ht
  obtain (ht | ht) | ht := ht
  · simp [w.isOpening t ht] at htext
  · exact ht
  · simp [w.isClosing t ht] at htext

theorem Writing.Plain.of_kinds {w w' : Writing} (hplain : w.Plain)
    (h : w.tokens.map Token.kind = w'.tokens.map Token.kind) : w'.Plain := by
  intro t' ht'
  have hmem : t'.kind ∈ w'.tokens.map Token.kind :=
    List.mem_map_of_mem (by simp [tokens, ht'])
  rw [← h] at hmem
  obtain ⟨t, ht, hkind⟩ := List.mem_map.mp hmem
  obtain ⟨text, htext⟩ := w'.isString t' ht'
  obtain ⟨d, hd, hflags⟩ := hplain t (mem_literals ht ⟨text, hkind.trans htext⟩)
  exact ⟨d, by rw [← hd, Token.delimiter?, Token.delimiter?, hkind], hflags⟩

/-- Comments and line breaks do not matter for what the literals are. -/
theorem Writing.plain_congr {w w' : Writing}
    (h : w.tokens.map Token.kind = w'.tokens.map Token.kind) : w.Plain ↔ w'.Plain :=
  ⟨fun hplain => hplain.of_kinds h, fun hplain => hplain.of_kinds h.symm⟩

theorem Writing.no_comma (w : Writing) : ∀ t ∈ w.tokens, t.kind ≠ .op "," := by
  intro t ht hcomma
  simp only [tokens, List.mem_append] at ht
  obtain (ht | ht) | ht := ht
  · simp [w.isOpening t ht] at hcomma
  · obtain ⟨text, htext⟩ := w.isString t ht
    simp [htext] at hcomma
  · simp [w.isClosing t ht] at hcomma

/-- Whether a module or the body of a definition opens with a docstring is told by the tokens of
its first statement, whatever else the source holds. -/
theorem docstrings_recognised (content : String) {nodes : List Node}
    (hread : moduleOfTokens (scan content.toList) = .ok nodes)
    (hfields : NoFieldsInBackquotes (scan content.toList)) :
    Recognised nodes (scan content.toList) ∧
      (∀ o, ModuleHolds nodes o → ∃ front colon behind,
        scan content.toList = front ++ colon :: behind ∧ colon.kind = .op ":" ∧
          ReadFrom o.definition.body behind ∧
            (o.definition.body ≠ [] → Recognised o.definition.body behind)) ∧
      (∀ w w' : Writing, w.tokens.map Token.kind = w'.tokens.map Token.kind →
        (w.Plain ↔ w'.Plain)) ∧
      ∀ w : Writing, ∀ t ∈ w.tokens, t.kind ≠ .op "," := by
  refine ⟨(moduleOfTokens_judges hread).recognised (fun t => delimited_of_mem_scan) hfields,
    fun o ho => ?_, fun w w' => Writing.plain_congr, Writing.no_comma⟩
  obtain ⟨front, colon, behind, htokens, hcolon, hbody⟩ := exists_readFrom hread ho
  have hmem : ∀ t ∈ behind, t ∈ scan content.toList := by
    intro t ht
    simp [htokens, ht]
  exact ⟨front, colon, behind, htokens, hcolon, hbody, fun hne => (hbody.judges hne).recognised
    (fun t ht => delimited_of_mem_scan (hmem t ht)) fun t ht => hfields t (hmem t ht)⟩

/-- A module that opens with a row of literals over two lines, and a function whose literal has a
comment directly inside its parentheses. -/
def rowSource : String := "(\"a\" # b\n \"c\")\ndef f():\n (\"d\" # e\n )\n"

def rowTree : List Node :=
  [.expression ⟨1, 2⟩ [.parenthesized []
      (.adjacent [.literal "\"a\"", .comment ⟨1, 1, false⟩, .literal "\"c\""]) []],
    .definition .function "f" ⟨3, 5⟩
      [.expression ⟨4, 5⟩ [.parenthesized [] (.literal "\"d\"") [⟨4, 1, false⟩]]]]

set_option maxRecDepth 100000 in
theorem rowSource_tree : moduleOfTokens (scan rowSource.toList) = .ok rowTree := by
  cbv

theorem docstrings_recognised_rowSource :
    moduleOfTokens (scan rowSource.toList) = .ok rowTree ∧
      NoFieldsInBackquotes (scan rowSource.toList) ∧ Recognised rowTree (scan rowSource.toList) ∧
      ∀ o, ModuleHolds rowTree o → ∃ front colon behind,
        scan rowSource.toList = front ++ colon :: behind ∧ colon.kind = .op ":" ∧
          ReadFrom o.definition.body behind ∧
            (o.definition.body ≠ [] → Recognised o.definition.body behind) := by
  have hfields : NoFieldsInBackquotes (scan rowSource.toList) := by decide +kernel
  obtain ⟨hmodule, hbodies, -⟩ := docstrings_recognised rowSource rowSource_tree hfields
  exact ⟨rowSource_tree, hfields, hmodule, hbodies⟩

/-- A comma behind a literal passes. -/
example : extractUnits ⟨"m.py"⟩ "\"d\"," = .ok [⟨"m", .module, ⟨1, 1⟩, ⟨1, 1⟩⟩] := by
  cbv

/-- A comment inside parentheses does not. -/
example : extractUnits ⟨"m.py"⟩ "(\"d\" #\n)" = .ok [] := by
  cbv

end DocDrift.Source
