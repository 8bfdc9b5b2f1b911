import DocDrift.Source.Grammar
import DocDrift.Proofs.Source.Writings

/-!
# The first statement of a body

Whether a body opens with a docstring is told by the tokens that it begins with. The first tokens of
a statement choose what is read, and of all readings only that of an expression statement, which
goes on until the statement ends, leaves an expression that documents. So the judgement on the first
line is that on the statement, on the block and on the body, whatever they go on with.
-/

namespace DocDrift.Source

open Parse

/-- A statement without a body is over in front of these tokens. -/
def Ends (tokens : List Token) : Prop :=
  ∀ t ∈ tokens.head?, t.lineBreak = true ∨ t.kind = .op ";"

/-- The tokens in front of `rest` are a statement that writes a row of literals. A comma may follow
the row: alone it is not seen. -/
def WritesStatement (tokens rest : List Token) (e : Expression) : Prop :=
  ∃ (ts : List Token) (comma : Option Token), tokens = ts ++ (comma.toList ++ rest) ∧
    Writes true ts e ∧ ∀ t ∈ comma, t.kind = .op "," ∧ t.lineBreak = false

namespace WritesStatement

variable {tokens rest : List Token} {e : Expression}

theorem exists_cons (h : WritesStatement tokens rest e) :
    ∃ first more, tokens = first :: more ∧ first.beginsWriting = true := by
  obtain ⟨ts, comma, rfl, hts, -⟩ := h
  obtain ⟨first, more, rfl, hbegins⟩ := hts.exists_cons
  exact ⟨first, _, rfl, hbegins⟩

theorem withFirst {first first' : Token} {more : List Token}
    (h : WritesStatement (first :: more) rest e) (hkind : first'.kind = first.kind) :
    WritesStatement (first' :: more) rest e := by
  obtain ⟨ts, comma, htokens, hts, hcomma⟩ := h
  obtain ⟨t, ts, rfl, -⟩ := hts.exists_cons
  obtain ⟨rfl, rfl⟩ := List.cons.inj htokens
  exact ⟨first' :: ts, comma, rfl, hts.withFirst hkind, hcomma⟩

end WritesStatement

/-- Reading a statement finds the tokens that write a row of literals, and nothing else that
documents. -/
structure RecognisesStatement (read : Parse (List Expression)) : Prop where
  sound : ∀ c e c', Reads read c [e] c' → FieldsShow c.tokens → e.isDocumentation = true →
    WritesStatement c.tokens c'.tokens e
  complete : ∀ c items c' rest e, Reads read c items c' → WritesStatement c.tokens rest e →
    Ends rest → items = [e] ∧ c'.tokens = rest

theorem ne_nil_of_reads_pieces {n : Nat} {c c' : Cursor} {items : List Piece}
    (h : Reads (pieces n) c items c') : items ≠ [] := by
  cases n with
  | zero => exact absurd h not_reads_fail
  | succ n =>
    rw [pieces] at h
    simp only [reads_bind, reads_ite, reads_pure] at h
    grind

theorem reads_operandFollows_bind {α : Type} {p : Place} {f : Bool → Parse α} {c c' : Cursor}
    {a : α} (h : Reads (operandFollows p >>= f) c a c') :
    Reads (f ((c.ahead p).any Token.beginsOperand)) c a c' := by
  unfold operandFollows at h
  rw [bind_assoc] at h
  have h := reads_following_bind h
  split at h <;> simp_all

theorem pieces_sound {n : Nat} {c c' : Cursor} {d : Piece} (h : Reads (pieces n) c [d] c')
    (hfields : FieldsShow c.tokens) (hd : d.expression.isDocumentation = true) :
    WritesStatement c.tokens c'.tokens d.expression := by
  cases n with
  | zero => exact absurd h not_reads_fail
  | succ n =>
    rw [pieces] at h
    obtain ⟨e, c₁, he, h⟩ := reads_bind.mp h
    obtain ⟨hcomma, h⟩ | ⟨-, h⟩ := reads_skipOp_bind h
    · have h := reads_operandFollows_bind h
      -- Behind a comma there are more pieces, or none, and then the comma leaves no trace.
      obtain ⟨-, h⟩ | ⟨-, h⟩ := reads_ite.mp h
      · obtain ⟨more, c₂, hmore, h⟩ := reads_bind.mp h
        have hnil := (List.cons.inj (reads_pure.mp h).1).2
        exact absurd hnil.symm (ne_nil_of_reads_pieces hmore)
      · obtain ⟨hlist, rfl⟩ := reads_pure.mp h
        obtain rfl := (List.cons.inj hlist).1
        obtain ⟨ts, htokens, hts⟩ := (expression_recognises _ n).sound c d c₁ he hfields hd
        have hkind := Token.isOp_iff.mp (Cursor.next_of_any_ahead hcomma)
        refine ⟨ts, some c₁.next, ?_, hts, ?_⟩
        · rw [htokens, Cursor.tokens_of_next (c := c₁) (by simp [hkind]), c₁.tokens_behind]
          rfl
        · simpa [hkind] using Cursor.lineBreak_of_any_ahead rfl hcomma
    · obtain ⟨hlist, rfl⟩ := reads_pure.mp h
      obtain rfl := (List.cons.inj hlist).1
      obtain ⟨ts, htokens, hts⟩ := (expression_recognises _ n).sound c d _ he hfields hd
      exact ⟨ts, none, htokens, hts, by simp⟩

theorem ends_of_next {c : Cursor} (h : c.next.lineBreak = true ∨ c.next.kind = .op ";") :
    Ends c.tokens := by
  intro t ht
  obtain ⟨rest, hc⟩ := List.head?_eq_some_iff.mp ht
  rwa [Cursor.next_of_cons hc] at h

theorem Ends.not_any_ahead {p : Place} {c : Cursor} {q : Token → Bool} (h : Ends c.tokens)
    (hp : p.lineEnds = true) (hq : ∀ t, t.kind = .op ";" → q t = false) :
    (c.ahead p).any q = false := by
  obtain hbreak | hkind : c.next.lineBreak = true ∨ c.next.kind = .op ";" := by
    unfold Cursor.next
    cases hc : c.tokens with
    | nil => exact .inl rfl
    | cons t rest => exact h t (by simp [hc])
  · simp [Cursor.ahead, hp, hbreak]
  · unfold Cursor.ahead
    split
    · rfl
    · exact hq _ hkind

theorem pieces_complete {n : Nat} {c c' : Cursor} {items : List Piece} {rest : List Token}
    {e : Expression} (h : Reads (pieces n) c items c') (he : WritesStatement c.tokens rest e)
    (hends : Ends rest) : items.map Piece.expression = [e] ∧ c'.tokens = rest := by
  obtain ⟨ts, comma, htokens, hts, hcomma⟩ := he
  cases n with
  | zero => exact absurd h not_reads_fail
  | succ n =>
    rw [pieces] at h
    obtain ⟨d, c₁, hd, h⟩ := reads_bind.mp h
    have hstop : Stops statementPlace (comma.toList ++ rest) := by
      cases comma with
      | none => exact fun t ht => (hends t ht).imp (fun h => ⟨rfl, h⟩) fun h => .inr (.inr h)
      | some t => simp [Stops, hcomma t rfl]
    obtain ⟨rfl, -, hc₁⟩ :=
      (expression_recognises _ n).complete c d c₁ hd ts e _ hts htokens hstop
    cases comma with
    | none =>
      have hc₁ : c₁.tokens = rest := hc₁
      obtain ⟨hop, -⟩ | ⟨-, h⟩ := reads_skipOp_bind h
      · rw [← hc₁] at hends
        rw [hends.not_any_ahead rfl fun t ht => by simp [Token.isOp, ht]] at hop
        cases hop
      · obtain ⟨rfl, rfl⟩ := reads_pure.mp h
        exact ⟨rfl, hc₁⟩
    | some t =>
      obtain ⟨hkind, hbreak⟩ := hcomma t rfl
      obtain ⟨-, h⟩ | ⟨hop, -⟩ := reads_skipOp_bind h
      · have h := reads_operandFollows_bind h
        have hbehind : c₁.behind.tokens = rest := by rw [c₁.tokens_behind, hc₁]; rfl
        have hno : (c₁.behind.ahead statementPlace).any Token.beginsOperand = false :=
          Ends.not_any_ahead (hbehind ▸ hends) rfl fun t ht => by simp [Token.beginsOperand, ht]
        rw [hno] at h
        obtain ⟨rfl, rfl⟩ := reads_pure.mp h
        exact ⟨rfl, hbehind⟩
      · have hnext : c₁.next = t := Cursor.next_of_cons hc₁
        simp [Cursor.ahead, hnext, hbreak, Token.isOp_iff.mpr hkind] at hop

/-- The answer lists the pieces unless a sign of an assignment follows them. -/
theorem reads_expressionStatement {n : Nat} {c c' : Cursor} {items : List Expression}
    (h : Reads (expressionStatement (n + 1)) c items c') :
    (∃ ps, Reads (pieces n) c ps c' ∧ items = ps.map Piece.expression) ∨
      items = [.other] ∧ (c.next.beginsWriting = false ∨
        ∃ ps c₁, Reads (pieces n) c ps c₁ ∧ ¬Ends c₁.tokens) := by
  rw [expressionStatement, reads_peek_bind] at h
  obtain ⟨hyield, h⟩ | ⟨-, h⟩ := reads_ite.mp h
  · obtain ⟨_, _, -, h⟩ := reads_bind.mp h
    have hbegins := Token.beginsWriting_of_word (Token.isWord_iff.mp hyield)
    exact .inr ⟨(reads_pure.mp h).1, .inl hbegins⟩
  obtain ⟨ps, c₁, hps, h⟩ := reads_bind.mp h
  have h := reads_following_bind h
  split at h
  case h_1 o hkind =>
    have hno (ho : o ≠ ";") : ¬Ends c₁.tokens := by
      intro hends
      obtain ⟨t, ht, hop⟩ := Option.map_eq_some_iff.mp hkind
      have hany : (c₁.ahead statementPlace).any (·.isOp o) = false :=
        hends.not_any_ahead rfl fun t ht => by simpa [Token.isOp, ht] using ho.symm
      simp [ht, Token.isOp_iff.mpr hop] at hany
    obtain ⟨hassigns, h⟩ | ⟨-, h⟩ := reads_ite.mp h
    · refine .inr ⟨?_, .inr ⟨ps, c₁, hps, hno ?_⟩⟩
      · obtain ⟨-, h⟩ | ⟨-, h⟩ := reads_ite.mp h
        · exact absurd h not_reads_fail_bind
        · obtain ⟨_, _, -, h⟩ := reads_bind.mp (reads_take_bind (reads_advance_bind.mp h))
          exact (reads_pure.mp h).1
      · rintro rfl
        simp [augmentedOps] at hassigns
    · obtain ⟨hcolon, h⟩ | ⟨-, h⟩ := reads_ite.mp h
      · refine .inr ⟨?_, .inr ⟨ps, c₁, hps, hno ?_⟩⟩
        · simp only [reads_bind, reads_ite, reads_pure, not_reads_fail] at h
          grind
        · rintro rfl
          simp at hcolon
      · obtain ⟨rfl, rfl⟩ := reads_pure.mp h
        exact .inl ⟨ps, hps, rfl⟩
  case h_2 =>
    obtain ⟨rfl, rfl⟩ := reads_pure.mp h
    exact .inl ⟨ps, hps, rfl⟩

theorem recognises_expressionStatement (n : Nat) : RecognisesStatement (expressionStatement n) where
  sound c e c' h hfields he := by
    cases n with
    | zero => exact absurd h not_reads_fail
    | succ n =>
      obtain ⟨ps, hps, heq⟩ | ⟨heq, -⟩ := reads_expressionStatement h
      · obtain ⟨d, rfl, rfl⟩ := List.map_eq_singleton_iff.mp heq.symm
        exact pieces_sound hps hfields he
      · cases heq
        cases he
  complete c items c' rest e h he hends := by
    cases n with
    | zero => exact absurd h not_reads_fail
    | succ n =>
      obtain ⟨ps, hps, rfl⟩ | ⟨-, hbegins | ⟨ps, c₁, hps, hno⟩⟩ := reads_expressionStatement h
      · exact pieces_complete hps he hends
      · obtain ⟨first, more, htokens, hfirst⟩ := he.exists_cons
        rw [Cursor.next_of_cons htokens, hfirst] at hbegins
        cases hbegins
      · exact absurd ((pieces_complete hps he hends).2 ▸ hends) hno

theorem reads_keywordStatement {rest : Parse Unit} {c c' : Cursor} {what : Option (List Expression)}
    (h : Reads (keywordStatement rest) c what c') : what = none := by
  obtain ⟨_, _, -, h⟩ := reads_bind.mp (reads_advance_bind.mp h)
  exact (reads_pure.mp h).1

theorem reads_softStatement {n : Nat} {word : String} {c c' : Cursor}
    {what : Option (List Expression)}
    (h : Reads (do
      softStatement n word
      return none) c what c') : what = none := by
  obtain ⟨_, _, -, h⟩ := reads_bind.mp h
  exact (reads_pure.mp h).1

theorem reads_statementOver_bind {α : Type} {f : Bool → Parse α} {c c' : Cursor} {a : α}
    (h : Reads (statementOver >>= f) c a c') :
    Reads (f (c.next.lineBreak || c.next.isOp ";")) c a c' := by
  unfold statementOver at h
  rw [bind_assoc, reads_peek_bind] at h
  exact h

/-- Only an expression statement lists expressions. -/
theorem reads_smallStatement {n : Nat} {c c' : Cursor} {items : List Expression}
    (h : Reads (smallStatement n) c (some items) c') :
    Reads (expressionStatement n) c items c' := by
  unfold smallStatement at h
  rw [reads_peek_bind] at h
  split at h
  -- These words may be names too, with which an expression statement begins.
  case h_12 =>
    obtain ⟨_, _, hsecond, h⟩ := reads_bind.mp h
    rw [reads_peekSecond hsecond] at h
    obtain ⟨_, _, hsecond, h⟩ := reads_bind.mp h
    rw [reads_peekSecond hsecond] at h
    obtain ⟨-, h⟩ | ⟨-, h⟩ := reads_ite.mp h
    · cases reads_softStatement h
    obtain h | h := reads_of_orElse h
    · obtain ⟨_, c₁, hitems, h⟩ := reads_bind.mp h
      have h := reads_statementOver_bind h
      obtain ⟨-, h⟩ | ⟨-, h⟩ := reads_ite.mp h
      · exact absurd h not_reads_fail_bind
      · obtain ⟨hsome, rfl⟩ := reads_pure.mp h
        cases hsome
        exact hitems
    · cases reads_softStatement h
  case h_13 | h_14 =>
    obtain h | h := reads_of_orElse h
    · cases reads_softStatement h
    · obtain ⟨_, _, hitems, h⟩ := reads_bind.mp h
      obtain ⟨hsome, rfl⟩ := reads_pure.mp h
      cases hsome
      exact hitems
  case h_15 =>
    obtain ⟨_, _, hitems, h⟩ := reads_bind.mp h
    obtain ⟨hsome, rfl⟩ := reads_pure.mp h
    cases hsome
    exact hitems
  all_goals cases reads_keywordStatement h

theorem reads_smallStatement_of_beginsWriting {n : Nat} {c c' : Cursor}
    {what : Option (List Expression)} (h : Reads (smallStatement n) c what c')
    (hbegins : c.next.beginsWriting = true) :
    ∃ items, what = some items ∧ Reads (expressionStatement n) c items c' := by
  unfold smallStatement at h
  rw [reads_peek_bind] at h
  split at h
  case h_15 =>
    obtain ⟨items, c₁, hitems, h⟩ := reads_bind.mp h
    obtain ⟨rfl, rfl⟩ := reads_pure.mp h
    exact ⟨items, rfl, hitems⟩
  all_goals
    next hkind =>
    rw [Token.beginsWriting_of_word hkind] at hbegins
    cases hbegins

def lineNode (span : LineRange) : Option (List Expression) → Node
  | some items => .expression span items
  | none => .simple span

theorem reads_statementLine {n : Nat} {c c' : Cursor} {nodes : List Node}
    (h : Reads (statementLine (n + 1)) c nodes c') :
    ∃ what c₁ span more, Reads (smallStatement n) c.taken what c₁ ∧ Ends c₁.tokens ∧
      nodes = lineNode span what :: more ∧
        (more = [] ∨ ∃ c₂, Reads (statementLine n) c₂ more c') := by
  rw [statementLine] at h
  have h := reads_take_bind h
  obtain ⟨what, c₁, hwhat, h⟩ := reads_bind.mp h
  rw [reads_get_bind] at h
  refine ⟨what, c₁, ⟨c.taken.next.line, c₁.lastLine⟩, ?_⟩
  obtain ⟨hsemicolon, h⟩ | ⟨-, h⟩ := reads_skipOp_bind h
  · have hends := ends_of_next (.inr (Token.isOp_iff.mp (Cursor.next_of_any_ahead hsemicolon)))
    obtain ⟨-, h⟩ | ⟨-, h⟩ := reads_ite.mp (reads_peek_bind.mp h)
    · exact ⟨[], hwhat, hends, (reads_pure.mp h).1, .inl rfl⟩
    · obtain ⟨more, _, hmore, h⟩ := reads_bind.mp h
      obtain ⟨rfl, rfl⟩ := reads_pure.mp h
      exact ⟨more, hwhat, hends, rfl, .inr ⟨_, hmore⟩⟩
  · obtain ⟨hbreak, h⟩ | ⟨-, h⟩ := reads_ite.mp (reads_peek_bind.mp h)
    · exact ⟨[], hwhat, ends_of_next (.inl hbreak), (reads_pure.mp h).1, .inl rfl⟩
    · exact absurd h not_reads_fail

/-! ### Bodies -/

/-- Whether the nodes open with a docstring is told by the tokens: they do if the tokens open with a
statement that writes a row of literals which documents, and only then. -/
structure Judges (nodes : List Node) (tokens : List Token) : Prop where
  sound : (docstring? nodes).isSome = true → FieldsShow tokens →
    ∃ e rest, WritesStatement tokens rest e ∧ Ends rest ∧ e.isDocumentation = true
  complete : ∀ e rest, WritesStatement tokens rest e → Ends rest →
    (docstring? nodes).isSome = e.isDocumentation

/-- The gap in front of the first token does not matter. -/
theorem Judges.withFirst {nodes : List Node} {first first' : Token} {more : List Token}
    (h : Judges nodes (first :: more)) (hkind : first'.kind = first.kind) :
    Judges nodes (first' :: more) where
  sound hdoc hfields := by
    obtain ⟨e, rest, he, hends, hplain⟩ := h.sound hdoc (by
      simpa only [FieldsShow, List.map_cons, hkind] using hfields)
    exact ⟨e, rest, he.withFirst hkind, hends, hplain⟩
  complete e rest he hends := h.complete e rest (he.withFirst hkind.symm) hends

/-- Nodes that tokens begin which write no literal. -/
theorem judges_of_none {nodes : List Node} {tokens : List Token} (h : docstring? nodes = none)
    (hbegins : ∀ t ∈ tokens.head?, t.beginsWriting = false) : Judges nodes tokens where
  sound hdoc := by simp [h] at hdoc
  complete e rest he := by
    obtain ⟨first, more, rfl, hfirst⟩ := he.exists_cons
    exact absurd (hfirst.symm.trans (hbegins first rfl)) (by simp)

theorem judges_taken {nodes : List Node} {c : Cursor} :
    Judges nodes c.taken.tokens ↔ Judges nodes c.tokens := by
  cases h : c.tokens with
  | nil => rw [show c.taken = c by simp only [Cursor.taken, h], h]
  | cons t rest =>
    rw [Cursor.tokens_taken_of_cons h]
    exact ⟨fun h => h.withFirst rfl, fun h => h.withFirst rfl⟩

theorem docstring?_lineNode {span : LineRange} {what : Option (List Expression)}
    {more : List Node} :
    (docstring? (lineNode span what :: more)).isSome = true ↔
      ∃ e, what = some [e] ∧ e.isDocumentation = true := by
  unfold docstring? lineNode
  obtain _ | _ | ⟨e, _ | ⟨e', items⟩⟩ := what <;> simp [Node.isComment]

theorem statementLine_judges {n : Nat} {c c' : Cursor} {nodes : List Node}
    (h : Reads (statementLine n) c nodes c') (behind : List Node) :
    Judges (nodes ++ behind) c.tokens := by
  cases n with
  | zero => exact absurd h not_reads_fail
  | succ n =>
    obtain ⟨what, c₁, span, more, hwhat, hends, rfl, -⟩ := reads_statementLine h
    rw [List.cons_append, ← judges_taken]
    have hstatement := recognises_expressionStatement n
    constructor
    · intro hdoc hfields
      obtain ⟨e, rfl, he⟩ := docstring?_lineNode.mp hdoc
      have hitems := reads_smallStatement hwhat
      exact ⟨e, c₁.tokens, hstatement.sound _ _ _ hitems hfields he, hends, he⟩
    · intro e rest he hrest
      obtain ⟨first, ts, htokens, hbegins⟩ := he.exists_cons
      obtain ⟨items, rfl, hitems⟩ := reads_smallStatement_of_beginsWriting hwhat
        (by rwa [Cursor.next_of_cons htokens])
      obtain ⟨rfl, -⟩ := hstatement.complete _ _ _ rest e hitems he hrest
      rw [Bool.eq_iff_iff, docstring?_lineNode]
      simp

/-- A statement with a body, of which no docstring can be made. -/
def Node.HasBody : Node → Prop
  | .definition .. | .decorated .. | .compound .. => True
  | _ => False

theorem docstring?_of_hasBody {node : Node} (h : node.HasBody) (more : List Node) :
    docstring? (node :: more) = none := by
  unfold docstring?
  cases node <;> simp_all [Node.HasBody, Node.isComment]

theorem hasBody_of_reads_definition {n : Nat} {c c' : Cursor} {node : Node}
    (h : Reads (definition n) c node c') : node.HasBody := by
  cases n with
  | zero => exact absurd h not_reads_fail
  | succ n =>
    rw [definition] at h
    simp only [reads_bind, reads_ite, reads_pure] at h
    grind [Node.HasBody]

theorem reads_asyncOpens {word : String} {c c' : Cursor} {q : Bool}
    (h : Reads (asyncOpens word) c q c') : c' = c := by
  unfold asyncOpens at h
  obtain ⟨_, _, hsecond, h⟩ := reads_bind.mp h
  rw [reads_peekSecond hsecond, reads_peek_bind] at h
  exact (reads_pure.mp h).2

/-- Which statement is read is told by its first token. -/
theorem reads_statement {n : Nat} {c c' : Cursor} {nodes : List Node}
    (h : Reads (statement (n + 1)) c nodes c') :
    Reads (statementLine n) c nodes c' ∨
      c.next.beginsWriting = false ∧ ∃ node, nodes = [node] ∧ node.HasBody := by
  have hcompound {read : Parse (List Node)} {first : Nat} {c₁ c₂ : Cursor}
      (h : Reads (do
        let bodies ← read
        return [Node.compound ⟨first, (← get).lastLine⟩ bodies]) c₁ nodes c₂) :
      ∃ node, nodes = [node] ∧ node.HasBody := by
    obtain ⟨_, _, -, h⟩ := reads_bind.mp h
    have h := reads_get_bind.mp h
    exact ⟨_, (reads_pure.mp h).1, trivial⟩
  have hdefinition {c₁ c₂ : Cursor} (h : Reads (do return [← definition n]) c₁ nodes c₂) :
      ∃ node, nodes = [node] ∧ node.HasBody := by
    obtain ⟨node, _, hnode, h⟩ := reads_bind.mp h
    exact ⟨node, (reads_pure.mp h).1, hasBody_of_reads_definition hnode⟩
  rw [statement, reads_peek_bind] at h
  split at h
  case h_11 => exact .inl h
  case h_1 | h_2 | h_3 | h_4 | h_5 =>
    next hkind => exact .inr ⟨Token.beginsWriting_of_word hkind, hcompound h⟩
  case h_6 | h_7 =>
    next hkind => exact .inr ⟨Token.beginsWriting_of_word hkind, hdefinition h⟩
  case h_8 hkind =>
    obtain ⟨_, _, -, h⟩ := reads_bind.mp h
    have h := reads_take_bind (reads_stay_bind h)
    obtain ⟨_, _, -, h⟩ := reads_bind.mp h
    have h := reads_get_bind.mp h
    exact .inr ⟨by simp [Token.beginsWriting, hkind], _, (reads_pure.mp h).1, trivial⟩
  case h_9 hkind =>
    obtain ⟨_, _, hopens, h⟩ := reads_bind.mp h
    rw [reads_asyncOpens hopens] at h
    obtain ⟨-, h⟩ | ⟨-, h⟩ := reads_ite.mp h
    · exact .inr ⟨Token.beginsWriting_of_word hkind, hdefinition h⟩
    obtain ⟨_, _, hopens, h⟩ := reads_bind.mp h
    rw [reads_asyncOpens hopens] at h
    obtain ⟨-, h⟩ | ⟨-, h⟩ := reads_ite.mp h
    · exact .inr ⟨Token.beginsWriting_of_word hkind, hcompound h⟩
    obtain ⟨_, _, hopens, h⟩ := reads_bind.mp h
    rw [reads_asyncOpens hopens] at h
    obtain ⟨-, h⟩ | ⟨-, h⟩ := reads_ite.mp h
    · exact .inr ⟨Token.beginsWriting_of_word hkind, hcompound h⟩
    · exact .inl h
  case h_10 hkind =>
    obtain ⟨head, c₁, hhead, h⟩ := reads_bind.mp h
    cases head with
    | some cursor =>
      have h := reads_set_bind.mp h
      exact .inr ⟨Token.beginsWriting_of_word hkind, hcompound h⟩
    | none =>
      obtain hhead | hhead := reads_of_orElse hhead
      · rw [map_eq_pure_bind] at hhead
        obtain ⟨_, _, -, hhead⟩ := reads_bind.mp hhead
        cases (reads_pure.mp hhead).1
      · rw [(reads_pure.mp hhead).2] at h
        exact .inl h

theorem statement_judges {n : Nat} {c c' : Cursor} {nodes : List Node}
    (h : Reads (statement n) c nodes c') (behind : List Node) :
    Judges (nodes ++ behind) c.tokens := by
  cases n with
  | zero => exact absurd h not_reads_fail
  | succ n =>
    obtain h | ⟨hbegins, node, rfl, hbody⟩ := reads_statement h
    · exact statementLine_judges h behind
    · refine judges_of_none (docstring?_of_hasBody hbody behind) fun t ht => ?_
      obtain ⟨rest, hc⟩ := List.head?_eq_some_iff.mp ht
      rwa [Cursor.next_of_cons hc] at hbegins

theorem reads_dedented_bind {α : Type} {f : Bool → Parse α} {c c' : Cursor} {a : α}
    (h : Reads (dedented >>= f) c a c') :
    Reads (f (c.next.lineBreak && c.next.indent < c.indent)) c a c' := by
  unfold dedented at h
  rw [bind_assoc, reads_peek_bind, bind_assoc, reads_peek_bind, bind_assoc, reads_get_bind] at h
  exact h

/-- Comments go out of the way of a token without moving it. -/
theorem reads_ownComments {c c' : Cursor} {comments : List Node}
    (h : Reads ownComments c comments c') :
    (∀ n ∈ comments, n.isComment = true) ∧ (c' = c ∨ ∃ t rest left, c.tokens = t :: rest ∧
      c' = { c with tokens := { t with comments := left } :: rest }) := by
  unfold ownComments at h
  have h := reads_get_bind.mp (reads_dedented_bind h)
  split at h
  · obtain ⟨rfl, rfl⟩ := reads_pure.mp h
    exact ⟨by simp, .inl rfl⟩
  · next t rest htokens =>
    have h := reads_set_bind.mp h
    obtain ⟨rfl, rfl⟩ := reads_pure.mp h
    refine ⟨?_, .inr ⟨t, rest, _, htokens, rfl⟩⟩
    simp [Comment.node, Node.isComment]

theorem docstring?_append_comments {comments : List Node} (h : ∀ n ∈ comments, n.isComment = true)
    (nodes : List Node) : docstring? (comments ++ nodes) = docstring? nodes := by
  have hfind : comments.find? (fun n => !n.isComment) = none :=
    List.find?_eq_none.mpr fun n hn => by simp [h n hn]
  simp [docstring?, List.find?_append, hfind]

theorem judges_append_comments {comments nodes : List Node} {tokens : List Token}
    (h : ∀ n ∈ comments, n.isComment = true) :
    Judges (comments ++ nodes) tokens ↔ Judges nodes tokens := by
  constructor <;> intro hjudges <;> constructor
  · simpa [docstring?_append_comments h] using hjudges.sound
  · simpa [docstring?_append_comments h] using hjudges.complete
  · simpa [docstring?_append_comments h] using hjudges.sound
  · simpa [docstring?_append_comments h] using hjudges.complete

theorem block_judges {n : Nat} {c c' : Cursor} {nodes : List Node} (h : Reads (block n) c nodes c')
    (hlevel : (c.next.lineBreak && c.next.indent < c.indent) = false) : Judges nodes c.tokens := by
  cases n with
  | zero => exact absurd h not_reads_fail
  | succ n =>
    rw [block] at h
    -- Comments in front of the statement are taken out of the gap, which changes no kind.
    obtain ⟨comments, c₁, hcomments, h⟩ := reads_bind.mp h
    have h := reads_dedented_bind (reads_peek_bind.mp h)
    obtain ⟨hcomments, hc₁⟩ := reads_ownComments hcomments
    have hsame : c₁.next.kind = c.next.kind ∧
        (c₁.next.lineBreak && c₁.next.indent < c₁.indent) = false := by
      obtain rfl | ⟨t, rest, left, htokens, rfl⟩ := hc₁
      · exact ⟨rfl, hlevel⟩
      · rw [Cursor.next_of_cons htokens] at hlevel ⊢
        exact ⟨rfl, hlevel⟩
    rw [hsame.2, Bool.or_false] at h
    obtain ⟨heof, h⟩ | ⟨-, h⟩ := reads_ite.mp h
    · have hnodes : nodes = comments := by
        split at h <;> exact (reads_pure.mp h).1
      have hnone := docstring?_append_comments hcomments []
      rw [List.append_nil] at hnone
      subst hnodes
      refine judges_of_none hnone fun t ht => ?_
      obtain ⟨rest, hc⟩ := List.head?_eq_some_iff.mp ht
      rw [hsame.1, Cursor.next_of_cons hc, beq_iff_eq] at heof
      simp [Token.beginsWriting, heof]
    · obtain ⟨statements, c₂, hstatements, h⟩ := reads_bind.mp h
      obtain ⟨more, c₃, -, h⟩ := reads_bind.mp h
      obtain ⟨rfl, rfl⟩ := reads_pure.mp h
      have hjudges := statement_judges hstatements more
      rw [← judges_append_comments hcomments, ← List.append_assoc] at hjudges
      obtain rfl | ⟨t, rest, left, htokens, rfl⟩ := hc₁
      · exact hjudges
      · rw [htokens]
        exact hjudges.withFirst rfl

theorem body_judges {n : Nat} {c c' : Cursor} {nodes : List Node} (h : Reads (body n) c nodes c')
    (hnodes : nodes ≠ []) : Judges nodes c.tokens.tail := by
  cases n with
  | zero => exact absurd h not_reads_fail
  | succ n =>
    rw [body] at h
    obtain ⟨-, h⟩ := reads_expectOp_bind h
    rw [reads_peek_bind] at h
    rw [← c.tokens_behind]
    obtain ⟨-, h⟩ | ⟨hbreak, h⟩ := reads_ite.mp h
    · rw [← List.append_nil nodes]
      exact statementLine_judges h []
    · unfold opensBlock at h
      rw [bind_assoc, reads_peek_bind, bind_assoc, reads_get_bind] at h
      obtain ⟨hdeeper, h⟩ | ⟨-, h⟩ := reads_ite.mp h
      · unfold indented at h
        rw [reads_get_bind, reads_peek_bind, reads_modify_bind] at h
        obtain ⟨_, c₂, hblock, h⟩ := reads_bind.mp h
        have h := reads_modify_bind.mp h
        obtain ⟨rfl, rfl⟩ := reads_pure.mp h
        refine block_judges (c := { c.behind with indent := c.behind.next.indent }) hblock ?_
        change (c.behind.next.lineBreak && c.behind.next.indent < c.behind.next.indent) = false
        simp
      · exact absurd (reads_pure.mp h).1 hnodes

theorem reads_of_moduleOfTokens {tokens : List Token} {nodes : List Node}
    (h : moduleOfTokens tokens = .ok nodes) :
    ∃ n c, Reads (block n) { tokens } nodes c := by
  unfold moduleOfTokens at h
  cases hblock : (block (20 * tokens.length + 100)).run { tokens } with
  | error e => simp [hblock, bind, Except.bind] at h
  | ok r =>
    obtain ⟨nodes', c⟩ := r
    simp only [hblock, bind, Except.bind] at h
    split at h <;> cases h
    exact ⟨_, c, hblock⟩

theorem moduleOfTokens_judges {tokens : List Token} {nodes : List Node}
    (h : moduleOfTokens tokens = .ok nodes) : Judges nodes tokens := by
  obtain ⟨n, c, hblock⟩ := reads_of_moduleOfTokens h
  exact block_judges hblock (by simp)

end DocDrift.Source
