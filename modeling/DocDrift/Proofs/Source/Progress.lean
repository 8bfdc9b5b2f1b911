import DocDrift.Source.Grammar
import DocDrift.Proofs.Source.Reading

/-!
# Reading goes onward

Whatever the grammar reads, the tokens behind the next one are tokens that were to come before:
none is put in, and only the next one is ever changed. All functions of the grammar are put together
from readings of which this is true.
-/

namespace DocDrift.Source

open Parse

variable {α β : Type}

/-- The tokens of `c'` are the last ones of `c`, but for the gap in front of the first of them. -/
structure Cursor.Reaches (c c' : Cursor) : Prop where
  tail : c'.tokens.tail <:+ c.tokens.tail
  kinds : c'.tokens.map Token.kind <:+ c.tokens.map Token.kind

namespace Cursor.Reaches

theorem refl (c : Cursor) : c.Reaches c := ⟨List.suffix_rfl, List.suffix_rfl⟩

theorem trans {c c' c'' : Cursor} (h : c.Reaches c') (h' : c'.Reaches c'') : c.Reaches c'' :=
  ⟨h'.tail.trans h.tail, h'.kinds.trans h.kinds⟩

theorem behind (c : Cursor) : c.Reaches c.behind := by
  constructor
  · rw [c.tokens_behind]
    exact List.tail_suffix _
  · rw [c.tokens_behind, List.map_tail]
    exact List.tail_suffix _

theorem taken (c : Cursor) : c.Reaches c.taken where
  tail := by simp [c.tail_taken]
  kinds := by simp [c.map_kind_taken]

/-- The rest of the cursor does not matter. -/
theorem of_tokens_eq {c c' : Cursor} (h : c'.tokens = c.tokens) : c.Reaches c' where
  tail := by simp [h]
  kinds := by simp [h]

end Cursor.Reaches

/-- The reading leaves a cursor that it reaches. -/
def Onward (read : Parse α) : Prop := ∀ c a c', Reads read c a c' → c.Reaches c'

namespace Onward

theorem bind {read : Parse α} {f : α → Parse β} (h : Onward read) (hf : ∀ a, Onward (f a)) :
    Onward (read >>= f) := by
  intro c b c'' hread
  obtain ⟨a, c', ha, hb⟩ := reads_bind.mp hread
  exact (h _ _ _ ha).trans (hf a _ _ _ hb)

theorem ite {q : Prop} [Decidable q] {first second : Parse α} (h : Onward first)
    (h' : Onward second) : Onward (if q then first else second) := by
  split
  · exact h
  · exact h'

@[simp] theorem pure (a : α) : Onward (Pure.pure a : Parse α) := by
  intro c b c' h
  rw [(reads_pure.mp h).2]
  exact .refl c

@[simp] theorem fail : Onward (Parse.fail : Parse α) := fun _ _ _ h => absurd h not_reads_fail

theorem orElse {first second : Parse α} (h : Onward first) (h' : Onward second) :
    Onward (Parse.orElse first second) := by
  intro c a c' hread
  obtain hread | hread := reads_of_orElse hread
  · exact h _ _ _ hread
  · exact h' _ _ _ hread

@[simp] theorem peek : Onward Parse.peek := by
  intro c t c' h
  rw [(reads_peek.mp h).2]
  exact .refl c

@[simp] theorem peekSecond : Onward Parse.peekSecond := by
  intro c t c' h
  rw [reads_peekSecond h]
  exact .refl c

@[simp] theorem advance : Onward Parse.advance := by
  intro c u c' h
  rw [reads_advance.mp h]
  exact .behind c

@[simp] theorem stay (exempt quoteMayFollow : Bool) :
    Onward (Parse.stay exempt quoteMayFollow) := by
  intro c u c' h
  rw [reads_stay h]
  exact .refl c

@[simp] theorem take (exempt : Bool) : Onward (Parse.take exempt) := by
  intro c t c' h
  rw [(reads_take h).2]
  exact .taken c

@[simp] theorem following (p : Place) : Onward (Parse.following p) :=
  .bind .peek fun _ => .ite (.pure _) (.bind (.stay _ _) fun _ => .pure _)

@[simp] theorem followedByOp (p : Place) (text : String) : Onward (Parse.followedByOp p text) :=
  .bind (.following p) fun next => by cases next <;> exact .pure _

@[simp] theorem followedByWord (p : Place) (text : String) : Onward (Parse.followedByWord p text) :=
  .bind (.following p) fun next => by cases next <;> exact .pure _

@[simp] theorem expectOp (p : Place) (text : String) : Onward (Parse.expectOp p text) :=
  .bind (.followedByOp p text) fun _ => .ite .advance .fail

@[simp] theorem expectWord (p : Place) (text : String) : Onward (Parse.expectWord p text) :=
  .bind (.followedByWord p text) fun _ => .ite .advance .fail

@[simp] theorem skipOp (p : Place) (text : String) : Onward (Parse.skipOp p text) :=
  .bind (.followedByOp p text) fun _ => .ite (.bind .advance fun _ => .pure _) (.pure _)

@[simp] theorem skipOpIf (allowed : Bool) (p : Place) (text : String) :
    Onward (Parse.skipOpIf allowed p text) :=
  .ite (.skipOp p text) (.pure _)

@[simp] theorem name (p : Place) : Onward (Parse.name p) :=
  .bind (.stay _ _) fun _ => .bind .peek fun t => by
    split
    · exact .bind .advance fun _ => .pure _
    · exact .fail

end Onward

@[simp] theorem onward_get : Onward (get : Parse Cursor) := by
  intro c d c' h
  rw [(reads_get.mp h).2]
  exact .refl c

theorem onward_modify {f : Cursor → Cursor} (h : ∀ c : Cursor, c.Reaches (f c)) :
    Onward (modify f : Parse Unit) := by
  intro c u c' hread
  rw [reads_modify.mp hread]
  exact h c

/-! ### Expressions -/

structure PhraseOnward (n : Nat) : Prop where
  anyExpression (p : Place) : Onward (Source.anyExpression n p)
  expression (p : Place) : Onward (Source.expression n p)
  connected (p : Place) (left : Piece) : Onward (Source.connected n p left)
  operation (p : Place) : Onward (Source.operation n p)
  comparison (p : Place) : Onward (Source.comparison n p)
  comparisonRest (p : Place) (left : Piece) : Onward (Source.comparisonRest n p left)
  sum (p : Place) : Onward (Source.sum n p)
  sumRest (p : Place) (left : Piece) : Onward (Source.sumRest n p left)
  operand (p : Place) : Onward (Source.operand n p)
  primary (p : Place) : Onward (Source.primary n p)
  primaryRest (p : Place) (left : Piece) : Onward (Source.primaryRest n p left)
  atom (p : Place) : Onward (Source.atom n p)
  literals (p : Place) : Onward (Source.literals n p)
  fields : Onward (Source.fields n)
  field : Onward (Source.field n)
  formatFields : Onward (Source.formatFields n)
  expressions (p : Place) : Onward (Source.expressions n p)
  yieldRest (p : Place) : Onward (Source.yieldRest n p)
  element (p : Place) : Onward (Source.element n p)
  elements (p : Place) (close : String) : Onward (Source.elements n p close)
  comprehends (p : Place) : Onward (Source.comprehends n p)
  inParentheses (p : Place) : Onward (Source.inParentheses n p)
  inBrackets (p : Place) : Onward (Source.inBrackets n p)
  inBraces (p : Place) : Onward (Source.inBraces n p)
  entries (p : Place) : Onward (Source.entries n p)
  entriesRest (p : Place) : Onward (Source.entriesRest n p)
  clauses (p : Place) : Onward (Source.clauses n p)
  sources (p : Place) : Onward (Source.sources n p)
  conditions (p : Place) : Onward (Source.conditions n p)
  targets (p : Place) : Onward (Source.targets n p)
  arguments (p : Place) (q : Bool) : Onward (Source.arguments n p q)
  indices (p : Place) (q : Bool) (q' : Bool) : Onward (Source.indices n p q q')
  sliceBound (p : Place) : Onward (Source.sliceBound n p)
  parameters (p : Place) (q : Bool) : Onward (Source.parameters n p q)
  parameter (p : Place) (q : Bool) : Onward (Source.parameter n p q)
  typeExpression (p : Place) (q : Bool) : Onward (Source.typeExpression n p q)

theorem PhraseOnward.zero : PhraseOnward 0 := by
  constructor <;> intros <;> exact .fail

theorem PhraseOnward.succ {n : Nat} (h : PhraseOnward n) : PhraseOnward (n + 1) := by
  obtain ⟨⟩ := h
  constructor <;> intros
  -- Every function comes apart into steps that are known to go onward, at the depth below.
  all_goals
    simp only [Source.anyExpression, Source.expression, Source.connected, Source.operation,
      Source.comparison, Source.comparisonRest, Source.sum, Source.sumRest, Source.operand,
      Source.primary, Source.primaryRest, Source.atom, Source.literals, Source.fields, Source.field,
      Source.formatFields, Source.expressions, Source.yieldRest, Source.element, Source.elements,
      Source.comprehends, Source.inParentheses, Source.inBrackets, Source.inBraces, Source.entries,
      Source.entriesRest, Source.clauses, Source.sources, Source.conditions, Source.targets,
      Source.arguments, Source.indices, Source.sliceBound, Source.parameters, Source.parameter,
      Source.typeExpression]
    repeat' first
      | with_reducible refine Onward.bind ?_ fun _ => ?_
      | with_reducible refine Onward.ite ?_ ?_
      | split
    all_goals simp [*]

theorem phraseOnward : ∀ n, PhraseOnward n
  | 0 => .zero
  | n + 1 => (phraseOnward n).succ

/-! ### Patterns -/

theorem numberPattern_onward (p : Place) : Onward (numberPattern p) := by
  unfold numberPattern
  repeat' first
    | with_reducible refine Onward.bind ?_ fun _ => ?_
    | with_reducible refine Onward.ite ?_ ?_
  all_goals simp

theorem dottedRest_onward (p : Place) : ∀ n, Onward (dottedRest n p)
  | 0 => .fail
  | n + 1 =>
    .bind (.skipOp p _) fun _ => .ite (.bind (.name p) fun _ => dottedRest_onward p n) (.pure _)

structure PatternOnward (n : Nat) : Prop where
  casePattern (p : Place) : Onward (Source.casePattern n p)
  alternatives (p : Place) : Onward (Source.alternatives n p)
  closedPattern (p : Place) : Onward (Source.closedPattern n p)
  casePatterns (p : Place) (close : String) : Onward (Source.casePatterns n p close)
  keyedPatterns (p : Place) : Onward (Source.keyedPatterns n p)

theorem patternOnward (n : Nat) : PatternOnward n := by
  induction n with
  | zero => constructor <;> intros <;> exact .fail
  | succ n ih =>
    obtain ⟨⟩ := ih
    constructor <;> intros
    all_goals
      simp only [Source.casePattern, Source.alternatives, Source.closedPattern,
        Source.casePatterns, Source.keyedPatterns]
      repeat' first
        | with_reducible refine Onward.bind ?_ fun _ => ?_
        | with_reducible refine Onward.ite ?_ ?_
        | split
      all_goals simp [numberPattern_onward, dottedRest_onward, (phraseOnward n).literals, *]

/-! ### Statements without a body -/

section

variable (p : Place)

theorem operandFollows_onward : Onward (operandFollows p) :=
  .bind (.following p) fun next => by cases next <;> exact .pure _

theorem dottedName_onward : ∀ n, Onward (dottedName n p)
  | 0 => .fail
  | n + 1 =>
    .bind (.name p) fun _ => .bind (.skipOp p _) fun _ => .ite (dottedName_onward n) (.pure _)

theorem importList_onward : ∀ n, Onward (importList n p)
  | 0 => .fail
  | n + 1 => by
    rw [importList]
    repeat' first
      | with_reducible refine Onward.bind ?_ fun _ => ?_
      | with_reducible refine Onward.ite ?_ ?_
    all_goals simp [dottedName_onward p n, importList_onward n]

theorem nameList_onward : ∀ n, Onward (nameList n p)
  | 0 => .fail
  | n + 1 =>
    .bind (.name p) fun _ => .bind (.skipOp p _) fun _ => .ite (nameList_onward n) (.pure _)

theorem conditionList_onward : ∀ n, Onward (conditionList n p)
  | 0 => .fail
  | n + 1 =>
    .bind ((phraseOnward n).expression p) fun _ =>
      .bind (.skipOp p _) fun _ => .ite (conditionList_onward n) (.pure _)

end

theorem relativeDots_onward : ∀ n, Onward (relativeDots n)
  | 0 => .fail
  | n + 1 =>
    .bind .peek fun _ =>
      .ite (.bind (.stay _ _) fun _ => .bind .advance fun _ => relativeDots_onward n) (.pure _)

theorem importFrom_onward (n : Nat) : Onward (importFrom n) := by
  unfold importFrom
  repeat' first
    | with_reducible refine Onward.bind ?_ fun _ => ?_
    | with_reducible refine Onward.ite ?_ ?_
  all_goals simp [relativeDots_onward, dottedName_onward, importList_onward]

theorem pieces_onward : ∀ n, Onward (pieces n)
  | 0 => .fail
  | n + 1 => by
    rw [pieces]
    repeat' first
      | with_reducible refine Onward.bind ?_ fun _ => ?_
      | with_reducible refine Onward.ite ?_ ?_
    all_goals simp [operandFollows_onward, (phraseOnward n).expression, pieces_onward n]

theorem expressionStatement_onward : ∀ n, Onward (expressionStatement n)
  | 0 => .fail
  | n + 1 => by
    rw [expressionStatement]
    repeat' first
      | with_reducible refine Onward.bind ?_ fun _ => ?_
      | with_reducible refine Onward.ite ?_ ?_
      | split
    all_goals simp [(phraseOnward n).yieldRest, (phraseOnward n).typeExpression, pieces_onward n,
      expressionStatement_onward n]

theorem statementOver_onward : Onward statementOver := .bind .peek fun _ => .pure _

theorem softStatement_onward (n : Nat) (word : String) : Onward (softStatement n word) := by
  unfold softStatement
  repeat' first
    | with_reducible refine Onward.bind ?_ fun _ => ?_
    | with_reducible refine Onward.ite ?_ ?_
    | split
  all_goals simp [operandFollows_onward, conditionList_onward, statementOver_onward,
    (phraseOnward n).expressions, (phraseOnward n).literals, (phraseOnward n).typeExpression]

theorem keywordStatement_onward {rest : Parse Unit} (h : Onward rest) :
    Onward (keywordStatement rest) :=
  .bind .advance fun _ => .bind h fun _ => .pure _

theorem smallStatement_onward (n : Nat) : Onward (smallStatement n) := by
  unfold smallStatement
  repeat' first
    | with_reducible refine Onward.bind ?_ fun _ => ?_
    | with_reducible refine Onward.ite ?_ ?_
    | with_reducible refine Onward.orElse ?_ ?_
    | with_reducible refine keywordStatement_onward ?_
    | split
  all_goals simp [operandFollows_onward, conditionList_onward, importList_onward,
    importFrom_onward, nameList_onward, softStatement_onward, statementOver_onward,
    expressionStatement_onward, (phraseOnward n).expression, (phraseOnward n).expressions]

theorem statementLine_onward : ∀ n, Onward (statementLine n)
  | 0 => .fail
  | n + 1 => by
    rw [statementLine]
    repeat' first
      | with_reducible refine Onward.bind ?_ fun _ => ?_
      | with_reducible refine Onward.ite ?_ ?_
      | split
    all_goals simp [smallStatement_onward n, statementLine_onward n]

/-! ### The heads of statements with bodies -/

theorem dedented_onward : Onward dedented :=
  .bind .peek fun _ => .bind .peek fun _ => .bind onward_get fun _ => .pure _

theorem clauseFollows_onward (word : String) : Onward (clauseFollows word) :=
  .bind dedented_onward fun _ => .ite (.pure _) (.bind .peek fun _ => .pure _)

theorem opensBlock_onward : Onward opensBlock :=
  .bind .peek fun _ => .bind onward_get fun _ => .pure _

theorem asyncOpens_onward (word : String) : Onward (asyncOpens word) :=
  .bind .peekSecond fun _ => .bind .peek fun _ => .pure _

theorem typeParameters_onward : ∀ n p, Onward (typeParameters n p)
  | 0, _ => .fail
  | n + 1, p => by
    rw [typeParameters]
    repeat' first
      | with_reducible refine Onward.bind ?_ fun _ => ?_
      | with_reducible refine Onward.ite ?_ ?_
    all_goals simp [(phraseOnward n).typeExpression, typeParameters_onward n]

theorem functionHead_onward (n : Nat) : Onward (functionHead n) := by
  unfold functionHead
  repeat' first
    | with_reducible refine Onward.bind ?_ fun _ => ?_
    | with_reducible refine Onward.ite ?_ ?_
  all_goals simp [typeParameters_onward, (phraseOnward n).parameters,
    (phraseOnward n).typeExpression]

theorem classHead_onward (n : Nat) : Onward (classHead n) := by
  unfold classHead
  repeat' first
    | with_reducible refine Onward.bind ?_ fun _ => ?_
    | with_reducible refine Onward.ite ?_ ?_
  all_goals simp [typeParameters_onward, (phraseOnward n).arguments]

theorem handled_onward (n : Nat) : Onward (handled n) := by
  unfold handled
  repeat' first
    | with_reducible refine Onward.bind ?_ fun _ => ?_
    | with_reducible refine Onward.ite ?_ ?_
  all_goals simp [(phraseOnward n).expression]

theorem decorators_onward : ∀ n, Onward (decorators n)
  | 0 => .fail
  | n + 1 => by
    rw [decorators]
    repeat' first
      | with_reducible refine Onward.bind ?_ fun _ => ?_
      | with_reducible refine Onward.ite ?_ ?_
    all_goals simp [(phraseOnward n).expression, decorators_onward n]

theorem caseHead_onward : ∀ n, Onward (caseHead n)
  | 0 => .fail
  | n + 1 => by
    rw [caseHead]
    repeat' first
      | with_reducible refine Onward.bind ?_ fun _ => ?_
      | with_reducible refine Onward.ite ?_ ?_
    all_goals simp [(patternOnward n).casePattern, (phraseOnward n).expression, caseHead_onward n]

end DocDrift.Source
