import DocDrift.Proofs.Source.Definitions
import DocDrift.Proofs.Source.Openings
import DocDrift.Proofs.Source.Progress

/-!
# Where bodies stand

The body of every definition in the tree of a module has been read behind a colon among the tokens
of the module.
-/

namespace DocDrift.Source

open Parse

/-- The bodies of all definitions in the nodes have been read from `c` on. -/
def Traced (c : Cursor) (nodes : List Node) : Prop :=
  ∀ node ∈ nodes, ∀ o, node.Holds o →
    ∃ n d d', c.Reaches d ∧ Reads (body n) d o.definition.body d'

section

variable {c : Cursor}

theorem Traced.from {c' : Cursor} {nodes : List Node} (h : Traced c' nodes) (hc : c.Reaches c') :
    Traced c nodes := by
  intro node hnode o ho
  obtain ⟨n, d, d', hd, hbody⟩ := h node hnode o ho
  exact ⟨n, d, d', hc.trans hd, hbody⟩

@[simp] theorem traced_nil : Traced c [] := by simp [Traced]

@[simp] theorem traced_append {nodes more : List Node} :
    Traced c (nodes ++ more) ↔ Traced c nodes ∧ Traced c more := by
  simp only [Traced, List.forall_mem_append]

theorem traced_singleton {node : Node} : Traced c [node] ↔ ∀ o, node.Holds o →
    ∃ n d d', c.Reaches d ∧ Reads (body n) d o.definition.body d' := by
  simp [Traced]

theorem traced_cons {node : Node} {more : List Node} :
    Traced c (node :: more) ↔ Traced c [node] ∧ Traced c more := by
  rw [← List.singleton_append, traced_append]

theorem traced_lineNode (span : LineRange) (what : Option (List Expression)) :
    Traced c [lineNode span what] := by
  refine traced_singleton.mpr fun o ho => ?_
  cases what <;> cases ho

theorem traced_comments {comments : List Node} (h : ∀ n ∈ comments, n.isComment = true) :
    Traced c comments := by
  intro node hnode o ho
  have hcomment := h node hnode
  cases ho <;> cases hcomment

@[simp] theorem traced_compound {span : LineRange} {bodies : List Node} :
    Traced c [.compound span bodies] ↔ Traced c bodies := by
  rw [traced_singleton]
  constructor
  · intro h node hnode o ho
    obtain ⟨i, hi⟩ := List.mem_iff_getElem?.mp hnode
    exact h (o.below i) (.compound hi ho)
  · intro h o ho
    cases ho with
    | @compound _ _ _ inner o hi ho => exact h inner (List.mem_of_getElem? hi) o ho

@[simp] theorem traced_decorated {span : LineRange} {node : Node} :
    Traced c [.decorated span node] ↔ Traced c [node] := by
  rw [traced_singleton, traced_singleton]
  constructor
  · intro h o ho
    exact h (o.below 0) (.decorated ho)
  · intro h o ho
    cases ho with
    | @decorated _ _ o ho => exact h o ho

theorem traced_definition {form : DefinitionForm} {name : String} {span : LineRange}
    {nodes : List Node} {n : Nat} {c₁ c₂ : Cursor} (hc : c.Reaches c₁)
    (h : Reads (body n) c₁ nodes c₂) (hnodes : Traced c nodes) :
    Traced c [.definition form name span nodes] := by
  rw [traced_singleton]
  intro o ho
  -- `Holds` knows definitions only by their record, so the node must not stand in its way.
  generalize hnode : Node.definition form name span nodes = node at ho
  cases ho with
  | root d =>
    obtain ⟨⟩ := d
    cases hnode
    exact ⟨n, c₁, c₂, hc, h⟩
  | @body d _ inner o hi ho =>
    obtain ⟨⟩ := d
    cases hnode
    exact hnodes inner (List.mem_of_getElem? hi) o ho
  | decorated => cases hnode
  | compound => cases hnode

/-- The statements of a line hold no definition. -/
theorem traced_of_reads_statementLine (n : Nat) : ∀ d nodes d',
    Reads (statementLine n) d nodes d' → Traced c nodes := by
  induction n with
  | zero => exact fun d nodes d' h => absurd h not_reads_fail
  | succ n ih =>
    intro d nodes d' h
    obtain ⟨what, -, span, more, -, -, rfl, hmore⟩ := reads_statementLine h
    refine traced_cons.mpr ⟨traced_lineNode span what, ?_⟩
    obtain rfl | ⟨d₁, hmore⟩ := hmore
    · exact traced_nil
    · exact ih d₁ more d' hmore

end

/-- Whatever has been traced before, the reading adds nothing that is not. -/
def Traces (seen : List Node) (read : Parse (List Node)) : Prop :=
  ∀ c₀ c nodes c', c₀.Reaches c → Traced c₀ seen → Reads read c nodes c' →
    c₀.Reaches c' ∧ Traced c₀ nodes

namespace Traces

variable {α : Type} {seen : List Node} {read : Parse (List Node)}

theorem pure {nodes : List Node} (h : ∀ c, Traced c seen → Traced c nodes) :
    Traces seen (Pure.pure nodes) := by
  intro c₀ c nodes c' hc hseen hread
  obtain ⟨rfl, rfl⟩ := reads_pure.mp hread
  exact ⟨hc, h c₀ hseen⟩

theorem fail : Traces seen Parse.fail := fun _ _ _ _ _ _ h => absurd h not_reads_fail

theorem after {first : Parse α} {f : α → Parse (List Node)} (h : Onward first)
    (hf : ∀ a, Traces seen (f a)) : Traces seen (first >>= f) := by
  intro c₀ c nodes c' hc hseen hread
  obtain ⟨a, c₁, ha, hread⟩ := reads_bind.mp hread
  exact hf a c₀ c₁ nodes c' (hc.trans (h _ _ _ ha)) hseen hread

theorem bind {f : List Node → Parse (List Node)} (h : Traces [] read)
    (hf : ∀ nodes, Traces (seen ++ nodes) (f nodes)) : Traces seen (read >>= f) := by
  intro c₀ c nodes c' hc hseen hread
  obtain ⟨first, c₁, hfirst, hread⟩ := reads_bind.mp hread
  obtain ⟨hc₁, htraced⟩ := h c₀ c first c₁ hc traced_nil hfirst
  exact hf first c₀ c₁ nodes c' hc₁ (traced_append.mpr ⟨hseen, htraced⟩) hread

theorem ite {q : Prop} [Decidable q] {second : Parse (List Node)} (h : Traces seen read)
    (h' : Traces seen second) : Traces seen (if q then read else second) := by
  split
  · exact h
  · exact h'

theorem statementLine (n : Nat) : Traces [] (statementLine n) :=
  fun _ _ _ _ hc _ hread =>
    ⟨hc.trans (statementLine_onward n _ _ _ hread), traced_of_reads_statementLine n _ _ _ hread⟩

theorem ownComments : Traces [] ownComments := by
  intro c₀ c nodes c' hc _ hread
  obtain ⟨hcomments, hc'⟩ := reads_ownComments hread
  refine ⟨hc.trans ?_, traced_comments hcomments⟩
  obtain rfl | ⟨t, rest, left, htokens, rfl⟩ := hc'
  · exact .refl _
  · exact ⟨by simp [htokens], by simp [htokens]⟩

theorem indented (h : Traces [] read) : Traces [] (indented read) :=
  .after onward_get fun _ => .after .peek fun _ =>
    .after (onward_modify fun _ => .of_tokens_eq rfl) fun _ => .bind h fun _ =>
      .after (onward_modify fun _ => .of_tokens_eq rfl) fun _ => .pure fun _ h => h

end Traces

structure BodiesTraced (n : Nat) : Prop where
  body : Traces [] (Source.body n)
  block : Traces [] (Source.block n)
  statement : Traces [] (Source.statement n)
  cases : Traces [] (Source.cases n)
  furtherBranches : Traces [] (Source.furtherBranches n)
  clause (word : String) : Traces [] (Source.clause n word)
  handlers (starred : Bool) : Traces [] (Source.handlers n starred)
  loop : Traces [] (Source.loop n)
  context : Traces [] (Source.context n)
  definition : ∀ c₀ c node c', c₀.Reaches c → Reads (Source.definition n) c node c' →
    c₀.Reaches c' ∧ Traced c₀ [node]

theorem BodiesTraced.zero : BodiesTraced 0 := by
  constructor
  case definition => exact fun _ _ _ _ _ h => absurd h not_reads_fail
  all_goals intros; exact .fail

theorem compound_traces {seen : List Node} {first : Nat} {read : Parse (List Node)}
    (h : Traces [] read) :
    Traces seen (do
      let bodies ← read
      return [Node.compound ⟨first, (← get).lastLine⟩ bodies]) :=
  .bind h fun _ => .after onward_get fun _ => .pure (by simp)

theorem reaches_of_reads_matchHead {n : Nat} {c cursor c' : Cursor}
    (h : Reads (matchHead n) c cursor c') : c.Reaches cursor := by
  cases n with
  | zero => exact absurd h not_reads_fail
  | succ n =>
    rw [matchHead] at h
    have h := reads_operandFollows_bind (reads_advance_bind.mp (reads_get_bind.mp h))
    obtain ⟨-, h⟩ | ⟨-, h⟩ := reads_ite.mp h
    · exact absurd h not_reads_fail_bind
    obtain ⟨_, c₁, hc₁, h⟩ := reads_bind.mp h
    obtain ⟨-, h⟩ := reads_expectOp_bind h
    obtain ⟨-, h⟩ | ⟨-, h⟩ := reads_ite.mp (reads_peek_bind.mp h)
    · exact absurd h not_reads_fail_bind
    have h := reads_set_bind.mp (reads_get_bind.mp h)
    rw [(reads_pure.mp h).1]
    exact (Cursor.Reaches.behind c).trans
      (((phraseOnward n).expressions _ _ _ _ hc₁).trans (Cursor.Reaches.behind c₁))

theorem BodiesTraced.succ {n : Nat} (h : BodiesTraced n) : BodiesTraced (n + 1) where
  body := by
    rw [Source.body]
    exact .after (.expectOp _ _) fun _ => .after .peek fun _ => .ite (.statementLine n)
      (.after opensBlock_onward fun _ => .ite (.indented h.block) (.pure (by simp)))
  block := by
    rw [Source.block]
    refine .bind .ownComments fun comments => .after .peek fun t => .after dedented_onward fun q =>
      .ite ?_ (.bind h.statement fun statements => .bind h.block fun more => .pure ?_)
    · split
      · exact .after (onward_modify fun _ => .of_tokens_eq rfl) fun _ => .pure (by simp)
      · exact .pure (by simp)
    · simp
  statement := by
    have hdefinition {before : List Node} : Traces before (do return [← Source.definition n]) := by
      intro c₀ c nodes c' hc _ hread
      obtain ⟨node, c₁, hnode, hread⟩ := reads_bind.mp hread
      obtain ⟨rfl, rfl⟩ := reads_pure.mp hread
      exact h.definition c₀ c node _ hc hnode
    rw [Source.statement]
    refine .after .peek fun t => ?_
    split
    case h_1 | h_2 =>
      refine compound_traces (.after .advance fun _ =>
        .after ((phraseOnward n).expression _) fun _ =>
          .bind h.body fun first => .bind ?_ fun more => .pure (by simp))
      first
      | exact h.furtherBranches
      | exact h.clause _
    case h_3 => exact compound_traces h.loop
    case h_4 => exact compound_traces h.context
    case h_5 =>
      refine compound_traces (.after .advance fun _ => .bind h.body fun first =>
        .after (clauseFollows_onward _) fun _ => .ite
          (.bind (h.clause _) fun more => .pure (by simp))
          (.after (clauseFollows_onward _) fun _ => .ite (.after .fail fun _ => ?_) ?_))
      all_goals
        exact .after .peekSecond fun _ => .bind (h.handlers _) fun handlers => .bind (h.clause _)
          fun otherwise => .bind (h.clause _) fun last => .pure (by simp)
    case h_6 | h_7 => exact hdefinition
    case h_8 =>
      refine .after (decorators_onward n) fun _ => .after (.stay _ _) fun _ =>
        .after (.take _) fun _ => ?_
      intro c₀ c nodes c' hc _ hread
      obtain ⟨node, c₁, hnode, hread⟩ := reads_bind.mp hread
      have hread := reads_get_bind.mp hread
      obtain ⟨rfl, rfl⟩ := reads_pure.mp hread
      obtain ⟨hc₁, htraced⟩ := h.definition c₀ c node _ hc hnode
      exact ⟨hc₁, traced_decorated.mpr htraced⟩
    case h_9 =>
      exact .after (asyncOpens_onward _) fun _ => .ite hdefinition
        (.after (asyncOpens_onward _) fun _ =>
          .ite (compound_traces (.after .advance fun _ => h.loop))
            (.after (asyncOpens_onward _) fun _ =>
              .ite (compound_traces (.after .advance fun _ => h.context)) (.statementLine n)))
    case h_10 =>
      intro c₀ c nodes c' hc hnil hread
      -- The head of a `match` is tried first, and the cursor behind it kept if it is one.
      obtain ⟨head, c₁, hhead, hread⟩ := reads_bind.mp hread
      obtain hhead | hhead := reads_of_orElse hhead
      · rw [map_eq_pure_bind] at hhead
        obtain ⟨cursor, c₂, hcursor, hhead⟩ := reads_bind.mp hhead
        obtain ⟨rfl, rfl⟩ := reads_pure.mp hhead
        have hread := reads_set_bind.mp hread
        refine compound_traces ?_ c₀ cursor nodes c' (hc.trans (reaches_of_reads_matchHead hcursor))
          hnil hread
        exact .after opensBlock_onward fun _ => .ite (.indented h.cases) (.pure (by simp))
      · obtain ⟨hnone, hsame⟩ := reads_pure.mp hhead
        rw [hnone, hsame] at hread
        exact Traces.statementLine n c₀ c nodes c' hc hnil hread
    case h_11 => exact .statementLine n
  cases := by
    rw [Source.cases]
    refine .bind .ownComments fun comments => .after .peek fun t => .after dedented_onward fun q =>
      .ite ?_ (.after .peek fun _ => .ite (.after .fail fun _ => ?_) ?_)
    · split
      · exact .after (onward_modify fun _ => .of_tokens_eq rfl) fun _ => .pure (by simp)
      · exact .pure (by simp)
    all_goals
      exact .after .advance fun _ => .after (caseHead_onward n) fun _ =>
        .bind h.body fun first => .bind h.cases fun more => .pure (by simp)
  furtherBranches := by
    rw [Source.furtherBranches]
    exact .after (clauseFollows_onward _) fun _ =>
      .ite (.after .advance fun _ => .after ((phraseOnward n).expression _) fun _ =>
        .bind h.body fun first => .bind h.furtherBranches fun more => .pure (by simp))
      (h.clause "else")
  clause word := by
    rw [Source.clause]
    exact .after (clauseFollows_onward _) fun _ =>
      .ite (.after .advance fun _ => h.body) (.pure (by simp))
  handlers starred := by
    rw [Source.handlers]
    have hrest : Traces [] (do
        handled n
        let first ← Source.body n
        return first ++ (← Source.handlers n starred)) :=
      .after (handled_onward n) fun _ => .bind h.body fun first => .bind (h.handlers starred)
        fun more => .pure (by simp)
    exact .after (clauseFollows_onward _) fun _ => .ite (.after .advance fun _ =>
      .ite (.after (.expectOp _ _) fun _ => .after (.followedByOp _ _) fun _ =>
        .ite (.after .fail fun _ => hrest) hrest) hrest) (.pure (by simp))
  loop := by
    rw [Source.loop]
    exact .after .advance fun _ => .after ((phraseOnward n).targets _) fun _ =>
      .after (.expectWord _ _) fun _ => .after ((phraseOnward n).expressions _) fun _ =>
        .bind h.body fun first => .bind (h.clause _) fun more => .pure (by simp)
  context := by
    rw [Source.context]
    exact .after .advance fun _ => .after ((phraseOnward n).expressions _) fun _ => h.body
  definition c₀ c node c' hc hread := by
    rw [Source.definition] at hread
    obtain ⟨q, c₁, hq, hread⟩ := reads_bind.mp (reads_peek_bind.mp hread)
    have hc₁ := hc.trans (asyncOpens_onward _ _ _ _ hq)
    obtain ⟨c₂, hsame, hread⟩ := reads_advance_ite hread
    have hc₂ : c₀.Reaches c₂ := by
      obtain rfl | rfl := hsame
      · exact hc₁.trans (.behind c₁)
      · exact hc₁
    obtain ⟨form, c₃, hform, hread⟩ := reads_bind.mp hread
    have hc₃ := Onward.bind .peek (fun t => by split <;> simp) _ _ _ hform
    obtain ⟨name, c₄, hname, hread⟩ := reads_bind.mp (reads_advance_bind.mp hread)
    have hc₄ : c₃.behind.Reaches c₄ := by
      cases form
      · exact functionHead_onward n _ _ _ hname
      · exact classHead_onward n _ _ _ hname
    obtain ⟨nodes, c₅, hnodes, hread⟩ := reads_bind.mp hread
    have hread := reads_get_bind.mp hread
    obtain ⟨rfl, rfl⟩ := reads_pure.mp hread
    have hc := hc₂.trans (hc₃.trans ((Cursor.Reaches.behind c₃).trans hc₄))
    obtain ⟨hc₅, htraced⟩ := h.body c₀ c₄ nodes _ hc traced_nil hnodes
    exact ⟨hc₅, traced_definition hc hnodes htraced⟩

theorem bodiesTraced : ∀ n, BodiesTraced n
  | 0 => .zero
  | n + 1 => (bodiesTraced n).succ

end DocDrift.Source
