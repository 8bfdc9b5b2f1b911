import DocDrift.Source.Extract
import Mathlib

/-!
# The definitions of a module

Where a definition stands in a syntax tree is told by the way down to it, and ways are ordered as
the nodes are met in the source: a definition before those inside it, and those of an earlier node
before those of a later one. The units of a module are the documented definitions in this order,
whatever they stand in.
-/

namespace DocDrift.Source

structure Definition where
  form : DefinitionForm
  name : String
  span : LineRange
  body : List Node

namespace Definition

def node (d : Definition) : Node := .definition d.form d.name d.span d.body

end Definition

structure Occurrence where
  /-- For each node on the way down, its number among its siblings. -/
  address : List Nat
  /-- The definitions around it, the outermost first. -/
  enclosing : List Definition
  definition : Definition

namespace Occurrence

/-- A definition that is the whole tree. -/
def root (d : Definition) : Occurrence := ⟨[], [], d⟩

/-- The occurrence in a tree that stands at place `i` among its siblings. -/
def below (i : Nat) (o : Occurrence) : Occurrence := { o with address := i :: o.address }

def inside (d : Definition) (o : Occurrence) : Occurrence :=
  { o with enclosing := d :: o.enclosing }

/-- The names on the way down to the definition, its own the last. -/
def names (o : Occurrence) : List String := o.enclosing.map Definition.name ++ [o.definition.name]

/-- A class is a class everywhere, and a function is a method if the nearest definition around it
is a class. -/
def kind (o : Occurrence) : UnitKind :=
  match o.definition.form, o.enclosing.getLast?.map Definition.form with
  | .classBlock, _ => .classBlock
  | .function, some .classBlock => .method
  | .function, _ => .function

end Occurrence

/-- A definition stands in a tree: it is the whole tree, or it stands in the body of another
definition, behind decorators or in a body of another statement. -/
inductive Node.Holds : Node → Occurrence → Prop
  | root (d : Definition) : Holds d.node (.root d)
  | body {d : Definition} {i : Nat} {n : Node} {o : Occurrence} (hn : d.body[i]? = some n)
      (ho : n.Holds o) : Holds d.node ((o.below i).inside d)
  | decorated {span : LineRange} {n : Node} {o : Occurrence} (ho : n.Holds o) :
      Holds (.decorated span n) (o.below 0)
  | compound {span : LineRange} {bodies : List Node} {i : Nat} {n : Node} {o : Occurrence}
      (hn : bodies[i]? = some n) (ho : n.Holds o) : Holds (.compound span bodies) (o.below i)

inductive ModuleHolds (nodes : List Node) : Occurrence → Prop
  | node {i : Nat} {n : Node} {o : Occurrence} (hn : nodes[i]? = some n) (ho : n.Holds o) :
      ModuleHolds nodes (o.below i)

/-- The letters in front of the first quote, if the literal has one, say neither that it is made of
bytes nor that it has replacement fields. -/
def PlainlyOpened (text : String) : Prop :=
  ∀ letters quote rest, text.toList = letters ++ quote :: rest → quote ∈ ['"', '\''] →
    (∀ c ∈ letters, c ∉ ['"', '\'']) → ∀ c ∈ letters, c ∉ ['f', 'F', 'b', 'B']

/-- Alone in a statement, the expression is a docstring: a plain literal or a row of plain ones, in
any number of parentheses with no comment directly inside them. -/
inductive Expression.Documents : Expression → Prop
  | literal {text : String} (h : PlainlyOpened text) : Documents (.literal text)
  | adjacent {parts : List LiteralPart} (h : ∀ text, .literal text ∈ parts → PlainlyOpened text) :
      Documents (.adjacent parts)
  | parenthesized {e : Expression} (h : e.Documents) : Documents (.parenthesized [] e [])

/-- The first statement of a body, behind comments only, is the docstring `doc`. -/
def OpensWith (body : List Node) (doc : LineRange) : Prop :=
  ∃ (comments rest : List Node) (e : Expression),
    body = comments ++ .expression doc [e] :: rest ∧ (∀ n ∈ comments, n.isComment) ∧ e.Documents

structure Occurrence.Describes (o : Occurrence) (u : DocumentedUnit) : Prop where
  name : u.qualifiedName = ".".intercalate o.names
  kind : u.kind = o.kind
  doc : OpensWith o.definition.body u.docRange
  start : u.bodyRange.first = o.definition.span.first

inductive ModuleUnit (name : String) (nodes : List Node) : List DocumentedUnit → Prop
  | documented {u : DocumentedUnit} (hname : u.qualifiedName = name) (hkind : u.kind = .module)
      (hdoc : OpensWith nodes u.docRange) : ModuleUnit name nodes [u]
  | undocumented (h : ∀ doc, ¬OpensWith nodes doc) : ModuleUnit name nodes []

/-- The units are the module, if it is documented, and then exactly the documented definitions that
stand in it, in the order in which they stand there. -/
def Complete (name : String) (nodes : List Node) (units : List DocumentedUnit) : Prop :=
  ∃ (own rest : List DocumentedUnit) (found : List Occurrence),
    units = own ++ rest ∧ ModuleUnit name nodes own ∧
      List.Forall₂ Occurrence.Describes found rest ∧
      (∀ o, o ∈ found ↔ ModuleHolds nodes o ∧ ∃ doc, OpensWith o.definition.body doc) ∧
      found.Pairwise fun o p => o.address < p.address

mutual

def Node.ProperSpans : Node → Prop
  | .comment span | .expression span _ | .simple span => span.Proper
  | .definition _ _ span body => span.Proper ∧ ProperSpans body
  | .decorated span definition => span.Proper ∧ definition.ProperSpans
  | .compound span bodies => span.Proper ∧ ProperSpans bodies

/-- All spans in a row of trees are proper. -/
def ProperSpans : List Node → Prop
  | [] => True
  | n :: rest => n.ProperSpans ∧ ProperSpans rest

end

theorem ProperSpans.of_mem {nodes : List Node} (h : ProperSpans nodes) :
    ∀ n ∈ nodes, n.ProperSpans := by
  induction nodes with
  | nil =>
    intro n hn
    cases hn
  | cons m rest ih =>
    rw [ProperSpans] at h
    intro n hn
    rcases List.mem_cons.mp hn with rfl | hn
    · exact h.1
    · exact ih h.2 n hn

theorem Node.Holds.properSpans {n : Node} {o : Occurrence} (ho : n.Holds o)
    (hn : n.ProperSpans) : o.definition.node.ProperSpans := by
  induction ho with
  | root d => exact hn
  | body hi _ ih =>
    rw [Definition.node, Node.ProperSpans] at hn
    exact ih (hn.2.of_mem _ (List.mem_of_getElem? hi))
  | decorated _ ih =>
    rw [Node.ProperSpans] at hn
    exact ih hn.2
  | compound hi _ ih =>
    rw [Node.ProperSpans] at hn
    exact ih (hn.2.of_mem _ (List.mem_of_getElem? hi))

theorem ModuleHolds.properSpans {nodes : List Node} {o : Occurrence} (ho : ModuleHolds nodes o)
    (hn : ProperSpans nodes) : o.definition.node.ProperSpans := by
  obtain ⟨hi, ho⟩ := ho
  exact ho.properSpans (hn.of_mem _ (List.mem_of_getElem? hi))

/-! ## Docstrings -/

theorem toLower_eq_iff {c lower upper : Char} (h : upper.toNat + 32 = lower.toNat)
    (hlower : 97 ≤ lower.toNat ∧ lower.toNat ≤ 122) :
    c.toLower = lower ↔ c = lower ∨ c = upper := by
  unfold Char.toLower
  simp only [Char.ext_iff, ← UInt32.toNat_inj, UInt32.le_iff_toNat_le, ge_iff_le]
  split
  · next hc =>
    simp [UInt32.toNat_add] at hc ⊢
    omega
  · next hc =>
    simp at hc ⊢
    omega

theorem isPlainLiteral_eq_true_iff {text : String} :
    isPlainLiteral text = true ↔ PlainlyOpened text := by
  have hletter : ∀ c : Char, (c.toLower != 'f' && c.toLower != 'b') = true ↔
      c ∉ ['f', 'F', 'b', 'B'] := by
    intro c
    have hf : c.toLower = 'f' ↔ c = 'f' ∨ c = 'F' := toLower_eq_iff (by decide) (by decide)
    have hb : c.toLower = 'b' ↔ c = 'b' ∨ c = 'B' := toLower_eq_iff (by decide) (by decide)
    simp [hf, hb, and_assoc]
  rw [isPlainLiteral, List.all_eq_true]
  simp only [hletter]
  constructor
  · intro h letters quote rest htext hquote hletters c hc
    rw [htext, literalPrefix_append hquote hletters] at h
    exact h c hc
  · intro h c hc
    -- a literal that has letters in front of quotes has a first quote
    cases hfind : text.toList.find? (fun c => c == '"' || c == '\'') with
    | none =>
      have hany : text.toList.any (fun c => c == '"' || c == '\'') = false := by
        simpa [List.find?_eq_none] using hfind
      rw [literalPrefix, if_neg (by simp [hany])] at hc
      cases hc
    | some quote =>
      obtain ⟨hquote, letters, rest, htext, hletters⟩ := List.find?_eq_some_iff_append.mp hfind
      have hmem : quote ∈ ['"', '\''] := by simpa using hquote
      have hno : ∀ c ∈ letters, c ∉ ['"', '\''] := by
        intro c hc
        simpa using hletters c hc
      rw [htext, literalPrefix_append hmem hno] at hc
      exact h letters quote rest htext hmem hno c hc

theorem isDocumentation_eq_true_iff {e : Expression} :
    e.isDocumentation = true ↔ e.Documents := by
  induction e with
  | literal text =>
    rw [Expression.isDocumentation, isPlainLiteral_eq_true_iff]
    constructor
    · exact .literal
    · rintro ⟨h⟩
      exact h
  | adjacent parts =>
    have hparts : parts.all LiteralPart.isPlain = true ↔
        ∀ text, .literal text ∈ parts → PlainlyOpened text := by
      rw [List.all_eq_true]
      constructor
      · intro h text ht
        exact isPlainLiteral_eq_true_iff.mp (h _ ht)
      · intro h part hpart
        cases part with
        | literal text => exact isPlainLiteral_eq_true_iff.mpr (h text hpart)
        | comment c => rfl
    rw [Expression.isDocumentation, hparts]
    constructor
    · exact .adjacent
    · rintro ⟨⟩
      assumption
  | parenthesized before inner behind ih =>
    constructor
    · intro h
      cases before with
      | cons c before => cases behind <;> cases h
      | nil =>
        cases behind with
        | cons c behind => cases h
        | nil => exact .parenthesized (ih.mp h)
    · rintro (_ | _ | h)
      exact ih.mpr h
  | other =>
    constructor
    · intro h
      cases h
    · intro h
      cases h

theorem docstring?_eq_some_iff {body : List Node} {doc : LineRange} :
    docstring? body = some doc ↔ OpensWith body doc := by
  unfold docstring?
  constructor
  · intro h
    split at h
    · next span e hfind =>
      obtain ⟨-, comments, rest, hbody, hcomments⟩ := List.find?_eq_some_iff_append.mp hfind
      split at h
      · next he =>
        cases h
        exact ⟨comments, rest, e, hbody, fun n hn => by simpa using hcomments n hn,
          isDocumentation_eq_true_iff.mp he⟩
      · cases h
    · cases h
  · rintro ⟨comments, rest, e, rfl, hcomments, he⟩
    have hfind : (comments ++ .expression doc [e] :: rest).find? (fun n => !n.isComment) =
        some (.expression doc [e]) := by
      refine List.find?_eq_some_iff_append.mpr ⟨rfl, comments, rest, rfl, fun n hn => ?_⟩
      simp [hcomments n hn]
    simp [hfind, isDocumentation_eq_true_iff.mpr he]

theorem docstring?_eq_none_iff {body : List Node} :
    docstring? body = none ↔ ∀ doc, ¬OpensWith body doc := by
  simp [Option.eq_none_iff_forall_ne_some, docstring?_eq_some_iff]

theorem OpensWith.proper {body : List Node} {doc : LineRange} (h : OpensWith body doc)
    (hb : ProperSpans body) : doc.Proper := by
  obtain ⟨comments, rest, e, rfl, -, -⟩ := h
  have hn := hb.of_mem (.expression doc [e]) (by simp)
  rwa [Node.ProperSpans] at hn

theorem SourceLines.le_lastFilled (source : SourceLines) {first last : Nat} (h : first ≤ last) :
    first ≤ source.lastFilled first last := by
  induction last with
  | zero =>
    rw [lastFilled]
    exact h
  | succ last ih =>
    rw [lastFilled]
    split
    · next hblank =>
      simp only [Bool.and_eq_true, decide_eq_true_eq] at hblank
      exact ih (Nat.le_of_lt_succ hblank.1)
    · exact h

theorem documentedUnit?_eq_none (source : SourceLines) (name : String) (kind : UnitKind)
    (span : LineRange) {body : List Node} (h : ∀ doc, ¬OpensWith body doc) :
    documentedUnit? source name kind span body = none := by
  simp [documentedUnit?, docstring?_eq_none_iff.mpr h]

/-- The unit of a documented body ends at the docstring or later, so it is enough that one of the
two ends is behind the start. -/
theorem documentedUnit?_eq_some (source : SourceLines) (name : String) (kind : UnitKind)
    (span : LineRange) {doc : LineRange} {body : List Node} (h : OpensWith body doc)
    (hdoc : doc.Proper) (hfirst : 1 ≤ span.first) (hlast : span.first ≤ span.last ∨ span.first ≤ doc.last) :
    ∃ last, documentedUnit? source name kind span body =
      some ⟨name, kind, doc, ⟨span.first, last⟩⟩ := by
  have hend : span.first ≤ max (source.lastFilled span.first span.last) doc.last := by
    rcases hlast with h | h
    · exact Nat.le_trans (source.le_lastFilled h) (Nat.le_max_left _ _)
    · exact Nat.le_trans h (Nat.le_max_right _ _)
  have hd : LineRange.ofBounds? doc.first doc.last = some doc :=
    LineRange.ofBounds?_eq_some_iff.mpr ⟨rfl, hdoc⟩
  have hb : LineRange.ofBounds? span.first (max (source.lastFilled span.first span.last) doc.last) =
      some ⟨span.first, max (source.lastFilled span.first span.last) doc.last⟩ :=
    LineRange.ofBounds?_eq_some_iff.mpr ⟨rfl, hfirst, hend⟩
  refine ⟨max (source.lastFilled span.first span.last) doc.last, ?_⟩
  simp [documentedUnit?, docstring?_eq_some_iff.mpr h, hd, hb]

/-! ## The list of all definitions -/

mutual

def Node.occurrences : Node → List Occurrence
  | .comment _ | .expression _ _ | .simple _ => []
  | .definition form name span body =>
    let d : Definition := ⟨form, name, span, body⟩
    .root d :: (occurrencesFrom 0 body).map (.inside d)
  | .decorated _ definition => definition.occurrences.map (.below 0)
  | .compound _ bodies => occurrencesFrom 0 bodies

/-- The definitions that stand in a row of trees, the first of which stands at place `i`. -/
def occurrencesFrom (i : Nat) : List Node → List Occurrence
  | [] => []
  | n :: rest => n.occurrences.map (.below i) ++ occurrencesFrom (i + 1) rest

end

mutual

theorem Node.mem_occurrences : ∀ (n : Node) (o : Occurrence), o ∈ n.occurrences ↔ n.Holds o
  | .comment _, o | .expression _ _, o | .simple _, o => by
    rw [Node.occurrences]
    constructor
    · intro h
      cases h
    · intro h
      cases h
  | .definition form name span body, o => by
    -- The case split on the relation puts another definition's body in the place of `body`.
    have hbody := mem_occurrencesFrom 0 body
    rw [Node.occurrences, List.mem_cons, List.mem_map]
    constructor
    · rintro (rfl | ⟨p, hp, rfl⟩)
      · exact .root ⟨form, name, span, body⟩
      · obtain ⟨i, n, q, hn, hq, rfl⟩ := (hbody p).mp hp
        rw [Nat.zero_add]
        exact Node.Holds.body (d := ⟨form, name, span, body⟩) hn hq
    · intro h
      cases h with
      | root => exact .inl rfl
      | @body _ i n p hn hp =>
        refine .inr ⟨p.below i, (hbody _).mpr ⟨i, n, p, hn, hp, ?_⟩, rfl⟩
        rw [Nat.zero_add]
  | .decorated _ definition, o => by
    rw [Node.occurrences, List.mem_map]
    constructor
    · rintro ⟨p, hp, rfl⟩
      exact .decorated ((definition.mem_occurrences p).mp hp)
    · rintro (_ | _ | hp | _)
      exact ⟨_, (definition.mem_occurrences _).mpr hp, rfl⟩
  | .compound _ bodies, o => by
    rw [Node.occurrences, mem_occurrencesFrom 0 bodies]
    constructor
    · rintro ⟨i, n, p, hn, hp, rfl⟩
      rw [Nat.zero_add]
      exact .compound hn hp
    · rintro (_ | _ | _ | @⟨_, _, i, n, p, hn, hp⟩)
      exact ⟨i, n, p, hn, hp, by rw [Nat.zero_add]⟩

theorem mem_occurrencesFrom (i : Nat) : ∀ (nodes : List Node) (o : Occurrence),
    o ∈ occurrencesFrom i nodes ↔
      ∃ (j : Nat) (n : Node) (p : Occurrence),
        nodes[j]? = some n ∧ n.Holds p ∧ o = p.below (i + j)
  | [], o => by
    rw [occurrencesFrom]
    simp
  | m :: rest, o => by
    rw [occurrencesFrom, List.mem_append, List.mem_map, mem_occurrencesFrom (i + 1) rest]
    constructor
    · rintro (⟨p, hp, rfl⟩ | ⟨j, n, p, hn, hp, rfl⟩)
      · exact ⟨0, m, p, rfl, (m.mem_occurrences p).mp hp, rfl⟩
      · exact ⟨j + 1, n, p, hn, hp, by rw [Nat.add_right_comm, Nat.add_assoc]⟩
    · rintro ⟨j, n, p, hn, hp, rfl⟩
      cases j with
      | zero =>
        cases hn
        exact .inl ⟨p, (m.mem_occurrences p).mpr hp, rfl⟩
      | succ j => exact .inr ⟨j, n, p, hn, hp, by rw [Nat.add_right_comm, Nat.add_assoc]⟩

end

mutual

theorem Node.occurrences_sorted :
    ∀ n : Node, n.occurrences.Pairwise fun o p => o.address < p.address
  | .comment _ | .expression _ _ | .simple _ => by
    rw [Node.occurrences]
    exact .nil
  | .definition form name span body => by
    have hbody := occurrencesFrom_sorted 0 body
    rw [Node.occurrences, List.pairwise_cons, List.pairwise_map]
    refine ⟨fun o ho => ?_, hbody⟩
    obtain ⟨p, hp, rfl⟩ := List.mem_map.mp ho
    obtain ⟨i, n, q, -, -, rfl⟩ := (mem_occurrencesFrom 0 body p).mp hp
    exact List.nil_lt_cons _ _
  | .decorated _ definition => by
    have hd := definition.occurrences_sorted
    rw [Node.occurrences, List.pairwise_map]
    exact hd.imp fun h => List.cons_lt_cons_iff.mpr (.inr ⟨rfl, h⟩)
  | .compound _ bodies => by
    rw [Node.occurrences]
    exact occurrencesFrom_sorted 0 bodies

theorem occurrencesFrom_sorted (i : Nat) : ∀ nodes : List Node,
    (occurrencesFrom i nodes).Pairwise fun o p => o.address < p.address
  | [] => by
    rw [occurrencesFrom]
    exact .nil
  | n :: rest => by
    have hn := n.occurrences_sorted
    have hrest := occurrencesFrom_sorted (i + 1) rest
    rw [occurrencesFrom, List.pairwise_append, List.pairwise_map]
    refine ⟨hn.imp fun h => List.cons_lt_cons_iff.mpr (.inr ⟨rfl, h⟩), hrest, fun o ho p hp => ?_⟩
    obtain ⟨o, -, rfl⟩ := List.mem_map.mp ho
    obtain ⟨j, m, p, -, -, rfl⟩ := (mem_occurrencesFrom (i + 1) rest p).mp hp
    have hlt : i < i + 1 + j := by omega
    exact List.cons_lt_cons_iff.mpr (.inl hlt)

end

theorem mem_occurrences_iff {nodes : List Node} {o : Occurrence} :
    o ∈ occurrencesFrom 0 nodes ↔ ModuleHolds nodes o := by
  rw [mem_occurrencesFrom]
  constructor
  · rintro ⟨i, n, p, hn, hp, rfl⟩
    rw [Nat.zero_add]
    exact .node hn hp
  · rintro @⟨i, n, p, hn, hp⟩
    exact ⟨i, n, p, hn, hp, by rw [Nat.zero_add]⟩

/-! ## The units of the list -/

namespace Occurrence

def enclosure (outer : Enclosure) (o : Occurrence) : Enclosure :=
  (o.enclosing.getLast?.map fun d => d.form.enclosure).getD outer

theorem enclosure_inside (outer : Enclosure) (d : Definition) (o : Occurrence) :
    (o.inside d).enclosure outer = o.enclosure d.form.enclosure := by
  unfold enclosure inside
  rw [List.getLast?_cons]
  cases o.enclosing.getLast? with
  | none => rfl
  | some e => rfl

theorem unitKind_enclosure (o : Occurrence) :
    o.definition.form.unitKind (o.enclosure .module) = o.kind := by
  unfold enclosure kind
  cases o.definition.form with
  | classBlock => rfl
  | function =>
    cases o.enclosing.getLast? with
    | none => rfl
    | some d => cases hd : d.form <;> simp [hd, DefinitionForm.enclosure, DefinitionForm.unitKind]

/-- The unit of the definition, in a tree that lies in `outer` and under the names `scope`. -/
def unit? (source : SourceLines) (scope : List String) (outer : Enclosure) (o : Occurrence) :
    Option DocumentedUnit :=
  documentedUnit? source (".".intercalate (scope ++ o.names))
    (o.definition.form.unitKind (o.enclosure outer)) o.definition.span o.definition.body

theorem unit?_root (source : SourceLines) (scope : List String) (outer : Enclosure)
    (d : Definition) :
    (root d).unit? source scope outer =
      documentedUnit? source (".".intercalate (scope ++ [d.name])) (d.form.unitKind outer) d.span
        d.body := rfl

theorem unit?_comp_inside (source : SourceLines) (scope : List String) (outer : Enclosure)
    (d : Definition) :
    unit? source scope outer ∘ inside d = unit? source (scope ++ [d.name]) d.form.enclosure := by
  funext o
  have hnames : scope ++ (o.inside d).names = scope ++ [d.name] ++ o.names := by
    simp [names, inside]
  rw [Function.comp_apply, unit?, hnames, enclosure_inside]
  rfl

def documented (o : Occurrence) : Bool := (docstring? o.definition.body).isSome

theorem documented_iff {o : Occurrence} :
    o.documented ↔ ∃ doc, OpensWith o.definition.body doc := by
  simp [documented, Option.isSome_iff_exists, docstring?_eq_some_iff]

/-- A definition with proper spans becomes a unit if and only if it is documented. -/
theorem unit?_cases (source : SourceLines) {o : Occurrence}
    (ho : o.definition.node.ProperSpans) :
    (o.documented = false ∧ o.unit? source [] .module = none) ∨
      (o.documented = true ∧ ∃ u, o.unit? source [] .module = some u ∧ o.Describes u) := by
  rw [Definition.node, Node.ProperSpans] at ho
  cases hd : o.documented with
  | false =>
    have hnone : ∀ doc, ¬OpensWith o.definition.body doc := by
      intro doc hdoc
      simp [documented_iff.mpr ⟨doc, hdoc⟩] at hd
    exact .inl ⟨rfl, documentedUnit?_eq_none _ _ _ _ hnone⟩
  | true =>
    obtain ⟨doc, hdoc⟩ := documented_iff.mp hd
    obtain ⟨last, hunit⟩ := documentedUnit?_eq_some source (".".intercalate o.names)
      (o.definition.form.unitKind (o.enclosure .module)) o.definition.span hdoc (hdoc.proper ho.2)
      ho.1.1 (.inl ho.1.2)
    exact .inr ⟨rfl, _, hunit, ⟨rfl, o.unitKind_enclosure, hdoc, rfl⟩⟩

end Occurrence

mutual

theorem Node.units_eq_filterMap (source : SourceLines) : ∀ (n : Node) (scope : List String)
    (outer : Enclosure),
    n.units source scope outer = n.occurrences.filterMap (Occurrence.unit? source scope outer)
  | .comment _, _, _ | .expression _ _, _, _ | .simple _, _, _ => by
    rw [Node.units, Node.occurrences]
    rfl
  | .definition form name span body, scope, outer => by
    have hbody := unitsOfNodes_eq_filterMap source body 0 (scope ++ [name]) form.enclosure
    rw [Node.units, Node.occurrences, List.filterMap_cons, List.filterMap_map,
      Occurrence.unit?_comp_inside, Occurrence.unit?_root, ← hbody]
    cases documentedUnit? source (".".intercalate (scope ++ [name])) (form.unitKind outer) span body
      with
    | none => rfl
    | some u => rfl
  | .decorated _ definition, scope, outer => by
    rw [Node.units, Node.occurrences, definition.units_eq_filterMap source, List.filterMap_map]
    rfl
  | .compound _ bodies, scope, outer => by
    rw [Node.units, Node.occurrences]
    exact unitsOfNodes_eq_filterMap source bodies 0 scope outer

theorem unitsOfNodes_eq_filterMap (source : SourceLines) : ∀ (nodes : List Node) (i : Nat)
    (scope : List String) (outer : Enclosure),
    unitsOfNodes source scope outer nodes =
      (occurrencesFrom i nodes).filterMap (Occurrence.unit? source scope outer)
  | [], _, _, _ => by
    rw [unitsOfNodes, occurrencesFrom]
    rfl
  | n :: rest, i, scope, outer => by
    rw [unitsOfNodes, occurrencesFrom, List.filterMap_append, List.filterMap_map,
      n.units_eq_filterMap source, unitsOfNodes_eq_filterMap source rest (i + 1)]
    rfl

end

/-- What a partial function makes of a list belongs to the members on which it is defined. -/
theorem forall₂_filterMap {α β : Type} {f : α → Option β} {defined : α → Bool} {S : α → β → Prop}
    {as : List α} (hdefined : ∀ a ∈ as, (f a).isSome = defined a)
    (h : ∀ a ∈ as, ∀ b, f a = some b → S a b) :
    List.Forall₂ S (as.filter defined) (as.filterMap f) := by
  induction as with
  | nil => exact .nil
  | cons a as ih =>
    have hrest := ih (fun b hb => hdefined b (List.mem_cons_of_mem _ hb))
      (fun b hb => h b (List.mem_cons_of_mem _ hb))
    have ha := hdefined a List.mem_cons_self
    cases hf : f a with
    | none =>
      rw [List.filterMap_cons_none hf, List.filter_cons_of_neg (by simp [← ha, hf])]
      exact hrest
    | some b =>
      rw [List.filterMap_cons_some hf, List.filter_cons_of_pos (by simp [← ha, hf])]
      exact .cons (h a List.mem_cons_self b hf) hrest

/-- The units of a list are those of its documented members. -/
theorem forall₂_describes (source : SourceLines) {all : List Occurrence}
    (hall : ∀ o ∈ all, o.definition.node.ProperSpans) :
    List.Forall₂ Occurrence.Describes (all.filter Occurrence.documented)
      (all.filterMap (Occurrence.unit? source [] .module)) := by
  apply forall₂_filterMap
  · intro o ho
    rcases o.unit?_cases source (hall o ho) with ⟨hd, hu⟩ | ⟨hd, u, hu, -⟩ <;> simp [hd, hu]
  · intro o ho v hv
    rcases o.unit?_cases source (hall o ho) with ⟨-, hu⟩ | ⟨-, u, hu, hdesc⟩
    · cases hu.symm.trans hv
    · cases hu.symm.trans hv
      exact hdesc

theorem moduleUnit_documentedUnit? (source : SourceLines) (name : String) {nodes : List Node}
    (hspans : ProperSpans nodes) :
    ModuleUnit name nodes
      (documentedUnit? source name .module ⟨1, source.size⟩ nodes).toList := by
  by_cases h : ∃ doc, OpensWith nodes doc
  · obtain ⟨doc, hdoc⟩ := h
    have hproper := hdoc.proper hspans
    have hend : 1 ≤ doc.last := Nat.le_trans hproper.1 hproper.2
    obtain ⟨last, hunit⟩ :=
      documentedUnit?_eq_some source name .module ⟨1, source.size⟩ hdoc hproper Nat.le.refl
        (.inr hend)
    rw [hunit]
    exact .documented rfl rfl hdoc
  · have h : ∀ doc, ¬OpensWith nodes doc := not_exists.mp h
    rw [documentedUnit?_eq_none _ _ _ _ h]
    exact .undocumented h

theorem moduleUnits_complete (source : SourceLines) (name : String) {nodes : List Node}
    (hspans : ProperSpans nodes) : Complete name nodes (moduleUnits source name nodes) := by
  have hall : ∀ o ∈ occurrencesFrom 0 nodes, o.definition.node.ProperSpans :=
    fun o ho => (mem_occurrences_iff.mp ho).properSpans hspans
  refine ⟨_, _, (occurrencesFrom 0 nodes).filter Occurrence.documented, rfl,
    moduleUnit_documentedUnit? source name hspans, ?_, fun o => ?_, ?_⟩
  · rw [unitsOfNodes_eq_filterMap source nodes 0]
    exact forall₂_describes source hall
  · rw [List.mem_filter, mem_occurrences_iff, Occurrence.documented_iff]
  · exact (occurrencesFrom_sorted 0 nodes).filter _

/-- From every tree with proper spans, and so from every source that has such a tree, all documented
definitions are extracted, named by what encloses them. -/
theorem extractUnits_complete {nodes : List Node} (hspans : ProperSpans nodes) :
    (∀ source name, Complete name nodes (moduleUnits source name nodes)) ∧
      ∀ (path : Path) (content : String), moduleOfTokens (scan content.toList) = .ok nodes →
        ∃ units, extractUnits path content = .ok units ∧
          Complete (path.stem?.getD "") nodes units := by
  refine ⟨fun source name => moduleUnits_complete source name hspans, fun path content hread => ?_⟩
  refine ⟨moduleUnits (Text.lines content.toList).toArray (path.stem?.getD "") nodes, ?_,
    moduleUnits_complete _ _ hspans⟩
  simp only [extractUnits, hread]

/-- A documented module with a class that is not documented, and in a branch of the class a method
with a decorator. -/
def branchedSource : String := "\"m\"\nclass A:\n if x:\n  @d\n  def f(): \"f\"\n"

def branchedTree : List Node :=
  [.expression ⟨1, 1⟩ [.literal "\"m\""],
    .definition .classBlock "A" ⟨2, 5⟩
      [.compound ⟨3, 5⟩
        [.decorated ⟨4, 5⟩
          (.definition .function "f" ⟨5, 5⟩ [.expression ⟨5, 5⟩ [.literal "\"f\""]])]]]

set_option maxRecDepth 100000 in
theorem branchedSource_tree : moduleOfTokens (scan branchedSource.toList) = .ok branchedTree := by
  cbv

theorem extractUnits_complete_branched :
    let units : List DocumentedUnit :=
      [⟨"m", .module, ⟨1, 1⟩, ⟨1, 5⟩⟩, ⟨"A.f", .method, ⟨5, 5⟩, ⟨5, 5⟩⟩]
    ProperSpans branchedTree ∧ moduleOfTokens (scan branchedSource.toList) = .ok branchedTree ∧
      extractUnits ⟨"m.py"⟩ branchedSource = .ok units ∧ Complete "m" branchedTree units := by
  intro units
  have hspans : ProperSpans branchedTree := by
    simp [branchedTree, ProperSpans, Node.ProperSpans, LineRange.Proper]
  have hname : (Path.mk "m.py").stem?.getD "" = "m" := by decide +kernel
  have hunits : extractUnits ⟨"m.py"⟩ branchedSource = .ok units := by
    simp only [extractUnits, branchedSource_tree, Except.ok.injEq]
    decide +kernel
  obtain ⟨found, hfound, hcomplete⟩ :=
    (extractUnits_complete hspans).2 ⟨"m.py"⟩ _ branchedSource_tree
  rw [hname] at hcomplete
  cases hfound.symm.trans hunits
  exact ⟨hspans, branchedSource_tree, hunits, hcomplete⟩

end DocDrift.Source
