import DocDrift.Proofs.Lines.Retrace
import DocDrift.Proofs.Source.Definitions

/-!
# How units lie in their source

The spans of a syntax tree are laid out as its statements are: a node covers those inside it, and
siblings follow one another. The range of a unit is the span of its definition without the blank
lines at its end, so it ends where its definition has its last filled line. Hence the ranges of two
units are nested as their definitions are, and apart if their definitions are apart.
-/

namespace DocDrift.Source

/-! ## The last filled line -/

namespace SourceLines
variable {source : SourceLines} {first last line : Nat}

theorem lastFilled_le (source : SourceLines) (first last : Nat) :
    source.lastFilled first last ≤ last := by
  induction last with
  | zero => exact Nat.le.refl
  | succ last ih =>
    rw [lastFilled]
    split
    · exact Nat.le_succ_of_le ih
    · exact Nat.le.refl

theorem blank_of_lastFilled_lt (h : source.lastFilled first last < line) (hline : line ≤ last) :
    source.blank line = true := by
  induction last with
  | zero => exact absurd hline (Nat.not_le_of_lt h)
  | succ last ih =>
    rw [lastFilled] at h
    split at h
    · next hblank =>
      simp only [Bool.and_eq_true, decide_eq_true_eq] at hblank
      rcases Nat.lt_succ_iff_lt_or_eq.mp (Nat.lt_succ_of_le hline) with hlt | rfl
      · exact ih h (Nat.le_of_lt_succ hlt)
      · exact hblank.2
    · exact absurd hline (Nat.not_le_of_lt h)

/-- A line that is not blank is not cut off. -/
theorem le_lastFilled_of_filled (h : source.blank line = false) (hline : line ≤ last) :
    line ≤ source.lastFilled first last := by
  by_contra hlt
  rw [blank_of_lastFilled_lt (Nat.lt_of_not_le hlt) hline] at h
  cases h

/-- If some line of the range is not blank, then the last one left is not. -/
theorem lastFilled_filled (h : source.blank line = false) (hfirst : first ≤ line)
    (hline : line ≤ last) : source.blank (source.lastFilled first last) = false := by
  induction last with
  | zero =>
    obtain rfl := Nat.le_zero.mp hline
    exact h
  | succ last ih =>
    rw [lastFilled]
    split
    · next hblank =>
      simp only [Bool.and_eq_true, decide_eq_true_eq] at hblank
      apply ih
      rcases Nat.lt_succ_iff_lt_or_eq.mp (Nat.lt_succ_of_le hline) with hlt | rfl
      · exact Nat.le_of_lt_succ hlt
      · rw [hblank.2] at h
        cases h
    · next hstop =>
      simp only [Bool.and_eq_true, decide_eq_true_eq, not_and, Bool.not_eq_true] at hstop
      rcases Nat.lt_or_ge first (last + 1) with hlt | hge
      · exact hstop hlt
      · obtain rfl : line = last + 1 := by omega
        exact h

/-- The lines of the span are lines of the source, and the first of them is not blank. -/
structure Rows (source : SourceLines) (span : LineRange) : Prop where
  within : span.Within source.size
  filled : source.blank span.first = false

instance (source : SourceLines) (span : LineRange) : Decidable (source.Rows span) :=
  decidable_of_iff (span.Within source.size ∧ source.blank span.first = false)
    ⟨fun h => ⟨h.1, h.2⟩, fun h => ⟨h.1, h.2⟩⟩

end SourceLines

/-! ## The lines of one unit -/

/-- The unit takes the lines of a span up to the last one that is not blank, and its docstring lies
among them. -/
structure Fills (source : SourceLines) (span : LineRange) (u : DocumentedUnit) : Prop where
  first : u.bodyRange.first = span.first
  pos : 1 ≤ u.bodyRange.first
  doc_first : u.bodyRange.first ≤ u.docRange.first
  doc_proper : u.docRange.first ≤ u.docRange.last
  doc_last : u.docRange.last ≤ u.bodyRange.last
  last : u.bodyRange.last ≤ span.last
  size : u.bodyRange.last ≤ source.size
  filled : source.blank u.bodyRange.last = false
  blank : ∀ line, u.bodyRange.last < line → line ≤ span.last → source.blank line = true

theorem documentedUnit?_eq_some_inv {source : SourceLines} {name : String} {kind : UnitKind}
    {span : LineRange} {body : List Node} {u : DocumentedUnit}
    (h : documentedUnit? source name kind span body = some u) :
    u.qualifiedName = name ∧ u.kind = kind ∧ OpensWith body u.docRange ∧
      u.bodyRange = ⟨span.first, max (source.lastFilled span.first span.last) u.docRange.last⟩ := by
  simp only [documentedUnit?, Option.bind_eq_bind, Option.bind_eq_some_iff] at h
  obtain ⟨doc, hdoc, docRange, hd, bodyRange, hb, hu⟩ := h
  cases hu
  obtain ⟨rfl, -⟩ := LineRange.ofBounds?_eq_some_iff.mp hd
  exact ⟨rfl, rfl, docstring?_eq_some_iff.mp hdoc, (LineRange.ofBounds?_eq_some_iff.mp hb).1⟩

/-- The docstring ends in a line that is not blank, so cutting off blank lines does not reach it. -/
theorem documentedUnit?_fills {source : SourceLines} {name : String} {kind : UnitKind}
    {span : LineRange} {body : List Node} {u : DocumentedUnit} (hfirst : 1 ≤ span.first)
    (hlast : span.last ≤ source.size) (hdoc : u.docRange.Proper)
    (hin : span.encloses u.docRange = true) (hfilled : source.blank u.docRange.last = false)
    (h : documentedUnit? source name kind span body = some u) : Fills source span u := by
  obtain ⟨-, -, -, hbody⟩ := documentedUnit?_eq_some_inv h
  rw [LineRange.encloses_iff] at hin
  have hstart : span.first ≤ u.docRange.last := Nat.le_trans hin.1 hdoc.2
  have hcut : u.docRange.last ≤ source.lastFilled span.first span.last :=
    SourceLines.le_lastFilled_of_filled hfilled hin.2
  have hle := source.lastFilled_le span.first span.last
  rw [Nat.max_eq_left hcut] at hbody
  constructor
  · rw [hbody]
  · rwa [hbody]
  · rw [hbody]
    exact hin.1
  · exact hdoc.2
  · rwa [hbody]
  · rwa [hbody]
  · rw [hbody]
    exact Nat.le_trans hle hlast
  · rw [hbody]
    exact SourceLines.lastFilled_filled hfilled hstart hin.2
  · rw [hbody]
    exact fun line => SourceLines.blank_of_lastFilled_lt

/-- A unit whose span lies inside that of another one ends no later, for its last line is not
blank. -/
theorem Fills.encloses {source : SourceLines} {outer inner : LineRange} {u v : DocumentedUnit}
    (hu : Fills source outer u) (hv : Fills source inner v) (h : outer.encloses inner = true) :
    u.bodyRange.encloses v.bodyRange = true := by
  rw [LineRange.encloses_iff] at h ⊢
  constructor
  · rw [hu.first, hv.first]
    exact h.1
  · by_contra hlt
    have hblank := hu.blank _ (Nat.lt_of_not_le hlt) (Nat.le_trans hv.last h.2)
    rw [hv.filled] at hblank
    cases hblank

/-! ## Spans of a tree -/

namespace Occurrence

def Contains (o p : Occurrence) : Prop := o.address <+: p.address ∧ o.address ≠ p.address

/-- Neither definition is the other or stands in it. -/
def Apart (o p : Occurrence) : Prop := ¬ o.address <+: p.address ∧ ¬ p.address <+: o.address

instance (o p : Occurrence) : Decidable (o.Contains p) := inferInstanceAs (Decidable (_ ∧ _))

instance (o p : Occurrence) : Decidable (o.Apart p) := inferInstanceAs (Decidable (_ ∧ _))

/-- The second definition stands in the first and its span in that of the first, or the two are
apart and the second begins no earlier than the first ends. -/
def Leads (o p : Occurrence) : Prop :=
  (o.Contains p ∧ o.definition.span.encloses p.definition.span = true) ∨
    (o.Apart p ∧ o.definition.span.last ≤ p.definition.span.first)

theorem Leads.below {o p : Occurrence} (h : o.Leads p) (i : Nat) :
    (o.below i).Leads (p.below i) := by
  simpa only [Leads, Contains, Apart, Occurrence.below, List.cons_prefix_cons, true_and, ne_eq,
    List.cons.injEq] using h

theorem Contains.antisymm {o p : Occurrence} (h : o.Contains p) : ¬ p.Contains o := by
  intro h'
  exact h.2 (h.1.eq_of_length_le h'.1.length_le)

end Occurrence

mutual

/-- The spans in a tree are rows of the source, a node covers the nodes directly inside it, and no
node begins before the end of one in front of it. -/
def Node.LaidOut (source : SourceLines) : Node → Prop
  | .comment span | .expression span _ | .simple span => source.Rows span
  | .definition _ _ span body =>
    source.Rows span ∧ (∀ n ∈ body, span.encloses n.span = true) ∧ LaidOut source body
  | .decorated span definition =>
    source.Rows span ∧ span.encloses definition.span = true ∧ definition.LaidOut source
  | .compound span bodies =>
    source.Rows span ∧ (∀ n ∈ bodies, span.encloses n.span = true) ∧ LaidOut source bodies

/-- The spans in a row of trees are those of nodes that follow one another. -/
def LaidOut (source : SourceLines) : List Node → Prop
  | [] => True
  | n :: rest =>
    n.LaidOut source ∧ (∀ m ∈ rest, n.span.last ≤ m.span.first) ∧ LaidOut source rest

end

section
variable {source : SourceLines}

theorem LaidOut.of_mem {nodes : List Node} (h : LaidOut source nodes) :
    ∀ n ∈ nodes, n.LaidOut source := by
  induction nodes with
  | nil =>
    intro n hn
    cases hn
  | cons m rest ih =>
    rw [LaidOut] at h
    intro n hn
    rcases List.mem_cons.mp hn with rfl | hn
    · exact h.1
    · exact ih h.2.2 n hn

theorem Node.LaidOut.rows {n : Node} (h : n.LaidOut source) : source.Rows n.span := by
  cases n with
  | comment | expression | simple =>
    rw [Node.LaidOut] at h
    exact h
  | definition | decorated | compound =>
    rw [Node.LaidOut] at h
    exact h.1

theorem Node.Holds.laidOut {n : Node} {o : Occurrence} (ho : n.Holds o) (h : n.LaidOut source) :
    o.definition.node.LaidOut source := by
  induction ho with
  | root d => exact h
  | body hi _ ih =>
    rw [Definition.node, Node.LaidOut] at h
    exact ih (h.2.2.of_mem _ (List.mem_of_getElem? hi))
  | decorated _ ih =>
    rw [Node.LaidOut] at h
    exact ih h.2.2
  | compound hi _ ih =>
    rw [Node.LaidOut] at h
    exact ih (h.2.2.of_mem _ (List.mem_of_getElem? hi))

theorem ModuleHolds.laidOut {nodes : List Node} {o : Occurrence} (ho : ModuleHolds nodes o)
    (h : LaidOut source nodes) : o.definition.node.LaidOut source := by
  obtain ⟨hi, ho⟩ := ho
  exact ho.laidOut (h.of_mem _ (List.mem_of_getElem? hi))

theorem encloses_trans {r s t : LineRange} (h : r.encloses s = true) (h' : s.encloses t = true) :
    r.encloses t = true := by
  rw [LineRange.encloses_iff] at *
  omega

theorem Node.Holds.encloses {n : Node} {o : Occurrence} (ho : n.Holds o) (h : n.LaidOut source) :
    n.span.encloses o.definition.span = true := by
  induction ho with
  | root d => exact LineRange.encloses_iff.mpr ⟨Nat.le.refl, Nat.le.refl⟩
  | body hi _ ih =>
    rw [Definition.node, Node.LaidOut] at h
    have hn := List.mem_of_getElem? hi
    exact encloses_trans (h.2.1 _ hn) (ih (h.2.2.of_mem _ hn))
  | decorated _ ih =>
    rw [Node.LaidOut] at h
    exact encloses_trans h.2.1 (ih h.2.2)
  | compound hi _ ih =>
    rw [Node.LaidOut] at h
    have hn := List.mem_of_getElem? hi
    exact encloses_trans (h.2.1 _ hn) (ih (h.2.2.of_mem _ hn))

mutual

theorem Node.occurrences_lead :
    ∀ n : Node, n.LaidOut source → n.occurrences.Pairwise Occurrence.Leads
  | .comment _, _ | .expression _ _, _ | .simple _, _ => by
    rw [Node.occurrences]
    exact .nil
  | .definition form name span body, h => by
    rw [Node.LaidOut] at h
    have hbody := occurrencesFrom_lead 0 body h.2.2
    rw [Node.occurrences, List.pairwise_cons, List.pairwise_map]
    refine ⟨fun o ho => ?_, hbody⟩
    obtain ⟨p, hp, rfl⟩ := List.mem_map.mp ho
    obtain ⟨j, n, q, hn, hq, rfl⟩ := (mem_occurrencesFrom 0 body p).mp hp
    have hmem := List.mem_of_getElem? hn
    have hin := encloses_trans (h.2.1 n hmem) (hq.encloses (h.2.2.of_mem n hmem))
    exact .inl ⟨⟨List.nil_prefix, nofun⟩, hin⟩
  | .decorated _ definition, h => by
    rw [Node.LaidOut] at h
    have hd := definition.occurrences_lead h.2.2
    rw [Node.occurrences, List.pairwise_map]
    exact hd.imp fun hl => hl.below 0
  | .compound _ bodies, h => by
    rw [Node.LaidOut] at h
    rw [Node.occurrences]
    exact occurrencesFrom_lead 0 bodies h.2.2

theorem occurrencesFrom_lead (i : Nat) :
    ∀ nodes : List Node, LaidOut source nodes → (occurrencesFrom i nodes).Pairwise Occurrence.Leads
  | [], _ => by
    rw [occurrencesFrom]
    exact .nil
  | n :: rest, h => by
    rw [LaidOut] at h
    have hn := n.occurrences_lead h.1
    have hrest := occurrencesFrom_lead (i + 1) rest h.2.2
    rw [occurrencesFrom, List.pairwise_append, List.pairwise_map]
    refine ⟨hn.imp fun hl => hl.below i, hrest, fun o ho p hp => ?_⟩
    obtain ⟨o, hheld, rfl⟩ := List.mem_map.mp ho
    obtain ⟨j, m, p, hm, hheld', rfl⟩ := (mem_occurrencesFrom (i + 1) rest p).mp hp
    have hmem := List.mem_of_getElem? hm
    have hspan := LineRange.encloses_iff.mp (((n.mem_occurrences o).mp hheld).encloses h.1)
    have hspan' := LineRange.encloses_iff.mp (hheld'.encloses (h.2.2.of_mem m hmem))
    have hbetween := h.2.1 m hmem
    have hne : i ≠ i + 1 + j := by omega
    refine .inr ⟨?_, ?_⟩
    · simp [Occurrence.Apart, Occurrence.below, List.cons_prefix_cons, hne, hne.symm]
    · simp only [Occurrence.below]
      omega

end

theorem Occurrence.Leads.encloses {o p : Occurrence} (h : o.Leads p) :
    (o.Contains p → o.definition.span.encloses p.definition.span = true) ∧
      (p.Contains o → p.definition.span.encloses o.definition.span = true) := by
  rcases h with ⟨hc, he⟩ | ⟨ha, -⟩
  · exact ⟨fun _ => he, fun hc' => absurd hc' hc.antisymm⟩
  · exact ⟨fun hc => absurd hc.1 ha.1, fun hc => absurd hc.1 ha.2⟩

/-- A definition that stands in another one has its span in that of the other. -/
theorem LaidOut.encloses_of_contains {nodes : List Node} (h : LaidOut source nodes)
    {o p : Occurrence} (ho : ModuleHolds nodes o) (hp : ModuleHolds nodes p) (hc : o.Contains p) :
    o.definition.span.encloses p.definition.span = true := by
  let R (o p : Occurrence) : Prop :=
    (o.Contains p → o.definition.span.encloses p.definition.span = true) ∧
      (p.Contains o → p.definition.span.encloses o.definition.span = true)
  have : Std.Symm R := ⟨fun _ _ hr => ⟨hr.2, hr.1⟩⟩
  have hpairs : (occurrencesFrom 0 nodes).Pairwise R :=
    (occurrencesFrom_lead 0 nodes h).imp fun hl => hl.encloses
  have hself : ∀ o ∈ occurrencesFrom 0 nodes, R o o :=
    fun o _ => ⟨fun hc => absurd rfl hc.2, fun hc => absurd rfl hc.2⟩
  have hall := hpairs.forall_of_forall hself
  exact (hall (mem_occurrences_iff.mpr ho) (mem_occurrences_iff.mpr hp)).1 hc

end

/-! ## The units of a source -/

/-- How the nodes of a source lie in it: their spans are laid out, definitions that stand apart
share no line, a definition begins below the first line of each one that it stands in, and no
docstring ends in a blank line. -/
structure Layout (source : SourceLines) (nodes : List Node) : Prop where
  spans : LaidOut source nodes
  apart : ∀ o, ModuleHolds nodes o → ∀ p, ModuleHolds nodes p → o.Apart p →
    o.definition.span.last < p.definition.span.first ∨
      p.definition.span.last < o.definition.span.first
  below : ∀ o, ModuleHolds nodes o → ∀ p, ModuleHolds nodes p → o.Contains p →
    o.definition.span.first < p.definition.span.first
  moduleDoc : ∀ doc, OpensWith nodes doc → source.blank doc.last = false
  doc : ∀ o, ModuleHolds nodes o → ∀ doc, OpensWith o.definition.body doc →
    source.blank doc.last = false

/-- The ranges of two units share no line, or one encloses the other. -/
def Laminar (u v : DocumentedUnit) : Prop :=
  (u.bodyRange.last < v.bodyRange.first ∨ v.bodyRange.last < u.bodyRange.first) ∨
    u.bodyRange.encloses v.bodyRange = true ∨ v.bodyRange.encloses u.bodyRange = true

/-- The unit of a module and the units of the definitions in it lie in the source as the module and
the definitions do. -/
structure Nested (source : SourceLines) (name : String) (nodes : List Node)
    (own : Option DocumentedUnit) (found : List Occurrence) (rest : List DocumentedUnit) :
    Prop where
  moduleUnit : ∀ u, own = some u → u.qualifiedName = name ∧ u.kind = .module ∧
    Fills source ⟨1, source.size⟩ u
  held : ∀ o ∈ found, ModuleHolds nodes o
  described : List.Forall₂
    (fun (o : Occurrence) u => o.Describes u ∧ Fills source o.definition.span u) found rest
  sorted : rest.Pairwise fun u v => u.bodyRange.first < v.bodyRange.first
  laminar : ∀ u ∈ own.toList ++ rest, ∀ v ∈ own.toList ++ rest, Laminar u v
  nested : ∀ a ∈ found.zip rest, ∀ b ∈ found.zip rest, a.1.Contains b.1 →
    a.2.bodyRange.encloses b.2.bodyRange = true
  covered : ∀ u, own = some u → ∀ v ∈ rest, u.bodyRange.encloses v.bodyRange = true

section
variable {source : SourceLines} {name : String} {nodes : List Node}

theorem OpensWith.encloses {span doc : LineRange} {body : List Node} (h : OpensWith body doc)
    (hin : ∀ n ∈ body, span.encloses n.span = true) : span.encloses doc = true := by
  obtain ⟨comments, rest, e, rfl, -, -⟩ := h
  exact hin (.expression doc [e]) (by simp)

theorem OpensWith.rows {doc : LineRange} {body : List Node} (h : OpensWith body doc)
    (hbody : LaidOut source body) : source.Rows doc := by
  obtain ⟨comments, rest, e, rfl, -, -⟩ := h
  exact (hbody.of_mem (.expression doc [e]) (by simp)).rows

/-- The unit of a definition describes it and takes its lines. -/
theorem Layout.unit?_fills (h : Layout source nodes) {o : Occurrence} (ho : ModuleHolds nodes o)
    {u : DocumentedUnit} (hu : o.unit? source [] .module = some u) :
    o.Describes u ∧ Fills source o.definition.span u := by
  obtain ⟨hname, hkind, hdoc, hbody⟩ := documentedUnit?_eq_some_inv hu
  have hlaid := ho.laidOut h.spans
  rw [Definition.node, Node.LaidOut] at hlaid
  obtain ⟨hrows, hin, hnodes⟩ := hlaid
  constructor
  · exact ⟨hname, hkind.trans o.unitKind_enclosure, hdoc, by rw [hbody]⟩
  · exact documentedUnit?_fills hrows.within.1.1 hrows.within.2 (hdoc.rows hnodes).within.1
      (hdoc.encloses hin) (h.doc o ho _ hdoc) hu

theorem Layout.moduleUnit_fills (h : Layout source nodes) {u : DocumentedUnit}
    (hu : documentedUnit? source name .module ⟨1, source.size⟩ nodes = some u) :
    u.qualifiedName = name ∧ u.kind = .module ∧ Fills source ⟨1, source.size⟩ u := by
  obtain ⟨hname, hkind, hdoc, -⟩ := documentedUnit?_eq_some_inv hu
  have hrows := (hdoc.rows h.spans).within
  have hin : (LineRange.mk 1 source.size).encloses u.docRange = true :=
    LineRange.encloses_iff.mpr ⟨hrows.1.1, hrows.2⟩
  exact ⟨hname, hkind,
    documentedUnit?_fills Nat.le.refl Nat.le.refl hrows.1 hin (h.moduleDoc _ hdoc) hu⟩

/-- Of two definitions in the order of the source, either the second stands in the first and begins
below its first line, or the second begins behind the last line of the first. -/
theorem Layout.pairs (h : Layout source nodes) :
    (occurrencesFrom 0 nodes).Pairwise fun o p =>
      o.definition.span.first < p.definition.span.first ∧
        (o.definition.span.encloses p.definition.span = true ∨
          o.definition.span.last < p.definition.span.first) := by
  apply (occurrencesFrom_lead 0 nodes h.spans).imp_of_mem
  intro o p ho hp hl
  have ho := mem_occurrences_iff.mp ho
  have hp := mem_occurrences_iff.mp hp
  rcases hl with ⟨hc, he⟩ | ⟨ha, hle⟩
  · exact ⟨h.below o ho p hp hc, .inl he⟩
  · have hproper : ∀ q, ModuleHolds nodes q →
        q.definition.span.first ≤ q.definition.span.last :=
      fun q hq => (hq.laidOut h.spans).rows.within.1.2
    have := hproper o ho
    have := hproper p hp
    rcases h.apart o ho p hp ha with hlt | hlt
    · exact ⟨by omega, .inr hlt⟩
    · omega

theorem Layout.unit_pairs (h : Layout source nodes) :
    ((occurrencesFrom 0 nodes).filterMap (Occurrence.unit? source [] .module)).Pairwise fun u v =>
      u.bodyRange.first < v.bodyRange.first ∧ Laminar u v := by
  apply List.pairwise_filterMap.mpr
  apply h.pairs.imp_of_mem
  intro o p ho hp hpair u hu v hv
  have hu := (h.unit?_fills (mem_occurrences_iff.mp ho) hu).2
  have hv := (h.unit?_fills (mem_occurrences_iff.mp hp) hv).2
  obtain ⟨hfirst, hspans⟩ := hpair
  constructor
  · rwa [hu.first, hv.first]
  · rcases hspans with he | hlt
    · exact .inr (.inl (hu.encloses hv he))
    · have hlast := hu.last
      have hstart := hv.first
      exact .inl (.inl (by omega))

theorem Laminar.symm {u v : DocumentedUnit} (h : Laminar u v) : Laminar v u :=
  h.imp Or.symm Or.symm

theorem Laminar.refl (u : DocumentedUnit) : Laminar u u :=
  .inr (.inl (LineRange.encloses_iff.mpr ⟨Nat.le.refl, Nat.le.refl⟩))

theorem Layout.moduleUnit_encloses (h : Layout source nodes) {o : Occurrence}
    {u v : DocumentedUnit} (hu : Fills source ⟨1, source.size⟩ u) (ho : ModuleHolds nodes o)
    (hv : o.unit? source [] .module = some v) : u.bodyRange.encloses v.bodyRange = true := by
  have hwithin := (ho.laidOut h.spans).rows.within
  have hin : (LineRange.mk 1 source.size).encloses o.definition.span = true :=
    LineRange.encloses_iff.mpr ⟨hwithin.1.1, hwithin.2⟩
  exact hu.encloses (h.unit?_fills ho hv).2 hin

theorem Layout.nested (h : Layout source nodes) (name : String) :
    ∃ own found rest, moduleUnits source name nodes = own.toList ++ rest ∧
      Nested source name nodes own found rest := by
  let own := documentedUnit? source name .module ⟨1, source.size⟩ nodes
  let unit? := Occurrence.unit? source [] .module
  let found := (occurrencesFrom 0 nodes).filter fun o => (unit? o).isSome
  let rest := (occurrencesFrom 0 nodes).filterMap unit?
  have hown : ∀ u, own = some u →
      u.qualifiedName = name ∧ u.kind = .module ∧ Fills source ⟨1, source.size⟩ u :=
    fun u hu => h.moduleUnit_fills hu
  have hheld : ∀ o ∈ found, ModuleHolds nodes o :=
    fun o ho => mem_occurrences_iff.mp (List.mem_filter.mp ho).1
  have hdescribed : List.Forall₂ (fun (o : Occurrence) u => o.Describes u ∧
      Fills source o.definition.span u) found rest :=
    forall₂_filterMap (fun _ _ => rfl) fun o ho u hu =>
      h.unit?_fills (mem_occurrences_iff.mp ho) hu
  have hcovered : ∀ u, own = some u → ∀ v ∈ rest, u.bodyRange.encloses v.bodyRange = true := by
    intro u hu v hv
    obtain ⟨o, ho, hov⟩ := List.mem_filterMap.mp hv
    exact h.moduleUnit_encloses (hown u hu).2.2 (mem_occurrences_iff.mp ho) hov
  refine ⟨own, found, rest, ?_, hown, hheld, hdescribed, h.unit_pairs.imp And.left, ?_, ?_,
    hcovered⟩
  · rw [moduleUnits, unitsOfNodes_eq_filterMap source nodes 0]
  · have hlaminar : (own.toList ++ rest).Pairwise Laminar := by
      rw [List.pairwise_append]
      refine ⟨?_, h.unit_pairs.imp And.right, ?_⟩
      · cases own <;> simp
      · intro u hu v hv
        exact .inr (.inl (hcovered u (Option.mem_toList.mp hu) v hv))
    have : Std.Symm Laminar := ⟨fun _ _ => Laminar.symm⟩
    exact fun u hu v hv => hlaminar.forall_of_forall (fun u _ => .refl u) hu hv
  · intro a ha b hb hc
    have hpair {a : Occurrence × DocumentedUnit} (ha : a ∈ found.zip rest) :=
      List.forall₂_zip hdescribed ha
    have hin := h.spans.encloses_of_contains (hheld a.1 (List.of_mem_zip ha).1)
      (hheld b.1 (List.of_mem_zip hb).1) hc
    exact (hpair ha).2.encloses (hpair hb).2 hin

end

/-- Every source whose nodes lie in it as they should has its units, and these lie in it as the
definitions do. -/
theorem extractUnits_nested (path : Path) {content : String} {nodes : List Node}
    (hread : moduleOfTokens (scan content.toList) = .ok nodes)
    (h : Layout (Text.lines content.toList).toArray nodes) :
    ∃ own found rest, extractUnits path content = .ok (own.toList ++ rest) ∧
      Nested (Text.lines content.toList).toArray (path.stem?.getD "") nodes own found rest := by
  obtain ⟨own, found, rest, hunits, hnested⟩ := h.nested (path.stem?.getD "")
  refine ⟨own, found, rest, ?_, hnested⟩
  simp only [extractUnits, hread, hunits]

/-- A documented module with a class and a method in it, a function behind a blank line, and a blank
line at the end. -/
def nestedSource : String := "\"m\"\nclass A:\n \"a\"\n def f():\n  \"f\"\n \ndef g(): \"g\"\n\n"

def nestedTree : List Node :=
  [.expression ⟨1, 1⟩ [.literal "\"m\""],
    .definition .classBlock "A" ⟨2, 5⟩
      [.expression ⟨3, 3⟩ [.literal "\"a\""],
        .definition .function "f" ⟨4, 5⟩ [.expression ⟨5, 5⟩ [.literal "\"f\""]]],
    .definition .function "g" ⟨7, 7⟩ [.expression ⟨7, 7⟩ [.literal "\"g\""]]]

set_option maxRecDepth 100000 in
theorem nestedSource_tree : moduleOfTokens (scan nestedSource.toList) = .ok nestedTree := by
  cbv

theorem layout_nestedTree : Layout (Text.lines nestedSource.toList).toArray nestedTree := by
  have hlines : (Text.lines nestedSource.toList).toArray =
      #["\"m\"".toList, "class A:".toList, " \"a\"".toList, " def f():".toList,
        "  \"f\"".toList, " ".toList, "def g(): \"g\"".toList, []] := by decide +kernel
  rw [hlines]
  constructor
  · simp only [nestedTree, LaidOut, Node.LaidOut]
    decide
  · simp only [← mem_occurrences_iff]
    decide
  · simp only [← mem_occurrences_iff]
    decide
  · simp only [← docstring?_eq_some_iff]
    decide
  · simp only [← mem_occurrences_iff, ← docstring?_eq_some_iff]
    decide

theorem extractUnits_nested_nestedSource :
    let units : List DocumentedUnit :=
      [⟨"m", .module, ⟨1, 1⟩, ⟨1, 7⟩⟩, ⟨"A", .classBlock, ⟨3, 3⟩, ⟨2, 5⟩⟩,
        ⟨"A.f", .method, ⟨5, 5⟩, ⟨4, 5⟩⟩, ⟨"g", .function, ⟨7, 7⟩, ⟨7, 7⟩⟩]
    moduleOfTokens (scan nestedSource.toList) = .ok nestedTree ∧
      Layout (Text.lines nestedSource.toList).toArray nestedTree ∧
      extractUnits ⟨"m.py"⟩ nestedSource = .ok units ∧
      ∃ own found rest, own.toList ++ rest = units ∧
        Nested (Text.lines nestedSource.toList).toArray "m" nestedTree own found rest := by
  intro units
  have hname : (Path.mk "m.py").stem?.getD "" = "m" := by decide +kernel
  have hunits : extractUnits ⟨"m.py"⟩ nestedSource = .ok units := by
    simp only [extractUnits, nestedSource_tree, Except.ok.injEq]
    decide +kernel
  obtain ⟨own, found, rest, hfound, hnested⟩ :=
    extractUnits_nested ⟨"m.py"⟩ nestedSource_tree layout_nestedTree
  rw [hname] at hnested
  have hsame : own.toList ++ rest = units := Except.ok.inj (hfound.symm.trans hunits)
  exact ⟨nestedSource_tree, layout_nestedTree, hunits, own, found, rest, hsame, hnested⟩

end DocDrift.Source
