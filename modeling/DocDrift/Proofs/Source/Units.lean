import DocDrift.Source.Extract

/-!
# The ranges of documented units

A definition whose docstring or whose whole would have no lines is no unit, so both ranges of every
unit that is extracted from a source are proper.
-/

namespace DocDrift.Source

theorem documentedUnit?_proper {source : SourceLines} {name : String} {kind : UnitKind}
    {span : LineRange} {body : List Node} {u : DocumentedUnit}
    (h : documentedUnit? source name kind span body = some u) :
    u.docRange.Proper ∧ u.bodyRange.Proper := by
  unfold documentedUnit? at h
  simp only [Option.bind_eq_bind, Option.bind_eq_some_iff] at h
  obtain ⟨doc, -, docRange, hdoc, bodyRange, hbody, hu⟩ := h
  cases hu
  exact ⟨(LineRange.ofBounds?_eq_some_iff.mp hdoc).2, (LineRange.ofBounds?_eq_some_iff.mp hbody).2⟩

theorem documentedUnit?_toList_proper {source : SourceLines} {name : String} {kind : UnitKind}
    {span : LineRange} {body : List Node} :
    ∀ u ∈ (documentedUnit? source name kind span body).toList,
      u.docRange.Proper ∧ u.bodyRange.Proper :=
  fun _ hu => documentedUnit?_proper (Option.mem_toList.mp hu)

mutual

theorem Node.units_proper (source : SourceLines) (scope : List String) (enclosing : Enclosure) :
    ∀ n : Node, ∀ u ∈ n.units source scope enclosing, u.docRange.Proper ∧ u.bodyRange.Proper
  | .comment _, u, hu | .expression _ _, u, hu | .simple _, u, hu => by
    simp only [Node.units, List.not_mem_nil] at hu
  | .definition form name span body, u, hu => by
    simp only [Node.units, List.mem_append] at hu
    rcases hu with hu | hu
    · exact documentedUnit?_toList_proper u hu
    · exact unitsOfNodes_proper source _ _ body u hu
  | .decorated _ definition, u, hu => by
    rw [Node.units] at hu
    exact definition.units_proper source scope enclosing u hu
  | .compound _ bodies, u, hu => by
    rw [Node.units] at hu
    exact unitsOfNodes_proper source scope enclosing bodies u hu

theorem unitsOfNodes_proper (source : SourceLines) (scope : List String) (enclosing : Enclosure) :
    ∀ nodes : List Node, ∀ u ∈ unitsOfNodes source scope enclosing nodes,
      u.docRange.Proper ∧ u.bodyRange.Proper
  | [], u, hu => by simp only [unitsOfNodes, List.not_mem_nil] at hu
  | n :: rest, u, hu => by
    rw [unitsOfNodes, List.mem_append] at hu
    rcases hu with hu | hu
    · exact n.units_proper source scope enclosing u hu
    · exact unitsOfNodes_proper source scope enclosing rest u hu

end

theorem extractUnits_proper {path : Path} {content : String} {units : List DocumentedUnit}
    (h : extractUnits path content = .ok units) :
    ∀ u ∈ units, u.docRange.Proper ∧ u.bodyRange.Proper := by
  unfold extractUnits at h
  dsimp only at h
  split at h
  · cases h
    intro u hu
    rw [moduleUnits, List.mem_append] at hu
    rcases hu with hu | hu
    · exact documentedUnit?_toList_proper u hu
    · exact unitsOfNodes_proper _ _ _ _ u hu
  · cases h

end DocDrift.Source
