import DocDrift.Mercurial.Log
import DocDrift.Proofs.Path

/-!
# Timelines

A timeline is a line of revisions of one file: it came into being, was modified, and was renamed
from time to time. It is what both systems have in mind when they write their logs.
-/

namespace DocDrift

structure FileRevision where
  id : String
  path : Path
  /-- The name before, if the revision renamed the file. -/
  source? : Option Path
  /-- How similar git found the file under its new name to be. -/
  score : List Char
  /-- The copies of other files that Mercurial lists in front of that of this one. -/
  copiesBefore : List Mercurial.Copy
  /-- Those that it lists behind it. -/
  copiesAfter : List Mercurial.Copy
  id_ne_nil : id.toList ≠ []
  id_hex : id.toList.all Text.isHexDigit = true
  path_plain : path.Plain
  source_plain : ∀ s ∈ source?, s.Plain
  score_digit : score.all Char.isDigit = true
  copies_plain : ∀ c ∈ copiesBefore ++ copiesAfter, c.source.Plain ∧ c.destination.Plain
  copies_other : ∀ c ∈ copiesBefore ++ copiesAfter, c.destination.same path = false

namespace FileRevision

def entry (r : FileRevision) (crossed isTip : Bool) : HistoryEntry where
  revision := ⟨r.id, isTip⟩
  path := r.path
  crossedRename := crossed

theorem id_trimmed (r : FileRevision) : Text.Trimmed r.id.toList :=
  Text.trimmed_of_isHexDigit r.id_ne_nil r.id_hex

theorem id_not_mem (r : FileRevision) {c : Char} (hc : Text.isHexDigit c = false) :
    c ∉ r.id.toList := by
  intro hmem
  rw [List.all_eq_true.mp r.id_hex c hmem] at hc
  cases hc

end FileRevision

/-- The revisions lead, newest first, back to the one that created the file. -/
inductive Timeline : List FileRevision → Prop where
  | creation {r : FileRevision} : r.source? = none → Timeline [r]
  | newer {r next : FileRevision} {rest : List FileRevision} :
    r.source?.getD r.path = next.path → Timeline (next :: rest) → Timeline (r :: next :: rest)

/-- The history that a timeline tells; unless renames are followed, it stops at the first one. -/
def timelineFrom (follow crossed isTip : Bool) : List FileRevision → FileHistory
  | [] => .empty
  | r :: rest =>
    match r.source? with
    | none => (timelineFrom follow false false rest).behind (r.entry crossed isTip)
    | some source =>
      if follow then (timelineFrom follow true false rest).behind (r.entry crossed isTip)
      else .single (r.entry crossed isTip) (.renamed ⟨r.path, source, r.id⟩)

def timeline (follow : Bool) (revs : List FileRevision) : FileHistory :=
  timelineFrom follow false true revs

/-- To follow renames only adds older entries. -/
theorem timelineFrom_prefix (follow crossed isTip : Bool) (revs : List FileRevision) :
    (timelineFrom follow crossed isTip revs).entries <+:
      (timelineFrom true crossed isTip revs).entries := by
  induction revs generalizing crossed isTip with
  | nil => exact List.prefix_rfl
  | cons r rest ih =>
    unfold timelineFrom
    cases r.source? with
    | none => exact List.cons_prefix_cons.mpr ⟨rfl, ih _ _⟩
    | some source =>
      cases follow with
      | true => exact List.prefix_rfl
      | false => exact List.cons_prefix_cons.mpr ⟨rfl, List.nil_prefix⟩

theorem timeline_get? {follow : Bool} {revs : List FileRevision} {i : Nat} {e : HistoryEntry}
    (h : (timeline follow revs).get? i = some e) : (timeline true revs).get? i = some e := by
  have hprefix := timelineFrom_prefix follow false true revs
  unfold FileHistory.get? timeline at *
  obtain ⟨hi, rfl⟩ := List.getElem?_eq_some_iff.mp h
  rw [List.prefix_iff_getElem?.mp hprefix i hi]

end DocDrift
