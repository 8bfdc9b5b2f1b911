import DocDrift.Proofs.Vcs.Timeline
import Mathlib.Data.List.Basic

/-!
# The log that Mercurial writes of a timeline

Every line gives the changeset that it stands for back. The copies of other files do not hide the
one of this file, so the changesets tell the timeline's history.
-/

namespace DocDrift

def FileRevision.copies (r : FileRevision) : List Mercurial.Copy :=
  r.copiesBefore ++ ((r.source?.map fun s => ⟨s, r.path⟩).toList ++ r.copiesAfter)

namespace Mercurial

/-- A copy as the log writes it, without the separator behind it. -/
def Copy.text (c : Copy) : List Char :=
  c.source.text.toList ++ pairSeparator :: c.destination.text.toList

def logLine (r : FileRevision) : List Char :=
  r.id.toList ++ fieldSeparator :: (r.copies.map Copy.text).flatMap (· ++ [itemSeparator])

def logText (revs : List FileRevision) : List Char :=
  (revs.map logLine).flatMap (· ++ ['\n'])

def changesetOf (r : FileRevision) : Changeset := ⟨r.id, r.copies⟩

section
variable {c : Char}

theorem copies_plain (r : FileRevision) : ∀ c ∈ r.copies, c.source.Plain ∧ c.destination.Plain := by
  intro c hc
  rw [FileRevision.copies, List.mem_append, List.mem_append] at hc
  rcases hc with hc | hc | hc
  · exact r.copies_plain c (List.mem_append_left _ hc)
  · rw [Option.mem_toList, Option.map_eq_some_iff] at hc
    obtain ⟨s, hs, rfl⟩ := hc
    exact ⟨r.source_plain s hs, r.path_plain⟩
  · exact r.copies_plain c (List.mem_append_right _ hc)

theorem text_not_mem {copy : Copy} (h : copy.source.Plain ∧ copy.destination.Plain)
    (hc : c.toNat < 32) (hp : c ≠ pairSeparator) : c ∉ copy.text := by
  have hsource := h.1.not_mem hc
  have hdestination := h.2.not_mem hc
  simp [Copy.text, hsource, hdestination, hp]

theorem ofText?_text {copy : Copy} (h : copy.source.Plain ∧ copy.destination.Plain) :
    Copy.ofText? copy.text = some copy := by
  rw [Copy.ofText?, Copy.text, Text.splitOnce_singleton (h.1.not_mem (by decide))]
  simp

theorem logLine_not_mem (r : FileRevision) (hc : c.toNat < 32) (hid : Text.isHexDigit c = false)
    (hf : c ≠ fieldSeparator) (hp : c ≠ pairSeparator) (hi : c ≠ itemSeparator) :
    c ∉ logLine r := by
  have hcopies : ∀ copy ∈ r.copies, c ∉ copy.text := fun copy hcopy =>
    text_not_mem (copies_plain r copy hcopy) hc hp
  simp only [logLine, List.mem_append, List.mem_cons, List.mem_flatMap, List.mem_map,
    not_or]
  refine ⟨r.id_not_mem hid, hf, ?_⟩
  rintro ⟨text, ⟨copy, hcopy, rfl⟩, hmem | hmem | hmem⟩
  · exact hcopies copy hcopy hmem
  · exact hi hmem
  · cases hmem

theorem ofLine?_logLine (r : FileRevision) :
    Changeset.ofLine? (logLine r) = some (changesetOf r) := by
  have hitems : ∀ text ∈ r.copies.map Copy.text, itemSeparator ∉ text := by
    intro text htext
    obtain ⟨copy, hcopy, rfl⟩ := List.mem_map.mp htext
    exact text_not_mem (copies_plain r copy hcopy) (by decide) (by decide)
  have hid : r.id.toList.isEmpty = false := by simp [r.id_ne_nil]
  have hcopies : (r.copies.map Copy.text).filterMap Copy.ofText? = r.copies := by
    rw [List.filterMap_map]
    exact (List.filterMap_congr fun copy hcopy => ofText?_text (copies_plain r copy hcopy)).trans
      List.filterMap_some
  rw [Changeset.ofLine?, logLine, Text.splitOnce_singleton (r.id_not_mem (by decide))]
  simp only [r.id_trimmed.trim_eq, hid, Bool.false_eq_true, if_false,
    Text.splitAt_flatMap_append hitems, List.filterMap_append, hcopies]
  simp [changesetOf, Copy.ofText?, Text.splitOnce]

end

theorem changesets_logText (revs : List FileRevision) :
    changesets (logText revs) = revs.map changesetOf := by
  have hline : ∀ l ∈ revs.map logLine, '\n' ∉ l := by
    intro l hl
    obtain ⟨r, -, rfl⟩ := List.mem_map.mp hl
    exact logLine_not_mem r (by decide) (by decide) (by decide) (by decide) (by decide)
  have hread : ∀ r ∈ revs, ((Changeset.ofLine? ∘ Text.dropReturn) ∘ logLine) r =
      some (changesetOf r) := by
    intro r _
    have hreturn : '\r' ∉ logLine r :=
      logLine_not_mem r (by decide) (by decide) (by decide) (by decide) (by decide)
    simp only [Function.comp_apply, Text.dropReturn_of_not_mem hreturn, ofLine?_logLine]
  rw [changesets, logText, Text.lines_flatMap hline, List.filterMap_map, List.filterMap_map,
    List.filterMap_congr hread, List.filterMap_eq_map']

/-- A revision's own copy is found among those of other files. -/
theorem source?_changesetOf (r : FileRevision) : (changesetOf r).source? r.path = r.source? := by
  have hother : ∀ copies : List Copy, (∀ c ∈ copies, c.destination.same r.path = false) →
      copies.find? (fun c => c.destination.same r.path) = none := by
    intro copies h
    rw [List.find?_eq_none]
    intro c hc
    simp [h c hc]
  have hbefore := hother r.copiesBefore fun c hc => r.copies_other c (List.mem_append_left _ hc)
  have hafter := hother r.copiesAfter fun c hc => r.copies_other c (List.mem_append_right _ hc)
  rw [Changeset.source?, changesetOf, FileRevision.copies, List.find?_append, List.find?_append,
    hbefore, hafter]
  cases r.source? <;> simp

/-- The changesets of a timeline tell its history. -/
theorem historyFrom_changesetOf (follow : Bool) {t : Trail} {r : FileRevision}
    {rest : List FileRevision} (h : Timeline (r :: rest)) (ht : t.current = r.path) :
    historyFrom follow t ((r :: rest).map changesetOf) =
      timelineFrom follow t.crossed t.isTip (r :: rest) := by
  induction rest generalizing t r with
  | nil =>
    cases h with
    | creation hs =>
      have hentry : t.entry (changesetOf r).id = r.entry t.crossed t.isTip := by
        rw [Trail.entry, ht]
        rfl
      rw [List.map_cons, historyFrom, timelineFrom, hentry, ht, source?_changesetOf, hs]
      rfl
  | cons next rest ih =>
    cases h with
    | newer hnext hrest =>
      have hentry : t.entry (changesetOf r).id = r.entry t.crossed t.isTip := by
        rw [Trail.entry, ht]
        rfl
      rw [List.map_cons, historyFrom, timelineFrom, hentry, ht, source?_changesetOf]
      cases hs : r.source? with
      | none =>
        rw [hs, Option.getD_none] at hnext
        simp only [ih hrest (t := { current := r.path }) hnext]
      | some source =>
        rw [hs, Option.getD_some] at hnext
        simp only [ih hrest (t := { current := source, crossed := true }) hnext]
        rfl

/-- What Mercurial's log of a timeline is read as, asked for under the newest name. -/
theorem history_logText (follow : Bool) {r : FileRevision} {rest : List FileRevision}
    (h : Timeline (r :: rest)) :
    history r.path follow (changesets (logText (r :: rest))) = timeline follow (r :: rest) := by
  rw [changesets_logText, history, historyFrom_changesetOf follow h rfl]
  rfl

end Mercurial

end DocDrift
