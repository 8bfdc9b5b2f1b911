import DocDrift.History.Survey
import DocDrift.Proofs.History.Trace
import Mathlib.Data.List.Forall2

/-!
# What a statistic says

`Chronicle.measure` walks along two ranges of each unit, and what it has asked before does not show
in the statistics. `Measured` says what a statistic reports in terms of the ranges alone: where the
documentation was last modified or its trace ends, and how many newer transitions modify the unit.
-/

namespace DocDrift

namespace Chronicle
variable {c : Chronicle}

/-- The documentation in `range` was last modified by the transition of entry `d`; if none modifies
it, `d` is the oldest entry to which it can be followed. -/
def LastModified (c : Chronicle) (range : LineRange) (d : Nat) : Prop :=
  (c.modifies range d = true ∧ ∀ i < d, c.modifies range i = false) ∨
    ((∀ i, c.modifies range i = false) ∧ (∃ live, c.liveAt? range d = some live) ∧
      c.liveAt? range (d + 1) = none)

structure Measured (c : Chronicle) (unit : DocumentedUnit) (s : UnitStatistic) : Prop where
  unit_eq : s.unit = unit
  lastModified : c.LastModified unit.docRange s.lastDocRevisionAge
  revision : ∃ entry, c.history.get? s.lastDocRevisionAge = some entry ∧
    s.lastDocRevision = entry.revision
  changes : s.changesSinceCount =
    ((List.range s.lastDocRevisionAge).filter (c.modifies unit.bodyRange)).length
  truncated : s.truncatedByRename =
    (c.history.truncatedByRename && decide (c.oldest = s.lastDocRevisionAge))

theorem LastModified.reached {range : LineRange} {d : Nat} (h : c.LastModified range d) :
    ∃ live, c.liveAt? range d = some live := by
  obtain ⟨hm, -⟩ | ⟨-, hlive, -⟩ := h
  · obtain ⟨live, -, hlive, -⟩ := modifies_eq_true_iff.mp hm
    exact ⟨live, hlive⟩
  · exact hlive

theorem LastModified.before {range : LineRange} {d : Nat} (h : c.LastModified range d) :
    ∀ i < d, c.modifies range i = false := by
  obtain ⟨-, hb⟩ | ⟨hb, -, -⟩ := h
  · exact hb
  · exact fun i _ => hb i

/-- There is only one such entry. -/
theorem LastModified.unique {range : LineRange} {d e : Nat} (h : c.LastModified range d)
    (h' : c.LastModified range e) : d = e := by
  have key : ∀ {d e : Nat}, c.LastModified range d → c.LastModified range e → ¬ d < e := by
    intro d e hd he hlt
    obtain ⟨hm, -⟩ | ⟨-, -, hlost⟩ := hd
    · rw [he.before d hlt] at hm
      cases hm
    · obtain ⟨live, hlive⟩ := he.reached
      rw [liveAt?_mono (show d + 1 ≤ e by omega) hlost] at hlive
      cases hlive
  have := key h h'
  have := key h' h
  omega

/-! ## The two walks of a unit -/

theorem walk_known (limit : WalkLimit) (range : LineRange) {known : KnownDiffs}
    (hk : c.Faithful known) : c.Faithful (c.walk range limit known).known :=
  (walkFrom_spec limit 0 range hk).1

theorem walk_trace {range : LineRange} {limit : WalkLimit} {known : KnownDiffs} {w : Walk}
    (hk : c.Faithful known) (h : (c.walk range limit known).outcome = .ok w) :
    Trace c limit 0 range (c.walk range limit known).steps w := by
  obtain ⟨-, ⟨w', hw, ht⟩ | ⟨e, j, he, -⟩⟩ := walkFrom_spec limit 0 range hk
  · cases h.symm.trans hw
    exact ht
  · cases h.symm.trans he

section
variable {range : LineRange} {steps : List WalkStep} {w : Walk}

/-- The walk along the documentation ends where the documentation was last modified. -/
theorem Trace.docIndex (h : Trace c .firstModification 0 range steps w) :
    docIndex w = w.stop.index ∧ c.LastModified range w.stop.index := by
  obtain ⟨hlist, hbefore⟩ := h.modifying_of_first (liveAt?_zero range)
  have hbefore' := fun i (hi : i < w.stop.index) => hbefore i (Nat.zero_le i) hi
  unfold Chronicle.docIndex
  cases hm : c.modifies range w.stop.index with
  | true =>
    rw [hlist, hm]
    exact ⟨rfl, .inl ⟨hm, hbefore'⟩⟩
  | false =>
    rw [hlist, hm]
    have hlost : c.liveAt? range (w.stop.index + 1) = none := by
      obtain hl | ⟨-, hm'⟩ | hlost := h.stop_cases (liveAt?_zero range)
      · cases hl
      · rw [hm] at hm'
        cases hm'
      · exact hlost
    refine ⟨rfl, .inr ⟨fun i => ?_, h.reached rfl (Nat.zero_le _) Nat.le.refl, hlost⟩⟩
    rcases Nat.lt_trichotomy i w.stop.index with hi | rfl | hi
    · exact hbefore' i hi
    · exact hm
    · exact modifies_of_lost hlost hi

/-- The walk along the whole unit never comes to a rename that the walk along the documentation did
not come to. -/
theorem Trace.until_not_truncated {stop : Nat} (h : Trace c (.until stop) 0 range steps w)
    (hstop : stop ≤ c.oldest) : w.stop.truncatedByRename = false := by
  have hle := h.stop_le_until (Nat.zero_le _)
  rw [h.truncatedByRename]
  by_cases ho : c.oldest ≤ w.stop.index
  · have hl : limitReached (.until stop) w.stop.index = true := by
      simp only [limitReached, decide_eq_true_eq]
      omega
    simp [hl]
  · simp [ho]

theorem measured_of_traces {unit : DocumentedUnit} {docSteps bodySteps : List WalkStep}
    {doc body : Walk} (hne : c.history.entries ≠ [])
    (hdoc : Trace c .firstModification 0 unit.docRange docSteps doc)
    (hbody : Trace c (.until (Chronicle.docIndex doc)) 0 unit.bodyRange bodySteps body) :
    c.Measured unit (c.statistic unit doc body) := by
  obtain ⟨hindex, hlast⟩ := hdoc.docIndex
  have hold := hdoc.stop_le_oldest (Nat.zero_le _)
  have hsize : c.oldest < c.history.entries.length := by
    have := List.length_pos_iff.mpr hne
    unfold oldest FileHistory.size
    omega
  have hget : c.history.get? doc.stop.index = some c.history.entries[doc.stop.index] := by
    simp [FileHistory.get?]
  have hchanges := hbody.modifying_eq (liveAt?_zero unit.bodyRange) (by simp)
  have hbodyEnd := hbody.until_not_truncated (by omega)
  constructor
  · rfl
  · simpa only [statistic, hindex] using hlast
  · refine ⟨c.history.entries[doc.stop.index], ?_, ?_⟩
    · simpa only [statistic, hindex] using hget
    · simp only [statistic, hindex, revisionAt, hget, Option.map_some, Option.getD_some]
  · simp only [statistic, hchanges, horizon, Nat.sub_zero, List.range_eq_range']
  · have hiff : c.oldest ≤ doc.stop.index ↔ c.oldest = doc.stop.index := by omega
    simp only [statistic, hbodyEnd, hdoc.truncatedByRename, limitReached, hindex, hiff,
      Bool.not_false, Bool.and_true, Bool.or_false]

end

/-! ## All units -/

theorem measure_cons_eq_ok_iff {unit : DocumentedUnit} {rest : List DocumentedUnit}
    {known : KnownDiffs} {stats : List UnitStatistic} :
    (c.measure known (unit :: rest)).outcome = .ok stats ↔ ∃ doc body others,
      let docRun := c.walk unit.docRange .firstModification known
      let bodyRun := c.walk unit.bodyRange (.until (Chronicle.docIndex doc)) docRun.known
      docRun.outcome = .ok doc ∧ bodyRun.outcome = .ok body ∧
        (c.measure bodyRun.known rest).outcome = .ok others ∧
        stats = c.statistic unit doc body :: others := by
  constructor
  · intro h
    simp only [measure] at h
    split at h
    · cases h
    · next doc hdoc =>
      split at h
      · cases h
      · next body hbody =>
        cases hothers : (c.measure _ rest).outcome with
        | error e =>
          rw [hothers] at h
          cases h
        | ok others =>
          rw [hothers] at h
          cases h
          exact ⟨doc, body, others, hdoc, hbody, hothers, rfl⟩
  · rintro ⟨doc, body, others, hdoc, hbody, hothers, rfl⟩
    simp only [measure, hdoc, hbody, hothers]
    rfl

/-- If the measurement succeeds, it has one statistic for each unit, in order, and each says what
the ranges of the unit say. -/
theorem measure_measured {units : List DocumentedUnit} {known : KnownDiffs}
    {stats : List UnitStatistic} (hne : c.history.entries ≠ []) (hk : c.Faithful known)
    (h : (c.measure known units).outcome = .ok stats) :
    List.Forall₂ (c.Measured) units stats := by
  induction units generalizing known stats with
  | nil =>
    cases h
    exact .nil
  | cons unit rest ih =>
    obtain ⟨doc, body, others, hdoc, hbody, hothers, rfl⟩ := measure_cons_eq_ok_iff.mp h
    have hdocKnown := walk_known .firstModification unit.docRange hk
    have hbodyKnown := walk_known (.until (Chronicle.docIndex doc)) unit.bodyRange hdocKnown
    have hdocTrace := walk_trace hk hdoc
    have hbodyTrace := walk_trace hdocKnown hbody
    exact .cons (measured_of_traces hne hdocTrace hbodyTrace) (ih hbodyKnown hothers)

/-- Without failures the measurement succeeds. -/
theorem Answers.measure {R : Nat → List Hunk → Prop} (h : c.Answers R) (units : List DocumentedUnit)
    {known : KnownDiffs} (hk : c.Faithful known) :
    ∃ stats, (c.measure known units).outcome = .ok stats := by
  induction units generalizing known with
  | nil => exact ⟨[], rfl⟩
  | cons unit rest ih =>
    obtain ⟨doc, hdoc, -⟩ := h.walk unit.docRange .firstModification hk
    have hdocKnown := walk_known .firstModification unit.docRange hk
    obtain ⟨body, hbody, -⟩ :=
      h.walk unit.bodyRange (.until (Chronicle.docIndex doc)) hdocKnown
    have hbodyKnown := walk_known (.until (Chronicle.docIndex doc)) unit.bodyRange hdocKnown
    obtain ⟨others, hothers⟩ := ih hbodyKnown
    exact ⟨_, measure_cons_eq_ok_iff.mpr ⟨doc, body, others, hdoc, hbody, hothers, rfl⟩⟩

end Chronicle

/-! ## Surveys -/

theorem entries_ne_nil_of_tip? {history : FileHistory} {tip : HistoryEntry}
    (h : history.tip? = some tip) : history.entries ≠ [] := by
  intro hnil
  simp [FileHistory.tip?, hnil] at h

namespace Repository

theorem survey_eq_ok_iff {r : Repository} {path : Path} {follow : Bool} {analysis : FileAnalysis} :
    (r.survey path follow).outcome = .ok analysis ↔ ∃ inside history tip content units stats,
      r.relative path = .ok inside ∧ r.enumerate inside follow = .ok history ∧
        history.tip? = some tip ∧ r.read tip.path tip.revision = .ok content ∧
        Source.extractUnits path content = .ok units ∧
        ((r.chronicle history).measure [] units).outcome = .ok stats ∧
        analysis = ⟨path, history.size, stats⟩ := by
  constructor
  · intro h
    unfold survey at h
    split at h
    · cases h
    · next inside hrel =>
      split at h
      · cases h
      · next history hist =>
        simp only [surveyHistory] at h
        split at h
        · cases h
        · next tip htip =>
          split at h
          · cases h
          · next content hread =>
            split at h
            · cases h
            · next units hunits =>
              dsimp only [surveyUnits] at h
              cases hstats : ((r.chronicle history).measure [] units).outcome with
              | error e =>
                rw [hstats] at h
                cases h
              | ok stats =>
                rw [hstats] at h
                cases h
                exact ⟨inside, history, tip, content, units, stats, hrel, hist, htip, hread, hunits,
                  hstats, rfl⟩
  · rintro ⟨inside, history, tip, content, units, stats, hrel, hist, htip, hread, hunits, hstats,
      rfl⟩
    simp only [survey, hrel, hist, surveyHistory, htip, hread, hunits, surveyUnits, hstats]
    rfl

/-- A survey that succeeds reports on a history with entries, and each of its statistics says what
the ranges of its unit say. -/
theorem survey_measured {r : Repository} {path inside : Path} {follow : Bool}
    {history : FileHistory} {analysis : FileAnalysis} (hrel : r.relative path = .ok inside)
    (hist : r.enumerate inside follow = .ok history)
    (h : (r.survey path follow).outcome = .ok analysis) :
    history.entries ≠ [] ∧
      ∀ s ∈ analysis.units, (r.chronicle history).Measured s.unit s := by
  obtain ⟨inside', history', tip, content, units, stats, hrel', hist', htip, -, -, hstats, rfl⟩ :=
    survey_eq_ok_iff.mp h
  cases hrel.symm.trans hrel'
  cases hist.symm.trans hist'
  have hne : history.entries ≠ [] := entries_ne_nil_of_tip? htip
  have hall := Chronicle.measure_measured hne Chronicle.faithful_nil hstats
  refine ⟨hne, fun s hs => ?_⟩
  obtain ⟨i, hi, rfl⟩ := List.getElem_of_mem hs
  have hmeasured := (List.forall₂_iff_get.mp hall).2 i (by rwa [hall.length_eq]) hi
  simp only [List.get_eq_getElem] at hmeasured
  rw [hmeasured.unit_eq]
  exact hmeasured

end Repository

end DocDrift
