import DocDrift.Proofs.History.Session
import DocDrift.Proofs.History.Statistic
import DocDrift.Proofs.Lines.Retrace
import DocDrift.Proofs.Source.Units

/-!
# Surveys of whatever a repository answers

No answer can bring a survey out of step with the history that it reports on. The hunks may overlap
or come in any order, older sides may be missing anywhere: a walk still goes through the transitions
one by one and stays inside the history, and the statistics that are made of the walks point into it.
-/

namespace DocDrift

def UnitStatistic.walks (s : UnitStatistic) : List (LineRange × WalkLimit) :=
  [(s.unit.docRange, .firstModification), (s.unit.bodyRange, .until s.lastDocRevisionAge)]

namespace Chronicle
variable {c : Chronicle}

/-- The run along `range` ends as `w` says, steps through the transitions in order and without a
gap, reports some of them in order, and neither leaves the history nor follows an improper range. -/
structure Orderly (c : Chronicle) (range : LineRange) (run : WalkRun) (w : Walk) : Prop where
  outcome : run.outcome = .ok w
  modifying_sorted : w.modifying.Pairwise (· < ·)
  modifying_le_stop : ∀ i ∈ w.modifying, i ≤ w.stop.index
  indices : run.steps.map WalkStep.index = List.range run.steps.length
  stop_le : w.stop.index ≤ c.history.size - 1
  live_proper : ∀ s ∈ run.steps, s.live.Proper
  last_live_proper : ∃ live, c.liveAt? range w.stop.index = some live ∧ live.Proper

/-! ## Walks -/

section
variable {limit : WalkLimit} {range live : LineRange} {i : Nat} {steps : List WalkStep} {w : Walk}

theorem retrace_proper {next : LineRange} {hunks : List Hunk}
    (h : (live.retrace hunks).range = some next) : next.Proper := by
  rw [LineRange.retrace, LineRange.ofIntBounds?_eq_some_iff] at h
  exact h.2.2.1

theorem liveAt?_proper (hrange : range.Proper) (h : c.liveAt? range i = some live) :
    live.Proper := by
  cases i with
  | zero =>
    cases h
    exact hrange
  | succ i =>
    obtain ⟨before, hunks, -, -, hr⟩ := liveAt?_succ_eq_some_iff.mp h
    exact retrace_proper hr

theorem Trace.indices (h : Trace c limit i live steps w) :
    steps.map WalkStep.index = List.range' i steps.length := by
  induction h with
  | limit | oldest | missing => rfl
  | lost | found => rfl
  | step _ _ _ _ _ _ ih => rw [List.map_cons, ih, List.length_cons, List.range'_succ]

theorem Trace.modifying_bounds (h : Trace c limit i live steps w) :
    ∀ j ∈ w.modifying, i ≤ j ∧ j ≤ w.stop.index := by
  have hrecord : ∀ {i : Nat} {w : Walk} {modified : Bool} {j : Nat},
      j ∈ (w.record modified i).modifying → j = i ∨ j ∈ w.modifying := by
    intro i w modified j hj
    rw [Walk.record_modifying] at hj
    split at hj
    · exact List.mem_cons.mp hj
    · exact .inr hj
  induction h with
  | limit | oldest | missing =>
    intro j hj
    cases hj
  | lost =>
    intro j hj
    rw [Walk.record_stop]
    rcases hrecord hj with rfl | hj
    · exact ⟨Nat.le.refl, Nat.le.refl⟩
    · cases hj
  | found =>
    intro j hj
    rw [List.mem_singleton.mp hj]
    exact ⟨Nat.le.refl, Nat.le.refl⟩
  | step _ _ _ _ _ ht ih =>
    intro j hj
    rw [Walk.record_stop]
    have hle := ht.le_stop
    rcases hrecord hj with rfl | hj
    · omega
    · have := ih j hj
      omega

theorem Trace.modifying_sorted (h : Trace c limit i live steps w) :
    w.modifying.Pairwise (· < ·) := by
  induction h with
  | limit | oldest | missing => exact .nil
  | lost =>
    rw [Walk.record_modifying]
    split
    · exact List.pairwise_singleton _ _
    · exact .nil
  | found => exact List.pairwise_singleton _ _
  | step _ _ _ _ _ ht ih =>
    rw [Walk.record_modifying]
    split
    · exact List.pairwise_cons.mpr ⟨fun j hj => (ht.modifying_bounds j hj).1, ih⟩
    · exact ih

theorem walk_orderly {known : KnownDiffs} (hk : c.Faithful known) (hrange : range.Proper)
    (h : (c.walk range limit known).outcome = .ok w) :
    c.Orderly range (c.walk range limit known) w := by
  have ht := walk_trace hk h
  constructor
  · exact h
  · exact ht.modifying_sorted
  · exact fun i hi => (ht.modifying_bounds i hi).2
  · rw [ht.indices, List.range_eq_range']
  · exact ht.stop_le_oldest (Nat.zero_le _)
  · intro s hs
    exact liveAt?_proper hrange (ht.mem_steps (liveAt?_zero range) hs).2.2.1
  · obtain ⟨live, hlive⟩ := ht.reached (liveAt?_zero range) (Nat.zero_le _) Nat.le.refl
    exact ⟨live, hlive, liveAt?_proper hrange hlive⟩

end

/-! ## Measurements -/

section
variable {units : List DocumentedUnit} {known : KnownDiffs} {stats : List UnitStatistic}

/-- A measurement makes the walks of its statistics, one after the other. -/
theorem measure_walks (hk : c.Faithful known) (h : (c.measure known units).outcome = .ok stats)
    (hproper : ∀ u ∈ units, u.docRange.Proper ∧ u.bodyRange.Proper) :
    let walks := stats.flatMap UnitStatistic.walks
    (c.measure known units).asked = (c.session known walks).flatMap WalkRun.asked ∧
      List.Forall₂ (fun q run => ∃ w, c.Orderly q.1 run w) walks (c.session known walks) := by
  induction units generalizing known stats with
  | nil =>
    cases h
    exact ⟨rfl, .nil⟩
  | cons unit rest ih =>
    obtain ⟨doc, body, others, hdoc, hbody, hothers, rfl⟩ := measure_cons_eq_ok_iff.mp h
    have hdocKnown := walk_known .firstModification unit.docRange hk
    have hbodyKnown := walk_known (.until (Chronicle.docIndex doc)) unit.bodyRange hdocKnown
    obtain ⟨hunit, hrest⟩ := List.forall_mem_cons.mp hproper
    obtain ⟨hasked, hwalks⟩ := ih hbodyKnown hothers hrest
    have hdocOrderly := walk_orderly hk hunit.1 hdoc
    have hbodyOrderly := walk_orderly hdocKnown hunit.2 hbody
    refine ⟨?_, .cons ⟨doc, hdocOrderly⟩ (.cons ⟨body, hbodyOrderly⟩ hwalks)⟩
    simp only [measure, hdoc, hbody, List.flatMap_cons, UnitStatistic.walks, statistic,
      List.cons_append, List.nil_append, session]
    rw [hasked, List.append_assoc]

theorem Measured.bounds {unit : DocumentedUnit} {s : UnitStatistic} (h : c.Measured unit s) :
    s.changesSinceCount ≤ s.lastDocRevisionAge ∧ s.lastDocRevisionAge < c.history.size := by
  obtain ⟨entry, hentry, -⟩ := h.revision
  constructor
  · calc s.changesSinceCount
        = ((List.range s.lastDocRevisionAge).filter (c.modifies unit.bodyRange)).length := h.changes
      _ ≤ (List.range s.lastDocRevisionAge).length := List.length_filter_le _ _
      _ = s.lastDocRevisionAge := List.length_range
  · exact (List.getElem?_eq_some_iff.mp hentry).1

end

end Chronicle

/-! ## Surveys -/

namespace Repository

/-- The analysis of `history`, whose newest content has the given units, points into that history,
and the walks that it is made of are orderly. -/
structure Consistent (r : Repository) (history : FileHistory) (units : List DocumentedUnit)
    (analysis : FileAnalysis) : Prop where
  revisions : analysis.revisions = history.size
  revisions_pos : 0 < analysis.revisions
  units_eq : analysis.units.map UnitStatistic.unit = units
  revision : ∀ s ∈ analysis.units, ∃ entry, history.get? s.lastDocRevisionAge = some entry ∧
    s.lastDocRevision = entry.revision
  bounds : ∀ s ∈ analysis.units, s.changesSinceCount ≤ s.lastDocRevisionAge ∧
    s.lastDocRevisionAge < analysis.revisions
  walks : let walks := analysis.units.flatMap UnitStatistic.walks
    List.Forall₂ (fun q run => ∃ w, (r.chronicle history).Orderly q.1 run w) walks
      ((r.chronicle history).session [] walks)

/-- A survey that succeeds is consistent with the history that was enumerated and with the units of
its newest content, and asks for the diffs that the walks of its statistics ask for. -/
theorem survey_consistent {r : Repository} {path : Path} {follow : Bool} {analysis : FileAnalysis}
    (h : (r.survey path follow).outcome = .ok analysis) :
    ∃ inside history tip content units,
      r.relative path = .ok inside ∧ r.enumerate inside follow = .ok history ∧
      history.tip? = some tip ∧ r.read tip.path tip.revision = .ok content ∧
      Source.extractUnits path content = .ok units ∧ r.Consistent history units analysis ∧
      (r.survey path follow).queries = .relative path :: .enumerate inside follow ::
        .read tip.path tip.revision ::
          (((r.chronicle history).session [] (analysis.units.flatMap UnitStatistic.walks)).flatMap
            WalkRun.asked).filterMap (r.chronicle history).query? := by
  obtain ⟨inside, history, tip, content, units, stats, hrel, hist, htip, hread, hunits, hstats,
    rfl⟩ := survey_eq_ok_iff.mp h
  have hne : history.entries ≠ [] := entries_ne_nil_of_tip? htip
  have hmeasured := Chronicle.measure_measured hne Chronicle.faithful_nil hstats
  have hall := (survey_measured hrel hist h).2
  obtain ⟨hasked, hwalks⟩ := Chronicle.measure_walks Chronicle.faithful_nil hstats
    (Source.extractUnits_proper hunits)
  refine ⟨inside, history, tip, content, units, hrel, hist, htip, hread, hunits, ?_, ?_⟩
  · constructor
    · rfl
    · exact List.length_pos_iff.mpr hne
    · have hunit := hmeasured.imp fun _ _ hm => hm.unit_eq.symm
      rwa [← List.forall₂_map_right_iff, List.forall₂_eq_eq_eq, eq_comm] at hunit
    · exact fun s hs => (hall s hs).revision
    · exact fun s hs => (hall s hs).bounds
    · exact hwalks
  · simp only [survey, hrel, hist, surveyHistory, htip, hread, hunits, surveyUnits, hasked]

/-- The hunks between the newer two entries overlap and are out of order, and the file is said to be
missing at the oldest entry. -/
theorem survey_consistent_ofThree :
    let c := Chronicle.ofThree (.ok [⟨2, 7, 2, 1⟩, ⟨1, 0, 1, 3⟩, ⟨1, 4, 2, 2⟩])
      (.error (.notFound ⟨"f.py"⟩ "a"))
    let r : Repository := ⟨.ok, fun _ _ => .ok c.history, fun _ _ => .ok "'d'\nx = 1\n", c.diff⟩
    ∃ analysis units, (r.survey ⟨"f.py"⟩ true).outcome = .ok analysis ∧
      analysis.units.length = 1 ∧ r.Consistent c.history units analysis := by
  intro c r
  have hok : (r.survey ⟨"f.py"⟩ true).outcome.toOption.map (·.units.length) = some 1 := by
    decide +kernel
  cases h : (r.survey ⟨"f.py"⟩ true).outcome with
  | error e =>
    rw [h] at hok
    cases hok
  | ok analysis =>
    rw [h] at hok
    obtain ⟨inside, history, tip, content, units, -, hist, -, -, -, hconsistent, -⟩ :=
      survey_consistent h
    cases hist
    exact ⟨analysis, units, rfl, Option.some.inj hok, hconsistent⟩

end Repository

end DocDrift
