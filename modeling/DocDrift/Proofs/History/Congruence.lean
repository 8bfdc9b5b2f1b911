import DocDrift.History.Survey

/-!
# Surveys of repositories that answer alike

A survey is made of the answers that it gets. Two repositories that give the same answers about a
file and its history are surveyed with the same outcome, by way of the same questions.
-/

namespace DocDrift

namespace Chronicle
variable {c c' : Chronicle}

/-- Two chronicles of the same history that answer alike about every transition. -/
structure Alike (c c' : Chronicle) : Prop where
  history : c.history = c'.history
  ask : ∀ i, c.ask i = c'.ask i

theorem Alike.oldest (h : c.Alike c') : c.oldest = c'.oldest := by
  rw [Chronicle.oldest, Chronicle.oldest, h.history]

theorem Alike.endAt (h : c.Alike c') (i : Nat) : c.endAt i = c'.endAt i := by
  rw [Chronicle.endAt, Chronicle.endAt, h.history]

theorem Alike.lookup (h : c.Alike c') (known : KnownDiffs) (i : Nat) :
    c.lookup known i = c'.lookup known i := by
  rw [Chronicle.lookup, Chronicle.lookup, h.ask]

theorem Alike.walkFrom (h : c.Alike c') (limit : WalkLimit) (i : Nat) (live : LineRange)
    (known : KnownDiffs) : c.walkFrom limit i live known = c'.walkFrom limit i live known := by
  induction hn : c.oldest - i using Nat.strongRecOn generalizing i live known with
  | ind n ih =>
    rw [Chronicle.walkFrom, Chronicle.walkFrom, ← h.oldest, ← h.endAt, ← h.lookup]
    by_cases ho : c.oldest ≤ i
    · simp only [ho, if_true]
    · have hrest : ∀ live known, c.walkFrom limit (i + 1) live known =
          c'.walkFrom limit (i + 1) live known :=
        fun live known => ih _ (by omega) (i + 1) live known rfl
      simp only [hrest]

theorem Alike.walk (h : c.Alike c') (range : LineRange) (limit : WalkLimit) (known : KnownDiffs) :
    c.walk range limit known = c'.walk range limit known :=
  h.walkFrom limit 0 range known

theorem Alike.statistic (h : c.Alike c') (unit : DocumentedUnit) (docWalk bodyWalk : Walk) :
    c.statistic unit docWalk bodyWalk = c'.statistic unit docWalk bodyWalk := by
  unfold Chronicle.statistic revisionAt
  rw [h.history]

theorem Alike.measure (h : c.Alike c') (known : KnownDiffs) (units : List DocumentedUnit) :
    c.measure known units = c'.measure known units := by
  have hstatistic : c.statistic = c'.statistic := by
    funext unit docWalk bodyWalk
    exact h.statistic unit docWalk bodyWalk
  induction units generalizing known with
  | nil => rfl
  | cons unit rest ih =>
    simp only [Chronicle.measure, h.walk, ih, hstatistic]

end Chronicle

namespace Repository
variable {r r' : Repository}

theorem chronicle_alike {history : FileHistory}
    (h : ∀ i newer older, history.get? i = some newer → history.get? (i + 1) = some older →
      r.diff newer older = r'.diff newer older) :
    (r.chronicle history).Alike (r'.chronicle history) := by
  refine ⟨rfl, fun i => ?_⟩
  unfold Chronicle.ask Repository.chronicle
  cases hn : history.get? i with
  | none => rfl
  | some newer =>
    cases ho : history.get? (i + 1) with
    | none => rfl
    | some older => simp only [h i newer older hn ho]

/-- The survey of a file rests on its name, its history, its newest content and the diffs along its
history. -/
theorem survey_congr {path inside : Path} {follow : Bool} {history : FileHistory}
    (hpath : r.relative path = .ok inside) (hpath' : r'.relative path = .ok inside)
    (hlog : r.enumerate inside follow = .ok history)
    (hlog' : r'.enumerate inside follow = .ok history)
    (hread : ∀ tip, history.tip? = some tip →
      r.read tip.path tip.revision = r'.read tip.path tip.revision)
    (hdiff : ∀ i newer older, history.get? i = some newer → history.get? (i + 1) = some older →
      r.diff newer older = r'.diff newer older) :
    r.survey path follow = r'.survey path follow := by
  have hunits : ∀ units, r.surveyUnits path history units = r'.surveyUnits path history units := by
    intro units
    unfold surveyUnits
    simp only [(chronicle_alike hdiff).measure]
    rfl
  have hhistory : r.surveyHistory path history = r'.surveyHistory path history := by
    unfold surveyHistory
    cases htip : history.tip? with
    | none => rfl
    | some tip => simp only [hread tip htip, hunits]
  simp only [survey, hpath, hpath', hlog, hlog', hhistory]

end Repository

end DocDrift
