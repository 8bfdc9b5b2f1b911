import DocDrift.Proofs.History.Nesting
import DocDrift.Proofs.History.Statistic

/-!
# Two ranges of one history

Of two walks with the same limit along nested ranges, the outer one reports whatever the inner one
reports and goes at least as far. So of two units, one inside the other, the outer one has changed
at least as often over at least as many revisions. A file with more lines than a line field can
count breaks the rule: a range that outgrows the field is lost where a smaller one inside it is not.
-/

namespace DocDrift

namespace Chronicle
variable {c : Chronicle} {lines : Nat → Nat}

/-- Of the runs along `inner` and `outer`, the second one surrounds the first one as long as both
go on, and it comes upon a modification first. -/
structure Surrounds (c : Chronicle) (inner outer : LineRange) (run run' : WalkRun)
    (w w' : Walk) : Prop where
  steps : ∀ s ∈ run.steps, ∀ s' ∈ run'.steps, s.index = s'.index →
    s'.live.encloses s.live = true
  nested : ∀ i ≤ w.stop.index, i ≤ w'.stop.index → ∃ live live',
    c.liveAt? inner i = some live ∧ c.liveAt? outer i = some live' ∧ live'.encloses live = true
  first : ∀ d, w.modifying.head? = some d → ∃ d' ≤ d, w'.modifying.head? = some d'

/-- The second walk reports what the first one reports, and goes at least as far. -/
structure Outlasts (w' w : Walk) : Prop where
  modifying : ∀ i ∈ w.modifying, i ∈ w'.modifying
  stop : w.stop.index ≤ w'.stop.index

section
variable {limit : WalkLimit} {inner outer : LineRange} {run run' : WalkRun} {w w' : Walk}

theorem Trace.mem_modifying_iff {range : LineRange} {steps : List WalkStep} {i : Nat}
    (h : Trace c limit 0 range steps w) (hlimit : limit ≠ .firstModification) :
    i ∈ w.modifying ↔ i < c.horizon limit ∧ c.modifies range i = true := by
  rw [h.modifying_eq (liveAt?_zero range) hlimit, List.mem_filter, List.mem_range'_1]
  simp

/-- The report of a walk opens with the newest transition that modifies the range. -/
theorem Trace.head?_modifying {range : LineRange} {steps : List WalkStep} {d : Nat}
    (h : Trace c limit 0 range steps w) :
    w.modifying.head? = some d ↔ c.modifies range d = true ∧ d < c.horizon limit ∧
      ∀ i < d, c.modifies range i = false := by
  by_cases hlimit : limit = .firstModification
  · subst hlimit
    obtain ⟨hlist, hbefore⟩ := h.modifying_of_first (liveAt?_zero range)
    have hlast := h.docIndex.2
    rw [hlist]
    constructor
    · intro hd
      split at hd
      · next hm =>
        cases hd
        exact ⟨hm, lt_oldest_of_modifies hm, hlast.before⟩
      · cases hd
    · rintro ⟨hm, -, hb⟩
      obtain rfl := hlast.unique (.inl ⟨hm, hb⟩)
      simp [hm]
  · rw [h.modifying_eq (liveAt?_zero range) hlimit, List.head?_filter, List.find?_range'_eq_some]
    simp only [List.mem_range'_1, Bool.not_eq_true']
    constructor
    · rintro ⟨hm, hd, hb⟩
      exact ⟨hm, by omega, fun i hi => hb i (Nat.zero_le i) hi⟩
    · rintro ⟨hm, hd, hb⟩
      exact ⟨hm, by omega, fun i _ hi => hb i hi⟩

theorem Scripted.outlasts (hc : c.Scripted lines) (hfit : c.Countable lines)
    (hinner : inner.Proper) (houter : outer.Within (lines 0)) (he : outer.encloses inner = true)
    (hlimit : limit ≠ .firstModification) (h : Trace c limit 0 inner run.steps w)
    (h' : Trace c limit 0 outer run'.steps w') : Outlasts w' w := by
  constructor
  · intro i hi
    rw [h.mem_modifying_iff hlimit] at hi
    rw [h'.mem_modifying_iff hlimit]
    exact ⟨hi.1, hc.modifies_outer hfit hinner houter he hi.2⟩
  · by_cases hlt : w'.stop.index < w.stop.index
    · exfalso
      obtain hl | ⟨hfirst, -⟩ | hlost := h'.stop_cases (liveAt?_zero outer)
      · cases limit with
        | exhaustive | firstModification => cases hl
        | «until» stop =>
          have := h.stop_le_until (Nat.zero_le _)
          have : stop ≤ w'.stop.index := by simpa [limitReached] using hl
          omega
      · exact hlimit hfirst
      · obtain ⟨live, hlive⟩ := h.reached (liveAt?_zero inner) (Nat.zero_le _) hlt
        obtain ⟨live', hlive'⟩ := hc.liveAt?_outer hfit hinner houter he hlive
        rw [hlost] at hlive'
        cases hlive'
    · omega

theorem Scripted.surrounds (hc : c.Scripted lines) (hfit : c.Countable lines)
    (hinner : inner.Proper) (houter : outer.Within (lines 0)) (he : outer.encloses inner = true)
    (h : Trace c limit 0 inner run.steps w) (h' : Trace c limit 0 outer run'.steps w') :
    c.Surrounds inner outer run run' w w' := by
  constructor
  · intro s hs s' hs' hindex
    have hlive := (h.mem_steps (liveAt?_zero inner) hs).2.2.1
    have hlive' := (h'.mem_steps (liveAt?_zero outer) hs').2.2.1
    rw [← hindex] at hlive'
    exact hc.liveAt?_encloses hinner houter he hlive hlive'
  · intro i hi hi'
    obtain ⟨live, hlive⟩ := h.reached (liveAt?_zero inner) (Nat.zero_le i) hi
    obtain ⟨live', hlive'⟩ := h'.reached (liveAt?_zero outer) (Nat.zero_le i) hi'
    exact ⟨live, live', hlive, hlive', hc.liveAt?_encloses hinner houter he hlive hlive'⟩
  · intro d hd
    rw [h.head?_modifying] at hd
    have hm := hc.modifies_outer hfit hinner houter he hd.1
    obtain ⟨d', hle, hm', hbefore⟩ := exists_newest hm
    exact ⟨d', hle, h'.head?_modifying.mpr ⟨hm', by omega, hbefore⟩⟩

end

/-- More revisions that change an inner range mean more that change the outer one. -/
theorem Scripted.changes_le (hc : c.Scripted lines) (hfit : c.Countable lines)
    {inner outer : LineRange} (hinner : inner.Proper) (houter : outer.Within (lines 0))
    (he : outer.encloses inner = true) {d d' : Nat} (hd : d ≤ d') :
    ((List.range d).filter (c.modifies inner)).length ≤
      ((List.range d').filter (c.modifies outer)).length := by
  calc ((List.range d).filter (c.modifies inner)).length
      ≤ ((List.range d).filter (c.modifies outer)).length :=
        (List.monotone_filter_right _ fun _ hm =>
          hc.modifies_outer hfit hinner houter he hm).length_le
    _ ≤ ((List.range d').filter (c.modifies outer)).length :=
        ((List.range_sublist.mpr hd).filter _).length_le

/-- Two walks along nested ranges, and two units of one survey one of which lies inside the other,
on edit scripts between files whose lines a line field can count. -/
theorem nested_walks_and_units {r : Repository} {history : FileHistory} {lines : Nat → Nat}
    (hc : (r.chronicle history).Scripted lines) (hfit : (r.chronicle history).Countable lines) :
    (∀ inner outer limit known known', inner.Proper → outer.Within (lines 0) →
      outer.encloses inner = true → (r.chronicle history).Faithful known →
      (r.chronicle history).Faithful known' →
      ∃ w w', ((r.chronicle history).walk inner limit known).outcome = .ok w ∧
        ((r.chronicle history).walk outer limit known').outcome = .ok w' ∧
        (r.chronicle history).Surrounds inner outer ((r.chronicle history).walk inner limit known)
          ((r.chronicle history).walk outer limit known') w w' ∧
        (limit ≠ .firstModification → Outlasts w' w)) ∧
      ∀ path inside follow analysis, r.relative path = .ok inside →
        r.enumerate inside follow = .ok history →
        (r.survey path follow).outcome = .ok analysis →
        ∀ s ∈ analysis.units, ∀ s' ∈ analysis.units, s.unit.bodyRange.Proper →
          s'.unit.bodyRange.Within (lines 0) →
          s'.unit.bodyRange.encloses s.unit.bodyRange = true →
          s.lastDocRevisionAge ≤ s'.lastDocRevisionAge →
          s.changesSinceCount ≤ s'.changesSinceCount := by
  constructor
  · intro inner outer limit known known' hinner houter he hk hk'
    obtain ⟨w, hw, ht⟩ := Answers.walk hc inner limit hk
    obtain ⟨w', hw', ht'⟩ := Answers.walk hc outer limit hk'
    exact ⟨w, w', hw, hw', hc.surrounds hfit hinner houter he ht ht',
      fun hlimit => hc.outlasts hfit hinner houter he hlimit ht ht'⟩
  · intro path inside follow analysis hrel hist h s hs s' hs' hinner houter he hage
    obtain ⟨-, hall⟩ := Repository.survey_measured hrel hist h
    rw [(hall s hs).changes, (hall s' hs').changes]
    exact hc.changes_le hfit hinner houter he hage

/-- The newest entry replaces line 2 and the one before line 4: the outer range sees both. -/
theorem nested_walks_and_units_ofThree :
    let c := ofThree (.ok [⟨2, 1, 2, 1⟩]) (.ok [⟨4, 1, 4, 2⟩])
    let lines : Nat → Nat := fun i => if i = 2 then 5 else 6
    c.Scripted lines ∧ c.Countable lines ∧
      ∃ w w', (c.walk ⟨4, 4⟩ .exhaustive []).outcome = .ok w ∧
        (c.walk ⟨2, 6⟩ .exhaustive []).outcome = .ok w' ∧
        c.Surrounds ⟨4, 4⟩ ⟨2, 6⟩ (c.walk ⟨4, 4⟩ .exhaustive []) (c.walk ⟨2, 6⟩ .exhaustive [])
          w w' ∧ Outlasts w' w ∧ w.modifying = [1] ∧ w'.modifying = [0, 1] := by
  intro c lines
  have hc : c.Scripted lines := answers_ofThree (by decide) (by decide)
  have hfit : c.Countable lines := by
    intro i _
    dsimp only [lines, maxLine]
    split <;> decide
  let r : Repository := ⟨.ok, fun _ _ => .ok c.history, fun _ _ => .ok "", c.diff⟩
  have hr : (r.chronicle c.history).Scripted lines := hc
  have hrfit : (r.chronicle c.history).Countable lines := hfit
  obtain ⟨w, w', hw, hw', hsurrounds, houtlasts⟩ := (nested_walks_and_units hr hrfit).1
    ⟨4, 4⟩ ⟨2, 6⟩ .exhaustive [] [] (by decide) (by decide) (by decide) faithful_nil faithful_nil
  have he : (c.walk ⟨4, 4⟩ .exhaustive []).outcome = .ok ⟨[1], .creation 2⟩ := by
    decide +kernel
  have he' : (c.walk ⟨2, 6⟩ .exhaustive []).outcome = .ok ⟨[0, 1], .creation 2⟩ := by
    decide +kernel
  refine ⟨hc, hfit, w, w', hw, hw', hsurrounds, houtlasts (by simp), ?_, ?_⟩
  · cases hw.symm.trans he
    rfl
  · cases hw'.symm.trans he'
    rfl

/-- Where a file has more lines than a line field can count, an outer range is lost that an inner
one outlives, and a later modification of the inner range is not reported of the outer one. -/
theorem not_outlasts_of_uncountable :
    let c := ofThree (.ok [⟨3, 4294967295, 3, 1⟩]) (.ok [⟨1, 1, 1, 1⟩])
    let lines : Nat → Nat := fun i => if i = 0 then 5 else 4294967299
    c.Scripted lines ∧ LineRange.Proper ⟨1, 1⟩ ∧ LineRange.Within ⟨1, 5⟩ (lines 0) ∧
      LineRange.encloses ⟨1, 5⟩ ⟨1, 1⟩ = true ∧
      ∃ w w', (c.walk ⟨1, 1⟩ .exhaustive []).outcome = .ok w ∧
        (c.walk ⟨1, 5⟩ .exhaustive []).outcome = .ok w' ∧
        1 ∈ w.modifying ∧ 1 ∉ w'.modifying ∧ w'.stop.index < w.stop.index := by
  intro c lines
  have hc : c.Scripted lines := answers_ofThree (by decide) (by decide)
  have hw : (c.walk ⟨1, 1⟩ .exhaustive []).outcome = .ok ⟨[1], .creation 2⟩ := by decide +kernel
  have hw' : (c.walk ⟨1, 5⟩ .exhaustive []).outcome = .ok ⟨[0], .origin 0⟩ := by decide +kernel
  exact ⟨hc, by decide, by decide, by decide, _, _, hw, hw', by decide, by decide, by decide⟩

end Chronicle

end DocDrift
