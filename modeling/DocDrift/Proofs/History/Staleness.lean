import DocDrift.Proofs.History.Nesting
import DocDrift.Proofs.History.Statistic

/-!
# Staleness on edit scripts

The two walks of a unit follow different ranges with different limits. On edit scripts the walk
along the whole unit always gets as far as the walk along its documentation, which lies inside, so
every newer transition is counted that modifies the unit.
-/

namespace DocDrift

namespace Chronicle

/-- The walk along the whole unit follows it to entry `d`, always around its documentation, and
reports exactly the transitions on the way that modify it. -/
structure FollowedTo (c : Chronicle) (unit : DocumentedUnit) (d : Nat) : Prop where
  nested : ∀ i ≤ d, ∃ doc body, c.liveAt? unit.docRange i = some doc ∧
    c.liveAt? unit.bodyRange i = some body ∧ body.encloses doc = true
  walk : (c.walk unit.bodyRange (.until d) []).outcome =
    .ok ⟨(List.range d).filter (c.modifies unit.bodyRange), .limit d⟩

variable {c : Chronicle} {lines : Nat → Nat}

theorem Scripted.followedTo (hc : c.Scripted lines) (hfit : c.Countable lines)
    {unit : DocumentedUnit} {d : Nat} (hdoc : unit.docRange.Proper)
    (hbody : unit.bodyRange.Within (lines 0))
    (he : unit.bodyRange.encloses unit.docRange = true)
    (hd : ∃ live, c.liveAt? unit.docRange d = some live) : c.FollowedTo unit d := by
  have hreached : ∀ i ≤ d, ∃ doc body, c.liveAt? unit.docRange i = some doc ∧
      c.liveAt? unit.bodyRange i = some body := by
    intro i hi
    cases hlive : c.liveAt? unit.docRange i with
    | none =>
      obtain ⟨live, hlive'⟩ := hd
      rw [liveAt?_mono hi hlive] at hlive'
      cases hlive'
    | some doc =>
      obtain ⟨body, hb⟩ := hc.liveAt?_outer hfit hdoc hbody he hlive
      exact ⟨doc, body, rfl, hb⟩
  constructor
  · intro i hi
    obtain ⟨doc, body, h₁, h₂⟩ := hreached i hi
    exact ⟨doc, body, h₁, h₂, hc.liveAt?_encloses hdoc hbody he h₁ h₂⟩
  · obtain ⟨w, hw, ht⟩ := Answers.walk hc unit.bodyRange (.until d) faithful_nil
    have hle := ht.stop_le_until (Nat.zero_le _)
    have hl : limitReached (.until d) w.stop.index = true := by
      obtain hl | ⟨h, -⟩ | hlost := ht.stop_cases (liveAt?_zero unit.bodyRange)
      · exact hl
      · cases h
      · by_cases hlt : w.stop.index < d
        · obtain ⟨doc, body, -, hb⟩ := hreached (w.stop.index + 1) hlt
          rw [hlost] at hb
          cases hb
        · simpa [limitReached] using hlt
    have hd' : d ≤ w.stop.index := by simpa [limitReached] using hl
    have hmod := ht.modifying_eq (liveAt?_zero unit.bodyRange) (by simp)
    have hstop := ht.stop_eq_limit hl
    rw [Nat.le_antisymm hle hd'] at hstop
    rw [hw]
    congr 1
    cases w
    simp only [horizon, Nat.sub_zero, ← List.range_eq_range'] at hmod hstop
    rw [hmod, hstop]

/-- On edit scripts, with transitions whose older side is missing or without, the measurement
succeeds and reports what the ranges of each unit say. As long as line numbers fit a range, the
walk along a unit around its documentation gets as far as the walk along the documentation. -/
theorem measure_scripted (hc : c.Scripted lines) (hne : c.history.entries ≠ [])
    (units : List DocumentedUnit) :
    ∃ stats, (c.measure [] units).outcome = .ok stats ∧
      List.Forall₂ (fun unit s => c.Measured unit s ∧
        (unit.docRange.Proper → unit.bodyRange.encloses unit.docRange = true →
          unit.bodyRange.Within (lines 0) → c.Countable lines →
          c.FollowedTo unit s.lastDocRevisionAge)) units stats := by
  obtain ⟨stats, hstats⟩ := hc.measure units faithful_nil
  refine ⟨stats, hstats, (measure_measured hne faithful_nil hstats).imp ?_⟩
  intro unit s hm
  refine ⟨hm, fun hdoc he hbody hfit => ?_⟩
  exact hc.followedTo hfit hdoc hbody he hm.lastModified.reached

/-- The newest entry replaces a line of the body. The one before puts a line in front of the unit
and replaces the documentation, so one change is newer. -/
theorem measure_scripted_ofThree :
    let c := ofThree (.ok [⟨5, 1, 5, 1⟩]) (.ok [⟨1, 0, 1, 1⟩, ⟨2, 1, 3, 1⟩])
    let unit : DocumentedUnit := ⟨"f", .function, ⟨3, 3⟩, ⟨2, 6⟩⟩
    (c.Scripted fun i => if i = 2 then 5 else 6) ∧ c.history.entries ≠ [] ∧
      ∃ s, (c.measure [] [unit]).outcome = .ok [s] ∧ c.Measured unit s ∧
        c.FollowedTo unit s.lastDocRevisionAge ∧ s.lastDocRevisionAge = 1 ∧
        s.changesSinceCount = 1 := by
  intro c unit
  have hc : c.Scripted fun i => if i = 2 then 5 else 6 := answers_ofThree (by decide) (by decide)
  have hne : c.history.entries ≠ [] := by decide
  have hfit : c.Countable fun i => if i = 2 then 5 else 6 := by
    intro i _
    dsimp only [maxLine]
    split <;> decide
  refine ⟨hc, hne, ?_⟩
  obtain ⟨stats, hstats, hall⟩ := measure_scripted hc hne [unit]
  cases hall with
  | cons hs hrest =>
    cases hrest
    obtain ⟨hm, hfollowed⟩ := hs
    have hlast : c.LastModified unit.docRange 1 := .inl (by decide)
    have hage := hm.lastModified.unique hlast
    refine ⟨_, hstats, hm, hfollowed (by decide) (by decide) (by decide) hfit, hage, ?_⟩
    rw [hm.changes, hage]
    decide

end Chronicle

end DocDrift
