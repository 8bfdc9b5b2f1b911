import DocDrift.Proofs.History.Consistency

/-!
# Limited walks

A limit does not change the way of a walk, only where it ends. Cutting the exhaustive walk off gives
the walk with the limit, be it before a given entry or at the first modification.
-/

namespace DocDrift

/-- The walk cut off before entry `stop`. -/
def Walk.cutBefore (w : Walk) (stop : Nat) : Walk where
  modifying := w.modifying.filter fun i => decide (i < stop)
  stop := if stop ≤ w.stop.index then .limit stop else w.stop

/-- The walk cut off at its first modification, unless the range is lost there anyway. -/
def Walk.cutAtFirst (w : Walk) : Walk :=
  match w.modifying with
  | [] => w
  | i :: _ => ⟨[i], if w.stop = .origin i then w.stop else .limit i⟩

theorem Walk.cutBefore_nil {stop : WalkEnd} {i : Nat} (hi : stop.index < i) :
    Walk.cutBefore ⟨[], stop⟩ i = ⟨[], stop⟩ := by
  simp only [cutBefore, Nat.not_le.mpr hi, if_false, List.filter_nil]

theorem Walk.cutBefore_record (w : Walk) (modified : Bool) {i stop : Nat} (hi : i < stop) :
    (w.record modified i).cutBefore stop = (w.cutBefore stop).record modified i := by
  cases modified with
  | false => rfl
  | true => simp [record, cutBefore, hi]

namespace Chronicle
variable {c : Chronicle} {limit : WalkLimit} {live : LineRange} {i : Nat} {steps : List WalkStep}
  {w : Walk}

theorem not_limitReached_until {stop : Nat} (hi : i < stop) :
    limitReached (.until stop) i = false := by
  simpa [limitReached] using hi

/-- A walk that is cut off where it starts has not begun. -/
theorem Trace.cutBefore_self (h : Trace c limit i live steps w) :
    Trace c (.until i) i live [] (w.cutBefore i) := by
  have hnone : w.modifying.filter (fun j => decide (j < i)) = [] := by
    apply List.filter_eq_nil_iff.mpr
    intro j hj
    have := (h.modifying_bounds j hj).1
    simp only [decide_eq_true_eq]
    omega
  have hcut : w.cutBefore i = ⟨[], .limit i⟩ := by
    simp only [Walk.cutBefore, hnone, h.le_stop, if_true]
  rw [hcut]
  apply Trace.limit
  simp [limitReached]

theorem Trace.cutBefore_of_lt (h : Trace c .exhaustive i live steps w) {stop : Nat}
    (hi : i < stop) : ∃ steps', Trace c (.until stop) i live steps' (w.cutBefore stop) := by
  induction h with
  | limit hl => cases hl
  | oldest _ ho =>
    rw [Walk.cutBefore_nil (by rwa [endAt_index])]
    exact ⟨_, .oldest (not_limitReached_until hi) ho⟩
  | missing _ ho ha =>
    rw [Walk.cutBefore_nil hi]
    exact ⟨_, .missing (not_limitReached_until hi) ho ha⟩
  | lost _ ho ha hr =>
    rw [Walk.cutBefore_record _ _ hi, Walk.cutBefore_nil hi]
    exact ⟨_, .lost (not_limitReached_until hi) ho ha hr⟩
  | found _ _ _ _ _ hf => cases hf
  | @step i live next hunks steps w _ ho ha hr _ ht ih =>
    have hrest : ∃ steps', Trace c (.until stop) (i + 1) next steps' (w.cutBefore stop) := by
      rcases Nat.eq_or_lt_of_le (Nat.succ_le_of_lt hi) with rfl | hlt
      · exact ⟨_, ht.cutBefore_self⟩
      · exact ih hlt
    obtain ⟨steps', ht'⟩ := hrest
    rw [Walk.cutBefore_record _ _ hi]
    exact ⟨_, .step (not_limitReached_until hi) ho ha hr nofun ht'⟩

/-- The trace of an exhaustive walk, cut off before `stop`, is that of a walk with this limit. -/
theorem Trace.cutBefore (h : Trace c .exhaustive i live steps w) {stop : Nat} (hi : i ≤ stop) :
    ∃ steps', Trace c (.until stop) i live steps' (w.cutBefore stop) := by
  rcases Nat.eq_or_lt_of_le hi with rfl | hlt
  · exact ⟨_, h.cutBefore_self⟩
  · exact h.cutBefore_of_lt hlt

/-- The trace of an exhaustive walk, cut off at its first modification, is that of a walk up to
there. -/
theorem Trace.cutAtFirst (h : Trace c .exhaustive i live steps w) :
    ∃ steps', Trace c .firstModification i live steps' w.cutAtFirst := by
  induction h with
  | limit hl => cases hl
  | oldest _ ho => exact ⟨_, .oldest rfl ho⟩
  | missing _ ho ha => exact ⟨_, .missing rfl ho ha⟩
  | @lost i live hunks _ ho ha hr =>
    have hcut : (Walk.record ⟨[], .origin i⟩ (live.retrace hunks).modified i).cutAtFirst =
        Walk.record ⟨[], .origin i⟩ (live.retrace hunks).modified i := by
      cases (live.retrace hunks).modified <;> simp [Walk.record, Walk.cutAtFirst]
    rw [hcut]
    exact ⟨_, .lost rfl ho ha hr⟩
  | found _ _ _ _ _ hf => cases hf
  | @step i live next hunks steps w _ ho ha hr _ ht ih =>
    cases hm : (live.retrace hunks).modified with
    | true =>
      have hne : w.stop ≠ .origin i := by
        intro heq
        have hle := ht.le_stop
        rw [heq, WalkEnd.index] at hle
        omega
      have hcut : (w.record true i).cutAtFirst = ⟨[i], .limit i⟩ := by
        simp [Walk.record, Walk.cutAtFirst, hne]
      rw [hcut]
      exact ⟨_, .found rfl ho ha hr hm rfl⟩
    | false =>
      obtain ⟨steps', ht'⟩ := ih
      have hgo : (live.retrace hunks).modified = true → WalkLimit.firstModification ≠
          .firstModification := by
        rw [hm]
        intro hsame
        cases hsame
      have hstep := Trace.step rfl ho ha hr hgo ht'
      rw [hm] at hstep
      exact ⟨_, hstep⟩

section
variable {range : LineRange} {known : KnownDiffs}

theorem Trace.modifies_head? (h : Trace c .exhaustive 0 range steps w) {first : Nat}
    (hf : w.modifying.head? = some first) : c.modifies range first = true := by
  have hmem := List.mem_of_mem_head? hf
  rw [h.modifying_eq (liveAt?_zero range) nofun] at hmem
  exact (List.mem_filter.mp hmem).2

theorem asked_lt_until (hk : c.Faithful known) {stop : Nat} :
    ∀ i ∈ (c.walk range (.until stop) known).asked, i < stop := by
  intro i hi
  have hadmitted := ((walk_standalone range (.until stop) hk).reached i hi).admitted
  simpa [limitReached] using hadmitted

theorem asked_le_first (hk : c.Faithful known) {first : Nat}
    (hm : c.modifies range first = true) :
    ∀ i ∈ (c.walk range .firstModification known).asked, i ≤ first := by
  intro i hi
  have hbefore := ((walk_standalone range .firstModification hk).reached i hi).unmodified rfl
  by_contra hlt
  rw [hbefore first (by omega)] at hm
  cases hm

end

/-- A walk with a limit is the exhaustive one cut off: before the entry of its limit, or at the
first modification. It asks about nothing that lies beyond. Neither depends on what has been asked
before the one walk or the other. -/
theorem walk_cut_at_limit (c : Chronicle) (range : LineRange) {known known' : KnownDiffs}
    (hk : c.Faithful known) (hk' : c.Faithful known') {w : Walk}
    (hw : (c.walk range .exhaustive known).outcome = .ok w) :
    (∀ stop, (c.walk range (.until stop) known').outcome = .ok (w.cutBefore stop) ∧
      ∀ i ∈ (c.walk range (.until stop) known').asked, i < stop) ∧
    (c.walk range .firstModification known').outcome = .ok w.cutAtFirst ∧
      ∀ first, w.modifying.head? = some first →
        ∀ i ∈ (c.walk range .firstModification known').asked, i ≤ first := by
  have ht := walk_trace hk hw
  constructor
  · intro stop
    obtain ⟨steps, hcut⟩ := ht.cutBefore (Nat.zero_le stop)
    exact ⟨hcut.walkFrom hk', asked_lt_until hk'⟩
  · obtain ⟨steps, hcut⟩ := ht.cutAtFirst
    exact ⟨hcut.walkFrom hk', fun first hf => asked_le_first hk' (ht.modifies_head? hf)⟩

/-- The range is modified by the newest entry and lost in the next one, so the first modification is
a limit, and so is the place where the range gets lost. -/
theorem walk_cut_at_limit_ofThree :
    let c := ofThree (.ok [⟨4, 2, 4, 1⟩]) (.ok [⟨1, 0, 1, 9⟩])
    (c.walk ⟨3, 4⟩ .exhaustive []).outcome = .ok ⟨[0, 1], .origin 1⟩ ∧
      (∀ stop, (c.walk ⟨3, 4⟩ (.until stop) []).outcome =
          .ok (Walk.cutBefore ⟨[0, 1], .origin 1⟩ stop) ∧
        ∀ i ∈ (c.walk ⟨3, 4⟩ (.until stop) []).asked, i < stop) ∧
      (c.walk ⟨3, 4⟩ .firstModification []).outcome = .ok ⟨[0], .limit 0⟩ ∧
      Walk.cutBefore ⟨[0, 1], .origin 1⟩ 1 = ⟨[0], .limit 1⟩ ∧
      ∀ i ∈ (c.walk ⟨3, 4⟩ .firstModification []).asked, i ≤ 0 := by
  intro c
  have hw : (c.walk ⟨3, 4⟩ .exhaustive []).outcome = .ok ⟨[0, 1], .origin 1⟩ := by decide +kernel
  obtain ⟨huntil, hfirst, hasked⟩ := walk_cut_at_limit c ⟨3, 4⟩ faithful_nil faithful_nil hw
  exact ⟨hw, huntil, hfirst, by decide, hasked 0 rfl⟩

end Chronicle

end DocDrift
