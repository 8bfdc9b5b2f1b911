import DocDrift.History.Walk

/-!
# Traces of walks

A walk consults what earlier walks left known before it asks the repository. `Trace` tells what a
walk does in terms of the answers alone, one rule for each way in which a transition can go, and
`Chronicle.walkFrom_spec` says that every walk has such a trace whatever is known. `liveAt?` and
`modifies` then say where a range lies at each entry and which transitions modify it, without any
walk; a trace visits exactly these ranges and reports exactly these transitions up to its limit.
-/

namespace DocDrift

/-- The walk with the entry recorded if its transition modified the range. -/
def Walk.record (w : Walk) (modified : Bool) (index : Nat) : Walk :=
  if modified then { w with modifying := index :: w.modifying } else w

@[simp] theorem Walk.record_stop (w : Walk) (modified : Bool) (index : Nat) :
    (w.record modified index).stop = w.stop := by
  unfold Walk.record
  split <;> rfl

theorem Walk.record_modifying (w : Walk) (modified : Bool) (index : Nat) :
    (w.record modified index).modifying =
      if modified then index :: w.modifying else w.modifying := by
  unfold Walk.record
  split <;> rfl

namespace Chronicle
variable {c : Chronicle}

/-! ## What is known -/

/-- What is known agrees with what the repository answers. -/
def Faithful (c : Chronicle) (known : KnownDiffs) : Prop :=
  ∀ index hunks, known.lookup index = some hunks → c.ask index = .ok hunks

theorem faithful_nil : c.Faithful [] := by
  intro index hunks h
  cases h

theorem Faithful.lookup_answer {known : KnownDiffs} (hk : c.Faithful known) (index : Nat) :
    (c.lookup known index).answer = c.ask index := by
  unfold Chronicle.lookup
  split
  · next hunks h => exact (hk index hunks h).symm
  · split
    · next hunks h => exact h.symm
    · next e h => exact h.symm

theorem Faithful.lookup_known {known : KnownDiffs} (hk : c.Faithful known) (index : Nat) :
    c.Faithful (c.lookup known index).known := by
  unfold Chronicle.lookup
  split
  · exact hk
  · split
    · next hunks h =>
      intro i found hi
      simp only [List.lookup_cons] at hi
      split at hi
      · next he =>
        obtain rfl := eq_of_beq he
        cases hi
        exact h
      · exact hk i found hi
    · exact hk

/-! ## One transition of a walk -/

/-- How a walk goes on behind a transition whose hunks it has found. -/
def walkBehind (c : Chronicle) (limit : WalkLimit) (i : Nat) (live : LineRange)
    (hunks : List Hunk) (known : KnownDiffs) : WalkRun :=
  match (live.retrace hunks).range with
  | none => .done (.origin i) known
  | some next =>
    if (live.retrace hunks).modified && limit == .firstModification then .done (.limit i) known
    else c.walkFrom limit (i + 1) next known

section
variable {limit : WalkLimit} {i : Nat} {live : LineRange} {known : KnownDiffs}

theorem walkFrom_limit (hl : limitReached limit i = true) :
    c.walkFrom limit i live known = .done (.limit i) known := by
  rw [walkFrom, if_pos hl]

theorem walkFrom_oldest (hl : ¬ limitReached limit i = true) (ho : c.oldest ≤ i) :
    c.walkFrom limit i live known = .done (c.endAt i) known := by
  rw [walkFrom, if_neg hl, if_pos ho]

theorem walkFrom_failed {e : Failure} (hl : ¬ limitReached limit i = true) (ho : ¬ c.oldest ≤ i)
    (he : (c.lookup known i).answer = .error e) : c.walkFrom limit i live known =
      ⟨.error e, [], (c.lookup known i).asked, (c.lookup known i).known⟩ := by
  rw [walkFrom, if_neg hl, if_neg ho]
  simp only [he]

theorem walkFrom_missing (hl : ¬ limitReached limit i = true) (ho : ¬ c.oldest ≤ i)
    (hn : (c.lookup known i).answer = .ok none) : c.walkFrom limit i live known =
      (WalkRun.done (.creation i) (c.lookup known i).known).behindQuestions
        (c.lookup known i).asked := by
  rw [walkFrom, if_neg hl, if_neg ho]
  simp only [hn]

theorem walkFrom_found {hunks : List Hunk} (hl : ¬ limitReached limit i = true)
    (ho : ¬ c.oldest ≤ i) (hh : (c.lookup known i).answer = .ok (some hunks)) :
    c.walkFrom limit i live known =
      ((c.walkBehind limit i live hunks (c.lookup known i).known).behindStep
        ⟨i, live, (live.retrace hunks).modified⟩).behindQuestions (c.lookup known i).asked := by
  rw [walkFrom, if_neg hl, if_neg ho]
  simp only [hh]
  rfl

end

/-! ## Traces -/

/-- A walk with the given limit that follows `live` from an entry on takes the steps and ends as
the walk says. -/
inductive Trace (c : Chronicle) (limit : WalkLimit) :
    Nat → LineRange → List WalkStep → Walk → Prop
  | limit {i : Nat} {live : LineRange} : limitReached limit i = true →
      Trace c limit i live [] ⟨[], .limit i⟩
  | oldest {i : Nat} {live : LineRange} : limitReached limit i = false → c.oldest ≤ i →
      Trace c limit i live [] ⟨[], c.endAt i⟩
  | missing {i : Nat} {live : LineRange} : limitReached limit i = false → i < c.oldest →
      c.ask i = .ok none → Trace c limit i live [] ⟨[], .creation i⟩
  | lost {i : Nat} {live : LineRange} {hunks : List Hunk} : limitReached limit i = false →
      i < c.oldest → c.ask i = .ok (some hunks) → (live.retrace hunks).range = none →
      Trace c limit i live [⟨i, live, (live.retrace hunks).modified⟩]
        (Walk.record ⟨[], .origin i⟩ (live.retrace hunks).modified i)
  | found {i : Nat} {live next : LineRange} {hunks : List Hunk} : limitReached limit i = false →
      i < c.oldest → c.ask i = .ok (some hunks) → (live.retrace hunks).range = some next →
      (live.retrace hunks).modified = true → limit = .firstModification →
      Trace c limit i live [⟨i, live, true⟩] ⟨[i], .limit i⟩
  | step {i : Nat} {live next : LineRange} {hunks : List Hunk} {steps : List WalkStep} {w : Walk} :
      limitReached limit i = false → i < c.oldest → c.ask i = .ok (some hunks) →
      (live.retrace hunks).range = some next →
      ((live.retrace hunks).modified = true → limit ≠ .firstModification) →
      Trace c limit (i + 1) next steps w →
      Trace c limit i live (⟨i, live, (live.retrace hunks).modified⟩ :: steps)
        (w.record (live.retrace hunks).modified i)

/-- A walk leaves faithful knowledge faithful. It succeeds with a trace, or it fails with the
failure that some transition is answered with. -/
theorem walkFrom_spec (limit : WalkLimit) (i : Nat) (live : LineRange) {known : KnownDiffs}
    (hk : c.Faithful known) :
    c.Faithful (c.walkFrom limit i live known).known ∧
      ((∃ w, (c.walkFrom limit i live known).outcome = .ok w ∧
          Trace c limit i live (c.walkFrom limit i live known).steps w) ∨
        ∃ e j, (c.walkFrom limit i live known).outcome = .error e ∧ j < c.oldest ∧
          c.ask j = .error e) := by
  induction i, live, known using walkFrom.induct c limit with
  | case1 i live known hl =>
    rw [walkFrom_limit hl]
    exact ⟨hk, .inl ⟨_, rfl, .limit hl⟩⟩
  | case2 i live known hl ho =>
    rw [walkFrom_oldest hl ho]
    exact ⟨hk, .inl ⟨_, rfl, .oldest (eq_false_of_ne_true hl) ho⟩⟩
  | case3 i live known hl ho found e he =>
    have ha : c.ask i = .error e := (hk.lookup_answer i).symm.trans he
    rw [walkFrom_failed hl ho he]
    exact ⟨hk.lookup_known i, .inr ⟨e, i, rfl, Nat.lt_of_not_le ho, ha⟩⟩
  | case4 i live known hl ho found hn =>
    have ha : c.ask i = .ok none := (hk.lookup_answer i).symm.trans hn
    rw [walkFrom_missing hl ho hn]
    exact ⟨hk.lookup_known i,
      .inl ⟨_, rfl, .missing (eq_false_of_ne_true hl) (Nat.lt_of_not_le ho) ha⟩⟩
  | case5 i live known hl ho found hunks hh ih =>
    have ha : c.ask i = .ok (some hunks) := (hk.lookup_answer i).symm.trans hh
    have hknown := hk.lookup_known i
    rw [walkFrom_found hl ho hh]
    replace hl := eq_false_of_ne_true hl
    replace ho := Nat.lt_of_not_le ho
    simp only [walkBehind]
    cases hr : (live.retrace hunks).range with
    | none => exact ⟨hknown, .inl ⟨_, rfl, .lost hl ho ha hr⟩⟩
    | some next =>
      cases hm : (live.retrace hunks).modified && limit == .firstModification with
      | true =>
        simp only [Bool.and_eq_true, beq_iff_eq] at hm
        simp only [if_true, hm.1]
        exact ⟨hknown, .inl ⟨_, rfl, .found hl ho ha hr hm.1 hm.2⟩⟩
      | false =>
        have hgo : (live.retrace hunks).modified = true → limit ≠ .firstModification := by
          rintro h₁ rfl
          simp [h₁] at hm
        simp only [Bool.false_eq_true, if_false]
        obtain ⟨hlater, ⟨w, hw, ht⟩ | ⟨e, j, he, hj⟩⟩ := ih next hknown
        · refine ⟨hlater, .inl ⟨_, ?_, .step hl ho ha hr hgo ht⟩⟩
          simp only [WalkRun.behindQuestions, WalkRun.behindStep, found, hw]
          rfl
        · refine ⟨hlater, .inr ⟨e, j, ?_, hj⟩⟩
          simp only [WalkRun.behindQuestions, WalkRun.behindStep, found, he]
          rfl

/-- Every trace is that of the walk. -/
theorem Trace.walkFrom {limit : WalkLimit} {i : Nat} {live : LineRange} {steps : List WalkStep}
    {w : Walk} (h : Trace c limit i live steps w) {known : KnownDiffs} (hk : c.Faithful known) :
    (c.walkFrom limit i live known).outcome = .ok w := by
  induction h generalizing known with
  | limit hl => rw [walkFrom_limit hl, WalkRun.done]
  | oldest hl ho => rw [walkFrom_oldest (ne_true_of_eq_false hl) ho, WalkRun.done]
  | missing hl hi ha =>
    rw [walkFrom_missing (ne_true_of_eq_false hl) (Nat.not_le.mpr hi) (by rw [hk.lookup_answer, ha])]
    rfl
  | lost hl hi ha hr =>
    rw [walkFrom_found (ne_true_of_eq_false hl) (Nat.not_le.mpr hi) (by rw [hk.lookup_answer, ha])]
    simp only [walkBehind, hr]
    rfl
  | found hl hi ha hr hm hf =>
    rw [walkFrom_found (ne_true_of_eq_false hl) (Nat.not_le.mpr hi) (by rw [hk.lookup_answer, ha])]
    simp only [walkBehind, hr, hm, hf]
    rfl
  | @step i live next hunks steps w hl hi ha hr hgo _ ih =>
    have hon : ((live.retrace hunks).modified && limit == .firstModification) = false := by
      simpa using hgo
    rw [walkFrom_found (ne_true_of_eq_false hl) (Nat.not_le.mpr hi) (by rw [hk.lookup_answer, ha])]
    simp only [walkBehind, hr, hon, WalkRun.behindQuestions, WalkRun.behindStep,
      Bool.false_eq_true, if_false, ih (hk.lookup_known i)]
    rfl

/-! ## Ranges without walks -/

def hunksAt? (c : Chronicle) (i : Nat) : Option (List Hunk) :=
  if i < c.oldest then
    match c.ask i with
    | .ok hunks => hunks
    | .error _ => none
  else none

/-- Where a range of the newest entry lies at entry `i`, if it still has lines there. -/
def liveAt? (c : Chronicle) (range : LineRange) : Nat → Option LineRange
  | 0 => some range
  | i + 1 => do
    let live ← c.liveAt? range i
    let hunks ← c.hunksAt? i
    (live.retrace hunks).range

theorem liveAt?_zero (range : LineRange) : c.liveAt? range 0 = some range :=
  rfl

def modifies (c : Chronicle) (range : LineRange) (i : Nat) : Bool :=
  match c.liveAt? range i, c.hunksAt? i with
  | some live, some hunks => (live.retrace hunks).modified
  | _, _ => false

theorem hunksAt?_eq_some_iff {i : Nat} {hunks : List Hunk} :
    c.hunksAt? i = some hunks ↔ i < c.oldest ∧ c.ask i = .ok (some hunks) := by
  unfold hunksAt?
  split
  · next h =>
    split
    · next ha => simp [ha, h]
    · next ha => simp [ha]
  · next h => simp [h]

theorem liveAt?_succ_eq_some_iff {range next : LineRange} {i : Nat} :
    c.liveAt? range (i + 1) = some next ↔ ∃ live hunks, c.liveAt? range i = some live ∧
      c.hunksAt? i = some hunks ∧ (live.retrace hunks).range = some next := by
  simp [liveAt?, Option.bind_eq_some_iff]

theorem modifies_eq_true_iff {range : LineRange} {i : Nat} :
    c.modifies range i = true ↔ ∃ live hunks, c.liveAt? range i = some live ∧
      c.hunksAt? i = some hunks ∧ (live.retrace hunks).modified = true := by
  unfold modifies
  split
  · next live hunks h₁ h₂ => simp [h₁, h₂]
  · next h =>
    simp only [Bool.false_eq_true, false_iff]
    rintro ⟨live, hunks, h₁, h₂, -⟩
    exact h live hunks h₁ h₂

/-- A range that is lost stays lost. -/
theorem liveAt?_mono {range : LineRange} {i j : Nat} (hij : i ≤ j)
    (h : c.liveAt? range i = none) : c.liveAt? range j = none := by
  induction hij with
  | refl => exact h
  | step _ ih => simp only [liveAt?, ih, Option.bind_eq_bind, Option.bind_none]

theorem modifies_of_lost {range : LineRange} {i j : Nat} (h : c.liveAt? range (i + 1) = none)
    (hij : i < j) : c.modifies range j = false := by
  simp only [modifies, liveAt?_mono (show i + 1 ≤ j by omega) h]

theorem lt_oldest_of_modifies {range : LineRange} {i : Nat} (h : c.modifies range i = true) :
    i < c.oldest := by
  obtain ⟨-, hunks, -, hh, -⟩ := modifies_eq_true_iff.mp h
  exact (hunksAt?_eq_some_iff.mp hh).1

/-- If a transition modifies a range, there is a newest one that does. -/
theorem exists_newest {range : LineRange} {d : Nat} (h : c.modifies range d = true) :
    ∃ d' ≤ d, c.modifies range d' = true ∧ ∀ i < d', c.modifies range i = false := by
  induction d using Nat.strongRecOn with
  | ind d ih =>
    by_cases hnewer : ∃ i < d, c.modifies range i = true
    · obtain ⟨i, hi, hm⟩ := hnewer
      obtain ⟨d', hd', hfirst⟩ := ih i hi hm
      exact ⟨d', by omega, hfirst⟩
    · refine ⟨d, Nat.le.refl, h, fun i hi => ?_⟩
      cases hm : c.modifies range i with
      | false => rfl
      | true => exact absurd ⟨i, hi, hm⟩ hnewer

theorem modifies_of_no_hunks {range : LineRange} {i : Nat} (h : c.hunksAt? i = none) :
    c.modifies range i = false := by
  simp [modifies, h]

theorem hunksAt?_of_oldest_le {i : Nat} (h : c.oldest ≤ i) : c.hunksAt? i = none := by
  simp only [hunksAt?, Nat.not_lt.mpr h, if_false]

/-! ## What a trace visits -/

theorem endAt_index (i : Nat) : (c.endAt i).index = i := by
  unfold endAt
  split <;> rfl

section
variable {limit : WalkLimit} {range live : LineRange} {i : Nat} {steps : List WalkStep} {w : Walk}

theorem Trace.le_stop (h : Trace c limit i live steps w) : i ≤ w.stop.index := by
  induction h with
  | limit | missing | lost | found => simp [WalkEnd.index]
  | oldest =>
    simp [endAt_index]
  | step _ _ _ _ _ _ ih =>
    rw [Walk.record_stop]
    omega

theorem Trace.stop_le_oldest (h : Trace c limit i live steps w) (hi : i ≤ c.oldest) :
    w.stop.index ≤ c.oldest := by
  induction h with
  | limit | missing | lost | found => simpa [WalkEnd.index] using hi
  | oldest =>
    simpa [endAt_index] using hi
  | step _ hlt _ _ _ _ ih =>
    rw [Walk.record_stop]
    exact ih hlt

theorem liveAt?_step {next : LineRange} {hunks : List Hunk} (hlive : c.liveAt? range i = some live)
    (hi : i < c.oldest) (ha : c.ask i = .ok (some hunks))
    (hr : (live.retrace hunks).range = some next) : c.liveAt? range (i + 1) = some next :=
  liveAt?_succ_eq_some_iff.mpr ⟨live, hunks, hlive, hunksAt?_eq_some_iff.mpr ⟨hi, ha⟩, hr⟩

theorem modifies_step {hunks : List Hunk} (hlive : c.liveAt? range i = some live)
    (hi : i < c.oldest) (ha : c.ask i = .ok (some hunks)) :
    c.modifies range i = (live.retrace hunks).modified := by
  have hh := hunksAt?_eq_some_iff.mpr ⟨hi, ha⟩
  simp only [modifies, hlive, hh]

/-- The range has lines at every entry up to the one where the trace ends. -/
theorem Trace.reached (h : Trace c limit i live steps w) (hlive : c.liveAt? range i = some live)
    {j : Nat} (hj : i ≤ j) (hstop : j ≤ w.stop.index) : ∃ l, c.liveAt? range j = some l := by
  induction h with
  | limit | missing | lost | found =>
    simp only [Walk.record_stop, WalkEnd.index] at hstop
    exact ⟨_, by rw [Nat.le_antisymm hstop hj]; exact hlive⟩
  | @oldest i live _ _ =>
    have : j = i := by
      simp only [endAt_index] at hstop
      omega
    exact ⟨live, by rw [this]; exact hlive⟩
  | @step i live next hunks steps w _ hlt ha hr _ _ ih =>
    rw [Walk.record_stop] at hstop
    by_cases he : j = i
    · exact ⟨live, by rw [he]; exact hlive⟩
    · exact ih (liveAt?_step hlive hlt ha hr) (by omega) hstop

/-- A trace ends at its limit, or it reports the modification that it was looking for, or the range
has no lines any further. -/
theorem Trace.stop_cases (h : Trace c limit i live steps w)
    (hlive : c.liveAt? range i = some live) :
    limitReached limit w.stop.index = true ∨
      (limit = .firstModification ∧ c.modifies range w.stop.index = true) ∨
      c.liveAt? range (w.stop.index + 1) = none := by
  induction h with
  | limit hl => exact .inl hl
  | @oldest i live _ ho =>
    have hnone := hunksAt?_of_oldest_le ho
    exact .inr (.inr (by simp only [endAt_index, liveAt?, hnone]; simp))
  | @missing i live _ hlt ha =>
    have hnone : c.hunksAt? i = none := by simp [hunksAt?, hlt, ha]
    exact .inr (.inr (by simp only [WalkEnd.index, liveAt?, hnone]; simp))
  | @lost i live hunks _ hlt ha hr =>
    have hh := hunksAt?_eq_some_iff.mpr ⟨hlt, ha⟩
    exact .inr (.inr (by simp [WalkEnd.index, liveAt?, hlive, hh, hr]))
  | found _ hlt ha _ hm hfirst =>
    exact .inr (.inl ⟨hfirst, by rw [WalkEnd.index, modifies_step hlive hlt ha, hm]⟩)
  | step _ hlt ha hr _ _ ih =>
    rw [Walk.record_stop]
    exact ih (liveAt?_step hlive hlt ha hr)

/-- The steps of a trace are the visits that it makes. -/
theorem Trace.mem_steps (h : Trace c limit i live steps w) (hlive : c.liveAt? range i = some live)
    {s : WalkStep} (hs : s ∈ steps) :
    i ≤ s.index ∧ s.index ≤ w.stop.index ∧ c.liveAt? range s.index = some s.live ∧
      s.modified = c.modifies range s.index := by
  induction h with
  | limit | oldest | missing => cases hs
  | lost _ hlt ha _ =>
    obtain rfl := List.mem_singleton.mp hs
    exact ⟨Nat.le.refl, by simp [WalkEnd.index], hlive, (modifies_step hlive hlt ha).symm⟩
  | found _ hlt ha _ hm _ =>
    obtain rfl := List.mem_singleton.mp hs
    exact ⟨Nat.le.refl, Nat.le.refl, hlive, by rw [modifies_step hlive hlt ha, hm]⟩
  | @step i live next hunks steps w _ hlt ha hr _ ht ih =>
    have hle := ht.le_stop
    rw [Walk.record_stop]
    cases hs with
    | head => exact ⟨Nat.le.refl, by dsimp only; omega, hlive, (modifies_step hlive hlt ha).symm⟩
    | tail _ hs =>
      obtain ⟨h₁, h₂⟩ := ih (liveAt?_step hlive hlt ha hr) hs
      exact ⟨by omega, h₂⟩

/-- What modifies the range before the trace ends is reported. -/
theorem Trace.mem_modifying (h : Trace c limit i live steps w)
    (hlive : c.liveAt? range i = some live) {j : Nat} (hj : i ≤ j) (hstop : j < w.stop.index)
    (hm : c.modifies range j = true) : j ∈ w.modifying := by
  induction h with
  | limit | missing | lost | found =>
    simp only [Walk.record_stop, WalkEnd.index] at hstop
    omega
  | @oldest i live _ _ =>
    simp only [endAt_index] at hstop
    omega
  | @step i live next hunks steps w _ hlt ha hr _ _ ih =>
    rw [Walk.record_stop] at hstop
    rw [Walk.record_modifying]
    rcases Nat.eq_or_lt_of_le hj with rfl | hj
    · rw [modifies_step hlive hlt ha] at hm
      simp [hm]
    · have := ih (liveAt?_step hlive hlt ha hr) hj hstop
      split
      · exact List.mem_cons_of_mem _ this
      · exact this

/-- A trace ends at the rename beyond its history exactly if it comes to the oldest entry. -/
theorem Trace.truncatedByRename (h : Trace c limit i live steps w) :
    w.stop.truncatedByRename =
      (c.history.truncatedByRename && decide (c.oldest ≤ w.stop.index) &&
        !limitReached limit w.stop.index) := by
  induction h with
  | limit hl => simp [WalkEnd.truncatedByRename, WalkEnd.index, hl]
  | oldest hl ho =>
    unfold endAt FileHistory.truncatedByRename
    cases c.history.beyond <;> simp [WalkEnd.truncatedByRename, WalkEnd.index, hl, ho]
  | missing _ hlt _ | found _ hlt _ _ _ _ =>
    simp [WalkEnd.truncatedByRename, WalkEnd.index, Nat.not_le.mpr hlt]
  | lost _ hlt _ _ =>
    simp [WalkEnd.truncatedByRename, WalkEnd.index, Nat.not_le.mpr hlt]
  | step _ _ _ _ _ _ ih => simpa only [Walk.record_stop] using ih

/-- The entry before which a limit admits transitions. -/
def horizon (c : Chronicle) : WalkLimit → Nat
  | .until stop => stop
  | _ => c.oldest

theorem lt_horizon (hl : limitReached limit i = false) (hi : i < c.oldest) :
    i < c.horizon limit := by
  cases limit with
  | exhaustive | firstModification => exact hi
  | «until» stop => simpa [limitReached, horizon] using hl

/-- Without a first modification to look for, a trace reports every modification up to its limit. -/
theorem Trace.modifying_eq (h : Trace c limit i live steps w)
    (hlive : c.liveAt? range i = some live) (hlimit : limit ≠ .firstModification) :
    w.modifying = (List.range' i (c.horizon limit - i)).filter (c.modifies range) := by
  have hnothing : ∀ {i : Nat}, (∀ j, i ≤ j → c.modifies range j = false) →
      (List.range' i (c.horizon limit - i)).filter (c.modifies range) = [] := by
    intro i hno
    rw [List.filter_eq_nil_iff]
    intro j hj
    simp [hno j (by rw [List.mem_range'_1] at hj; omega)]
  have hsplit : ∀ {i : Nat}, limitReached limit i = false → i < c.oldest →
      List.range' i (c.horizon limit - i) =
        i :: List.range' (i + 1) (c.horizon limit - (i + 1)) := by
    intro i hl hi
    have := lt_horizon (c := c) hl hi
    rw [show c.horizon limit - i = c.horizon limit - (i + 1) + 1 by omega, List.range'_succ]
  induction h with
  | @limit i live hl =>
    cases limit with
    | exhaustive | firstModification => cases hl
    | «until» stop =>
      have : stop ≤ i := by simpa [limitReached] using hl
      simp [horizon, Nat.sub_eq_zero_of_le this]
  | @oldest i live _ ho =>
    exact (hnothing fun j hj =>
      modifies_of_no_hunks (hunksAt?_of_oldest_le (Nat.le_trans ho hj))).symm
  | @missing i live _ hlt ha =>
    have hnone : c.hunksAt? i = none := by simp [hunksAt?, hlt, ha]
    refine (hnothing fun j hj => ?_).symm
    rcases Nat.eq_or_lt_of_le hj with rfl | hj
    · exact modifies_of_no_hunks hnone
    · exact modifies_of_lost (by simp [liveAt?, hnone]) hj
  | @lost i live hunks hl hlt ha hr =>
    have hh := hunksAt?_eq_some_iff.mpr ⟨hlt, ha⟩
    have hnone : c.liveAt? range (i + 1) = none := by simp [liveAt?, hlive, hh, hr]
    have hrest := hnothing fun j (hj : i + 1 ≤ j) => modifies_of_lost hnone hj
    rw [hsplit hl hlt, List.filter_cons, hrest, modifies_step hlive hlt ha, Walk.record_modifying]
  | found _ _ _ _ _ hfirst => exact absurd hfirst hlimit
  | @step i live next hunks steps w hl hlt ha hr _ _ ih =>
    rw [hsplit hl hlt, List.filter_cons, ← ih (liveAt?_step hlive hlt ha hr),
      modifies_step hlive hlt ha, Walk.record_modifying]

/-- The trace of a walk up to the first modification reports that modification, with which it ends,
or none. -/
theorem Trace.modifying_of_first (h : Trace c .firstModification i live steps w)
    (hlive : c.liveAt? range i = some live) :
    w.modifying = (if c.modifies range w.stop.index then [w.stop.index] else []) ∧
      ∀ j, i ≤ j → j < w.stop.index → c.modifies range j = false := by
  induction h with
  | limit hl => cases hl
  | @oldest i live _ ho =>
    have hno : c.modifies range i = false := modifies_of_no_hunks (hunksAt?_of_oldest_le ho)
    simp only [endAt_index, hno, Bool.false_eq_true, if_false]
    exact ⟨trivial, fun j _ _ => by omega⟩
  | @missing i live _ hlt ha =>
    have hno : c.modifies range i = false := modifies_of_no_hunks (by simp [hunksAt?, hlt, ha])
    simp only [WalkEnd.index, hno, Bool.false_eq_true, if_false]
    exact ⟨trivial, fun j _ _ => by omega⟩
  | @lost i live hunks _ hlt ha _ =>
    rw [Walk.record_stop, Walk.record_modifying]
    simp only [WalkEnd.index, modifies_step hlive hlt ha]
    exact ⟨trivial, fun j _ _ => by omega⟩
  | @found i live next hunks _ hlt ha _ hm _ =>
    simp only [WalkEnd.index, modifies_step hlive hlt ha, hm, if_true]
    exact ⟨trivial, fun j _ _ => by omega⟩
  | @step i live next hunks steps w _ hlt ha hr hgo ht ih =>
    have hm : (live.retrace hunks).modified = false := by
      simpa using hgo
    obtain ⟨hlist, hbefore⟩ := ih (liveAt?_step hlive hlt ha hr)
    rw [hm]
    refine ⟨hlist, fun j hj hstop => ?_⟩
    rcases Nat.eq_or_lt_of_le hj with rfl | hj
    · rw [modifies_step hlive hlt ha, hm]
    · exact hbefore j hj hstop

theorem Trace.stop_le_until {stop : Nat} (h : Trace c (.until stop) i live steps w)
    (hi : i ≤ stop) : w.stop.index ≤ stop := by
  induction h with
  | limit | missing | lost | found => simpa [WalkEnd.index] using hi
  | oldest =>
    simpa [endAt_index] using hi
  | step hl _ _ _ _ _ ih =>
    rw [Walk.record_stop]
    exact ih (Nat.succ_le_of_lt (by simpa [limitReached] using hl))

/-- A trace that comes to its limit ends with it. -/
theorem Trace.stop_eq_limit (h : Trace c limit i live steps w)
    (hl : limitReached limit w.stop.index = true) : w.stop = .limit w.stop.index := by
  induction h with
  | limit => rfl
  | @oldest i live hno _ =>
    rw [endAt_index, hno] at hl
    cases hl
  | missing hno | found hno =>
    rw [WalkEnd.index, hno] at hl
    cases hl
  | lost hno =>
    rw [Walk.record_stop, WalkEnd.index, hno] at hl
    cases hl
  | step _ _ _ _ _ _ ih =>
    rw [Walk.record_stop] at hl ⊢
    exact ih hl

end

/-! ## Answers without failures -/

/-- Every transition is answered by hunks that stand in the relation `R` to it, or by the news that
the older side is missing. -/
def Answers (c : Chronicle) (R : Nat → List Hunk → Prop) : Prop :=
  ∀ i newer older, c.history.get? i = some newer → c.history.get? (i + 1) = some older →
    (∃ hunks, c.diff newer older = .ok hunks ∧ R i hunks) ∨
      ∃ path revision, c.diff newer older = .error (.notFound path revision)

section
variable {R : Nat → List Hunk → Prop} {i : Nat}

theorem Answers.mono {R' : Nat → List Hunk → Prop} (h : c.Answers R)
    (hR : ∀ i hunks, R i hunks → R' i hunks) : c.Answers R' := by
  intro i newer older hn ho
  obtain ⟨hunks, hd, hr⟩ | hmissing := h i newer older hn ho
  · exact .inl ⟨hunks, hd, hR i hunks hr⟩
  · exact .inr hmissing

theorem Answers.ask (h : c.Answers R) (hi : i < c.oldest) :
    (∃ hunks, c.ask i = .ok (some hunks) ∧ R i hunks) ∨ c.ask i = .ok none := by
  have hsize : i + 1 < c.history.entries.length := by
    unfold oldest FileHistory.size at hi
    omega
  have hn : c.history.get? i = some c.history.entries[i] := by simp [FileHistory.get?]
  have ho : c.history.get? (i + 1) = some c.history.entries[i + 1] := by
    simp [FileHistory.get?, hsize]
  unfold Chronicle.ask
  simp only [hn, ho]
  obtain ⟨hunks, hd, hr⟩ | ⟨path, revision, hd⟩ := h i _ _ hn ho
  · exact .inl ⟨hunks, by rw [hd], hr⟩
  · exact .inr (by rw [hd])

theorem Answers.of_hunksAt? {hunks : List Hunk} (h : c.Answers R)
    (hh : c.hunksAt? i = some hunks) : R i hunks := by
  obtain ⟨hi, ha⟩ := hunksAt?_eq_some_iff.mp hh
  obtain ⟨found, hf, hr⟩ | hno := h.ask hi
  · rw [ha] at hf
    cases hf
    exact hr
  · rw [ha] at hno
    cases hno

/-- Without failures every walk succeeds. -/
theorem Answers.walk (h : c.Answers R) (range : LineRange) (limit : WalkLimit)
    {known : KnownDiffs} (hk : c.Faithful known) :
    ∃ w, (c.walk range limit known).outcome = .ok w ∧
      Trace c limit 0 range (c.walk range limit known).steps w := by
  obtain ⟨-, hw | ⟨e, j, -, hj, he⟩⟩ := walkFrom_spec limit 0 range hk
  · exact hw
  · obtain ⟨hunks, ha, -⟩ | ha := h.ask hj
    · rw [he] at ha
      cases ha
    · rw [he] at ha
      cases ha

end

/-! ## A short history -/

def ofThree (first second : Except Failure (List Hunk)) : Chronicle where
  history := ⟨[⟨⟨"c", true⟩, ⟨"f.py"⟩, false⟩, ⟨⟨"b", false⟩, ⟨"f.py"⟩, false⟩,
    ⟨⟨"a", false⟩, ⟨"f.py"⟩, false⟩], .created⟩
  diff newer _ := if newer.revision.id = "c" then first else second

theorem answers_ofThree {R : Nat → List Hunk → Prop} {first second : List Hunk} (h₁ : R 0 first)
    (h₂ : R 1 second) : (ofThree (.ok first) (.ok second)).Answers R := by
  intro i newer older hn ho
  match i with
  | 0 =>
    cases hn
    exact .inl ⟨first, rfl, h₁⟩
  | 1 =>
    cases hn
    exact .inl ⟨second, rfl, h₂⟩
  | i + 2 => cases ho

end Chronicle

end DocDrift
