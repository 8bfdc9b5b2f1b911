import DocDrift.Proofs.History.Trace
import Mathlib.Data.List.Forall2

/-!
# Walks in a row

Walks that are made one after the other share what the repository has answered, absent older sides
included, but no failures. None of this shows in what a walk says of its range. What it saves is
questions: a transition is asked about once, and again only as long as the answers are failures.
-/

namespace DocDrift

namespace Chronicle
variable {c : Chronicle}

/-- The runs of walks that are made one after the other. -/
def session (c : Chronicle) (known : KnownDiffs) : List (LineRange × WalkLimit) → List WalkRun
  | [] => []
  | (range, limit) :: rest =>
    let run := c.walk range limit known
    run :: c.session run.known rest

/-- The repository answers transition `i` with a failure, and not by the absence of an older side. -/
def Fails (c : Chronicle) (i : Nat) : Prop :=
  ∃ newer older e, c.history.get? i = some newer ∧ c.history.get? (i + 1) = some older ∧
    c.diff newer older = .error e ∧ ∀ path revision, e ≠ .notFound path revision

/-- The repository answers transition `i` by the absence of an older side. -/
def Misses (c : Chronicle) (i : Nat) : Prop :=
  ∃ newer older path revision, c.history.get? i = some newer ∧
    c.history.get? (i + 1) = some older ∧ c.diff newer older = .error (.notFound path revision)

/-- A walk along `range` comes to transition `i`: it has lines there, no earlier transition was the
modification that it is looking for, and its limit admits the transition. -/
structure Reaches (c : Chronicle) (range : LineRange) (limit : WalkLimit) (i : Nat) : Prop where
  live : ∃ live, c.liveAt? range i = some live
  admitted : limitReached limit i = false
  unmodified : limit = .firstModification → ∀ j < i, c.modifies range j = false

/-- The run is that of the walk on its own: it ends and steps alike, and asks about nothing but what
it comes to. It does not fail for want of an older side, but ends there as a creation. -/
structure Standalone (c : Chronicle) (range : LineRange) (limit : WalkLimit) (run : WalkRun) :
    Prop where
  outcome : run.outcome = (c.walk range limit []).outcome
  steps : run.steps = (c.walk range limit []).steps
  reached : ∀ i ∈ run.asked, c.Reaches range limit i
  not_notFound : ∀ path revision, run.outcome ≠ .error (.notFound path revision)
  creation : ∀ i, c.Misses i → c.Reaches range limit i →
    ∃ modifying, run.outcome = .ok ⟨modifying, .creation i⟩

/-! ## Answers -/

theorem ask_eq_error_iff {i : Nat} {e : Failure} : c.ask i = .error e ↔
    ∃ newer older, c.history.get? i = some newer ∧ c.history.get? (i + 1) = some older ∧
      c.diff newer older = .error e ∧ ∀ path revision, e ≠ .notFound path revision := by
  unfold ask
  constructor
  · intro h
    split at h
    · next newer older hn ho =>
      split at h
      · cases h
      · cases h
      · next e' hother hd =>
        cases h
        exact ⟨newer, older, hn, ho, hd, hother⟩
    · cases h
  · rintro ⟨newer, older, hn, ho, hd, hother⟩
    simp only [hn, ho, hd]

theorem fails_iff {i : Nat} : c.Fails i ↔ ∃ e, c.ask i = .error e := by
  simp only [ask_eq_error_iff, Fails]
  constructor
  · rintro ⟨newer, older, e, h⟩
    exact ⟨e, newer, older, h⟩
  · rintro ⟨e, newer, older, h⟩
    exact ⟨newer, older, e, h⟩

theorem Misses.ask {i : Nat} (h : c.Misses i) : c.ask i = .ok none := by
  obtain ⟨newer, older, path, revision, hn, ho, hd⟩ := h
  simp only [Chronicle.ask, hn, ho, hd]

theorem Misses.lt_oldest {i : Nat} (h : c.Misses i) : i < c.oldest := by
  obtain ⟨-, older, -, -, -, ho, -⟩ := h
  have := (List.getElem?_eq_some_iff.mp ho).1
  unfold oldest FileHistory.size
  omega

/-! ## The outcome of a walk -/

theorem Faithful.lookup_answer_eq {known known' : KnownDiffs} (hk : c.Faithful known)
    (hk' : c.Faithful known') (i : Nat) :
    (c.lookup known' i).answer = (c.lookup known i).answer := by
  rw [hk'.lookup_answer, hk.lookup_answer]

theorem Faithful.walkFrom_eq (limit : WalkLimit) (i : Nat) (live : LineRange)
    {known known' : KnownDiffs} (hk : c.Faithful known) (hk' : c.Faithful known') :
    (c.walkFrom limit i live known).outcome = (c.walkFrom limit i live known').outcome ∧
      (c.walkFrom limit i live known).steps = (c.walkFrom limit i live known').steps := by
  revert known'
  induction i, live, known using walkFrom.induct c limit with
  | case1 i live known hl =>
    intro known' hk'
    rw [walkFrom_limit hl, walkFrom_limit hl]
    exact ⟨rfl, rfl⟩
  | case2 i live known hl ho =>
    intro known' hk'
    rw [walkFrom_oldest hl ho, walkFrom_oldest hl ho]
    exact ⟨rfl, rfl⟩
  | case3 i live known hl ho found e he =>
    intro known' hk'
    rw [walkFrom_failed hl ho he, walkFrom_failed hl ho ((hk.lookup_answer_eq hk' i).trans he)]
    exact ⟨rfl, rfl⟩
  | case4 i live known hl ho found hn =>
    intro known' hk'
    rw [walkFrom_missing hl ho hn, walkFrom_missing hl ho ((hk.lookup_answer_eq hk' i).trans hn)]
    exact ⟨rfl, rfl⟩
  | case5 i live known hl ho found hunks hh ih =>
    intro known' hk'
    have hbehind : (c.walkBehind limit i live hunks (c.lookup known i).known).outcome =
          (c.walkBehind limit i live hunks (c.lookup known' i).known).outcome ∧
        (c.walkBehind limit i live hunks (c.lookup known i).known).steps =
          (c.walkBehind limit i live hunks (c.lookup known' i).known).steps := by
      unfold walkBehind
      cases (live.retrace hunks).range with
      | none => exact ⟨rfl, rfl⟩
      | some next =>
        dsimp only
        split
        · exact ⟨rfl, rfl⟩
        · exact ih next (hk.lookup_known i) (hk'.lookup_known i)
    rw [walkFrom_found hl ho hh, walkFrom_found hl ho ((hk.lookup_answer_eq hk' i).trans hh)]
    simp only [WalkRun.behindQuestions, WalkRun.behindStep, hbehind.1, hbehind.2, and_self]

theorem mem_lookup_asked {known : KnownDiffs} {i j : Nat} (h : j ∈ (c.lookup known i).asked) :
    j = i ∧ known.lookup i = none := by
  unfold lookup at h
  split at h
  · cases h
  · next hunknown =>
    split at h
    all_goals exact ⟨List.mem_singleton.mp h, hunknown⟩

section
variable {limit : WalkLimit} {range live : LineRange} {i : Nat} {steps : List WalkStep} {w : Walk}

/-- A trace from a transition that the walk comes to goes on from one that starts at the tip. -/
theorem Trace.of_reached (h : Trace c limit i live steps w) (hlive : c.liveAt? range i = some live)
    (hl : limitReached limit i = false)
    (hun : limit = .firstModification → ∀ j < i, c.modifies range j = false) :
    ∃ steps' w', Trace c limit 0 range steps' w' ∧ w'.stop = w.stop := by
  induction i generalizing live steps w with
  | zero =>
    cases hlive
    exact ⟨steps, w, h, rfl⟩
  | succ i ih =>
    obtain ⟨before, hunks, hbefore, hh, hr⟩ := liveAt?_succ_eq_some_iff.mp hlive
    obtain ⟨hi, ha⟩ := hunksAt?_eq_some_iff.mp hh
    have hm := modifies_step hbefore hi ha
    have hl' : limitReached limit i = false := by
      cases limit with
      | exhaustive | firstModification => rfl
      | «until» stop =>
        simp only [limitReached, decide_eq_false_iff_not] at hl ⊢
        omega
    have hgo : (before.retrace hunks).modified = true → limit ≠ .firstModification := by
      intro hmod hfirst
      rw [hun hfirst i (Nat.lt_succ_self i), hmod] at hm
      cases hm
    have hstep := Trace.step hl' hi ha hr hgo h
    obtain ⟨steps', w', ht, hstop⟩ :=
      ih hstep hbefore hl' fun hfirst j hj => hun hfirst j (Nat.lt_succ_of_lt hj)
    exact ⟨steps', w', ht, by rw [hstop, Walk.record_stop]⟩

theorem Reaches.creation (h : c.Reaches range limit i) (hm : c.Misses i) {known : KnownDiffs}
    (hk : c.Faithful known) :
    ∃ modifying, (c.walk range limit known).outcome = .ok ⟨modifying, .creation i⟩ := by
  obtain ⟨live, hlive⟩ := h.live
  have hmissing : Trace c limit i live [] ⟨[], .creation i⟩ :=
    .missing h.admitted hm.lt_oldest hm.ask
  obtain ⟨steps, ⟨modifying, stop⟩, ht, hstop⟩ := hmissing.of_reached hlive h.admitted h.unmodified
  cases hstop
  exact ⟨modifying, ht.walkFrom hk⟩

theorem Reaches.of_lookup (hl : ¬ limitReached limit i = true)
    (hlive : c.liveAt? range i = some live)
    (hun : limit = .firstModification → ∀ j < i, c.modifies range j = false)
    {known : KnownDiffs} {j : Nat} (hj : j ∈ (c.lookup known i).asked) :
    c.Reaches range limit j := by
  obtain ⟨rfl, -⟩ := mem_lookup_asked hj
  exact ⟨⟨live, hlive⟩, eq_false_of_ne_true hl, hun⟩

theorem Reaches.of_asked {known : KnownDiffs} (hk : c.Faithful known)
    (hlive : c.liveAt? range i = some live)
    (hun : limit = .firstModification → ∀ j < i, c.modifies range j = false) :
    ∀ j ∈ (c.walkFrom limit i live known).asked, c.Reaches range limit j := by
  induction i, live, known using walkFrom.induct c limit with
  | case1 i live known hl =>
    rw [walkFrom_limit hl]
    intro j hj
    cases hj
  | case2 i live known hl ho =>
    rw [walkFrom_oldest hl ho]
    intro j hj
    cases hj
  | case3 i live known hl ho found e he =>
    rw [walkFrom_failed hl ho he]
    exact fun j hj => .of_lookup hl hlive hun hj
  | case4 i live known hl ho found hn =>
    rw [walkFrom_missing hl ho hn]
    intro j hj
    rcases List.mem_append.mp hj with hj | hj
    · exact .of_lookup hl hlive hun hj
    · cases hj
  | case5 i live known hl ho found hunks hh ih =>
    have hi := Nat.lt_of_not_le ho
    have ha : c.ask i = .ok (some hunks) := (hk.lookup_answer i).symm.trans hh
    have hm := modifies_step hlive hi ha
    rw [walkFrom_found hl ho hh]
    intro j hj
    rcases List.mem_append.mp hj with hj | hj
    · exact .of_lookup hl hlive hun hj
    · simp only [WalkRun.behindStep, walkBehind] at hj
      split at hj
      · cases hj
      · next next hr =>
        split at hj
        · cases hj
        · next hgo =>
          refine ih next (hk.lookup_known i) (liveAt?_step hlive hi ha hr) ?_ j hj
          intro hfirst k hlt
          rcases Nat.lt_succ_iff_lt_or_eq.mp hlt with hlt | rfl
          · exact hun hfirst k hlt
          · rw [hm]
            simpa [hfirst] using hgo

end

theorem walk_standalone (range : LineRange) (limit : WalkLimit) {known : KnownDiffs}
    (hk : c.Faithful known) : c.Standalone range limit (c.walk range limit known) where
  outcome := (hk.walkFrom_eq limit 0 range faithful_nil).1
  steps := (hk.walkFrom_eq limit 0 range faithful_nil).2
  reached := .of_asked hk (liveAt?_zero range) fun _ j hj => absurd hj (Nat.not_lt_zero j)
  not_notFound := by
    intro path revision h
    obtain ⟨-, ⟨w, hw, -⟩ | ⟨e, j, he, -, hj⟩⟩ := walkFrom_spec limit 0 range hk
    · cases h.symm.trans hw
    · cases h.symm.trans he
      obtain ⟨-, -, -, -, -, hother⟩ := ask_eq_error_iff.mp hj
      exact hother path revision rfl
  creation i hm hr := hr.creation hm hk

/-! ## The questions of a walk -/

theorem lookup_known_of_known {known : KnownDiffs} {i j : Nat} {answer : Option (List Hunk)}
    (h : known.lookup j = some answer) : (c.lookup known i).known.lookup j = some answer := by
  unfold lookup
  split
  · exact h
  · next hunknown =>
    split
    · have hne : j ≠ i := by
        rintro rfl
        rw [hunknown] at h
        cases h
      rw [List.lookup_cons, beq_false_of_ne hne]
      exact h
    · exact h

theorem lookup_asked_sorted (known : KnownDiffs) (i : Nat) :
    (c.lookup known i).asked.Pairwise (· < ·) := by
  unfold lookup
  split
  · exact .nil
  · split <;> exact List.pairwise_singleton _ _

theorem fails_of_lookup_unknown {known : KnownDiffs} {i : Nat}
    (h : (c.lookup known i).known.lookup i = none) : c.Fails i := by
  rw [fails_iff]
  unfold lookup at h
  split at h
  · next hknown =>
    rw [hknown] at h
    cases h
  · split at h
    · rw [List.lookup_cons, beq_self_eq_true] at h
      cases h
    · next e he => exact ⟨e, he⟩

/-- The run asks for unknown transitions from `i` on, one after the other, and each of them is known
from then on unless it was answered with a failure. -/
structure Thrifty (c : Chronicle) (i : Nat) (known : KnownDiffs) (run : WalkRun) : Prop where
  unknown : ∀ j ∈ run.asked, i ≤ j ∧ known.lookup j = none
  sorted : run.asked.Pairwise (· < ·)
  grows : ∀ j answer, known.lookup j = some answer → run.known.lookup j = some answer
  kept : ∀ j ∈ run.asked, run.known.lookup j = none → c.Fails j

namespace Thrifty
variable {i : Nat} {known : KnownDiffs} {run : WalkRun}

theorem of_no_questions (h : run.asked = []) (hk : run.known = known) : c.Thrifty i known run where
  unknown j hj := by simp [h] at hj
  sorted := by rw [h]; exact .nil
  grows j answer hj := by rwa [hk]
  kept j hj := by simp [h] at hj

theorem unknown_before (h : c.Thrifty i known run) {j : Nat} (hj : run.known.lookup j = none) :
    known.lookup j = none := by
  cases hk : known.lookup j with
  | none => rfl
  | some answer =>
    rw [h.grows j answer hk] at hj
    cases hj

theorem behindLookup (h : c.Thrifty (i + 1) (c.lookup known i).known run) :
    c.Thrifty i known (run.behindQuestions (c.lookup known i).asked) := by
  constructor
  · intro j hj
    rcases List.mem_append.mp hj with hj | hj
    · obtain ⟨rfl, hk⟩ := mem_lookup_asked hj
      exact ⟨Nat.le.refl, hk⟩
    · obtain ⟨hle, hk⟩ := h.unknown j hj
      refine ⟨by omega, ?_⟩
      cases hknown : known.lookup j with
      | none => rfl
      | some answer =>
        rw [lookup_known_of_known hknown] at hk
        cases hk
  · refine List.pairwise_append.mpr ⟨lookup_asked_sorted known i, h.sorted, ?_⟩
    intro j hj k hk
    obtain ⟨rfl, -⟩ := mem_lookup_asked hj
    exact (h.unknown k hk).1
  · intro j answer hj
    exact h.grows j answer (lookup_known_of_known hj)
  · intro j hj hk
    rcases List.mem_append.mp hj with hj | hj
    · obtain ⟨rfl, -⟩ := mem_lookup_asked hj
      exact fails_of_lookup_unknown (h.unknown_before hk)
    · exact h.kept j hj hk

end Thrifty

theorem walkFrom_thrifty (limit : WalkLimit) (i : Nat) (live : LineRange) (known : KnownDiffs) :
    c.Thrifty i known (c.walkFrom limit i live known) := by
  induction i, live, known using walkFrom.induct c limit with
  | case1 i live known hl =>
    rw [walkFrom_limit hl]
    exact .of_no_questions rfl rfl
  | case2 i live known hl ho =>
    rw [walkFrom_oldest hl ho]
    exact .of_no_questions rfl rfl
  | case3 i live known hl ho found e he =>
    have hfailed : c.Thrifty (i + 1) found.known ⟨.error e, [], [], found.known⟩ :=
      .of_no_questions rfl rfl
    have hrun := hfailed.behindLookup
    rw [WalkRun.behindQuestions, List.append_nil] at hrun
    rw [walkFrom_failed hl ho he]
    exact hrun
  | case4 i live known hl ho found hn =>
    have hdone : c.Thrifty (i + 1) found.known (.done (.creation i) found.known) :=
      .of_no_questions rfl rfl
    rw [walkFrom_missing hl ho hn]
    exact hdone.behindLookup
  | case5 i live known hl ho found hunks hh ih =>
    have hbehind : c.Thrifty (i + 1) found.known (c.walkBehind limit i live hunks found.known) := by
      unfold walkBehind
      split
      · exact .of_no_questions rfl rfl
      · split
        · exact .of_no_questions rfl rfl
        · exact ih _
    have hstep : c.Thrifty (i + 1) found.known ((c.walkBehind limit i live hunks
        found.known).behindStep ⟨i, live, (live.retrace hunks).modified⟩) :=
      ⟨hbehind.unknown, hbehind.sorted, hbehind.grows, hbehind.kept⟩
    rw [walkFrom_found hl ho hh]
    exact hstep.behindLookup

/-! ## Sessions -/

theorem session_standalone {known : KnownDiffs} (hk : c.Faithful known)
    (walks : List (LineRange × WalkLimit)) :
    List.Forall₂ (fun q run => c.Standalone q.1 q.2 run) walks (c.session known walks) := by
  induction walks generalizing known with
  | nil => exact .nil
  | cons q rest ih =>
    obtain ⟨range, limit⟩ := q
    have hlater := (walkFrom_spec limit 0 range hk).1
    exact .cons (walk_standalone range limit hk) (ih hlater)

theorem session_asked (known : KnownDiffs) (walks : List (LineRange × WalkLimit)) :
    (∀ j ∈ (c.session known walks).flatMap WalkRun.asked, known.lookup j = none) ∧
      ((c.session known walks).flatMap WalkRun.asked).Pairwise fun i j => i = j → c.Fails i := by
  induction walks generalizing known with
  | nil => exact ⟨by simp [session], .nil⟩
  | cons q rest ih =>
    obtain ⟨range, limit⟩ := q
    have hrun := walkFrom_thrifty (c := c) limit 0 range known
    obtain ⟨hunknown, honce⟩ := ih (c.walk range limit known).known
    rw [session, List.flatMap_cons]
    constructor
    · intro j hj
      rcases List.mem_append.mp hj with hj | hj
      · exact (hrun.unknown j hj).2
      · exact hrun.unknown_before (hunknown j hj)
    · refine List.pairwise_append.mpr ⟨?_, honce, ?_⟩
      · exact hrun.sorted.imp fun hlt heq => absurd heq (Nat.ne_of_lt hlt)
      · -- asked again, the transition was still unknown behind the first walk
        rintro j hj k hk rfl
        exact hrun.kept j hj (hunknown j hk)

/-- Every walk of a session says what it says on its own, and no transition is asked about twice
unless it was answered with a failure. -/
theorem session_transparent (c : Chronicle) (walks : List (LineRange × WalkLimit)) :
    List.Forall₂ (fun q run => c.Standalone q.1 q.2 run) walks (c.session [] walks) ∧
      ((c.session [] walks).flatMap WalkRun.asked).Pairwise fun i j => i = j → c.Fails i :=
  ⟨session_standalone faithful_nil walks, (session_asked [] walks).2⟩

/-- The first two walks fail at transition 1, so both ask about it; transition 0 is asked about
once. -/
theorem session_transparent_ofThree :
    let c := ofThree (.ok [⟨4, 1, 4, 1⟩]) (.error (.diff "cut off"))
    let walks := [(⟨1, 2⟩, .exhaustive), (⟨4, 4⟩, .until 2), (⟨4, 4⟩, .firstModification)]
    (c.session [] walks).flatMap WalkRun.asked = [0, 1, 1] ∧
      List.Forall₂ (fun q run => c.Standalone q.1 q.2 run) walks (c.session [] walks) ∧
      ((c.session [] walks).flatMap WalkRun.asked).Pairwise fun i j => i = j → c.Fails i := by
  intro c walks
  exact ⟨by decide +kernel, session_transparent c walks⟩

end Chronicle

end DocDrift
