import DocDrift.Proofs.History.Consistency

/-!
# The questions of a survey

What the walks of a survey have asked about is at all times an initial stretch of the history: the
transitions of the newest entries, without a gap. The walk along the documentation of a unit goes on
where the stretch ends, and the walk along the whole unit stays inside it. So the transitions are
asked about one after the other from the newest on, and one that is answered with a failure is the
last.
-/

namespace DocDrift

/-- Each entry with the next older one, from the newest pair on. -/
def FileHistory.transitions (h : FileHistory) : List (HistoryEntry × HistoryEntry) :=
  h.entries.zip h.entries.tail

theorem FileHistory.transitions_getElem?_eq_some_iff {h : FileHistory} {i : Nat}
    {t : HistoryEntry × HistoryEntry} :
    h.transitions[i]? = some t ↔ h.get? i = some t.1 ∧ h.get? (i + 1) = some t.2 := by
  unfold FileHistory.transitions FileHistory.get?
  rw [List.getElem?_zip_eq_some, List.getElem?_tail]

theorem FileHistory.transitions_length (h : FileHistory) : h.transitions.length = h.size - 1 := by
  simp [FileHistory.transitions, FileHistory.size]

/-- Exactly the first `n` transitions are known. -/
def KnownUpTo (known : KnownDiffs) (n : Nat) : Prop :=
  ∀ i, known.lookup i = none ↔ n ≤ i

theorem knownUpTo_nil : KnownUpTo [] 0 := by
  intro i
  simp

theorem KnownUpTo.exists_lookup {known : KnownDiffs} {n i : Nat} (hk : KnownUpTo known n)
    (hi : i < n) : ∃ answer, known.lookup i = some answer := by
  have hne : known.lookup i ≠ none := by
    rw [Ne, hk i]
    omega
  exact Option.ne_none_iff_exists'.mp hne

theorem KnownUpTo.cons {known : KnownDiffs} {n : Nat} (hk : KnownUpTo known n)
    (answer : Option (List Hunk)) : KnownUpTo ((n, answer) :: known) (n + 1) := by
  intro i
  rw [List.lookup_cons]
  split
  · next h =>
    have hi : i = n := eq_of_beq h
    simp [hi]
  · next h =>
    have hi : i ≠ n := by
      rintro rfl
      simp at h
    rw [hk i]
    omega

namespace Chronicle
variable {c : Chronicle}

/-- From the knowledge of the first `n` transitions to that of the first `m`, each of the others is
asked about and answered. A failure is the answer for transition `m`, which was asked about too. -/
structure Inquiry {α : Type} (c : Chronicle) (n m : Nat) (outcome : Except Failure α)
    (asked : List Nat) (known : KnownDiffs) : Prop where
  le : n ≤ m
  known : KnownUpTo known m
  answered : ∀ i, n ≤ i → i < m → ∃ hunks, c.ask i = .ok hunks
  asked : asked = List.range' n (m - n) ++
    match outcome with
    | .ok _ => []
    | .error _ => [m]
  failed : ∀ e, outcome = .error e → c.ask m = .error e

namespace Inquiry
variable {α β : Type} {n m k : Nat} {outcome : Except Failure α} {asked : List Nat}
  {known : KnownDiffs}

theorem nothing (hk : KnownUpTo known n) (a : α) : c.Inquiry n n (.ok a) [] known where
  le := Nat.le.refl
  known := hk
  answered i hi hlt := by omega
  asked := by simp
  failed e h := by cases h

theorem asked_ok {a : α} (h : c.Inquiry n m (.ok a) asked known) :
    asked = List.range' n (m - n) := by
  simpa using h.asked

theorem asked_error {e : Failure} (h : c.Inquiry n m (.error e : Except Failure α) asked known) :
    asked = List.range' n (m + 1 - n) := by
  have hle := h.le
  have hsplit : m + 1 - n = m - n + 1 := by omega
  have hlast : n + (m - n) = m := by omega
  rw [h.asked, hsplit, List.range'_concat, Nat.one_mul, hlast]

/-- What is asked about first, and then the rest. -/
theorem append {a : β} {first : List Nat} {before : KnownDiffs}
    (h : c.Inquiry n m (.ok a) first before) (h' : c.Inquiry m k outcome asked known) :
    c.Inquiry n k outcome (first ++ asked) known := by
  have hle := h.le
  have hle' := h'.le
  constructor
  · omega
  · exact h'.known
  · intro i hi hlt
    rcases Nat.lt_or_ge i m with him | him
    · exact h.answered i hi him
    · exact h'.answered i him hlt
  · have hjoin : List.range' n (m - n) ++ List.range' m (k - m) = List.range' n (k - n) := by
      have hstart : n + (m - n) = m := by omega
      have hsize : m - n + (k - m) = k - n := by omega
      calc List.range' n (m - n) ++ List.range' m (k - m)
          = List.range' n (m - n) ++ List.range' (n + (m - n)) (k - m) := by rw [hstart]
        _ = List.range' n (k - n) := by rw [List.range'_append_1, hsize]
    rw [h.asked_ok, h'.asked, ← List.append_assoc, hjoin]
  · exact h'.failed

/-- A failure among the answers is what comes of the whole. -/
theorem refused {i : Nat} {e : Failure} (h : c.Inquiry n m outcome asked known) (hi : i ∈ asked)
    (he : c.ask i = .error e) : outcome = .error e := by
  rw [h.asked] at hi
  rcases List.mem_append.mp hi with hi | hi
  · rw [List.mem_range'_1] at hi
    obtain ⟨hunks, hh⟩ := h.answered i hi.1 (by omega)
    cases he.symm.trans hh
  · cases outcome with
    | ok a => cases hi
    | error e' =>
      obtain rfl := List.mem_singleton.mp hi
      cases he.symm.trans (h.failed e' rfl)
      rfl

theorem map (f : α → β) (h : c.Inquiry n m outcome asked known) :
    c.Inquiry n m (outcome.map f) asked known := by
  cases outcome with
  | ok a => exact ⟨h.le, h.known, h.answered, h.asked, fun e he => by cases he⟩
  | error e =>
    exact ⟨h.le, h.known, h.answered, h.asked, fun e' he => by cases he; exact h.failed e rfl⟩

end Inquiry

/-! ## Walks -/

/-- A walk with this limit that gets to entry `i` deals with its transition. -/
def Admits (c : Chronicle) (limit : WalkLimit) (i : Nat) : Prop :=
  i < c.oldest ∧ limitReached limit i = false

theorem Admits.of_le {limit : WalkLimit} {i j : Nat} (h : c.Admits limit j) (hij : i ≤ j) :
    c.Admits limit i := by
  refine ⟨Nat.lt_of_le_of_lt hij h.1, ?_⟩
  cases limit with
  | exhaustive | firstModification => rfl
  | «until» stop =>
    have hj : ¬ stop ≤ j := by simpa [limitReached] using h.2
    simp only [limitReached, decide_eq_false_iff_not]
    omega

theorem lookup_found {known : KnownDiffs} {n i : Nat} (hk : KnownUpTo known n) (hi : i ≤ n)
    {hunks : Option (List Hunk)} (h : (c.lookup known i).answer = .ok hunks) :
    c.Inquiry n (max n (i + 1)) (.ok hunks) (c.lookup known i).asked (c.lookup known i).known := by
  rcases Nat.lt_or_eq_of_le hi with hlt | rfl
  · obtain ⟨answer, ha⟩ := hk.exists_lookup hlt
    have hmax : max n (i + 1) = n := by omega
    rw [hmax]
    simp only [lookup, ha]
    exact .nothing hk hunks
  · have hunknown : known.lookup i = none := (hk i).mpr Nat.le.refl
    have hmax : max i (i + 1) = i + 1 := by omega
    have hone : i + 1 - i = 1 := by omega
    rw [hmax]
    cases ha : c.ask i with
    | error e => simp [lookup, hunknown, ha] at h
    | ok answer =>
      simp only [lookup, hunknown, ha]
      constructor
      · exact Nat.le_succ i
      · exact hk.cons answer
      · intro j hj hlt
        obtain rfl : j = i := by omega
        exact ⟨answer, ha⟩
      · simp [hone]
      · intro e he
        cases he

theorem lookup_failed {α : Type} {known : KnownDiffs} {n i : Nat} (hk : KnownUpTo known n)
    (hi : i ≤ n) {e : Failure} (h : (c.lookup known i).answer = .error e) :
    c.Inquiry n i (.error e : Except Failure α) (c.lookup known i).asked
      (c.lookup known i).known := by
  rcases Nat.lt_or_eq_of_le hi with hlt | rfl
  · obtain ⟨answer, ha⟩ := hk.exists_lookup hlt
    simp [lookup, ha] at h
  · have hunknown : known.lookup i = none := (hk i).mpr Nat.le.refl
    cases ha : c.ask i with
    | ok hunks => simp [lookup, hunknown, ha] at h
    | error e' =>
      simp only [lookup, hunknown, ha] at h ⊢
      cases h
      constructor
      · exact Nat.le.refl
      · exact hk
      · intro j hj hlt
        omega
      · simp
      · intro e' he
        cases he
        exact ha

/-- A walk from entry `i` on, with the first `n` transitions known, asks for the others that it
deals with: up to where it ends, or up to the one that is answered with a failure. -/
structure WalkInquiry (c : Chronicle) (limit : WalkLimit) (i n m : Nat) (run : WalkRun) : Prop where
  inquiry : c.Inquiry n m run.outcome run.asked run.known
  le_stop : ∀ w, run.outcome = .ok w → i ≤ w.stop.index
  reach : ∀ w, run.outcome = .ok w → ∀ j, j < m ↔ j < n ∨ (j ≤ w.stop.index ∧ c.Admits limit j)
  failed : ∀ e, run.outcome = .error e → c.Admits limit m

namespace WalkInquiry
variable {limit : WalkLimit} {i n m : Nat} {run : WalkRun}

/-- A walk that ends before transition `i`. -/
theorem before {known : KnownDiffs} {stop : WalkEnd} (hk : KnownUpTo known n) (hi : i ≤ n)
    (hstop : stop.index = i) (hno : ¬ c.Admits limit i) :
    c.WalkInquiry limit i n n (.done stop known) where
  inquiry := .nothing hk _
  le_stop w hw := by
    cases hw
    exact Nat.le_of_eq hstop.symm
  reach w hw j := by
    cases hw
    rw [hstop]
    constructor
    · exact .inl
    · rintro (hn | ⟨hle, hj⟩)
      · exact hn
      · have hne : j ≠ i := by
          rintro rfl
          exact hno hj
        omega
  failed e he := by cases he

/-- A walk that deals with transition `i` and ends there. -/
theorem behind {w : Walk} (hi : c.Admits limit i) (hw : run.outcome = .ok w)
    (hstop : w.stop.index = i)
    (h : c.Inquiry n (max n (i + 1)) run.outcome run.asked run.known) :
    c.WalkInquiry limit i n (max n (i + 1)) run where
  inquiry := h
  le_stop w' hw' := by
    cases hw.symm.trans hw'
    exact Nat.le_of_eq hstop.symm
  reach w' hw' j := by
    cases hw.symm.trans hw'
    constructor
    · intro hj
      rcases Nat.lt_or_ge j n with hn | hn
      · exact .inl hn
      · exact .inr ⟨by omega, hi.of_le (by omega)⟩
    · rintro (hn | ⟨hle, -⟩)
      · omega
      · omega
  failed e he := by cases hw.symm.trans he

/-- A walk that deals with transition `i` and goes on. -/
theorem step {hunks : Option (List Hunk)} {asked : List Nat} {before : KnownDiffs} {s : WalkStep}
    (hi : c.Admits limit i) (hlookup : c.Inquiry n (max n (i + 1)) (.ok hunks) asked before)
    (h : c.WalkInquiry limit (i + 1) (max n (i + 1)) m run) :
    c.WalkInquiry limit i n m ((run.behindStep s).behindQuestions asked) := by
  have houtcome : ∀ w', (run.behindStep s).outcome = .ok w' →
      ∃ w, run.outcome = .ok w ∧ w'.stop.index = w.stop.index := by
    intro w' hw'
    cases hrun : run.outcome with
    | error e => simp [WalkRun.behindStep, hrun, Except.map] at hw'
    | ok w =>
      simp only [WalkRun.behindStep, hrun, Except.map, Except.ok.injEq] at hw'
      subst hw'
      exact ⟨w, rfl, by split <;> rfl⟩
  constructor
  · exact hlookup.append (h.inquiry.map _)
  · intro w' hw'
    obtain ⟨w, hw, hstop⟩ := houtcome w' hw'
    have := h.le_stop w hw
    omega
  · intro w' hw' j
    obtain ⟨w, hw, hstop⟩ := houtcome w' hw'
    have hle := h.le_stop w hw
    rw [h.reach w hw j, hstop]
    constructor
    · rintro (hj | hj)
      · rcases Nat.lt_or_ge j n with hn | hn
        · exact .inl hn
        · exact .inr ⟨by omega, hi.of_le (by omega)⟩
      · exact .inr hj
    · rintro (hj | hj)
      · exact .inl (by omega)
      · exact .inr hj
  · intro e he
    cases hrun : run.outcome with
    | ok w => simp [WalkRun.behindQuestions, WalkRun.behindStep, hrun, Except.map] at he
    | error e' => exact h.failed e' hrun

end WalkInquiry

theorem walkFrom_inquiry (limit : WalkLimit) (i : Nat) (live : LineRange) {known : KnownDiffs}
    (n : Nat) (hk : KnownUpTo known n) (hi : i ≤ n) :
    ∃ m, c.WalkInquiry limit i n m (c.walkFrom limit i live known) := by
  induction i, live, known using walkFrom.induct c limit generalizing n with
  | case1 i live known hl =>
    have hno : ¬ c.Admits limit i := fun h => by simp [h.2] at hl
    rw [walkFrom_limit hl]
    exact ⟨n, .before hk hi rfl hno⟩
  | case2 i live known hl ho =>
    have hno : ¬ c.Admits limit i := fun h => Nat.not_lt.mpr ho h.1
    rw [walkFrom_oldest hl ho]
    exact ⟨n, .before hk hi (endAt_index i) hno⟩
  | case3 i live known hl ho found e he =>
    have hadmits : c.Admits limit i := ⟨Nat.lt_of_not_le ho, eq_false_of_ne_true hl⟩
    rw [walkFrom_failed hl ho he]
    refine ⟨i, lookup_failed hk hi he, ?_, ?_, fun _ _ => hadmits⟩
    · intro w hw
      cases hw
    · intro w hw
      cases hw
  | case4 i live known hl ho found hn =>
    have hadmits : c.Admits limit i := ⟨Nat.lt_of_not_le ho, eq_false_of_ne_true hl⟩
    have hlookup := lookup_found hk hi hn
    have hrun := hlookup.append (.nothing hlookup.known (Walk.mk [] (.creation i)))
    rw [walkFrom_missing hl ho hn]
    exact ⟨max n (i + 1), .behind hadmits rfl rfl hrun⟩
  | case5 i live known hl ho found hunks hh ih =>
    have hadmits : c.Admits limit i := ⟨Nat.lt_of_not_le ho, eq_false_of_ne_true hl⟩
    have hlookup := lookup_found hk hi hh
    have hdone : ∀ stop : WalkEnd, stop.index = i → ∃ m, c.WalkInquiry limit i n m
        (((WalkRun.done stop found.known).behindStep
          ⟨i, live, (live.retrace hunks).modified⟩).behindQuestions found.asked) := by
      intro stop hstop
      let w := Walk.record ⟨[], stop⟩ (live.retrace hunks).modified i
      have hend : w.stop.index = i := by rw [Walk.record_stop, hstop]
      have hrun := hlookup.append (.nothing hlookup.known w)
      exact ⟨max n (i + 1), .behind hadmits rfl hend hrun⟩
    rw [walkFrom_found hl ho hh, walkBehind]
    split
    · exact hdone (.origin i) rfl
    · next next _ =>
      split
      · exact hdone (.limit i) rfl
      · obtain ⟨m, hm⟩ := ih next (max n (i + 1)) hlookup.known (Nat.le_max_right _ _)
        exact ⟨m, .step hadmits hlookup hm⟩

theorem walk_inquiry (range : LineRange) (limit : WalkLimit) {known : KnownDiffs} {n : Nat}
    (hk : KnownUpTo known n) : ∃ m, c.WalkInquiry limit 0 n m (c.walk range limit known) :=
  walkFrom_inquiry limit 0 range n hk (Nat.zero_le n)

/-- A walk that is admitted to known transitions only asks for nothing. -/
theorem WalkInquiry.silent {limit : WalkLimit} {i n m : Nat} {run : WalkRun}
    (h : c.WalkInquiry limit i n m run) (hn : ∀ j, c.Admits limit j → j < n) :
    m = n ∧ run.asked = [] ∧ ∃ w, run.outcome = .ok w := by
  have hle := h.inquiry.le
  cases hrun : run.outcome with
  | error e =>
    have hlt := hn m (h.failed e hrun)
    omega
  | ok w =>
    have hm : m = n := by
      by_contra hne
      have hreach := (h.reach w hrun n).mp (by omega)
      rcases hreach with hlt | ⟨-, hadmits⟩
      · omega
      · have := hn n hadmits
        omega
    have hinquiry := h.inquiry
    rw [hrun] at hinquiry
    refine ⟨hm, ?_, w, rfl⟩
    rw [hinquiry.asked_ok, hm, Nat.sub_self]
    rfl

/-! ## Measurements -/

section
variable {known : KnownDiffs} {n : Nat}

/-- The walk along the documentation asks for what is missing up to the entry where the
documentation last changed, and the walk along the whole unit asks for nothing. -/
theorem unit_inquiry {unit : DocumentedUnit} {doc : Walk} (hk : KnownUpTo known n)
    (hf : c.Faithful known)
    (hdoc : (c.walk unit.docRange .firstModification known).outcome = .ok doc) :
    let docRun := c.walk unit.docRange .firstModification known
    let bodyRun := c.walk unit.bodyRange (.until (docIndex doc)) docRun.known
    ∃ m, c.Inquiry n m docRun.outcome docRun.asked docRun.known ∧
      (∀ j, j < m ↔ j < n ∨ (j ≤ docIndex doc ∧ j < c.oldest)) ∧
      bodyRun.asked = [] ∧ KnownUpTo bodyRun.known m ∧ ∃ body, bodyRun.outcome = .ok body := by
  intro docRun bodyRun
  obtain ⟨m, hm⟩ := walk_inquiry unit.docRange .firstModification hk
  have hindex := (walk_trace hf hdoc).docIndex.1
  have hreach : ∀ j, j < m ↔ j < n ∨ (j ≤ docIndex doc ∧ j < c.oldest) := by
    intro j
    rw [hm.reach doc hdoc j, ← hindex]
    simp [Admits, limitReached]
  obtain ⟨m', hm'⟩ := walk_inquiry unit.bodyRange (.until (docIndex doc)) hm.inquiry.known
  have hknown : ∀ j, c.Admits (.until (docIndex doc)) j → j < m := by
    intro j hj
    have hstop : ¬ docIndex doc ≤ j := by simpa [limitReached] using hj.2
    exact (hreach j).mpr (.inr ⟨by omega, hj.1⟩)
  obtain ⟨rfl, hasked, hbody⟩ := hm'.silent hknown
  exact ⟨m', hm.inquiry, hreach, hasked, hm'.inquiry.known, hbody⟩

theorem measure_inquiry (units : List DocumentedUnit) (hk : KnownUpTo known n)
    (hf : c.Faithful known) :
    ∃ m, c.Inquiry n m (c.measure known units).outcome (c.measure known units).asked
        (c.measure known units).known ∧
      ∀ stats, (c.measure known units).outcome = .ok stats →
        ∀ j, j < m ↔ j < n ∨ ∃ s ∈ stats, j ≤ s.lastDocRevisionAge ∧ j < c.oldest := by
  induction units generalizing known n with
  | nil =>
    refine ⟨n, .nothing hk [], ?_⟩
    intro stats hstats j
    cases hstats
    simp
  | cons unit rest ih =>
    have hdocKnown := walk_known .firstModification unit.docRange hf
    cases hdoc : (c.walk unit.docRange .firstModification known).outcome with
    | error e =>
      obtain ⟨m, hm⟩ := walk_inquiry (c := c) unit.docRange .firstModification hk
      have hfailed := hm.inquiry.map fun _ : Walk => ([] : List UnitStatistic)
      rw [hdoc] at hfailed
      refine ⟨m, ?_, ?_⟩
      · simp only [measure, hdoc]
        exact hfailed
      · intro stats hstats
        simp [measure, hdoc] at hstats
    | ok doc =>
      obtain ⟨m, hm, hreach, hsilent, hknown, body, hbody⟩ := unit_inquiry hk hf hdoc
      have hbodyKnown := walk_known (.until (docIndex doc)) unit.bodyRange hdocKnown
      obtain ⟨m', hm', hrest⟩ := ih hknown hbodyKnown
      rw [hdoc] at hm
      refine ⟨m', ?_, ?_⟩
      · simp only [measure, hdoc, hbody, hsilent, List.append_nil]
        exact hm.append (hm'.map _)
      · intro stats hstats j
        obtain ⟨doc', body', others, hdoc', hbody', hothers, rfl⟩ :=
          measure_cons_eq_ok_iff.mp hstats
        cases hdoc.symm.trans hdoc'
        rw [hrest others hothers j, hreach j, List.exists_mem_cons_iff, or_assoc]
        rfl

/-- The walks along whole units ask for nothing. -/
theorem session_silent {units : List DocumentedUnit} {stats : List UnitStatistic}
    (hk : KnownUpTo known n) (hf : c.Faithful known)
    (h : (c.measure known units).outcome = .ok stats) :
    let walks := stats.flatMap UnitStatistic.walks
    List.Forall₂ (fun q run => q.2 = .firstModification ∨ run.asked = []) walks
      (c.session known walks) := by
  induction units generalizing known n stats with
  | nil =>
    cases h
    exact .nil
  | cons unit rest ih =>
    obtain ⟨doc, body, others, hdoc, hbody, hothers, rfl⟩ := measure_cons_eq_ok_iff.mp h
    obtain ⟨m, -, -, hsilent, hknown, -⟩ := unit_inquiry hk hf hdoc
    have hdocKnown := walk_known .firstModification unit.docRange hf
    have hbodyKnown := walk_known (.until (docIndex doc)) unit.bodyRange hdocKnown
    exact .cons (.inl rfl) (.cons (.inr hsilent) (ih hknown hbodyKnown hothers))

end

/-! ## The questions of a repository -/

theorem query?_eq (i : Nat) :
    c.query? i = c.history.transitions[i]?.map fun t => .diff t.1 t.2 := by
  unfold query?
  split
  · next newer older hn ho =>
    have ht : c.history.transitions[i]? = some (newer, older) :=
      FileHistory.transitions_getElem?_eq_some_iff.mpr ⟨hn, ho⟩
    rw [ht]
    rfl
  · next hno =>
    cases ht : c.history.transitions[i]? with
    | none => rfl
    | some t =>
      obtain ⟨hn, ho⟩ := FileHistory.transitions_getElem?_eq_some_iff.mp ht
      exact absurd ho (hno t.1 t.2 hn)

theorem filterMap_query?_range (n : Nat) :
    (List.range n).filterMap c.query? =
      (c.history.transitions.take n).map fun t => .diff t.1 t.2 := by
  induction n with
  | zero => rfl
  | succ n ih =>
    rw [List.range_succ, List.filterMap_append, ih, List.take_add_one, List.map_append]
    congr 1
    simp only [List.filterMap_cons, List.filterMap_nil, query?_eq]
    cases c.history.transitions[n]? <;> rfl

end Chronicle

/-! ## Surveys -/

namespace Repository
variable {r : Repository} {path : Path} {follow : Bool}

/-- The questions of a survey that asks about the first `n` transitions of a history. -/
def questions (path inside : Path) (follow : Bool) (history : FileHistory) (tip : HistoryEntry)
    (n : Nat) : List Query :=
  [.relative path, .enumerate inside follow, .read tip.path tip.revision] ++
    (history.transitions.take n).map fun t => .diff t.1 t.2

/-- The repository answers the question with a failure, and not by the absence of an older side. -/
def Refuses (r : Repository) : Query → Failure → Prop
  | .relative path, e => r.relative path = .error e
  | .enumerate path follow, e => r.enumerate path follow = .error e
  | .read path revision, e => r.read path revision = .error e
  | .diff newer older, e =>
    r.diff newer older = .error e ∧ ∀ path revision, e ≠ .notFound path revision

structure Measures (r : Repository) (path : Path) (follow : Bool) (inside : Path)
    (history : FileHistory) (tip : HistoryEntry) (units : List DocumentedUnit) : Prop where
  relative : r.relative path = .ok inside
  enumerate : r.enumerate inside follow = .ok history
  tip_eq : history.tip? = some tip
  units : ∃ content, r.read tip.path tip.revision = .ok content ∧
    Source.extractUnits path content = .ok units

/-- The survey ends before any diff: with the failure of a question, or between two questions. -/
structure EndsEarly (r : Repository) (s : Survey) : Prop where
  failed : ∃ e, s.outcome = .error e ∧ ∀ q ∈ s.queries, ∀ e', r.Refuses q e' → e' = e
  no_diff : ∀ newer older, .diff newer older ∉ s.queries

theorem Measures.survey {inside : Path} {history : FileHistory} {tip : HistoryEntry}
    {units : List DocumentedUnit} (h : r.Measures path follow inside history tip units) :
    let m := (r.chronicle history).measure [] units
    r.survey path follow = ⟨m.outcome.map fun statistics => ⟨path, history.size, statistics⟩,
      .relative path :: .enumerate inside follow :: .read tip.path tip.revision ::
        m.asked.filterMap (r.chronicle history).query?⟩ := by
  obtain ⟨content, hread, hunits⟩ := h.units
  simp only [Repository.survey, h.relative, h.enumerate, surveyHistory, h.tip_eq, hread, hunits,
    surveyUnits]

theorem survey_endsEarly_or_measures (r : Repository) (path : Path) (follow : Bool) :
    r.EndsEarly (r.survey path follow) ∨
      ∃ inside history tip units, r.Measures path follow inside history tip units := by
  cases hrel : r.relative path with
  | error e =>
    simp only [Repository.survey, hrel]
    exact .inl ⟨⟨e, rfl, by simp [Refuses, hrel]⟩, by simp⟩
  | ok inside =>
    cases hist : r.enumerate inside follow with
    | error e =>
      simp only [Repository.survey, hrel, hist]
      exact .inl ⟨⟨e, rfl, by simp [Refuses, hrel, hist]⟩, by simp⟩
    | ok history =>
      cases htip : history.tip? with
      | none =>
        simp only [Repository.survey, hrel, hist, surveyHistory, htip]
        exact .inl ⟨⟨_, rfl, by simp [Refuses, hrel, hist]⟩, by simp⟩
      | some tip =>
        cases hread : r.read tip.path tip.revision with
        | error e =>
          simp only [Repository.survey, hrel, hist, surveyHistory, htip, hread]
          exact .inl ⟨⟨e, rfl, by simp [Refuses, hrel, hist, hread]⟩, by simp⟩
        | ok content =>
          cases hunits : Source.extractUnits path content with
          | error e =>
            simp only [Repository.survey, hrel, hist, surveyHistory, htip, hread, hunits]
            exact .inl ⟨⟨e, rfl, by simp [Refuses, hrel, hist, hread]⟩, by simp⟩
          | ok units =>
            exact .inr ⟨inside, history, tip, units, hrel, hist, htip, content, hread, hunits⟩

theorem refuses_transition_iff {history : FileHistory} {i : Nat} {t : HistoryEntry × HistoryEntry}
    {e : Failure} (ht : history.transitions[i]? = some t) :
    r.Refuses (.diff t.1 t.2) e ↔ (r.chronicle history).ask i = .error e := by
  obtain ⟨hn, ho⟩ := FileHistory.transitions_getElem?_eq_some_iff.mp ht
  rw [Chronicle.ask_eq_error_iff]
  constructor
  · intro he
    exact ⟨t.1, t.2, hn, ho, he⟩
  · rintro ⟨newer, older, hn', ho', he⟩
    cases hn.symm.trans hn'
    cases ho.symm.trans ho'
    exact he

/-- A survey that puts a question which is answered with a failure ends with that failure. -/
theorem survey_refused {q : Query} {e : Failure} (hq : q ∈ (r.survey path follow).queries)
    (he : r.Refuses q e) : (r.survey path follow).outcome = .error e := by
  rcases r.survey_endsEarly_or_measures path follow with hearly | ⟨inside, history, tip, units, h⟩
  · obtain ⟨e', houtcome, hall⟩ := hearly.failed
    rw [houtcome, hall q hq e he]
  · obtain ⟨content, hread, -⟩ := h.units
    obtain ⟨m, hm, -⟩ := (r.chronicle history).measure_inquiry units knownUpTo_nil
      Chronicle.faithful_nil
    rw [h.survey] at hq ⊢
    simp only [List.mem_cons] at hq
    rcases hq with rfl | rfl | rfl | hq
    · cases h.relative.symm.trans he
    · cases h.enumerate.symm.trans he
    · cases hread.symm.trans he
    · obtain ⟨i, hi, hquery⟩ := List.mem_filterMap.mp hq
      rw [Chronicle.query?_eq, Option.map_eq_some_iff] at hquery
      obtain ⟨t, ht, rfl⟩ := hquery
      rw [hm.refused hi ((refuses_transition_iff ht).mp he)]
      rfl

section
variable {inside : Path} {history : FileHistory} {tip : HistoryEntry} {units : List DocumentedUnit}

theorem Measures.queries (h : r.Measures path follow inside history tip units) {n : Nat}
    (hasked : ((r.chronicle history).measure [] units).asked = List.range n) :
    (r.survey path follow).queries = questions path inside follow history tip n := by
  rw [h.survey, hasked]
  simp only [questions, Chronicle.filterMap_query?_range, List.cons_append, List.nil_append]
  rfl

/-- The documentation of a unit was followed to transition `i` or further. -/
def Covers (analysis : FileAnalysis) (i : Nat) : Prop :=
  2 ≤ analysis.revisions ∧
    ∃ s ∈ analysis.units, i ≤ min s.lastDocRevisionAge (analysis.revisions - 2)

theorem Measures.succeeded (h : r.Measures path follow inside history tip units)
    {analysis : FileAnalysis} (hok : (r.survey path follow).outcome = .ok analysis) :
    ∃ n, (∀ i, i < n ↔ Covers analysis i) ∧ n ≤ history.transitions.length ∧
      (r.survey path follow).queries = questions path inside follow history tip n ∧
      let walks := analysis.units.flatMap UnitStatistic.walks
      let runs := (r.chronicle history).session [] walks
      runs.flatMap WalkRun.asked = List.range n ∧
        List.Forall₂ (fun q run => q.2 = .firstModification ∨ run.asked = []) walks runs := by
  obtain ⟨n, hn, hreach⟩ := (r.chronicle history).measure_inquiry units knownUpTo_nil
    Chronicle.faithful_nil
  obtain ⟨content, -, hunits⟩ := h.units
  rw [h.survey] at hok
  cases hm : ((r.chronicle history).measure [] units).outcome with
  | error e => simp [hm, Except.map] at hok
  | ok stats =>
    simp only [hm, Except.map, Except.ok.injEq] at hok
    subst hok
    rw [hm] at hn
    have hasked := hn.asked_ok
    rw [Nat.sub_zero, ← List.range_eq_range'] at hasked
    have hcovers : ∀ i, i < n ↔ Covers ⟨path, history.size, stats⟩ i := by
      intro i
      rw [hreach stats hm i]
      have hlt : ∀ age, (i ≤ age ∧ i < (r.chronicle history).oldest) ↔
          2 ≤ history.size ∧ i ≤ min age (history.size - 2) := by
        intro age
        simp only [Chronicle.oldest, chronicle]
        omega
      simp only [Nat.not_lt_zero, false_or, hlt, Covers]
      constructor
      · rintro ⟨s, hs, hsize, hle⟩
        exact ⟨hsize, s, hs, hle⟩
      · rintro ⟨hsize, s, hs, hle⟩
        exact ⟨s, hs, hsize, hle⟩
    refine ⟨n, hcovers, ?_, h.queries hasked, ?_, ?_⟩
    · rw [FileHistory.transitions_length]
      by_contra hlt
      obtain ⟨hsize, s, -, hle⟩ := (hcovers (history.size - 1)).mp (by omega)
      dsimp only at hsize hle
      omega
    · rw [← (Chronicle.measure_walks Chronicle.faithful_nil hm
        (Source.extractUnits_proper hunits)).1, hasked]
    · exact Chronicle.session_silent knownUpTo_nil Chronicle.faithful_nil hm

theorem Measures.failed (h : r.Measures path follow inside history tip units) {e : Failure}
    (he : (r.survey path follow).outcome = .error e) :
    ∃ n t, history.transitions[n]? = some t ∧ r.Refuses (.diff t.1 t.2) e ∧
      (∀ t ∈ history.transitions.take n, ∀ e, ¬ r.Refuses (.diff t.1 t.2) e) ∧
      (r.survey path follow).queries = questions path inside follow history tip (n + 1) := by
  obtain ⟨n, hn, -⟩ := (r.chronicle history).measure_inquiry units knownUpTo_nil
    Chronicle.faithful_nil
  rw [h.survey] at he
  cases hm : ((r.chronicle history).measure [] units).outcome with
  | ok stats => simp [hm, Except.map] at he
  | error e' =>
    simp only [hm, Except.map, Except.error.injEq] at he
    subst he
    rw [hm] at hn
    have hasked := hn.asked_error
    rw [Nat.sub_zero, ← List.range_eq_range'] at hasked
    have hask := hn.failed e' rfl
    obtain ⟨newer, older, hnewer, holder, -⟩ := Chronicle.ask_eq_error_iff.mp hask
    have ht : history.transitions[n]? = some (newer, older) :=
      FileHistory.transitions_getElem?_eq_some_iff.mpr ⟨hnewer, holder⟩
    refine ⟨n, (newer, older), ht, (refuses_transition_iff ht).mpr hask, ?_, h.queries hasked⟩
    intro t hmem e hrefused
    obtain ⟨i, hi, hget⟩ := List.mem_take_iff_getElem.mp hmem
    have hlt : i < n := by omega
    have hti : history.transitions[i]? = some t := by
      rw [← hget]
      exact List.getElem?_eq_getElem _
    obtain ⟨hunks, hh⟩ := hn.answered i (Nat.zero_le i) hlt
    cases hh.symm.trans ((refuses_transition_iff hti).mp hrefused)

end

/-- A survey that succeeds has named the file, enumerated its history, read its tip, and then asked
about each transition once, in order, up to the oldest one that the documentation of a unit was
followed to; the walks along whole units have asked for nothing. A survey that fails has asked about
no transition, or about all up to the one that it failed at. -/
theorem survey_questions (r : Repository) (path : Path) (follow : Bool) :
    (∀ analysis, (r.survey path follow).outcome = .ok analysis →
      ∃ inside history tip n, r.relative path = .ok inside ∧
        r.enumerate inside follow = .ok history ∧ history.tip? = some tip ∧
        (∀ i, i < n ↔ Covers analysis i) ∧ n ≤ history.transitions.length ∧
        (r.survey path follow).queries = questions path inside follow history tip n ∧
        let walks := analysis.units.flatMap UnitStatistic.walks
        let runs := (r.chronicle history).session [] walks
        runs.flatMap WalkRun.asked = List.range n ∧
          List.Forall₂ (fun q run => q.2 = .firstModification ∨ run.asked = []) walks runs) ∧
    ∀ e, (r.survey path follow).outcome = .error e →
      (∀ newer older, .diff newer older ∉ (r.survey path follow).queries) ∨
        ∃ inside history tip n t, r.relative path = .ok inside ∧
          r.enumerate inside follow = .ok history ∧ history.tip? = some tip ∧
          history.transitions[n]? = some t ∧ r.Refuses (.diff t.1 t.2) e ∧
          (∀ t ∈ history.transitions.take n, ∀ e, ¬ r.Refuses (.diff t.1 t.2) e) ∧
          (r.survey path follow).queries = questions path inside follow history tip (n + 1) := by
  rcases r.survey_endsEarly_or_measures path follow with hearly | ⟨inside, history, tip, units, h⟩
  · obtain ⟨e, houtcome, -⟩ := hearly.failed
    refine ⟨fun analysis hok => ?_, fun _ _ => .inl hearly.no_diff⟩
    cases houtcome.symm.trans hok
  · constructor
    · intro analysis hok
      obtain ⟨n, hn⟩ := h.succeeded hok
      exact ⟨inside, history, tip, n, h.relative, h.enumerate, h.tip_eq, hn⟩
    · intro e he
      obtain ⟨n, t, hn⟩ := h.failed he
      exact .inr ⟨inside, history, tip, n, t, h.relative, h.enumerate, h.tip_eq, hn⟩

/-- The documentation is not touched by the newest entry and rewritten by the one before, so both
transitions are asked about. If the first one cannot be read, the second one is not asked about. -/
theorem survey_questions_ofThree :
    let r (first : Except Failure (List Hunk)) : Repository :=
      let c := Chronicle.ofThree first (.ok [⟨1, 1, 1, 1⟩])
      ⟨.ok, fun _ _ => .ok c.history, fun _ _ => .ok "'d'\nx = 1\n", c.diff⟩
    let history := (Chronicle.ofThree (.ok []) (.ok [])).history
    let tip : HistoryEntry := ⟨⟨"c", true⟩, ⟨"f.py"⟩, false⟩
    (∃ analysis, ((r (.ok [⟨2, 1, 2, 1⟩])).survey ⟨"f.py"⟩ true).outcome = .ok analysis ∧
      (∀ i, i < 2 ↔ Covers analysis i) ∧ ((r (.ok [⟨2, 1, 2, 1⟩])).survey ⟨"f.py"⟩ true).queries =
        questions ⟨"f.py"⟩ ⟨"f.py"⟩ true history tip 2) ∧
    ((r (.error (.diff "cut off"))).survey ⟨"f.py"⟩ true).outcome = .error (.diff "cut off") ∧
      ((r (.error (.diff "cut off"))).survey ⟨"f.py"⟩ true).queries =
        questions ⟨"f.py"⟩ ⟨"f.py"⟩ true history tip 1 := by
  intro r history tip
  constructor
  · have hok : ((r (.ok [⟨2, 1, 2, 1⟩])).survey ⟨"f.py"⟩ true).outcome.toOption.isSome := by
      decide +kernel
    have hsize : ((r (.ok [⟨2, 1, 2, 1⟩])).survey ⟨"f.py"⟩ true).queries.length = 5 := by
      decide +kernel
    cases h : ((r (.ok [⟨2, 1, 2, 1⟩])).survey ⟨"f.py"⟩ true).outcome with
    | error e =>
      rw [h] at hok
      cases hok
    | ok analysis =>
      obtain ⟨inside, history', tip', n, hrel, hist, htip, hcovers, hle, hqueries, -⟩ :=
        (survey_questions _ _ _).1 analysis h
      cases hrel
      cases hist
      cases htip
      have hn : n = 2 := by
        rw [hqueries] at hsize
        simp only [questions, List.length_append, List.length_map, List.length_take,
          List.length_cons, List.length_nil] at hsize
        omega
      subst hn
      exact ⟨analysis, rfl, hcovers, hqueries⟩
  · have herror : ((r (.error (.diff "cut off"))).survey ⟨"f.py"⟩ true).outcome =
        .error (.diff "cut off") := by decide +kernel
    refine ⟨herror, ?_⟩
    rcases (survey_questions _ _ _).2 _ herror with hno | h
    · have hasked : Query.diff tip ⟨⟨"b", false⟩, ⟨"f.py"⟩, false⟩ ∈
          ((r (.error (.diff "cut off"))).survey ⟨"f.py"⟩ true).queries := by decide +kernel
      exact absurd hasked (hno _ _)
    · obtain ⟨inside, history', tip', n, t, hrel, hist, htip, ht, hrefused, -, hqueries⟩ := h
      cases hrel
      cases hist
      cases htip
      match n with
      | 0 => exact hqueries
      | 1 =>
        cases ht
        exact absurd hrefused.1 (by decide)
      | n + 2 => cases ht

end Repository

end DocDrift
