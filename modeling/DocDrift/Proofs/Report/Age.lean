import DocDrift.Proofs.History.Consistency
import DocDrift.Proofs.Report.Lines

/-!
# What the text says about the age of documentation

A statistic keeps of the two walks behind it an index and a flag. That is enough for the text to say
whether the documentation is as old as the file: only a walk that comes to the oldest entry, and
finds the file created there, leaves this index with the flag unset.
-/

namespace DocDrift

namespace Chronicle
variable {c : Chronicle}

/-- The range is followed from the newest entry to the oldest one, where the file came into being.
On the way no older side is missing, and no transition modifies the range or leaves it no line. -/
structure SinceCreation (c : Chronicle) (range : LineRange) : Prop where
  created : c.history.beyond = .created
  passed : ∀ i < c.oldest, ∃ live hunks next, c.liveAt? range i = some live ∧
    c.hunksAt? i = some hunks ∧ (live.retrace hunks).range = some next ∧
    (live.retrace hunks).modified = false

section
variable {range : LineRange}

theorem SinceCreation.unmodified (h : c.SinceCreation range) (i : Nat) :
    c.modifies range i = false := by
  rcases Nat.lt_or_ge i c.oldest with hi | hi
  · obtain ⟨live, hunks, next, hlive, hhunks, -, hm⟩ := h.passed i hi
    simp only [modifies, hlive, hhunks, hm]
  · exact modifies_of_no_hunks (hunksAt?_of_oldest_le hi)

theorem SinceCreation.reaches (h : c.SinceCreation range) :
    ∃ live, c.liveAt? range c.oldest = some live := by
  cases ho : c.oldest with
  | zero => exact ⟨range, rfl⟩
  | succ i =>
    obtain ⟨live, hunks, next, hlive, hhunks, hnext, -⟩ := h.passed i (by omega)
    exact ⟨next, liveAt?_succ_eq_some_iff.mpr ⟨live, hunks, hlive, hhunks, hnext⟩⟩

/-- Nothing is older than the oldest entry. -/
theorem liveAt?_behind_oldest : c.liveAt? range (c.oldest + 1) = none := by
  rw [liveAt?, hunksAt?_of_oldest_le Nat.le.refl]
  cases c.liveAt? range c.oldest <;> rfl

theorem sinceCreation_iff : c.SinceCreation range ↔
    c.history.beyond = .created ∧ c.LastModified range c.oldest := by
  constructor
  · intro h
    exact ⟨h.created, .inr ⟨h.unmodified, h.reaches, liveAt?_behind_oldest⟩⟩
  · rintro ⟨hcreated, hlast⟩
    refine ⟨hcreated, fun i hi => ?_⟩
    obtain ⟨oldestLive, hreached⟩ := hlast.reached
    cases hnext : c.liveAt? range (i + 1) with
    | none =>
      rw [liveAt?_mono hi hnext] at hreached
      cases hreached
    | some next =>
      obtain ⟨live, hunks, hlive, hhunks, hr⟩ := liveAt?_succ_eq_some_iff.mp hnext
      have hm := hlast.before i hi
      simp only [modifies, hlive, hhunks] at hm
      exact ⟨live, hunks, next, hlive, hhunks, hr, hm⟩

theorem Trace.stop_eq_endAt {limit : WalkLimit} {i : Nat} {live : LineRange}
    {steps : List WalkStep} {w : Walk} (h : Trace c limit i live steps w)
    (hl : limitReached limit w.stop.index = false) (ho : c.oldest ≤ w.stop.index) :
    w.stop = c.endAt w.stop.index := by
  induction h with
  | limit hl' => exact absurd (hl'.symm.trans hl) (by decide)
  | oldest => rw [endAt_index]
  | missing _ hlt _ | found _ hlt _ _ _ _ => exact absurd ho (Nat.not_le.mpr hlt)
  | lost _ hlt _ _ =>
    rw [Walk.record_stop] at ho
    exact absurd ho (Nat.not_le.mpr hlt)
  | step _ _ _ _ _ _ ih =>
    rw [Walk.record_stop] at hl ho ⊢
    exact ih hl ho

/-- The walk along such a range comes to the oldest entry without a modification and finds the file
created there, and no other walk ends like this. -/
theorem Trace.eq_creation_iff {steps : List WalkStep} {w : Walk}
    (h : Trace c .firstModification 0 range steps w) :
    w = ⟨[], .creation c.oldest⟩ ↔ c.SinceCreation range := by
  obtain ⟨-, hlast⟩ := h.docIndex
  have hend := h.stop_eq_endAt rfl
  rw [Chronicle.sinceCreation_iff]
  constructor
  · rintro rfl
    refine ⟨?_, hlast⟩
    have hcreation := hend Nat.le.refl
    unfold endAt at hcreation
    split at hcreation
    · assumption
    · cases hcreation
  · rintro ⟨hcreated, hoff⟩
    have hindex := hlast.unique hoff
    have hno : c.modifies range c.oldest = false :=
      modifies_of_no_hunks (hunksAt?_of_oldest_le Nat.le.refl)
    have hnone := (h.modifying_of_first (liveAt?_zero range)).1
    rw [hindex] at hend hnone
    rw [hno] at hnone
    have hstop : w.stop = .creation c.oldest := by
      rw [hend Nat.le.refl, endAt, hcreated]
    cases w
    cases hstop
    cases hnone
    rfl

/-- Index and flag say of the documentation that it is as old as the file exactly if it is. -/
theorem Measured.sinceCreation_iff {unit : DocumentedUnit} {s : UnitStatistic}
    (h : c.Measured unit s) :
    s.lastDocRevisionAge + 1 = c.history.size ∧ s.truncatedByRename = false ↔
      c.SinceCreation unit.docRange := by
  have hsize := h.bounds.2
  have hage : s.lastDocRevisionAge + 1 = c.history.size ↔ c.oldest = s.lastDocRevisionAge := by
    unfold oldest
    omega
  have hcreated : c.history.truncatedByRename = false ↔ c.history.beyond = .created := by
    unfold FileHistory.truncatedByRename
    cases c.history.beyond <;> simp
  rw [Chronicle.sinceCreation_iff, hage, h.truncated, ← hcreated]
  constructor
  · rintro ⟨ho, ht⟩
    refine ⟨by simpa [ho] using ht, ?_⟩
    rw [ho]
    exact h.lastModified
  · rintro ⟨ht, hlast⟩
    exact ⟨hlast.unique h.lastModified, by simp [ht]⟩

end

/-! ## The walks of a statistic -/

structure MadeOf (c : Chronicle) (s : UnitStatistic) (docWalk bodyWalk : Walk) : Prop where
  doc : (c.walk s.unit.docRange .firstModification []).outcome = .ok docWalk
  body : (c.walk s.unit.bodyRange (.until s.lastDocRevisionAge) []).outcome = .ok bodyWalk
  statistic : s = c.statistic s.unit docWalk bodyWalk

theorem MadeOf.truncatedByRename {s : UnitStatistic} {docWalk bodyWalk : Walk}
    (h : c.MadeOf s docWalk bodyWalk) : s.truncatedByRename =
      (docWalk.stop.truncatedByRename || bodyWalk.stop.truncatedByRename) := by
  rw [h.statistic]
  rfl

theorem measure_madeOf {units : List DocumentedUnit} {known : KnownDiffs}
    {stats : List UnitStatistic} (hk : c.Faithful known)
    (h : (c.measure known units).outcome = .ok stats) :
    ∀ s ∈ stats, ∃ doc body, c.MadeOf s doc body := by
  induction units generalizing known stats with
  | nil =>
    cases h
    intro s hs
    cases hs
  | cons unit rest ih =>
    obtain ⟨doc, body, others, hdoc, hbody, hothers, rfl⟩ := measure_cons_eq_ok_iff.mp h
    have hdocKnown := walk_known .firstModification unit.docRange hk
    have hbodyKnown := walk_known (.until (Chronicle.docIndex doc)) unit.bodyRange hdocKnown
    rw [(walk_standalone _ _ hk).outcome] at hdoc
    rw [(walk_standalone _ _ hdocKnown).outcome] at hbody
    exact List.forall_mem_cons.mpr ⟨⟨doc, body, hdoc, hbody, rfl⟩, ih hbodyKnown hothers⟩

end Chronicle

namespace Report

/-! ## The lines about a unit -/

theorem changeLine_ne_creationLine (age : Nat) (revision revision' : String) :
    changeLine age revision ≠ creationLine revision' := by
  rw [changeLine, creationLine, Ne, String.append_right_inj]
  intro h
  have hhead := congrArg (fun s => s.toList.head?) h
  simp at hhead

theorem creationLine_inj {revision revision' : String} :
    creationLine revision = creationLine revision' ↔ revision = revision' := by
  rw [creationLine, creationLine, String.append_right_inj, String.append_right_inj]

/-- The lines tell of a unit what its walks have found. They give the age of the documentation as
that of the file exactly if it is, and otherwise by the entry of the change, and they note a rename
exactly if one of the walks ended at it. A revision is named by the first twelve characters. -/
structure TellsOf (c : Chronicle) (path : Path) (maxChanges : Nat) (s : UnitStatistic)
    (lines : List String) : Prop where
  spelled : ∃ doc, lines = titleLine path s.unit :: doc ::
    (countText s.changesSinceCount ++ markText (decide (maxChanges < s.changesSinceCount))) ::
      (if s.truncatedByRename then [renameNote] else [])
  creation : ∀ revision, lines[1]? = some (creationLine revision) ↔
    c.SinceCreation s.unit.docRange ∧ ∃ entry, c.history.get? c.oldest = some entry ∧
      revision = String.ofList (entry.revision.id.toList.take 12)
  walk : (c.walk s.unit.docRange .firstModification []).outcome = .ok ⟨[], .creation c.oldest⟩ ↔
    c.SinceCreation s.unit.docRange
  change : ¬ c.SinceCreation s.unit.docRange → ∃ age entry,
    c.LastModified s.unit.docRange age ∧ c.history.get? age = some entry ∧
      lines[1]? = some (changeLine age (String.ofList (entry.revision.id.toList.take 12)))
  note : lines[3]? = some renameNote ↔ ∃ q ∈ s.walks, ∃ w i,
    (c.walk q.1 q.2 []).outcome = .ok w ∧ w.stop = .renameBoundary i

theorem truncatedByRename_eq_true_iff {stop : WalkEnd} :
    stop.truncatedByRename = true ↔ ∃ i, stop = .renameBoundary i := by
  cases stop <;> simp [WalkEnd.truncatedByRename]

section
variable {c : Chronicle} {a : FileAnalysis} {s : UnitStatistic}

/-- The text takes the documentation for as old as the file if it is, and only then. -/
theorem sinceCreation_eq_true_iff (hrevisions : a.revisions = c.history.size)
    (hcount : a.revisions ≤ maxCount) (hs : c.Measured s.unit s) :
    sinceCreation a s = true ↔ c.SinceCreation s.unit.docRange := by
  have hage : s.lastDocRevisionAge < maxCount := by
    have := hs.bounds.2
    omega
  rw [← hs.sinceCreation_iff, sinceCreation, nextCount_of_lt hage, hrevisions]
  simp

theorem docLine_of_sinceCreation (h : sinceCreation a s = true) :
    docLine (a, s) = creationLine (String.ofList (s.lastDocRevision.id.toList.take 12)) :=
  if_pos h

theorem docLine_of_not_sinceCreation (h : ¬ sinceCreation a s = true) :
    docLine (a, s) = changeLine s.lastDocRevisionAge
      (String.ofList (s.lastDocRevision.id.toList.take 12)) :=
  if_neg h

theorem tellsOf_textLines {docWalk bodyWalk : Walk} (hrevisions : a.revisions = c.history.size)
    (hcount : a.revisions ≤ maxCount) (hs : c.Measured s.unit s)
    (hwalks : c.MadeOf s docWalk bodyWalk) (maxChanges : Nat) :
    TellsOf c a.path maxChanges s (textLines maxChanges a s) := by
  have hlines := textLines_eq maxChanges (a, s)
  have hcreation := sinceCreation_eq_true_iff hrevisions hcount hs
  obtain ⟨entry, hentry, hrevision⟩ := hs.revision
  have hsecond : (textLines maxChanges a s)[1]? = some (docLine (a, s)) := by
    rw [hlines]
    rfl
  constructor
  · exact ⟨docLine (a, s), hlines⟩
  · intro revision
    rw [hsecond, Option.some_inj]
    by_cases h : sinceCreation a s = true
    -- the entry that the statistic names is then the oldest one
    · have hsince := hcreation.mp h
      have hage : c.oldest = s.lastDocRevisionAge :=
        (Chronicle.sinceCreation_iff.mp hsince).2.unique hs.lastModified
      rw [docLine_of_sinceCreation h, creationLine_inj, hrevision, hage, hentry]
      constructor
      · rintro rfl
        exact ⟨hsince, entry, rfl, rfl⟩
      · rintro ⟨-, _, hsame, rfl⟩
        cases hsame
        rfl
    · rw [docLine_of_not_sinceCreation h]
      exact iff_of_false (changeLine_ne_creationLine _ _ _) fun hsince => h (hcreation.mpr hsince.1)
  · rw [hwalks.doc, Except.ok.injEq]
    exact (Chronicle.walk_trace Chronicle.faithful_nil hwalks.doc).eq_creation_iff
  · intro h
    refine ⟨_, entry, hs.lastModified, hentry, ?_⟩
    rw [hsecond, docLine_of_not_sinceCreation (mt hcreation.mp h), hrevision]
  · have hnote : (textLines maxChanges a s)[3]? = some renameNote ↔
        s.truncatedByRename = true := by
      rw [hlines]
      cases s.truncatedByRename <;> simp
    rw [hnote, hwalks.truncatedByRename, Bool.or_eq_true, truncatedByRename_eq_true_iff,
      truncatedByRename_eq_true_iff]
    simp only [UnitStatistic.walks, List.mem_cons, List.not_mem_nil, or_false, exists_eq_or_imp,
      exists_eq_left, hwalks.doc, hwalks.body, Except.ok.injEq, exists_and_left, exists_eq_left']

end

/-! ## Reports of surveys -/

/-- Whatever the repository answers, the text about a surveyed file has for each unit, in order, the
lines that tell of it, and nothing else. The file may have as many revisions as a count can tell. -/
theorem text_tells_of_walks {r : Repository} {path : Path} {follow : Bool} {analysis : FileAnalysis}
    (h : (r.survey path follow).outcome = .ok analysis) (hcount : analysis.revisions ≤ maxCount)
    (maxChanges : Nat) :
    ∃ inside history told, r.relative path = .ok inside ∧ r.enumerate inside follow = .ok history ∧
      render .text maxChanges [analysis] = String.join (told.flatten.map (· ++ "\n")) ∧
      List.Forall₂ (TellsOf (r.chronicle history) path maxChanges) analysis.units told := by
  obtain ⟨inside, history, tip, content, units, stats, hrel, hist, htip, hread, hunits, hstats,
    rfl⟩ := Repository.survey_eq_ok_iff.mp h
  have hmeasured := (Repository.survey_measured hrel hist h).2
  have hmade := Chronicle.measure_madeOf Chronicle.faithful_nil hstats
  refine ⟨inside, history, stats.map (textLines maxChanges ⟨path, history.size, stats⟩), hrel, hist,
    ?_, ?_⟩
  · have hsubjects : subjects [⟨path, history.size, stats⟩] =
        stats.map (⟨path, history.size, stats⟩, ·) := by simp [subjects]
    rw [render_text_eq, hsubjects, List.flatMap_map, List.flatMap_def]
  · rw [List.forall₂_map_right_iff, List.forall₂_same]
    intro s hs
    obtain ⟨docWalk, bodyWalk, hwalks⟩ := hmade s hs
    exact tellsOf_textLines rfl hcount (hmeasured s hs) hwalks maxChanges

/-- The newest entry changed the last line of the function, and the one before it the docstring. The
docstring of the module is as old as the file. -/
theorem text_tells_of_walks_twoUnits :
    let entry (id : String) (isTip : Bool) : HistoryEntry := ⟨⟨id, isTip⟩, ⟨"f.py"⟩, false⟩
    let c : Chronicle :=
      { history := ⟨[entry "cccccccccccc3333" true, entry "bbbbbbbbbbbb2222" false,
          entry "aaaaaaaaaaaa1111" false], .created⟩
        diff := fun newer _ => .ok (if newer.revision.isTip then [⟨4, 1, 4, 1⟩] else [⟨3, 1, 3, 1⟩]) }
    let r : Repository := ⟨.ok, fun _ _ => .ok c.history,
      fun _ _ => .ok "'d'\ndef g():\n    'e'\n    return 1\n", c.diff⟩
    let analysis : FileAnalysis := ⟨⟨"f.py"⟩, 3,
      [⟨⟨"f", .module, ⟨1, 1⟩, ⟨1, 4⟩⟩, ⟨"aaaaaaaaaaaa1111", false⟩, 2, 2, false⟩,
        ⟨⟨"g", .function, ⟨3, 3⟩, ⟨2, 4⟩⟩, ⟨"bbbbbbbbbbbb2222", false⟩, 1, 1, false⟩]⟩
    (r.survey ⟨"f.py"⟩ true).outcome = .ok analysis ∧ analysis.revisions ≤ maxCount ∧
      render .text 1 [analysis] =
        "f.py:f (module)\n    docstring: unchanged since creation in revision aaaaaaaaaaaa\n" ++
          "    code changes since: 2  [potentially outdated]\n" ++
          "f.py:g (function)\n    docstring: last changed 1 revision ago, in revision bbbbbbbbbbbb\n" ++
          "    code changes since: 1\n" ∧
      ∃ told, render .text 1 [analysis] = String.join (told.flatten.map (· ++ "\n")) ∧
        List.Forall₂ (TellsOf c ⟨"f.py"⟩ 1) analysis.units told := by
  intro entry c r analysis
  have hsurvey : (r.survey ⟨"f.py"⟩ true).outcome = .ok analysis :=
    toOption_eq_some_iff.mp (by decide +kernel)
  have hcount : analysis.revisions ≤ maxCount := by decide
  obtain ⟨inside, history, told, -, hist, htext, htells⟩ := text_tells_of_walks hsurvey hcount 1
  cases hist
  exact ⟨hsurvey, hcount, by decide +kernel, told, htext, htells⟩

end Report

end DocDrift
