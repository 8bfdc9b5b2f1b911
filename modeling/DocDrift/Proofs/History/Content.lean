import DocDrift.Proofs.History.Nesting
import DocDrift.Proofs.History.Statistic

/-!
# The lines of a followed range

An edit script between two texts leaves every line alone that no hunk replaces. A range that a
transition does not modify then has the same lines on both sides, so the documentation of a unit
reads at the newest entry as it does at the entry to which its statistic attributes it.
-/

namespace DocDrift

/-- The lines of a text that the range names. -/
def LineRange.linesOf {α : Type} (r : LineRange) (text : List α) : List α :=
  (text.drop (r.first - 1)).take r.size

/-- The hunks turn the older text into the newer one: they are an edit script between the two, and
every line of the newer text that no hunk replaces stands in the older one where the hunks above it
move it. -/
structure TextScript {α : Type} (older newer : List α) (hunks : List Hunk) : Prop where
  script : EditScript older.length newer.length hunks
  kept : ∀ line, 1 ≤ line → line ≤ newer.length → (∀ h ∈ hunks, ¬ h.covers line) →
    newer[line - 1]? = older[(line - 1 + shiftAbove line hunks).toNat]?

section
variable {α : Type} {older newer : List α} {hunks : List Hunk} {live r : LineRange}

theorem textScript_iff : TextScript older newer hunks ↔
    EditScript older.length newer.length hunks ∧
      ∀ line ∈ List.range' 1 newer.length, (∀ h ∈ hunks, ¬ h.covers line) →
        newer[line - 1]? = older[(line - 1 + shiftAbove line hunks).toNat]? := by
  constructor
  · rintro ⟨hs, hk⟩
    refine ⟨hs, fun line hline => ?_⟩
    rw [List.mem_range'_1] at hline
    exact hk line hline.1 (by omega)
  · rintro ⟨hs, hk⟩
    refine ⟨hs, fun line hone hend => hk line ?_⟩
    rw [List.mem_range'_1]
    omega

instance [DecidableEq α] : Decidable (TextScript older newer hunks) :=
  decidable_of_iff _ textScript_iff.symm

theorem LineRange.getElem?_linesOf (r : LineRange) (text : List α) (j : Nat) :
    (r.linesOf text)[j]? = if j < r.size then text[r.first - 1 + j]? else none := by
  simp only [LineRange.linesOf, List.getElem?_take, List.getElem?_drop]

/-- A range that is not modified keeps its lines. -/
theorem TextScript.linesOf_eq (hs : TextScript older newer hunks)
    (hlive : live.Within newer.length) (hm : (live.retrace hunks).modified = false)
    (hr : (live.retrace hunks).range = some r) : r.linesOf older = live.linesOf newer := by
  obtain ⟨hfirst, hlast⟩ := LineRange.retrace_unmodified hs.script hlive.1 hm hr
  obtain ⟨⟨hone, hle⟩, hend⟩ := hlive
  have hin := LineRange.retrace_within hs.script ⟨⟨hone, hle⟩, hend⟩ hr
  have hsize : r.size = live.size := by
    unfold LineRange.size
    omega
  apply List.ext_getElem?
  intro j
  rw [LineRange.getElem?_linesOf, LineRange.getElem?_linesOf, hsize]
  split
  · next hj =>
    have hj' : live.first + j ≤ live.last := by
      unfold LineRange.size at hj
      omega
    obtain ⟨hcovers, hshift⟩ :=
      LineRange.unmodified_line hs.script ⟨hone, hle⟩ hm (Nat.le_add_right _ j) hj'
    have hkept := hs.kept (live.first + j) (by omega) (by omega) hcovers
    have hone' := hin.1.1
    rw [show live.first - 1 + j = live.first + j - 1 by omega, hkept, hshift]
    congr 1
    omega
  · rfl

end

namespace Chronicle
variable {α : Type} {c : Chronicle} {texts : Nat → List α}

/-- The diffs turn the text of each entry into that of the next newer one, where the older side is
not missing. -/
def Edits (c : Chronicle) (texts : Nat → List α) : Prop :=
  c.Answers fun i hunks => TextScript (texts (i + 1)) (texts i) hunks

section
variable {range live next : LineRange} {i d : Nat}

theorem Edits.scripted (hc : c.Edits texts) : c.Scripted fun i => (texts i).length :=
  Answers.mono hc fun _ _ hs => hs.script

theorem Edits.linesOf_succ (hc : c.Edits texts) (hrange : range.Within (texts 0).length)
    (hm : c.modifies range i = false) (hlive : c.liveAt? range i = some live)
    (hnext : c.liveAt? range (i + 1) = some next) :
    next.linesOf (texts (i + 1)) = live.linesOf (texts i) := by
  obtain ⟨live', hunks, hlive', hh, hr⟩ := liveAt?_succ_eq_some_iff.mp hnext
  obtain rfl : live = live' := Option.some.inj (hlive.symm.trans hlive')
  have hm' : (live.retrace hunks).modified = false := by
    simpa only [modifies, hlive, hh] using hm
  exact (Answers.of_hunksAt? hc hh).linesOf_eq (hc.scripted.liveAt?_within hrange hlive) hm' hr

/-- What nothing has modified so far reads as in the newest entry. -/
theorem Edits.linesOf_eq (hc : c.Edits texts) (hrange : range.Within (texts 0).length)
    (hm : ∀ i < d, c.modifies range i = false) (hlive : c.liveAt? range d = some live) :
    live.linesOf (texts d) = range.linesOf (texts 0) := by
  induction d generalizing live with
  | zero =>
    cases hlive
    rfl
  | succ d ih =>
    obtain ⟨before, -, hb, -, -⟩ := liveAt?_succ_eq_some_iff.mp hlive
    rw [hc.linesOf_succ hrange (hm d (Nat.lt_succ_self d)) hb hlive]
    exact ih (fun i hi => hm i (Nat.lt_succ_of_lt hi)) hb

end

/-- A run along the range steps through `liveAt?`, stays inside the texts, and wherever it goes on
without reporting a modification the lines on both sides are the same. -/
structure KeepsLines (c : Chronicle) (texts : Nat → List α) (range : LineRange) (run : WalkRun)
    (w : Walk) : Prop where
  steps : ∀ s ∈ run.steps, c.liveAt? range s.index = some s.live
  within : ∀ i ≤ w.stop.index, ∃ live, c.liveAt? range i = some live ∧
    live.Within (texts i).length
  kept : ∀ i < w.stop.index, i ∉ w.modifying → ∃ live next, c.liveAt? range i = some live ∧
    c.liveAt? range (i + 1) = some next ∧ next.linesOf (texts (i + 1)) = live.linesOf (texts i)

theorem Edits.keepsLines (hc : c.Edits texts) {range : LineRange}
    (hrange : range.Within (texts 0).length) {limit : WalkLimit} {run : WalkRun} {w : Walk}
    (ht : Trace c limit 0 range run.steps w) : c.KeepsLines texts range run w := by
  constructor
  · intro s hs
    exact (ht.mem_steps (liveAt?_zero range) hs).2.2.1
  · intro i hi
    obtain ⟨live, hlive⟩ := ht.reached (liveAt?_zero range) (Nat.zero_le i) hi
    exact ⟨live, hlive, hc.scripted.liveAt?_within hrange hlive⟩
  · intro i hi hno
    obtain ⟨live, hlive⟩ := ht.reached (liveAt?_zero range) (Nat.zero_le i) (Nat.le_of_lt hi)
    obtain ⟨next, hnext⟩ := ht.reached (liveAt?_zero range) (Nat.zero_le (i + 1)) hi
    have hm : c.modifies range i = false := by
      cases hm : c.modifies range i with
      | false => rfl
      | true => exact absurd (ht.mem_modifying (liveAt?_zero range) (Nat.zero_le i) hi hm) hno
    exact ⟨live, next, hlive, hnext, hc.linesOf_succ hrange hm hlive hnext⟩

/-- Every walk along a range of the newest text, whatever its limit and whatever is known, keeps the
lines that it does not report as modified. The documentation of every unit of a survey reads at the
newest entry as it does in the revision to which the survey attributes it. -/
theorem survey_keeps_documentation {r : Repository} {history : FileHistory} {texts : Nat → List α}
    (hc : (r.chronicle history).Edits texts) :
    (∀ range limit known, range.Within (texts 0).length → (r.chronicle history).Faithful known →
      ∃ w, ((r.chronicle history).walk range limit known).outcome = .ok w ∧
        (r.chronicle history).KeepsLines texts range
          ((r.chronicle history).walk range limit known) w) ∧
      ∀ path inside follow analysis, r.relative path = .ok inside →
        r.enumerate inside follow = .ok history →
        (r.survey path follow).outcome = .ok analysis →
        ∀ s ∈ analysis.units, s.unit.docRange.Within (texts 0).length →
          ∃ entry live, history.get? s.lastDocRevisionAge = some entry ∧
            s.lastDocRevision = entry.revision ∧
            (r.chronicle history).liveAt? s.unit.docRange s.lastDocRevisionAge = some live ∧
            live.linesOf (texts s.lastDocRevisionAge) = s.unit.docRange.linesOf (texts 0) := by
  constructor
  · intro range limit known hrange hk
    obtain ⟨w, hw, ht⟩ := Answers.walk hc range limit hk
    exact ⟨w, hw, hc.keepsLines hrange ht⟩
  · intro path inside follow analysis hrel hist h s hs hdoc
    obtain ⟨-, hall⟩ := Repository.survey_measured hrel hist h
    have hm := hall s hs
    obtain ⟨entry, hentry, hrev⟩ := hm.revision
    obtain ⟨live, hlive⟩ := hm.lastModified.reached
    exact ⟨entry, live, hentry, hrev, hlive, hc.linesOf_eq hdoc hm.lastModified.before hlive⟩

/-- The newest entry has a line put in front and line 3 replaced. What line 4 says there stands one
line higher before, until the next transition replaces it. -/
theorem survey_keeps_documentation_ofThree :
    let c := ofThree (.ok [⟨1, 0, 1, 1⟩, ⟨2, 1, 3, 1⟩]) (.ok [⟨3, 1, 3, 1⟩])
    let texts : Nat → List Nat := fun i => [[7, 1, 9, 3], [1, 2, 3], [1, 2, 4]].getD i []
    c.Edits texts ∧ ∃ w, (c.walk ⟨4, 4⟩ .exhaustive []).outcome = .ok w ∧
      c.KeepsLines texts ⟨4, 4⟩ (c.walk ⟨4, 4⟩ .exhaustive []) w ∧
      w.modifying = [1] ∧ c.liveAt? ⟨4, 4⟩ 1 = some ⟨3, 3⟩ := by
  intro c texts
  have hc : c.Edits texts := answers_ofThree (by decide) (by decide)
  let r : Repository := ⟨.ok, fun _ _ => .ok c.history, fun _ _ => .ok "", c.diff⟩
  have hr : (r.chronicle c.history).Edits texts := hc
  obtain ⟨w, hw, hkeeps⟩ :=
    (survey_keeps_documentation hr).1 ⟨4, 4⟩ .exhaustive [] (by decide) faithful_nil
  have hw' : (c.walk ⟨4, 4⟩ .exhaustive []).outcome = .ok ⟨[1], .creation 2⟩ := by decide +kernel
  refine ⟨hc, w, hw, hkeeps, ?_, by decide⟩
  cases hw.symm.trans hw'
  rfl

end Chronicle

end DocDrift
