import DocDrift.Proofs.History.Trace
import DocDrift.Proofs.Lines.Retrace

/-!
# Nested ranges along a history

If the diffs of a history are edit scripts between files with fixed numbers of lines, then what
`Proofs/Lines/Retrace` says of one transition holds along the history: a range stays inside its
files, and of two nested ranges the inner one stays inside the outer one, is not followed any
further and is modified by no transition that does not modify the outer one. The last two need line
numbers that fit a range, because an outer range may outgrow it where an inner one does not.
-/

namespace DocDrift

namespace Chronicle
variable {c : Chronicle} {lines : Nat → Nat}

/-- The diffs are edit scripts between files of `lines i` lines at entry `i`, where the older side
is not missing. -/
def Scripted (c : Chronicle) (lines : Nat → Nat) : Prop :=
  c.Answers fun i hunks => EditScript (lines (i + 1)) (lines i) hunks

/-- The files of a history have no more lines than a line field can count. -/
def Countable (c : Chronicle) (lines : Nat → Nat) : Prop :=
  ∀ i ≤ c.oldest, lines i ≤ maxLine

section
variable {range inner outer live live' : LineRange} {i : Nat}

theorem Scripted.liveAt?_within (hc : c.Scripted lines) (hrange : range.Within (lines 0))
    (h : c.liveAt? range i = some live) : live.Within (lines i) := by
  induction i generalizing live with
  | zero =>
    cases h
    exact hrange
  | succ i ih =>
    obtain ⟨before, hunks, hb, hh, hr⟩ := liveAt?_succ_eq_some_iff.mp h
    exact LineRange.retrace_within (hc.of_hunksAt? hh) (ih hb) hr

theorem Within_of_encloses {n : Nat} (hinner : inner.Proper) (houter : outer.Within n)
    (he : outer.encloses inner = true) : inner.Within n := by
  have := (LineRange.encloses_iff.mp he).2
  have := houter.2
  exact ⟨hinner, by omega⟩

theorem Scripted.liveAt?_encloses (hc : c.Scripted lines) (hinner : inner.Proper)
    (houter : outer.Within (lines 0)) (he : outer.encloses inner = true)
    (h : c.liveAt? inner i = some live) (h' : c.liveAt? outer i = some live') :
    live'.encloses live = true := by
  have hin := Within_of_encloses hinner houter he
  induction i generalizing live live' with
  | zero =>
    cases h
    cases h'
    exact he
  | succ i ih =>
    obtain ⟨before, hunks, hb, hh, hr⟩ := liveAt?_succ_eq_some_iff.mp h
    obtain ⟨before', hunks', hb', hh', hr'⟩ := liveAt?_succ_eq_some_iff.mp h'
    obtain rfl : hunks = hunks' := Option.some.inj (hh.symm.trans hh')
    exact LineRange.retrace_encloses (hc.of_hunksAt? hh) (hc.liveAt?_within hin hb).1
      (hc.liveAt?_within houter hb').1 (ih hb hb') hr hr'

/-- The outer range has lines wherever the inner one has some. -/
theorem Scripted.liveAt?_outer (hc : c.Scripted lines) (hfit : c.Countable lines)
    (hinner : inner.Proper) (houter : outer.Within (lines 0)) (he : outer.encloses inner = true)
    (h : c.liveAt? inner i = some live) : ∃ live', c.liveAt? outer i = some live' := by
  have hin := Within_of_encloses hinner houter he
  induction i generalizing live with
  | zero => exact ⟨outer, rfl⟩
  | succ i ih =>
    obtain ⟨before, hunks, hb, hh, hr⟩ := liveAt?_succ_eq_some_iff.mp h
    obtain ⟨before', hb'⟩ := ih hb
    -- a bound of the outer range is given up only beyond the last line that can be counted
    have hm : lines (i + 1) ≤ maxLine := hfit (i + 1) (hunksAt?_eq_some_iff.mp hh).1
    obtain ⟨live', hr'⟩ := LineRange.retrace_isSome_of_encloses (hc.of_hunksAt? hh)
      (hc.liveAt?_within hin hb).1 (hc.liveAt?_within houter hb')
      (hc.liveAt?_encloses hinner houter he hb hb') hm hr
    exact ⟨live', liveAt?_succ_eq_some_iff.mpr ⟨before', hunks, hb', hh, hr'⟩⟩

/-- A transition that modifies the inner range modifies the outer one. -/
theorem Scripted.modifies_outer (hc : c.Scripted lines) (hfit : c.Countable lines)
    (hinner : inner.Proper) (houter : outer.Within (lines 0)) (he : outer.encloses inner = true)
    (h : c.modifies inner i = true) : c.modifies outer i = true := by
  have hin := Within_of_encloses hinner houter he
  obtain ⟨live, hunks, hlive, hh, hm⟩ := modifies_eq_true_iff.mp h
  obtain ⟨live', hlive'⟩ := hc.liveAt?_outer hfit hinner houter he hlive
  rw [modifies_eq_true_iff]
  exact ⟨live', hunks, hlive', hh,
    LineRange.retrace_modified_of_encloses (hc.liveAt?_within hin hlive).1
      (hc.liveAt?_within houter hlive').1 (hc.liveAt?_encloses hinner houter he hlive hlive') hm⟩

end

end Chronicle

end DocDrift
