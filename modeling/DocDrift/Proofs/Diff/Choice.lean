import DocDrift.Proofs.Diff.Change

/-!
# The section of a file

Of a diff that concerns several files, the first section that is read under the name of a file
counts as the section of that file. A section of another file can take its place if nothing but its
first line names that other file, and does so with ` b/` and the name in question at the end.
-/

namespace DocDrift.Diff

/-- The hunks of the first section that is read under the path. -/
def hunksOf (p : Path) (sections : List DiffSection) : List Hunk :=
  ((sections.find? fun s => s.newPath.any (·.same p)).map DiffSection.hunks).getD []

namespace FileChange

def hunks (c : FileChange) : List Hunk :=
  match c.contents with
  | .hunks _ _ hunks => hunks.map fun t => t.header.hunk
  | _ => []

/-- Whether the new version has the file. -/
def remains (c : FileChange) : Bool :=
  match c.fate with
  | .removed _ => false
  | _ => true

/-- Whether nothing but the first line of the section names the file. -/
def isBare (c : FileChange) : Bool :=
  match c.contents, c.fate with
  | .nothing, .renamed => false
  | .nothing, _ => true
  | _, _ => false

/-- Whether the section, that of another file, is taken for that of the path. -/
def usurps (c : FileChange) (p : Path) : Bool := c.isBare && (lastName c.new).same p

section
variable {c own : FileChange} {p : Path} {rest : List DiffSection} {before after : List FileChange}

theorem hunks_summary (h : c.isBinary = false) : c.summary.hunks = c.hunks := by
  unfold isBinary at h
  unfold summary hunks headed opened
  cases hc : c.contents <;> cases c.fate <;> simp_all

theorem flatMap_summaries (c : FileChange) : c.summaries.flatMap DiffSection.hunks = c.hunks := by
  unfold summaries
  cases h : c.isBinary with
  | false => simp [hunks_summary h]
  | true =>
    unfold isBinary at h
    unfold hunks
    cases hc : c.contents <;> simp_all

theorem newPath_of_isBare (h : c.isBare = true) : c.summary.newPath = some (lastName c.new) := by
  have hopened : c.opened.newPath = some (lastName c.new) := bothPaths_bothNames c.new_plain
  unfold isBare at h
  unfold summary headed
  cases hc : c.contents <;> cases hf : c.fate <;> simp_all

theorem newPath_of_not_isBare (h : c.isBare = false) (hb : c.isBinary = false) :
    c.summary.newPath = if c.remains then some c.new else none := by
  unfold isBare at h
  unfold isBinary at hb
  unfold summary headed newSide? remains
  cases hc : c.contents <;> cases hf : c.fate <;> simp_all

theorem hunks_of_isBare (h : c.isBare = true) : c.hunks = [] := by
  unfold isBare at h
  unfold hunks
  cases hc : c.contents <;> simp_all

theorem isBinary_of_isBare (h : c.isBare = true) : c.isBinary = false := by
  unfold isBare at h
  unfold isBinary
  cases hc : c.contents <;> simp_all

/-- Only a name with ` b/` in it can be mistaken for another. -/
theorem usurps_iff (h : c.new.same p = false) : c.usurps p = true ↔ c.isBare = true ∧
    ∃ before rest, Text.splitLast " b/".toList c.new.text.toList = some (before, rest) ∧
      (Path.mk (String.ofList rest)).same p = true := by
  unfold usurps lastName
  rw [Bool.and_eq_true]
  refine and_congr_right fun _ => ?_
  cases Text.splitLast " b/".toList c.new.text.toList with
  | none => simp [h]
  | some r =>
    constructor
    · intro hr
      exact ⟨r.1, r.2, rfl, hr⟩
    · rintro ⟨before, rest, hr, hsame⟩
      cases hr
      exact hsame

theorem hunksOf_cons (s : DiffSection) :
    hunksOf p (s :: rest) =
      if s.newPath.any (·.same p) then s.hunks else hunksOf p rest := by
  unfold hunksOf
  rw [List.find?_cons]
  cases s.newPath.any (·.same p) <;> rfl

/-- A section of another file is passed over unless it is taken for that of the path; then it has
no hunks. -/
theorem hunksOf_other (h : c.new.same p = false) :
    hunksOf p (c.summaries ++ rest) = if c.usurps p then [] else hunksOf p rest := by
  unfold usurps summaries
  cases hbare : c.isBare with
  | true =>
    rw [isBinary_of_isBare hbare, if_neg (by simp), List.singleton_append, hunksOf_cons,
      newPath_of_isBare hbare, hunks_summary (isBinary_of_isBare hbare), hunks_of_isBare hbare]
    simp
  | false =>
    cases hbinary : c.isBinary with
    | true => rfl
    | false =>
      rw [if_neg (by simp), List.singleton_append, hunksOf_cons,
        newPath_of_not_isBare hbare hbinary]
      cases c.remains <;> simp [h]

theorem hunksOf_others (h : ∀ c ∈ before, c.new.same p = false) :
    hunksOf p (before.flatMap summaries ++ rest) =
      if before.any (·.usurps p) then [] else hunksOf p rest := by
  induction before with
  | nil => simp
  | cons c before ih =>
    rw [List.flatMap_cons, List.append_assoc, hunksOf_other (h c List.mem_cons_self),
      ih fun d hd => h d (List.mem_cons_of_mem _ hd), List.any_cons]
    cases c.usurps p <;> simp

theorem hunksOf_own (h : own.new.same p = true) (hremains : own.remains = true)
    (hrest : hunksOf p rest = []) : hunksOf p (own.summaries ++ rest) = own.hunks := by
  unfold summaries
  cases hbinary : own.isBinary with
  | true =>
    have hnone := own.flatMap_summaries
    rw [summaries, hbinary, if_pos rfl, List.flatMap_nil] at hnone
    rw [if_pos rfl, List.nil_append, hrest, hnone]
  | false =>
    rw [if_neg (by simp), List.singleton_append, hunksOf_cons, hunks_summary hbinary]
    cases hbare : own.isBare with
    | true =>
      -- the section may be overlooked, but then there are no hunks to miss
      rw [hunks_of_isBare hbare, hrest]
      split <;> rfl
    | false =>
      rw [newPath_of_not_isBare hbare hbinary, hremains, if_pos rfl, Option.any_some, h, if_pos rfl]

/-- Among sections of other files, the section of a path is found unless one in front is taken for
it. -/
theorem hunksOf_changes (hbefore : ∀ c ∈ before, c.new.same p = false)
    (hown : own.new.same p = true) (hremains : own.remains = true)
    (hafter : ∀ c ∈ after, c.new.same p = false) :
    hunksOf p ((before ++ own :: after).flatMap summaries) =
      if before.any (·.usurps p) then [] else own.hunks := by
  have hnone : hunksOf p (after.flatMap summaries) = [] := by
    rw [← List.append_nil (after.flatMap summaries), hunksOf_others hafter]
    split <;> rfl
  rw [List.flatMap_append, List.flatMap_cons, hunksOf_others hbefore,
    hunksOf_own hown hremains hnone]

end

end FileChange

end DocDrift.Diff
