import DocDrift.Proofs.Diff.Change

/-!
# What a hunk takes of a diff

The header of a hunk announces how many lines of either side follow. The reader takes lines for the
body until it has as many as that of both sides, or none are left. So a body has exactly the lines
that were announced, unless the diff ends within it or it has a line too many of one side before the
other side is complete. A line that can stand in no body is refused as long as lines are owed.
-/

namespace DocDrift.Diff

/-! ## Lines -/

def isOldLine : List Char → Bool
  | [] | '-' :: _ | ' ' :: _ => true
  | _ => false

def isNewLine : List Char → Bool
  | [] | '+' :: _ | ' ' :: _ => true
  | _ => false

/-- Whether the line can stand in a body: as one of either side or as a remark. -/
def isBodyLine (l : List Char) : Bool := isOldLine l || isNewLine l || l.head? == some '\\'

/-- Whether the line opens a hunk if it stands in a section and in no body. -/
def isHunkLine (l : List Char) : Bool := "@@ ".toList.isPrefixOf l

/-- Whether the line opens a section, unless it stands in a body or, for the name of an old side, in
a section. -/
def opensSection (l : List Char) : Bool :=
  "diff --git ".toList.isPrefixOf l || "--- ".toList.isPrefixOf l

/-- Behind the body the hunk still owes lines of one side. -/
def Owes (old new : Nat) (body : List (List Char)) : Prop :=
  body.countP isOldLine < old ∨ body.countP isNewLine < new

instance (old new : Nat) (body : List (List Char)) : Decidable (Owes old new body) :=
  inferInstanceAs (Decidable (_ ∨ _))

def Reader.paid (r : Reader) (body : List (List Char)) : Reader :=
  { r with
    oldOwed := r.oldOwed - body.countP isOldLine
    newOwed := r.newOwed - body.countP isNewLine }

/-- The lines are all that the reader takes for the body of a hunk, and `rest` follows them. -/
structure Takes (old new : Nat) (body rest : List (List Char)) : Prop where
  bodyLines : ∀ l ∈ body, isBodyLine l = true
  owed : ∀ n < body.length, Owes old new (body.take n)
  ended : Owes old new body → rest = []

structure FoundHunk where
  head : List Char
  header : HunkHeader
  body : List (List Char)

/-! ## Reading a body -/

section
variable {r : Reader} {old new : Nat} {l : List Char} {body rest : List (List Char)}

theorem bodyLine_taken (r : Reader) (h : isBodyLine l = true) :
    r.bodyLine l = .ok (r.paid [l]) := by
  unfold Reader.bodyLine
  split
  case h_6 _ hremoved hadded hempty hkept hremark =>
    -- no body has such a line
    exfalso
    cases l with
    | nil => exact hempty rfl
    | cons c text =>
      have hc : c = '\\' := by simpa [isBodyLine, isOldLine, isNewLine] using h
      exact hremark text (by rw [hc])
  all_goals rfl

theorem bodyLine_refused (r : Reader) (h : isBodyLine l = false) :
    r.bodyLine l = .error (.diff s!"hunk ended early before line: {String.ofList l}") := by
  unfold Reader.bodyLine
  split
  case h_6 => rfl
  all_goals simp [isBodyLine, isOldLine, isNewLine] at h

theorem owes_cons : Owes old new (l :: body) ↔
    Owes (old - [l].countP isOldLine) (new - [l].countP isNewLine) body := by
  unfold Owes
  rw [← List.singleton_append, List.countP_append, List.countP_append]
  omega

theorem paid_cons (r : Reader) (l : List Char) (body : List (List Char)) :
    (r.paid [l]).paid body = r.paid (l :: body) := by
  change (r.paid [l]).paid body = r.paid ([l] ++ body)
  simp only [Reader.paid, List.countP_append, Nat.sub_add_eq]

/-- A reader that owes lines gets through the lines of a body. -/
theorem readLines_bodyLines (hbody : ∀ l ∈ body, isBodyLine l = true)
    (howed : ∀ n < body.length, Owes r.oldOwed r.newOwed (body.take n)) :
    readLines r (body ++ rest) = readLines (r.paid body) rest := by
  induction body generalizing r with
  | nil => rfl
  | cons l body ih =>
    obtain ⟨hl, hbody⟩ := List.forall_mem_cons.mp hbody
    have hfirst : 0 < r.oldOwed ∨ 0 < r.newOwed := howed 0 (Nat.succ_pos _)
    have hlater : ∀ n < body.length, Owes (r.paid [l]).oldOwed (r.paid [l]).newOwed (body.take n) :=
      fun n hn => owes_cons.mp (howed (n + 1) (Nat.succ_lt_succ hn))
    rw [List.cons_append, readLines, Reader.line, if_pos hfirst, bodyLine_taken r hl,
      ← paid_cons r l body]
    exact ih hbody hlater

end

/-! ## Reading outside bodies -/

/-- The hunks of all sections, those of a binary file included. -/
def Reader.hunks (r : Reader) : List Hunk :=
  (r.done.reverse ++ r.current.toList).flatMap DiffSection.hunks

/-- The reader with a hunk more in its section, of which it owes all lines. -/
def Reader.counting (r : Reader) (h : HunkHeader) : Reader :=
  { r.update (fun s => { s with hunks := s.hunks ++ [h.hunk] }) with
    oldOwed := h.oldLength
    newOwed := h.newLength }

/-- The section that the name of an old side opens if none is open. -/
def Reader.opened (r : Reader) (l : List Char) : Reader :=
  if "--- ".toList.isPrefixOf l && r.current.isNone then { r with current := some {} } else r

section
variable {r : Reader} {l : List Char}

theorem sections_hunks (r : Reader) : (r.sections.flatMap DiffSection.hunks).Sublist r.hunks := by
  unfold Reader.sections Reader.close Reader.hunks
  cases r.current with
  | none => simp
  | some s => cases r.binary <;> simp

theorem sectionLine?_hunks {change : DiffSection → DiffSection}
    (h : Reader.sectionLine? l = some change) (s : DiffSection) : (change s).hunks = s.hunks := by
  unfold Reader.sectionLine? at h
  split at h
  · cases h; rfl
  split at h
  · cases h; rfl
  split at h
  · cases h; rfl
  split at h
  · cases h; rfl
  split at h
  · cases h; rfl
  split at h
  · cases h; rfl
  · cases h

theorem update_hunks {change : DiffSection → DiffSection}
    (h : ∀ s, (change s).hunks = s.hunks) : (r.update change).hunks = r.hunks := by
  unfold Reader.update Reader.hunks
  cases r.current <;> simp [h]

theorem opened_hunks (r : Reader) (l : List Char) : (r.opened l).hunks = r.hunks := by
  unfold Reader.opened
  split
  · next h =>
    simp only [Bool.and_eq_true, Option.isNone_iff_eq_none] at h
    simp [Reader.hunks, h.2]
  · rfl

theorem opened_isSome (r : Reader) (l : List Char) : (r.opened l).current.isSome =
    (r.current.isSome || "--- ".toList.isPrefixOf l) := by
  unfold Reader.opened
  cases hr : r.current with
  | none => cases "--- ".toList.isPrefixOf l <;> simp [hr]
  | some s => simp [hr]

theorem opened_owed (r : Reader) (l : List Char) :
    (r.opened l).oldOwed = r.oldOwed ∧ (r.opened l).newOwed = r.newOwed := by
  unfold Reader.opened
  split <;> exact ⟨rfl, rfl⟩

/-- What a line does that stands in no body and opens no section by naming both sides. -/
theorem headLine_eq (h : "diff --git ".toList.isPrefixOf l = false) :
    r.headLine l =
      if (r.opened l).current.isNone then .ok (r.opened l)
      else if Reader.isBinaryLine l then .ok { r.opened l with binary := true }
      else match Reader.sectionLine? l with
        | some change => .ok ((r.opened l).update change)
        | none =>
          if isHunkLine l then match hunkHeader l with
            | .ok h => .ok ((r.opened l).counting h)
            | .error fault => .error (.diff (fault.message l))
          else .ok (r.opened l) := by
  rw [Reader.headLine, Text.after?_eq_none h]
  rfl

theorem headLine_hunk (hl : isHunkLine l = true) (hr : r.current.isSome = true) :
    r.headLine l = match hunkHeader l with
      | .ok h => .ok (r.counting h)
      | .error fault => .error (.diff (fault.message l)) := by
  obtain ⟨text, rfl⟩ : ∃ text, '@' :: '@' :: ' ' :: text = l := List.isPrefixOf_iff_prefix.mp hl
  have hopened : r.opened ('@' :: '@' :: ' ' :: text) = r := by
    simp [Reader.opened, List.isPrefixOf_cons_cons]
  have hsection : Reader.sectionLine? ('@' :: '@' :: ' ' :: text) = none := by
    simp [Reader.sectionLine?, Text.after?, List.isPrefixOf_cons_cons]
  have hsome : r.current.isNone = false := by rw [Option.isNone_eq_false_iff, hr]
  rw [headLine_eq (by simp [List.isPrefixOf_cons_cons]), hopened, hsome, hsection, hl,
    isBinaryLine_cons (by decide)]
  rfl

theorem not_hunkLine_of_oldSide (h : "--- ".toList.isPrefixOf l = true) : isHunkLine l = false := by
  obtain ⟨name, rfl⟩ := List.isPrefixOf_iff_prefix.mp h
  simp [isHunkLine, List.isPrefixOf_cons_cons]

/-- A line outside bodies that opens no hunk is never refused. -/
theorem headLine_outside (hl : (r.current.isSome && isHunkLine l) = false) :
    ∃ r', r.headLine l = .ok r' ∧ r'.oldOwed = r.oldOwed ∧ r'.newOwed = r.newOwed ∧
      r'.current.isSome = (r.current.isSome || opensSection l) ∧ r'.hunks.Sublist r.hunks := by
  cases hgit : "diff --git ".toList.isPrefixOf l with
  | true =>
    obtain ⟨names, rfl⟩ := List.isPrefixOf_iff_prefix.mp hgit
    obtain ⟨hold, hnew⟩ := close_owed r
    rw [Reader.headLine, Text.after?_append]
    refine ⟨_, rfl, hold, hnew, ?_, ?_⟩
    · rw [opensSection, hgit, Bool.true_or, Bool.or_true]
      rfl
    · have hsections := sections_hunks r
      simpa [Reader.hunks, Reader.sections] using hsections
  | false =>
    obtain ⟨hold, hnew⟩ := opened_owed r l
    have hsome : (r.opened l).current.isSome = (r.current.isSome || opensSection l) := by
      rw [opened_isSome, opensSection, hgit, Bool.false_or]
    have hsame : (r.opened l).hunks.Sublist r.hunks := by
      simp only [opened_hunks, List.Sublist.refl]
    rw [headLine_eq hgit]
    split
    · exact ⟨_, rfl, hold, hnew, hsome, hsame⟩
    next hinside =>
    split
    · exact ⟨_, rfl, hold, hnew, hsome, hsame⟩
    split
    · next change hchange =>
      refine ⟨_, rfl, hold, hnew, ?_, ?_⟩
      · rw [Reader.update, Option.isSome_map, hsome]
      · rw [update_hunks (sectionLine?_hunks hchange)]
        exact hsame
    · next =>
      have hhunk : isHunkLine l = false := by
        cases hr : r.current.isSome with
        | true => rwa [hr, Bool.true_and] at hl
        | false =>
          rw [Option.isNone_iff_eq_none, ← Option.not_isSome_iff_eq_none, Classical.not_not,
            opened_isSome, hr, Bool.false_or] at hinside
          exact not_hunkLine_of_oldSide hinside
      rw [hhunk, if_neg (by simp)]
      exact ⟨_, rfl, hold, hnew, hsome, hsame⟩

end

/-! ## Layouts -/

/-- How the reader divides lines into hunks and other lines. Hunks count in sections only; the flag
says whether the lines follow the opening of one. -/
inductive Layout : Bool → List (List Char) → List FoundHunk → Prop
  | finished {inside : Bool} : Layout inside [] []
  | outside {inside : Bool} {l : List Char} {rest : List (List Char)} {hunks : List FoundHunk} :
      (inside && isHunkLine l) = false → Layout (inside || opensSection l) rest hunks →
      Layout inside (l :: rest) hunks
  | hunk {t : FoundHunk} {rest : List (List Char)} {hunks : List FoundHunk} :
      isHunkLine t.head = true → hunkHeader t.head = .ok t.header →
      Takes t.header.oldLength t.header.newLength t.body rest → Layout true rest hunks →
      Layout true (t.head :: (t.body ++ rest)) (t :: hunks)

/-- The lines are refused: the header of a hunk is malformed, or a line that can stand in no body
comes while lines are owed. -/
inductive Refused : Bool → List (List Char) → Failure → Prop
  | malformed {head : List Char} {rest : List (List Char)} {fault : HeaderFault} :
      isHunkLine head = true → hunkHeader head = .error fault →
      Refused true (head :: rest) (.diff (fault.message head))
  | early {t : FoundHunk} {l : List Char} {rest : List (List Char)} :
      isHunkLine t.head = true → hunkHeader t.head = .ok t.header →
      (∀ b ∈ t.body, isBodyLine b = true) →
      (∀ n ≤ t.body.length, Owes t.header.oldLength t.header.newLength (t.body.take n)) →
      isBodyLine l = false →
      Refused true (t.head :: (t.body ++ l :: rest))
        (.diff s!"hunk ended early before line: {String.ofList l}")
  | outside {inside : Bool} {l : List Char} {rest : List (List Char)} {e : Failure} :
      (inside && isHunkLine l) = false → Refused (inside || opensSection l) rest e →
      Refused inside (l :: rest) e
  | behind {t : FoundHunk} {rest : List (List Char)} {e : Failure} :
      isHunkLine t.head = true → hunkHeader t.head = .ok t.header →
      Takes t.header.oldLength t.header.newLength t.body rest → Refused true rest e →
      Refused true (t.head :: (t.body ++ rest)) e

section
variable {r : Reader} {old new : Nat} {inside : Bool} {ls body rest : List (List Char)}
  {hunks : List FoundHunk} {e : Failure}

theorem readLines_outside {l : List Char} {r' : Reader} (hold : r.oldOwed = 0)
    (hnew : r.newOwed = 0) (h : r.headLine l = .ok r') :
    readLines r (l :: rest) = readLines r' rest := by
  rw [readLines, Reader.line, if_neg (by omega), h]

theorem counting_hunks (hr : r.current.isSome = true) (h : HunkHeader) :
    (r.counting h).hunks = r.hunks ++ [h.hunk] := by
  obtain ⟨s, hs⟩ := Option.isSome_iff_exists.mp hr
  simp [Reader.counting, Reader.update, Reader.hunks, hs]

theorem counting_isSome (hr : r.current.isSome = true) (h : HunkHeader) :
    (r.counting h).current.isSome = true := by
  rw [Reader.counting, Reader.update, Option.isSome_map, hr]

theorem paid_hunks (r : Reader) (body : List (List Char)) : (r.paid body).hunks = r.hunks := rfl

theorem paid_owed (h : ¬ Owes r.oldOwed r.newOwed body) :
    (r.paid body).oldOwed = 0 ∧ (r.paid body).newOwed = 0 := by
  unfold Owes at h
  simp only [Reader.paid]
  omega

theorem paid_owes (h : Owes r.oldOwed r.newOwed body) :
    0 < (r.paid body).oldOwed ∨ 0 < (r.paid body).newOwed := by
  unfold Owes at h
  simp only [Reader.paid]
  omega

theorem readLines_takes {t : FoundHunk} (hold : r.oldOwed = 0) (hnew : r.newOwed = 0)
    (hr : r.current.isSome = true) (hhead : isHunkLine t.head = true)
    (hheader : hunkHeader t.head = .ok t.header)
    (ht : Takes t.header.oldLength t.header.newLength t.body rest) :
    readLines r (t.head :: (t.body ++ rest)) =
      readLines ((r.counting t.header).paid t.body) rest := by
  have hcount : r.headLine t.head = .ok (r.counting t.header) := by
    rw [headLine_hunk hhead hr, hheader]
  rw [readLines_outside hold hnew hcount, readLines_bodyLines ht.bodyLines ht.owed]

theorem Layout.readLines (h : Layout inside ls hunks) (hold : r.oldOwed = 0)
    (hnew : r.newOwed = 0) (hr : r.current.isSome = inside) :
    ∃ r', Diff.readLines r ls = .ok r' ∧
      r'.hunks.Sublist (r.hunks ++ hunks.map fun t => t.header.hunk) := by
  -- wherever the rest of a layout begins, the reader owes nothing
  induction h generalizing r with
  | finished => exact ⟨r, rfl, by simp⟩
  | outside hl _ ih =>
    obtain ⟨r', hread, hold', hnew', hsome, hsub⟩ := headLine_outside (hr ▸ hl)
    obtain ⟨last, hlast, hlasts⟩ :=
      ih (hold'.trans hold) (hnew'.trans hnew) (hsome.trans (hr ▸ rfl))
    refine ⟨last, ?_, hlasts.trans (hsub.append (List.Sublist.refl _))⟩
    rw [readLines_outside hold hnew hread, hlast]
  | @hunk t rest hunks hhead hheader ht hrest ih =>
    rw [readLines_takes hold hnew hr hhead hheader ht]
    have hcount := counting_hunks hr t.header
    have hsome := counting_isSome hr t.header
    rcases Classical.em (Owes t.header.oldLength t.header.newLength t.body) with howes | hpaid
    · -- the diff ends within the body
      cases ht.ended howes
      cases hrest
      exact ⟨_, rfl, by simp [paid_hunks, hcount]⟩
    · have howed := paid_owed (r := r.counting t.header) hpaid
      obtain ⟨last, hlast, hlasts⟩ := ih howed.1 howed.2 hsome
      refine ⟨last, hlast, ?_⟩
      rwa [paid_hunks, hcount, List.append_assoc, List.singleton_append] at hlasts

theorem Refused.readLines (h : Refused inside ls e) (hold : r.oldOwed = 0)
    (hnew : r.newOwed = 0) (hr : r.current.isSome = inside) : Diff.readLines r ls = .error e := by
  induction h generalizing r with
  | malformed hhead hheader =>
    rw [Diff.readLines, Reader.line, if_neg (by omega), headLine_hunk hhead hr, hheader]
  | @early t l rest hhead hheader hbody howed hl =>
    have hcount : r.headLine t.head = .ok (r.counting t.header) := by
      rw [headLine_hunk hhead hr, hheader]
    have howes := howed t.body.length (Nat.le_refl _)
    rw [List.take_length] at howes
    rw [readLines_outside hold hnew hcount,
      readLines_bodyLines hbody fun n hn => howed n (Nat.le_of_lt hn), Diff.readLines, Reader.line,
      if_pos (paid_owes (r := r.counting t.header) howes), bodyLine_refused _ hl]
  | outside hl _ ih =>
    obtain ⟨r', hread, hold', hnew', hsome, -⟩ := headLine_outside (hr ▸ hl)
    rw [readLines_outside hold hnew hread]
    exact ih (hold'.trans hold) (hnew'.trans hnew) (hsome.trans (hr ▸ rfl))
  | @behind t rest e hhead hheader ht hrest ih =>
    have hpaid : ¬ Owes t.header.oldLength t.header.newLength t.body := by
      intro howes
      cases ht.ended howes
      cases hrest
    have howed := paid_owed (r := r.counting t.header) hpaid
    rw [readLines_takes hold hnew hr hhead hheader ht]
    exact ih howed.1 howed.2 (counting_isSome hr t.header)

/-- Lines behind a header are taken until nothing is owed, a line fits no body, or none are left. -/
theorem exists_body (old new : Nat) (ls : List (List Char)) :
    ∃ body rest, ls = body ++ rest ∧ (∀ b ∈ body, isBodyLine b = true) ∧
      (∀ n < body.length, Owes old new (body.take n)) ∧
      (Owes old new body → rest = [] ∨ ∃ l later, rest = l :: later ∧ isBodyLine l = false) := by
  induction ls generalizing old new with
  | nil => exact ⟨[], [], rfl, nofun, nofun, fun _ => .inl rfl⟩
  | cons l ls ih =>
    rcases Classical.em (0 < old ∨ 0 < new) with howed | hpaid
    · cases hl : isBodyLine l with
      | false => exact ⟨[], l :: ls, rfl, nofun, nofun, fun _ => .inr ⟨l, ls, rfl, hl⟩⟩
      | true =>
        obtain ⟨body, rest, rfl, hbody, hproper, hend⟩ :=
          ih (old - [l].countP isOldLine) (new - [l].countP isNewLine)
        refine ⟨l :: body, rest, rfl, List.forall_mem_cons.mpr ⟨hl, hbody⟩, ?_, ?_⟩
        · intro n hn
          cases n with
          | zero => exact howed
          | succ n => exact owes_cons.mpr (hproper n (Nat.lt_of_succ_lt_succ hn))
        · intro howes
          exact hend (owes_cons.mp howes)
    · exact ⟨[], l :: ls, rfl, nofun, nofun, fun howes => absurd howes hpaid⟩

/-- Lines can be divided, or they are refused. -/
theorem layout_or_refused (inside : Bool) (ls : List (List Char)) :
    (∃ hunks, Layout inside ls hunks) ∨ ∃ e, Refused inside ls e := by
  induction hn : ls.length using Nat.strongRecOn generalizing inside ls with
  | ind n ih =>
    cases ls with
    | nil => exact .inl ⟨[], .finished⟩
    | cons l ls =>
      subst hn
      cases hl : inside && isHunkLine l with
      | false =>
        rcases ih ls.length (Nat.lt_succ_self _) (inside || opensSection l) ls rfl with
          ⟨hunks, hlayout⟩ | ⟨e, he⟩
        · exact .inl ⟨hunks, .outside hl hlayout⟩
        · exact .inr ⟨e, .outside hl he⟩
      | true =>
        obtain ⟨rfl, hhead⟩ := Bool.and_eq_true_iff.mp hl
        cases hheader : hunkHeader l with
        | error fault => exact .inr ⟨_, .malformed hhead hheader⟩
        | ok header =>
          obtain ⟨body, rest, rfl, hbody, howed, hend⟩ :=
            exists_body header.oldLength header.newLength ls
          rcases Classical.em (Owes header.oldLength header.newLength body) with howes | hpaid
          · rcases hend howes with rfl | ⟨foreign, later, rfl, hforeign⟩
            · exact .inl ⟨[⟨l, header, body⟩],
                .hunk (t := ⟨l, header, body⟩) hhead hheader ⟨hbody, howed, fun _ => rfl⟩
                  .finished⟩
            · have hproper : ∀ n ≤ body.length,
                  Owes header.oldLength header.newLength (body.take n) := by
                intro n hn
                rcases Nat.lt_or_eq_of_le hn with hlt | rfl
                · exact howed n hlt
                · rwa [List.take_length]
              exact .inr ⟨_, .early (t := ⟨l, header, body⟩) hhead hheader hbody hproper hforeign⟩
          · have ht : Takes header.oldLength header.newLength body rest :=
              ⟨hbody, howed, fun howes => absurd howes hpaid⟩
            have hlength : rest.length < (l :: (body ++ rest)).length := by
              rw [List.length_cons, List.length_append]
              omega
            rcases ih rest.length hlength true rest rfl with ⟨hunks, hlayout⟩ | ⟨e, he⟩
            · exact .inl ⟨⟨l, header, body⟩ :: hunks,
                .hunk (t := ⟨l, header, body⟩) hhead hheader ht hlayout⟩
            · exact .inr ⟨e, .behind (t := ⟨l, header, body⟩) hhead hheader ht he⟩

/-- A header does not have two bodies: the shorter of them would still owe lines, so nothing would
follow it. -/
theorem Takes.unique {body' rest' : List (List Char)} (h : Takes old new body rest)
    (h' : Takes old new body' rest') (hlines : body ++ rest = body' ++ rest') :
    body = body' ∧ rest = rest' := by
  have hnotShorter : ∀ {b r b' r' : List (List Char)}, Takes old new b r → Takes old new b' r' →
      b ++ r = b' ++ r' → b'.length ≤ b.length := by
    intro b r b' r' hb hb' heq
    refine Nat.le_of_not_lt fun hshorter => ?_
    have hfront : b'.take b.length = b := by
      have htaken := congrArg (List.take b.length) heq
      rw [List.take_left, List.take_append_of_le_length (by omega)] at htaken
      exact htaken.symm
    have hended : r = [] := hb.ended (hfront ▸ hb'.owed b.length (by omega))
    have hlength := congrArg List.length heq
    rw [hended, List.append_nil, List.length_append] at hlength
    omega
  have hsame : body.length = body'.length :=
    Nat.le_antisymm (hnotShorter h' h hlines.symm) (hnotShorter h h' hlines)
  exact List.append_inj hlines hsame

/-- Lines are divided in one way only. -/
theorem Layout.unique {hunks' : List FoundHunk} (h : Layout inside ls hunks)
    (h' : Layout inside ls hunks') : hunks = hunks' := by
  induction h generalizing hunks' with
  | finished => cases h'; rfl
  | outside hl _ ih =>
    cases h' with
    | outside _ hrest' => exact ih hrest'
    | hunk hhead' => rw [hhead'] at hl; cases hl
  | @hunk t rest hunks hhead hheader ht hrest ih =>
    generalize hlines : t.head :: (t.body ++ rest) = ls at h'
    cases h' with
    | finished => cases hlines
    | outside hl' =>
      obtain ⟨rfl, -⟩ := List.cons.inj hlines
      rw [hhead] at hl'
      cases hl'
    | @hunk u rest' hunks' hhead' hheader' ht' hrest' =>
      obtain ⟨head, header, body⟩ := t
      obtain ⟨head', header', body'⟩ := u
      obtain ⟨rfl, hbodies⟩ := List.cons.inj hlines
      obtain rfl : header = header' := Except.ok.inj (hheader.symm.trans hheader')
      obtain ⟨rfl, rfl⟩ := ht.unique ht' hbodies
      rw [ih hrest']

end

/-! ## Whole bodies -/

namespace FoundHunk

/-- The body has as many lines of either side as the header announces. -/
def Complete (t : FoundHunk) : Prop :=
  t.body.countP isOldLine = t.header.oldLength ∧ t.body.countP isNewLine = t.header.newLength

/-- A line of a side that is complete stands in the body where lines of the other are owed. -/
def Exceeds (t : FoundHunk) : Prop :=
  ∃ before l after, t.body = before ++ l :: after ∧
    Owes t.header.oldLength t.header.newLength before ∧
    (isOldLine l = true ∧ before.countP isOldLine = t.header.oldLength ∨
      isNewLine l = true ∧ before.countP isNewLine = t.header.newLength)

/-- The hunk stands in the lines. Its body is complete unless it has a line too many or the lines
end within it. -/
structure StandsIn (t : FoundHunk) (ls : List (List Char)) : Prop where
  reads : hunkHeader t.head = .ok t.header
  bodyLines : ∀ l ∈ t.body, isBodyLine l = true
  place : ∃ before rest, ls = before ++ t.head :: (t.body ++ rest) ∧
    (t.Complete ∨ t.Exceeds ∨ Owes t.header.oldLength t.header.newLength t.body ∧ rest = [])

end FoundHunk

theorem exists_of_lt_countP {α : Type} {p : α → Bool} {k : Nat} {xs : List α}
    (h : k < xs.countP p) :
    ∃ before x after, xs = before ++ x :: after ∧ p x = true ∧ before.countP p = k := by
  induction xs generalizing k with
  | nil => simp at h
  | cons x xs ih =>
    rw [List.countP_cons] at h
    cases hx : p x with
    | false =>
      obtain ⟨before, y, after, rfl, hy, hcount⟩ := ih (by simpa [hx] using h)
      exact ⟨x :: before, y, after, rfl, hy, by simp [hx, hcount]⟩
    | true =>
      cases k with
      | zero => exact ⟨[], x, xs, rfl, hx, rfl⟩
      | succ k =>
        obtain ⟨before, y, after, rfl, hy, hcount⟩ := ih (k := k) (by simpa [hx] using h)
        exact ⟨x :: before, y, after, rfl, hy, by simp [hx, hcount]⟩

theorem Takes.complete_or {t : FoundHunk} {rest : List (List Char)}
    (h : Takes t.header.oldLength t.header.newLength t.body rest) :
    t.Complete ∨ t.Exceeds ∨ Owes t.header.oldLength t.header.newLength t.body ∧ rest = [] := by
  rcases Classical.em (Owes t.header.oldLength t.header.newLength t.body) with howes | hpaid
  · exact .inr (.inr ⟨howes, h.ended howes⟩)
  have hproper : ∀ before l after, t.body = before ++ l :: after →
      Owes t.header.oldLength t.header.newLength before := by
    intro before l after hbody
    have howed := h.owed before.length (by simp [hbody])
    rwa [hbody, List.take_left] at howed
  rcases Classical.em (t.header.oldLength < t.body.countP isOldLine) with hold | hold
  · obtain ⟨before, l, after, hbody, hl, hcount⟩ := exists_of_lt_countP hold
    exact .inr (.inl ⟨before, l, after, hbody, hproper before l after hbody, .inl ⟨hl, hcount⟩⟩)
  rcases Classical.em (t.header.newLength < t.body.countP isNewLine) with hnew | hnew
  · obtain ⟨before, l, after, hbody, hl, hcount⟩ := exists_of_lt_countP hnew
    exact .inr (.inl ⟨before, l, after, hbody, hproper before l after hbody, .inr ⟨hl, hcount⟩⟩)
  · unfold Owes at hpaid
    refine .inl ⟨?_, ?_⟩ <;> omega

theorem Layout.standsIn {inside : Bool} {ls : List (List Char)} {hunks : List FoundHunk}
    (h : Layout inside ls hunks) : ∀ t ∈ hunks, t.StandsIn ls := by
  induction h with
  | finished => exact nofun
  | @outside _ l rest hunks _ _ ih =>
    intro t ht
    obtain ⟨hreads, hbody, before, behind, hrest, hwhole⟩ := ih t ht
    exact ⟨hreads, hbody, l :: before, behind, by rw [hrest, List.cons_append], hwhole⟩
  | @hunk t rest hunks _ hheader htakes _ ih =>
    rw [List.forall_mem_cons]
    constructor
    · exact ⟨hheader, htakes.bodyLines, [], rest, rfl, htakes.complete_or⟩
    · intro u hu
      obtain ⟨hreads, hbody, before, behind, hrest, hwhole⟩ := ih u hu
      refine ⟨hreads, hbody, t.head :: (t.body ++ before), behind, ?_, hwhole⟩
      rw [hrest, List.cons_append, List.append_assoc]

/-- A diff is refused exactly for a malformed header and for a line that ends a body early.
Otherwise the hunks that are counted stand in it, with their whole bodies unless one is exceeded or
cut off. -/
theorem read_standsIn (text : String) :
    (∀ e, read text = .error e ↔ Refused false (Text.lines text.toList) e) ∧
      ∀ sections, read text = .ok sections →
        ∃ hunks, Layout false (Text.lines text.toList) hunks ∧
          (sections.flatMap DiffSection.hunks).Sublist (hunks.map fun t => t.header.hunk) ∧
          ∀ t ∈ hunks, t.StandsIn (Text.lines text.toList) := by
  have hrefused : ∀ {e}, Refused false (Text.lines text.toList) e → read text = .error e := by
    intro e he
    rw [read, he.readLines rfl rfl rfl]
    rfl
  have hread : ∀ {hunks}, Layout false (Text.lines text.toList) hunks → ∃ r,
      read text = .ok (Reader.sections r) ∧ r.hunks.Sublist (hunks.map fun t => t.header.hunk) := by
    intro hunks hlayout
    obtain ⟨r, hr, hsub⟩ := hlayout.readLines (r := {}) rfl rfl rfl
    exact ⟨r, by rw [read, hr]; rfl, hsub⟩
  rcases layout_or_refused false (Text.lines text.toList) with ⟨hunks, hlayout⟩ | ⟨e, he⟩
  · obtain ⟨r, hok, hsub⟩ := hread hlayout
    refine ⟨fun e => ⟨fun h => ?_, hrefused⟩, fun sections h => ?_⟩
    · rw [hok] at h
      cases h
    · rw [hok] at h
      cases h
      exact ⟨hunks, hlayout, (sections_hunks r).trans hsub, hlayout.standsIn⟩
  · have herror := hrefused he
    refine ⟨fun e' => ⟨fun h => ?_, hrefused⟩, fun sections h => ?_⟩
    · rw [herror] at h
      cases h
      exact he
    · rw [herror] at h
      cases h

/-- Two hunks of one file and one of another. The body of the first has a kept and an empty line and
a remark, that of the second a line of the old side too many. -/
def exceedingDiff : String :=
  "diff --git a/f b/f\n--- a/f\n+++ b/f\n@@ -1,3 +1,4 @@\n x\n-y\n\\ no newline\n+z\n+w\n\n" ++
    "@@ -10 +11,2 @@\n-p\n-q\n+r\n+s\ndiff --git a/g b/g\n--- a/g\n+++ b/g\n@@ -5 +4,0 @@\n-u\n"

def exceedingHunks : List FoundHunk :=
  [⟨"@@ -1,3 +1,4 @@".toList, ⟨1, 3, 1, 4⟩,
      [" x".toList, "-y".toList, "\\ no newline".toList, "+z".toList, "+w".toList, []]⟩,
    ⟨"@@ -10 +11,2 @@".toList, ⟨10, 1, 11, 2⟩,
      ["-p".toList, "-q".toList, "+r".toList, "+s".toList]⟩,
    ⟨"@@ -5 +4,0 @@".toList, ⟨5, 1, 4, 0⟩, ["-u".toList]⟩]

theorem lines_exceedingDiff : Text.lines exceedingDiff.toList =
    ["diff --git a/f b/f", "--- a/f", "+++ b/f", "@@ -1,3 +1,4 @@", " x", "-y", "\\ no newline",
      "+z", "+w", "", "@@ -10 +11,2 @@", "-p", "-q", "+r", "+s", "diff --git a/g b/g", "--- a/g",
      "+++ b/g", "@@ -5 +4,0 @@", "-u"].map String.toList := by
  decide +kernel

theorem layout_exceedingDiff :
    Layout false (Text.lines exceedingDiff.toList) exceedingHunks := by
  rw [lines_exceedingDiff]
  refine .outside rfl (.outside rfl (.outside rfl ?firstHunk))
  refine .hunk (t := exceedingHunks[0]) rfl rfl ⟨by decide, by decide, by decide⟩ ?secondHunk
  refine .hunk (t := exceedingHunks[1]) rfl rfl ⟨by decide, by decide, by decide⟩ ?secondFile
  refine .outside rfl (.outside rfl (.outside rfl ?thirdHunk))
  exact .hunk (t := exceedingHunks[2]) rfl rfl ⟨by decide, by decide, by decide⟩ .finished

/-- The second hunk takes both lines of the old side, though its header announces one. -/
theorem exceedingHunks_exceeds : ∃ t ∈ exceedingHunks, t.Exceeds ∧ ¬ t.Complete := by
  refine ⟨exceedingHunks[1], List.getElem_mem _, ?_, ?_⟩
  · exact ⟨["-p".toList], "-q".toList, ["+r".toList, "+s".toList], rfl, by decide, .inl ⟨rfl, rfl⟩⟩
  · unfold FoundHunk.Complete
    decide

theorem read_standsIn_exceedingDiff :
    read exceedingDiff = .ok
        [{ oldPath := some ⟨"f"⟩, newPath := some ⟨"f"⟩, hunks := [⟨1, 3, 1, 4⟩, ⟨10, 1, 11, 2⟩] },
          { oldPath := some ⟨"g"⟩, newPath := some ⟨"g"⟩, hunks := [⟨5, 1, 5, 0⟩] }] ∧
      [⟨1, 3, 1, 4⟩, ⟨10, 1, 11, 2⟩, ⟨5, 1, 5, 0⟩].Sublist
        (exceedingHunks.map fun t => t.header.hunk) ∧
      (∀ t ∈ exceedingHunks, t.StandsIn (Text.lines exceedingDiff.toList)) ∧
      ∃ t ∈ exceedingHunks, t.Exceeds ∧ ¬ t.Complete := by
  have hread : read exceedingDiff = .ok
      [{ oldPath := some ⟨"f"⟩, newPath := some ⟨"f"⟩, hunks := [⟨1, 3, 1, 4⟩, ⟨10, 1, 11, 2⟩] },
        { oldPath := some ⟨"g"⟩, newPath := some ⟨"g"⟩, hunks := [⟨5, 1, 5, 0⟩] }] := by
    rw [read, lines_exceedingDiff]
    rfl
  obtain ⟨hunks, hlayout, hcounted, hstand⟩ := (read_standsIn _).2 _ hread
  obtain rfl := hlayout.unique layout_exceedingDiff
  exact ⟨hread, hcounted, hstand, exceedingHunks_exceeds⟩

end DocDrift.Diff
