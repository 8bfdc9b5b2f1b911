import DocDrift.Git.Log
import DocDrift.Proofs.Path

/-!
# The records of a log of git

A record names a commit and may have a status line: a letter, a score, and paths with a tabulator in
front of each. Reading a log gives each record's commit back, but for the blanks at the end of the
line: they are cut off the last path, and if nothing is left of it, the line ends one path earlier.
-/

namespace DocDrift

structure Path.Unquoted (p : Path) : Prop where
  ne_nil : p.text.toList ≠ []
  printed : ∀ c ∈ p.text.toList, 32 ≤ c.toNat

instance (p : Path) : Decidable p.Unquoted :=
  decidable_of_iff (p.text.toList ≠ [] ∧ p.text.toList.all (32 ≤ ·.toNat) = true)
    ⟨fun h => ⟨h.1, by simpa using h.2⟩, fun h => ⟨h.ne_nil, by simpa using h.printed⟩⟩

namespace Path.Unquoted
variable {p : Path}

theorem not_mem (h : p.Unquoted) {c : Char} (hc : c.toNat < 32) : c ∉ p.text.toList :=
  fun hmem => absurd (h.printed c hmem) (Nat.not_le.mpr hc)

end Path.Unquoted

namespace Git

/-- A path with the tabulator in front of it. -/
def field (p : Path) : List Char := '\t' :: p.text.toList

structure StatusLine where
  letter : Char
  score : List Char
  paths : List Path
  letter_upper : letter.isUpper = true
  score_digit : score.all Char.isDigit = true
  paths_unquoted : ∀ p ∈ paths, p.Unquoted

namespace StatusLine

/-- The letter with the score. -/
def status (l : StatusLine) : List Char := l.letter :: l.score

def text (l : StatusLine) : List Char :=
  l.status ++ l.paths.flatMap field

end StatusLine

inductive Change.WrittenAs : Change → Option StatusLine → Prop
  | modified {l : StatusLine} {p : Path} (hletter : l.letter ∉ ['A', 'D', 'R', 'C'])
      (hpaths : l.paths = [p]) : WrittenAs (.modified p) (some l)
  | added {l : StatusLine} {p : Path} (hletter : l.letter = 'A') (hpaths : l.paths = [p]) :
      WrittenAs (.added p) (some l)
  | deleted {l : StatusLine} {p : Path} (hletter : l.letter = 'D') (hpaths : l.paths = [p]) :
      WrittenAs .deleted (some l)
  | renamed {l : StatusLine} {source p : Path} (hletter : l.letter ∈ ['R', 'C'])
      (hpaths : l.paths = [source, p]) : WrittenAs (.renamed source p) (some l)
  | unknown : WrittenAs .unknown none

structure Record where
  commit : Commit
  line? : Option StatusLine
  id_ne_nil : commit.id.toList ≠ []
  id_hex : commit.id.toList.all Text.isHexDigit = true
  written : commit.change.WrittenAs line?

namespace Record

/-- The text of a record, without the null character that opens it. -/
def text (r : Record) : List Char :=
  r.commit.id.toList ++ '\n' ::
    match r.line? with
    | some l => '\n' :: (l.text ++ ['\n'])
    | none => []

def log (records : List Record) : List Char := records.flatMap fun r => '\x00' :: r.text

end Record

/-- The path without the blanks at its end, if anything is left of it. -/
def trimmedPath? (p : Path) : Option Path :=
  match Text.trimRight p.text.toList with
  | [] => none
  | s => some ⟨String.ofList s⟩

/-- What a change is taken for whose status line loses the blanks at its end. -/
def Change.trimmed : Change → Change
  | .modified p => ((trimmedPath? p).map .modified).getD .unknown
  | .added p => ((trimmedPath? p).map .added).getD .unknown
  | .renamed source p =>
    match trimmedPath? p with
    | some q => .renamed source q
    | none => ((trimmedPath? source).map .modified).getD .unknown
  | .deleted => .deleted
  | .unknown => .unknown

/-- The last path of the change does not end in a blank. -/
def Change.Closed : Change → Prop
  | .modified p | .added p | .renamed _ p => ∀ c ∈ p.text.toList.getLast?, Text.isBlank c = false
  | .deleted | .unknown => True

/-! ## Blanks at the end -/

/-- The paths that are left of a line without the blanks at its end. -/
def trimmedPaths : List Path → List Path
  | [] => []
  | p :: rest =>
    match trimmedPaths rest with
    | [] => (trimmedPath? p).toList
    | paths => p :: paths

theorem trimRight_field (p : Path) :
    Text.trimRight (field p) = (trimmedPath? p).toList.flatMap field := by
  have happend := Text.trimRight_append_eq ['\t'] p.text.toList
  rw [List.singleton_append] at happend
  rw [field, happend, trimmedPath?]
  cases Text.trimRight p.text.toList with
  | nil => rfl
  | cons c rest => simp [field]

theorem trimRight_fields (paths : List Path) :
    Text.trimRight (paths.flatMap field) = (trimmedPaths paths).flatMap field := by
  induction paths with
  | nil => rfl
  | cons p rest ih =>
    rw [List.flatMap_cons, Text.trimRight_append_eq, ih, trimRight_field, trimmedPaths]
    cases trimmedPaths rest with
    | nil => exact if_pos rfl
    | cons q qs => exact if_neg (List.cons_ne_nil _ _)

theorem trimmedPath?_eq_self_iff {p : Path} (h : p.Unquoted) :
    trimmedPath? p = some p ↔ ∀ c ∈ p.text.toList.getLast?, Text.isBlank c = false := by
  have hself : trimmedPath? p = some p ↔ Text.trimRight p.text.toList = p.text.toList := by
    unfold trimmedPath?
    cases ht : Text.trimRight p.text.toList with
    | nil => simp [h.ne_nil.symm]
    | cons c rest =>
      rw [Option.some_inj, ← Path.ofList_toList p, Path.mk.injEq, String.ofList_inj]
      simp
  rw [hself, Text.trimRight_eq_self_iff]

theorem trimmedPath?_not_mem {p q : Path} (hp : p.Unquoted) (h : trimmedPath? p = some q) :
    '\t' ∉ q.text.toList := by
  unfold trimmedPath? at h
  split at h
  · cases h
  · next s hs =>
    cases h
    rw [String.toList_ofList]
    exact fun hmem => hp.not_mem (by decide) (Text.mem_of_mem_trimRight hmem)

theorem trimmedPaths_not_mem {paths : List Path} (h : ∀ p ∈ paths, p.Unquoted) :
    ∀ p ∈ trimmedPaths paths, '\t' ∉ p.text.toList := by
  induction paths with
  | nil => simp [trimmedPaths]
  | cons p rest ih =>
    obtain ⟨hp, hrest⟩ := List.forall_mem_cons.mp h
    unfold trimmedPaths
    split
    · exact fun q hq => trimmedPath?_not_mem hp (Option.mem_toList.mp hq)
    · exact List.forall_mem_cons.mpr ⟨hp.not_mem (by decide), ih hrest⟩

namespace StatusLine
variable {l : StatusLine} {c : Char}

/-- The status consists of letters and digits. -/
theorem status_char (hc : c ∈ l.status) : 48 ≤ c.toNat ∧ c.toNat ≤ 90 := by
  rcases List.mem_cons.mp hc with rfl | hc
  · obtain ⟨hlow, hhigh⟩ : 'A'.val ≤ l.letter.val ∧ l.letter.val ≤ 'Z'.val :=
      of_decide_eq_true l.letter_upper
    rw [UInt32.le_iff_toNat_le] at hlow hhigh
    exact ⟨Nat.le_trans (by decide) hlow, hhigh⟩
  · obtain ⟨hlow, hhigh⟩ := Char.isDigit_iff_toNat.mp (List.all_eq_true.mp l.score_digit c hc)
    exact ⟨hlow, Nat.le_trans hhigh (by decide)⟩

theorem status_not_mem (l : StatusLine) (hc : c.toNat < 32) : c ∉ l.status := by
  intro hmem
  have hlow := (status_char hmem).1
  omega

theorem trimRight_status (l : StatusLine) : Text.trimRight l.status = l.status := by
  apply Text.trimRight_eq_self
  intro c hc
  have hchar := status_char (List.mem_of_getLast? hc)
  simp only [Text.isBlank, Bool.or_eq_false_iff, Bool.and_eq_false_iff, decide_eq_false_iff_not,
    beq_eq_false_iff_ne]
  omega

theorem text_not_mem (hc : c.toNat < 32) (ht : c ≠ '\t') : c ∉ l.text := by
  rw [text, List.mem_append, not_or, List.mem_flatMap]
  refine ⟨l.status_not_mem hc, ?_⟩
  rintro ⟨p, hp, hmem⟩
  rcases List.mem_cons.mp hmem with rfl | hmem
  · exact ht rfl
  · exact (l.paths_unquoted p hp).not_mem hc hmem

theorem trimRight_text (l : StatusLine) :
    Text.trimRight l.text = l.status ++ (trimmedPaths l.paths).flatMap field := by
  rw [text, Text.trimRight_append_eq, trimRight_fields]
  split
  · next hnil => rw [hnil, List.append_nil, l.trimRight_status]
  · rfl

end StatusLine

/-! ## Fields -/

/-- The fields of a line are its status and its paths. -/
theorem ofLine_fields {status : List Char} {paths : List Path} (hstatus : '\t' ∉ status)
    (hpaths : ∀ p ∈ paths, '\t' ∉ p.text.toList) :
    Change.ofLine (status ++ paths.flatMap field) =
      Change.ofFields (status :: paths.map fun p => p.text.toList) := by
  have hpieces : ∀ piece ∈ paths.map fun p => p.text.toList, '\t' ∉ piece := by simpa using hpaths
  have hsplit := Text.splitAt_flatMap_cons hpieces
  rw [List.flatMap_map] at hsplit
  rw [Change.ofLine]
  exact congrArg Change.ofFields
    ((Text.splitAt_append_of_not_mem hstatus hsplit).trans (by rw [List.append_nil]))

section
variable {letter : Char} {score : List Char}

theorem ofFields_status (h : letter ≠ 'D') : Change.ofFields [letter :: score] = .unknown := by
  simp only [Change.ofFields, List.head?_cons, List.map_nil]
  split <;> simp_all

/-- Any letter but these two stands for a modification if there is one path only. -/
theorem ofFields_one (h : letter ∉ ['A', 'D']) (p : Path) :
    Change.ofFields [letter :: score, p.text.toList] = .modified p := by
  simp only [List.mem_cons, List.not_mem_nil, or_false, not_or] at h
  simp only [Change.ofFields, List.head?_cons, List.map_cons, List.map_nil, Path.ofList_toList]
  split <;> grind

theorem ofFields_two (h : letter ∈ ['R', 'C']) (source p : Path) :
    Change.ofFields [letter :: score, source.text.toList, p.text.toList] = .renamed source p := by
  simp only [List.mem_cons, List.not_mem_nil, or_false] at h
  obtain rfl | rfl := h <;> simp [Change.ofFields]

end

/-- The line with the blanks at its end cut off tells of the trimmed change. -/
theorem ofLine_trimRight {change : Change} {l : StatusLine} (h : change.WrittenAs (some l)) :
    Change.ofLine (Text.trimRight l.text) = change.trimmed := by
  have hfields : Change.ofLine (Text.trimRight l.text) =
      Change.ofFields (l.status :: (trimmedPaths l.paths).map fun p => p.text.toList) := by
    rw [l.trimRight_text]
    exact ofLine_fields (l.status_not_mem (by decide)) (trimmedPaths_not_mem l.paths_unquoted)
  rw [hfields, StatusLine.status]
  cases h with
  | @modified _ p hletter hpaths =>
    simp only [hpaths, trimmedPaths, Change.trimmed]
    cases trimmedPath? p with
    | none => exact ofFields_status (by grind)
    | some q => exact ofFields_one (by grind) q
  | @added _ p hletter hpaths =>
    simp only [hpaths, trimmedPaths, Change.trimmed, hletter]
    cases trimmedPath? p with
    | none => exact ofFields_status (by decide)
    | some q => simp [Change.ofFields]
  | deleted hletter => rw [hletter]; rfl
  | @renamed _ source p hletter hpaths =>
    simp only [hpaths, trimmedPaths, Change.trimmed]
    cases trimmedPath? p with
    | some q => exact ofFields_two hletter source q
    | none =>
      cases trimmedPath? source with
      | none => exact ofFields_status (by grind)
      | some q => exact ofFields_one (by grind) q

/-! ## Records -/

namespace Record
variable {r : Record} {c : Char}

def read (r : Record) : Commit := { r.commit with change := r.commit.change.trimmed }

theorem id_trimmed (r : Record) : Text.Trimmed r.commit.id.toList :=
  Text.trimmed_of_isHexDigit r.id_ne_nil r.id_hex

theorem id_not_mem (r : Record) (hc : Text.isHexDigit c = false) : c ∉ r.commit.id.toList := by
  intro hmem
  rw [List.all_eq_true.mp r.id_hex c hmem] at hc
  cases hc

theorem lines_text (r : Record) : Text.lines r.text = r.commit.id.toList ::
    match r.line? with
    | some l => [[], l.text]
    | none => [] := by
  rw [text, Text.lines_append (r.id_not_mem (by decide)),
    Text.dropReturn_of_not_mem (r.id_not_mem (by decide))]
  cases r.line? with
  | none => rfl
  | some l =>
    have hfeed : '\n' ∉ l.text := l.text_not_mem (by decide) (by decide)
    have hreturn : '\r' ∉ l.text := l.text_not_mem (by decide) (by decide)
    have hempty := Text.lines_append (List.not_mem_nil (a := '\n')) (l.text ++ ['\n'])
    rw [List.nil_append, Text.lines_append hfeed, Text.dropReturn_of_not_mem hreturn] at hempty
    exact congrArg (List.cons _) hempty

theorem ofRecord?_text (r : Record) : Commit.ofRecord? r.text = some r.read := by
  have hid : r.commit.id.toList.isEmpty = false := by simp [r.id_ne_nil]
  have hwritten := r.written
  unfold Commit.ofRecord? read
  simp only [lines_text, r.id_trimmed.trim_eq, hid, Bool.false_eq_true, if_false,
    String.ofList_toList]
  cases hline : r.line? with
  | none =>
    rw [hline] at hwritten
    generalize r.commit.change = change at hwritten ⊢
    cases hwritten
    rfl
  | some l =>
    rw [hline] at hwritten
    have hne : Text.trimRight l.text ≠ [] := by
      rw [l.trimRight_text]
      exact List.cons_ne_nil _ _
    have hfind : ([[], l.text].map Text.trimRight).find? (!·.isEmpty) =
        some (Text.trimRight l.text) := by
      have hempty : (Text.trimRight l.text).isEmpty = false := by simp [hne]
      simp only [List.map_cons, List.map_nil, List.find?_cons, hempty]
      rfl
    simp only [hfind, ofLine_trimRight hwritten]

theorem text_not_mem (r : Record) : '\x00' ∉ r.text := by
  have hid : '\x00' ∉ r.commit.id.toList := r.id_not_mem (by decide)
  unfold text
  cases r.line? with
  | none => simp [hid]
  | some l =>
    have hline : '\x00' ∉ l.text := l.text_not_mem (by decide) (by decide)
    simp [hid, hline]

theorem text_not_blank (r : Record) : Text.isBlankLine r.text = false := by
  obtain ⟨⟨c, hc, hblank⟩, -⟩ := r.id_trimmed
  rw [Text.isBlankLine, List.all_eq_false]
  refine ⟨c, ?_, by simp [hblank]⟩
  rw [text, List.mem_append]
  exact .inl (List.mem_of_head? hc)

/-- The commits of a log are those of its records, one by one. -/
theorem commits_log (records : List Record) : commits (log records) = records.map read := by
  have htexts : ((records.map text).filter (!Text.isBlankLine ·)).filterMap Commit.ofRecord? =
      records.map read := by
    induction records with
    | nil => rfl
    | cons r rest ih =>
      rw [List.map_cons, List.filter_cons, text_not_blank, Bool.not_false, if_pos rfl,
        List.filterMap_cons, ofRecord?_text, ih, List.map_cons]
  have htext : ∀ piece ∈ records.map text, '\x00' ∉ piece := by
    simpa using fun r _ => r.text_not_mem
  have hsplit := Text.splitAt_flatMap_cons htext
  rw [List.flatMap_map] at hsplit
  rw [commits, log, hsplit, List.filter_cons, if_neg (by decide), htexts]

end Record

theorem Change.WrittenAs.trimmed_eq_self_iff {change : Change} {line? : Option StatusLine}
    (h : change.WrittenAs line?) : change.trimmed = change ↔ change.Closed := by
  have hone : ∀ {l : StatusLine} {p : Path}, p ∈ l.paths →
      (trimmedPath? p = some p ↔ ∀ c ∈ p.text.toList.getLast?, Text.isBlank c = false) :=
    fun hp => trimmedPath?_eq_self_iff (StatusLine.paths_unquoted _ _ hp)
  cases h with
  | @modified l p _ hpaths =>
    rw [Change.Closed, ← hone (l := l) (by simp [hpaths]), Change.trimmed]
    cases trimmedPath? p <;> simp
  | @added l p _ hpaths =>
    rw [Change.Closed, ← hone (l := l) (by simp [hpaths]), Change.trimmed]
    cases trimmedPath? p <;> simp
  | @renamed l source p _ hpaths =>
    rw [Change.Closed, ← hone (l := l) (by simp [hpaths]), Change.trimmed]
    cases trimmedPath? p with
    | some q => simp
    | none => cases trimmedPath? source <;> simp
  | deleted => exact iff_of_true rfl trivial
  | unknown => exact iff_of_true rfl trivial

/-- A log gives every commit back as it was written, blanks at the end of a status line excepted. So
it gives all of them back with their paths if and only if the last path of none ends in a blank. -/
theorem log_read_back (records : List Record) :
    commits (Record.log records) = records.map Record.read ∧
      (commits (Record.log records) = records.map Record.commit ↔
        ∀ r ∈ records, r.commit.change.Closed) := by
  have hread : ∀ r : Record, r.read = r.commit ↔ r.commit.change.Closed := by
    intro r
    rw [← r.written.trimmed_eq_self_iff, Record.read]
    cases r.commit
    simp
  rw [Record.commits_log]
  refine ⟨rfl, ?_⟩
  simp only [List.map_inj_left, hread]

/-- A commit that renamed a file to a name that ends in a blank. -/
def Record.renamedToBlank : Record where
  commit := ⟨"b1", .renamed ⟨"a.py"⟩ ⟨"my file.py "⟩⟩
  line? := some ⟨'R', ['1', '0', '0'], [⟨"a.py"⟩, ⟨"my file.py "⟩], by decide, by decide, by
    simp only [List.forall_mem_cons, List.not_mem_nil, false_implies, implies_true, and_true]
    exact ⟨by decide, by decide⟩⟩
  id_ne_nil := by decide
  id_hex := by decide
  written := .renamed (by decide) rfl

example : commits (Record.log [.renamedToBlank]) =
    [⟨"b1", .renamed ⟨"a.py"⟩ ⟨"my file.py"⟩⟩] := by
  decide

end Git

end DocDrift
