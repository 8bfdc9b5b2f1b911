import DocDrift.Proofs.Diff.Choice
import DocDrift.Proofs.History.Congruence
import DocDrift.Proofs.Vcs.GitLog
import DocDrift.Proofs.Vcs.MercurialLog
import DocDrift.Vcs.Backend

/-!
# The agreement of git and Mercurial

Where git and Mercurial tell the same of a file, each in its own way, the answers that are read from
them are the same, and so are the surveys. There is one exception: in a diff of Mercurial, an empty
section of another file in front of the one that counts can be taken for it.
-/

namespace DocDrift

/-- What two revisions of a file differ in, with the sections of other files that Mercurial puts
around the section of this file. -/
structure FileDiff where
  /-- The name of the file in the newer revision. -/
  path : Path
  own : Diff.FileChange
  before : List Diff.FileChange
  after : List Diff.FileChange
  own_path : own.new.same path = true
  own_remains : own.remains = true
  before_other : ∀ c ∈ before, c.new.same path = false
  after_other : ∀ c ∈ after, c.new.same path = false

/-- No section in front of that of the file is taken for it, or that makes no difference. -/
def FileDiff.Undisturbed (d : FileDiff) : Prop :=
  d.own.hunks = [] ∨ ∀ c ∈ d.before, c.usurps d.path = false

/-- What there is to tell of a file: its revisions, newest first, the content at each of them, and
what each differs in from the next older one. -/
structure FileRecord where
  newest : FileRevision
  older : List FileRevision
  contents : Nat → List Char
  diffs : Nat → FileDiff
  linear : Timeline (newest :: older)
  diffs_path : ∀ i newer next, (timeline true (newest :: older)).get? i = some newer →
    (timeline true (newest :: older)).get? (i + 1) = some next → (diffs i).path = newer.path

def FileRecord.history (f : FileRecord) (follow : Bool) : FileHistory :=
  timeline follow (f.newest :: f.older)

/-- The command ends well and prints the text. -/
def Backend.Prints (b : Backend) (w : World) (arguments : List String) (text : List Char) : Prop :=
  ∃ stdout stderr, w.outcome (b.invocation arguments) = .finished (some 0) stdout stderr ∧
    Text.Utf8.decode stdout = text

/-- A system of some kind tells what the record says: it prints this log, the contents, and of each
diff these sections. -/
structure FileRecord.Told (f : FileRecord) (kind : VcsKind) (log : List Char)
    (sections : FileDiff → List Diff.FileChange) (b : Backend) (w : World) : Prop where
  kind_eq : b.tool.kind = kind
  log : b.Prints w (kind.dialect.logArguments f.newest.path) log
  contents : ∀ i e, (f.history true).get? i = some e →
    b.Prints w (kind.dialect.contentArguments e.path e.revision) (f.contents i)
  diffs : ∀ i newer older, (f.history true).get? i = some newer →
    (f.history true).get? (i + 1) = some older → ∃ text,
      b.Prints w (kind.dialect.diffArguments newer older) text ∧
        Text.lines text = (sections (f.diffs i)).flatMap Diff.FileChange.lines

/-- Git shows the section of the file only. -/
def FileRecord.ToldByGit (f : FileRecord) : Backend → World → Prop :=
  f.Told .git (Git.logText (f.newest :: f.older)) fun d => [d.own]

/-- Mercurial shows sections of other files around it. -/
def FileRecord.ToldByMercurial (f : FileRecord) : Backend → World → Prop :=
  f.Told .mercurial (Mercurial.logText (f.newest :: f.older)) fun d => d.before ++ d.own :: d.after

theorem Backend.Prints.run {b : Backend} {w : World} {arguments : List String} {text : List Char}
    (h : b.Prints w arguments text) : ∃ stderr, b.run w arguments = .ok ⟨some 0, text, stderr⟩ := by
  obtain ⟨stdout, stderr, hout, rfl⟩ := h
  exact ⟨Text.Utf8.decode stderr, by rw [Backend.run, hout, Tool.finish]⟩

namespace FileRecord
variable {f : FileRecord} {b b' : Backend} {w w' : World}

theorem history_get? {follow : Bool} {i : Nat} {e : HistoryEntry}
    (h : (f.history follow).get? i = some e) : (f.history true).get? i = some e :=
  timeline_get? h

/-! ## What either system is read as -/

section
variable {kind : VcsKind} {log : List Char} {sections : FileDiff → List Diff.FileChange}
  {i : Nat} {newer older e : HistoryEntry}

theorem Told.dialect (h : f.Told kind log sections b w) : b.dialect = kind.dialect := by
  rw [Backend.dialect, h.kind_eq]

theorem Told.enumerate (h : f.Told kind log sections b w) (follow : Bool) :
    ∃ stderr, (b.repository w).enumerate f.newest.path follow =
      kind.dialect.readLog b.tool f.newest.path follow ⟨some 0, log, stderr⟩ := by
  obtain ⟨stderr, hrun⟩ := h.log.run
  refine ⟨stderr, ?_⟩
  unfold Backend.repository
  simp only [h.dialect]
  rw [hrun]
  rfl

theorem Told.read (h : f.Told kind log sections b w) (he : (f.history true).get? i = some e) :
    (b.repository w).read e.path e.revision = .ok (String.ofList (f.contents i)) := by
  obtain ⟨stderr, hrun⟩ := (h.contents i e he).run
  unfold Backend.repository
  simp only [h.dialect]
  rw [hrun]
  cases kind <;> rfl

theorem Told.diff (h : f.Told kind log sections b w) (hn : (f.history true).get? i = some newer)
    (ho : (f.history true).get? (i + 1) = some older) :
    ∃ text stderr, (b.repository w).diff newer older =
        kind.dialect.readDiff b.tool newer older ⟨some 0, text, stderr⟩ ∧
      Diff.read (String.ofList text) =
        .ok ((sections (f.diffs i)).flatMap Diff.FileChange.summaries) := by
  obtain ⟨text, hprints, hlines⟩ := h.diffs i newer older hn ho
  obtain ⟨stderr, hrun⟩ := hprints.run
  refine ⟨text, stderr, ?_, Diff.read_changes (by rw [String.toList_ofList, hlines])⟩
  unfold Backend.repository
  simp only [h.dialect]
  rw [hrun]
  rfl

end

/-! ## Git and Mercurial -/

section
variable {i : Nat} {newer older : HistoryEntry}

theorem ToldByGit.enumerate (h : f.ToldByGit b w) (follow : Bool) :
    (b.repository w).enumerate f.newest.path follow = .ok (f.history follow) := by
  obtain ⟨stderr, hlog⟩ := Told.enumerate h follow
  rw [hlog]
  exact congrArg Except.ok (Git.history_logText f.newest.path follow f.linear)

theorem ToldByMercurial.enumerate (h : f.ToldByMercurial b w) (follow : Bool) :
    (b.repository w).enumerate f.newest.path follow = .ok (f.history follow) := by
  obtain ⟨stderr, hlog⟩ := Told.enumerate h follow
  rw [hlog]
  exact congrArg Except.ok (Mercurial.history_logText follow f.linear)

theorem ToldByGit.diff (h : f.ToldByGit b w) (hn : (f.history true).get? i = some newer)
    (ho : (f.history true).get? (i + 1) = some older) :
    (b.repository w).diff newer older = .ok (f.diffs i).own.hunks := by
  obtain ⟨text, stderr, hdiff, hread⟩ := Told.diff h hn ho
  rw [hdiff]
  change (Diff.read (String.ofList text)).map _ = _
  rw [hread, List.flatMap_singleton, Except.map, Diff.FileChange.flatMap_summaries]

theorem ToldByMercurial.diff (h : f.ToldByMercurial b w)
    (hn : (f.history true).get? i = some newer)
    (ho : (f.history true).get? (i + 1) = some older) :
    (b.repository w).diff newer older =
      .ok (if (f.diffs i).before.any (·.usurps (f.diffs i).path) then []
        else (f.diffs i).own.hunks) := by
  obtain ⟨text, stderr, hdiff, hread⟩ := Told.diff h hn ho
  have hpath := f.diffs_path i newer older hn ho
  rw [hdiff]
  change (Diff.read (String.ofList text)).map (Diff.hunksOf newer.path) = _
  rw [hread, Except.map, ← hpath, Diff.FileChange.hunksOf_changes (f.diffs i).before_other
    (f.diffs i).own_path (f.diffs i).own_remains (f.diffs i).after_other]

end

end FileRecord

theorem FileDiff.undisturbed_iff (d : FileDiff) :
    d.Undisturbed ↔ (if d.before.any (·.usurps d.path) then [] else d.own.hunks) = d.own.hunks := by
  unfold FileDiff.Undisturbed
  cases h : d.before.any (·.usurps d.path) with
  | true =>
    obtain ⟨c, hc, hu⟩ := List.any_eq_true.mp h
    simp only [if_true]
    constructor
    · rintro (hnil | hall)
      · exact hnil.symm
      · rw [hall c hc] at hu
        cases hu
    · intro hnil
      exact .inl hnil.symm
  | false =>
    rw [List.any_eq_false] at h
    simp only [Bool.false_eq_true, if_false, iff_true]
    exact .inr fun c hc => by simpa using h c hc

namespace FileRecord
variable {f : FileRecord} {b b' : Backend} {w w' : World}

/-- Git and Mercurial give the same history, follow renames or not, the same contents, and the same
hunks exactly if no other section disturbs the diff; then every survey is the same. -/
theorem git_and_mercurial_agree (h : f.ToldByGit b w) (h' : f.ToldByMercurial b' w') :
    (∀ follow, (b.repository w).enumerate f.newest.path follow = .ok (f.history follow) ∧
      (b'.repository w').enumerate f.newest.path follow = .ok (f.history follow)) ∧
    (∀ follow i e, (f.history follow).get? i = some e →
      (b.repository w).read e.path e.revision = .ok (String.ofList (f.contents i)) ∧
      (b'.repository w').read e.path e.revision = .ok (String.ofList (f.contents i))) ∧
    (∀ follow i newer older, (f.history follow).get? i = some newer →
      (f.history follow).get? (i + 1) = some older →
        (b.repository w).diff newer older = .ok (f.diffs i).own.hunks ∧
        ((b'.repository w').diff newer older = (b.repository w).diff newer older ↔
          (f.diffs i).Undisturbed)) ∧
    ∀ follow path, (b.repository w).relative path = .ok f.newest.path →
      (b'.repository w').relative path = .ok f.newest.path →
      (∀ i, i + 1 < (f.history follow).size → (f.diffs i).Undisturbed) →
        (b.repository w).survey path follow = (b'.repository w').survey path follow := by
  have hdiff : ∀ follow i newer older, (f.history follow).get? i = some newer →
      (f.history follow).get? (i + 1) = some older →
        (b.repository w).diff newer older = .ok (f.diffs i).own.hunks ∧
        ((b'.repository w').diff newer older = (b.repository w).diff newer older ↔
          (f.diffs i).Undisturbed) := by
    intro follow i newer older hn ho
    have hgit := h.diff (history_get? hn) (history_get? ho)
    have hhg := h'.diff (history_get? hn) (history_get? ho)
    refine ⟨hgit, ?_⟩
    rw [hgit, hhg, FileDiff.undisturbed_iff, Except.ok.injEq]
  refine ⟨fun follow => ⟨h.enumerate follow, h'.enumerate follow⟩, ?_, hdiff, ?_⟩
  · intro follow i e he
    exact ⟨Told.read h (history_get? he), Told.read h' (history_get? he)⟩
  · intro follow path hpath hpath' hquiet
    refine Repository.survey_congr hpath hpath' (h.enumerate follow) (h'.enumerate follow) ?_ ?_
    · intro tip htip
      have htip' : (f.history follow).get? 0 = some tip := by
        rw [FileHistory.get?, ← List.head?_eq_getElem?]
        exact htip
      rw [Told.read h (history_get? htip'), Told.read h' (history_get? htip')]
    · intro i newer older hn ho
      have hsize : i + 1 < (f.history follow).size := (List.getElem?_eq_some_iff.mp ho).1
      exact ((hdiff follow i newer older hn ho).2.mpr (hquiet i hsize)).symm

/-- A file that was renamed and edited at once. Its new name also stands at the end of that of an
empty file that was added. -/
def renamedFile : FileRecord where
  newest :=
    { id := "b1", path := ⟨"new.py"⟩, source? := some ⟨"old.py"⟩, score := ['9', '0']
      copiesBefore := [⟨⟨"x.py"⟩, ⟨"y.py"⟩⟩], copiesAfter := []
      id_ne_nil := by decide, id_hex := by decide, path_plain := by decide
      source_plain := by decide, score_digit := by decide, copies_plain := by decide
      copies_other := by decide }
  older :=
    [{ id := "a0", path := ⟨"old.py"⟩, source? := none, score := []
       copiesBefore := [], copiesAfter := []
       id_ne_nil := by decide, id_hex := by decide, path_plain := by decide
       source_plain := by decide, score_digit := by decide, copies_plain := by decide
       copies_other := by decide }]
  contents _ := "'d'".toList
  diffs _ :=
    { path := ⟨"new.py"⟩
      own :=
        { old := ⟨"old.py"⟩, new := ⟨"new.py"⟩, fate := .renamed, preface := []
          notes := ["index 1..2".toList]
          contents := .hunks none none
            [⟨"@@ -1 +1 @@".toList, ⟨1, 1, 1, 1⟩, ["-c".toList, "+d".toList], rfl,
              .removed _ (.added _ .nil)⟩]
          old_plain := by decide, new_plain := by decide, preface_notes := by decide
          notes_notes := by decide }
      before := []
      after :=
        [{ old := ⟨"lib b/new.py"⟩, new := ⟨"lib b/new.py"⟩, fate := .added " 100644".toList
           preface := [], notes := [], contents := .nothing
           old_plain := by decide, new_plain := by decide, preface_notes := by decide
           notes_notes := by decide }]
      own_path := by decide, own_remains := by decide, before_other := by decide
      after_other := by decide }
  linear := .newer (by decide) (.creation rfl)
  diffs_path := by
    intro i newer older hn ho
    match i with
    | 0 => cases hn; rfl
    | i + 1 => cases ho

/-- A world in which every command prints the log, the diff or the content. -/
def printingWorld (log diff content : List Char) : World where
  files := ⟨[], []⟩
  execute i :=
    .finished (some 0) ((if "log" ∈ i.arguments then log else if "diff" ∈ i.arguments then diff
      else content).map fun c => UInt8.ofNat c.toNat) []

theorem prints_printingWorld {log diff content text : List Char} {arguments : List String}
    (hnull : (((b.invocation arguments).executable.text ::
      (b.invocation arguments).arguments).any fun s => decide ('\x00' ∈ s.toList)) = false)
    (htext : (if "log" ∈ (b.invocation arguments).arguments then log
      else if "diff" ∈ (b.invocation arguments).arguments then diff else content) = text)
    (hdecode : Text.Utf8.decode (text.map fun c => UInt8.ofNat c.toNat) = text) :
    b.Prints (printingWorld log diff content) arguments text := by
  have hno : (b.invocation arguments).hasNull = false := by
    simpa [Invocation.hasNull] using hnull
  refine ⟨text.map fun c => UInt8.ofNat c.toNat, [], ?_, hdecode⟩
  rw [World.outcome, hno, if_neg (by simp)]
  simp only [printingWorld, htext]

def gitWorld : World :=
  printingWorld (Git.logText (renamedFile.newest :: renamedFile.older))
    (Diff.diffText [(renamedFile.diffs 0).own]) "'d'".toList

def mercurialWorld : World :=
  printingWorld (Mercurial.logText (renamedFile.newest :: renamedFile.older))
    (Diff.diffText ((renamedFile.diffs 0).own :: (renamedFile.diffs 0).after)) "'d'".toList

def gitBackend : Backend := ⟨⟨.git, ⟨"git"⟩, []⟩, ⟨"/r"⟩⟩

def mercurialBackend : Backend := ⟨⟨.mercurial, ⟨"hg"⟩, []⟩, ⟨"/r"⟩⟩

theorem toldByGit_renamedFile : renamedFile.ToldByGit gitBackend gitWorld := by
  constructor
  · rfl
  · exact prints_printingWorld (by decide) (by decide) (by decide +kernel)
  · intro i e he
    match i with
    | 0 => cases he; exact prints_printingWorld (by decide) (by decide) (by decide +kernel)
    | 1 => cases he; exact prints_printingWorld (by decide) (by decide) (by decide +kernel)
    | i + 2 => cases he
  · intro i newer older hn ho
    match i with
    | 0 =>
      cases hn
      cases ho
      exact ⟨_, prints_printingWorld (by decide) rfl (by decide +kernel),
        Diff.lines_diffText (by decide)⟩
    | i + 1 => cases ho

theorem toldByMercurial_renamedFile :
    renamedFile.ToldByMercurial mercurialBackend mercurialWorld := by
  constructor
  · rfl
  · exact prints_printingWorld (by decide) (by decide) (by decide +kernel)
  · intro i e he
    match i with
    | 0 => cases he; exact prints_printingWorld (by decide) (by decide) (by decide +kernel)
    | 1 => cases he; exact prints_printingWorld (by decide) (by decide) (by decide +kernel)
    | i + 2 => cases he
  · intro i newer older hn ho
    match i with
    | 0 =>
      cases hn
      cases ho
      exact ⟨_, prints_printingWorld (by decide) rfl (by decide +kernel),
        Diff.lines_diffText (by decide)⟩
    | i + 1 => cases ho

/-- The section of the empty file stands behind the one that counts, so it does no harm. -/
theorem git_and_mercurial_agree_renamedFile :
    renamedFile.ToldByGit gitBackend gitWorld ∧
      renamedFile.ToldByMercurial mercurialBackend mercurialWorld ∧
      (gitBackend.repository gitWorld).enumerate ⟨"new.py"⟩ true =
        (mercurialBackend.repository mercurialWorld).enumerate ⟨"new.py"⟩ true ∧
      ∀ newer older, (renamedFile.history true).get? 0 = some newer →
        (renamedFile.history true).get? 1 = some older →
          (gitBackend.repository gitWorld).diff newer older = .ok [⟨1, 1, 1, 1⟩] ∧
          (mercurialBackend.repository mercurialWorld).diff newer older = .ok [⟨1, 1, 1, 1⟩] := by
  obtain ⟨hlog, -, hdiff, -⟩ :=
    git_and_mercurial_agree toldByGit_renamedFile toldByMercurial_renamedFile
  refine ⟨toldByGit_renamedFile, toldByMercurial_renamedFile, ?_, fun newer older hn ho => ?_⟩
  · exact (hlog true).1.trans (hlog true).2.symm
  · obtain ⟨hgit, hsame⟩ := hdiff true 0 newer older hn ho
    have hmercurial := hsame.mpr (.inr fun c hc => by cases hc)
    exact ⟨hgit, hmercurial.trans hgit⟩

end FileRecord

end DocDrift
