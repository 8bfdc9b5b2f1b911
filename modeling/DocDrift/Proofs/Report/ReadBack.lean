import DocDrift.Proofs.Diff.Patch
import DocDrift.Proofs.Json.Records
import DocDrift.Report.Render

/-!
# Reports read back

The report in JSON holds everything that a run has found: whoever reads it gets the same list of
analyses. So it is with all types that have a form in JSON. Strings may hold any characters; numbers
have to fit their fields, which those of the program always do.
-/

namespace DocDrift

open Json (Codec Layout)

/-! ## Numbers that fit their fields -/

def LineRange.Fits (r : LineRange) : Prop := r.first ≤ maxLine ∧ r.last ≤ maxLine

def DocumentedUnit.Fits (u : DocumentedUnit) : Prop := u.docRange.Fits ∧ u.bodyRange.Fits

def UnitStatistic.Fits (s : UnitStatistic) : Prop :=
  s.unit.Fits ∧ s.lastDocRevisionAge ≤ maxCount ∧ s.changesSinceCount ≤ maxCount

def FileAnalysis.Fits (a : FileAnalysis) : Prop :=
  a.revisions ≤ maxCount ∧ ∀ s ∈ a.units, s.Fits

def Config.Fits (c : Config) : Prop := c.maxChanges ≤ maxCount ∧ ∀ n ∈ c.jobs, n ≤ maxCount

instance (r : LineRange) : Decidable r.Fits := inferInstanceAs (Decidable (_ ∧ _))

instance (h : Hunk) : Decidable h.Fits := inferInstanceAs (Decidable (_ ∧ _ ∧ _ ∧ _))

instance (u : DocumentedUnit) : Decidable u.Fits := inferInstanceAs (Decidable (_ ∧ _))

instance (s : UnitStatistic) : Decidable s.Fits := inferInstanceAs (Decidable (_ ∧ _ ∧ _))

instance (a : FileAnalysis) : Decidable a.Fits := inferInstanceAs (Decidable (_ ∧ _))

instance (c : Config) : Decidable c.Fits := inferInstanceAs (Decidable (_ ∧ _))

/-! ## The forms -/

theorem maxLine_le_largest64 : maxLine ≤ Json.Reader.largest64 := by decide

theorem maxCount_le_largest64 : maxCount ≤ Json.Reader.largest64 := by decide

namespace Json.Codec

theorem line_recovers {n : Nat} (h : n ≤ maxLine) : Codec.line.Recovers n :=
  natural_recovers "u32" h maxLine_le_largest64

theorem count_recovers {n : Nat} (h : n ≤ maxCount) : Codec.count.Recovers n :=
  natural_recovers "usize" h maxCount_le_largest64

theorem path_recovers (p : Path) : Codec.path.Recovers p :=
  fun l depth blanks s hb hs =>
    Reader.bind_ok (reads_string "path string" p.text l depth blanks s hb hs)

end Json.Codec

open Json.Codec

theorem UnitKind.codec_recovers (k : UnitKind) : UnitKind.codec.Recovers k :=
  choice_recovers (by cases k <;> rfl)

theorem VcsKind.codec_recovers (k : VcsKind) : VcsKind.codec.Recovers k :=
  choice_recovers (by cases k <;> rfl)

theorem OutputFormat.codec_recovers (f : OutputFormat) : OutputFormat.codec.Recovers f :=
  choice_recovers (by cases f <;> rfl)

theorem Revision.codec_recovers (r : Revision) : Revision.codec.Recovers r := by
  apply record_recovers (by decide) _ rfl
  exact ⟨string_recovers r.id, bool_recovers r.isTip, trivial⟩

example : Revision.codec.encode .compact ⟨"a\"\x01", true⟩ =
    "\x7b\"id\":\"a\\\"\\u0001\",\"isTip\":true\x7d" := by
  decide +kernel

theorem HistoryEntry.codec_recovers (e : HistoryEntry) : HistoryEntry.codec.Recovers e := by
  apply record_recovers (by decide) _ rfl
  exact ⟨e.revision.codec_recovers, path_recovers e.path, bool_recovers e.crossedRename, trivial⟩

theorem LineRange.codec_recovers {r : LineRange} (h : r.Fits) : LineRange.codec.Recovers r := by
  apply record_recovers (by decide) _ rfl
  exact ⟨line_recovers h.1, line_recovers h.2, trivial⟩

theorem Hunk.codec_recovers {h : Hunk} (hfits : h.Fits) : Hunk.codec.Recovers h := by
  obtain ⟨holdStart, holdLength, hnewStart, hnewLength⟩ := hfits
  apply record_recovers (by decide) _ rfl
  exact ⟨line_recovers holdStart, line_recovers holdLength, line_recovers hnewStart,
    line_recovers hnewLength, trivial⟩

theorem DocumentedUnit.codec_recovers {u : DocumentedUnit} (h : u.Fits) :
    DocumentedUnit.codec.Recovers u := by
  apply record_recovers (by decide) _ rfl
  exact ⟨string_recovers u.qualifiedName, u.kind.codec_recovers, LineRange.codec_recovers h.1,
    LineRange.codec_recovers h.2, trivial⟩

theorem UnitStatistic.codec_recovers {s : UnitStatistic} (h : s.Fits) :
    UnitStatistic.codec.Recovers s := by
  obtain ⟨hunit, hage, hcount⟩ := h
  apply record_recovers (by decide) _ rfl
  exact ⟨DocumentedUnit.codec_recovers hunit, s.lastDocRevision.codec_recovers,
    count_recovers hage, count_recovers hcount, bool_recovers s.truncatedByRename, trivial⟩

theorem FileAnalysis.codec_recovers {a : FileAnalysis} (h : a.Fits) :
    FileAnalysis.codec.Recovers a := by
  obtain ⟨hrevisions, hunits⟩ := h
  apply record_recovers (by decide) _ rfl
  exact ⟨path_recovers a.path, count_recovers hrevisions,
    list_recovers fun s hs => UnitStatistic.codec_recovers (hunits s hs), trivial⟩

theorem ExecutableConfig.codec_recovers (c : ExecutableConfig) :
    ExecutableConfig.codec.Recovers c := by
  apply record_recovers (by decide) _ rfl
  exact ⟨path_recovers c.executable, trivial⟩

theorem Config.codec_recovers {c : Config} (h : c.Fits) : Config.codec.Recovers c := by
  obtain ⟨hchanges, hjobs⟩ := h
  apply record_recovers (by decide) _ rfl
  exact ⟨c.vcs.codec_recovers, bool_recovers c.followRename, count_recovers hchanges,
    optional_recovers fun n hn => ⟨nofun, count_recovers (hjobs n hn)⟩,
    c.git.codec_recovers, c.hg.codec_recovers, trivial⟩

/-! ## The report -/

namespace Report

/-- The line feed behind the list does no harm. -/
theorem decode_render {analyses : List FileAnalysis} (maxChanges : Nat)
    (h : ∀ a ∈ analyses, a.Fits) :
    (Codec.list FileAnalysis.codec).decode (render .json maxChanges analyses) = .ok analyses := by
  have hlist : (Codec.list FileAnalysis.codec).Recovers analyses :=
    list_recovers fun a ha => FileAnalysis.codec_recovers (h a ha)
  have hfeed : Json.Reader.Blanks ['\n'] := by decide
  apply decode_of_recovers hlist .indented hfeed
  simp [render, Codec.encode, Json.render]

/-- The report in JSON is read as the analyses that were reported, and so is every form of every
type as the value that was written. -/
theorem json_read_back :
    (∀ (maxChanges : Nat) (analyses : List FileAnalysis), (∀ a ∈ analyses, a.Fits) →
      (Codec.list FileAnalysis.codec).decode (render .json maxChanges analyses) = .ok analyses) ∧
    ∀ l : Layout,
      (∀ r, Revision.codec.decode (Revision.codec.encode l r) = .ok r) ∧
      (∀ e, HistoryEntry.codec.decode (HistoryEntry.codec.encode l e) = .ok e) ∧
      (∀ r : LineRange, r.Fits → LineRange.codec.decode (LineRange.codec.encode l r) = .ok r) ∧
      (∀ h : Hunk, h.Fits → Hunk.codec.decode (Hunk.codec.encode l h) = .ok h) ∧
      (∀ k, UnitKind.codec.decode (UnitKind.codec.encode l k) = .ok k) ∧
      (∀ u : DocumentedUnit, u.Fits →
        DocumentedUnit.codec.decode (DocumentedUnit.codec.encode l u) = .ok u) ∧
      (∀ s : UnitStatistic, s.Fits →
        UnitStatistic.codec.decode (UnitStatistic.codec.encode l s) = .ok s) ∧
      (∀ a : FileAnalysis, a.Fits →
        FileAnalysis.codec.decode (FileAnalysis.codec.encode l a) = .ok a) ∧
      (∀ k, VcsKind.codec.decode (VcsKind.codec.encode l k) = .ok k) ∧
      (∀ f, OutputFormat.codec.decode (OutputFormat.codec.encode l f) = .ok f) ∧
      (∀ c : Config, c.Fits → Config.codec.decode (Config.codec.encode l c) = .ok c) ∧
      (∀ c, ExecutableConfig.codec.decode (ExecutableConfig.codec.encode l c) = .ok c) := by
  constructor
  · intro maxChanges analyses h
    exact decode_render maxChanges h
  · intro l
    exact ⟨fun r => decode_encode r.codec_recovers l, fun e => decode_encode e.codec_recovers l,
      fun _ h => decode_encode (LineRange.codec_recovers h) l,
      fun _ h => decode_encode (Hunk.codec_recovers h) l,
      fun k => decode_encode k.codec_recovers l,
      fun _ h => decode_encode (DocumentedUnit.codec_recovers h) l,
      fun _ h => decode_encode (UnitStatistic.codec_recovers h) l,
      fun _ h => decode_encode (FileAnalysis.codec_recovers h) l,
      fun k => decode_encode k.codec_recovers l, fun f => decode_encode f.codec_recovers l,
      fun _ h => decode_encode (Config.codec_recovers h) l,
      fun c => decode_encode c.codec_recovers l⟩

/-- Names with quotes, backslashes, control characters and characters beyond the first plane, the
largest numbers, and a file without units. -/
def quirkyAnalyses : List FileAnalysis :=
  [⟨⟨"a \"b\"\\c\n.py"⟩, maxCount,
    [⟨⟨"\x01\t𝄞.f", .method, ⟨maxLine, 0⟩, ⟨1, maxLine⟩⟩, ⟨"\x7f/\"é", true⟩, maxCount, 0, true⟩,
      ⟨⟨"", .module, ⟨3, 3⟩, ⟨0, 7⟩⟩, ⟨"😀\\u0041", false⟩, 0, maxCount, false⟩]⟩,
    ⟨⟨""⟩, 0, []⟩]

theorem json_read_back_quirky :
    (∀ a ∈ quirkyAnalyses, a.Fits) ∧
    (Codec.list FileAnalysis.codec).decode (render .json 1 quirkyAnalyses) = .ok quirkyAnalyses ∧
    (∀ a ∈ quirkyAnalyses,
      FileAnalysis.codec.decode (FileAnalysis.codec.encode .compact a) = .ok a) ∧
    (∀ a ∈ quirkyAnalyses, ∀ s ∈ a.units,
      UnitStatistic.codec.decode (UnitStatistic.codec.encode .compact s) = .ok s ∧
      DocumentedUnit.codec.decode (DocumentedUnit.codec.encode .compact s.unit) = .ok s.unit) ∧
    LineRange.codec.decode (LineRange.codec.encode .compact ⟨0, maxLine⟩) = .ok ⟨0, maxLine⟩ ∧
    Hunk.codec.decode (Hunk.codec.encode .compact ⟨maxLine, 0, 1, 2⟩) =
      .ok ⟨maxLine, 0, 1, 2⟩ ∧
    Config.codec.decode (Config.codec.encode .compact { maxChanges := maxCount, jobs := some 4 }) =
      .ok { maxChanges := maxCount, jobs := some 4 } := by
  have hfits : ∀ a ∈ quirkyAnalyses, a.Fits := by decide
  have hunits : ∀ a ∈ quirkyAnalyses, ∀ s ∈ a.units, s.Fits := fun a ha => (hfits a ha).2
  obtain ⟨hreport, hforms⟩ := json_read_back
  obtain ⟨-, -, hrange, hhunk, -, hunit, hstatistic, hanalysis, -, -, hconfig, -⟩ :=
    hforms .compact
  exact ⟨hfits, hreport 1 quirkyAnalyses hfits, fun a ha => hanalysis a (hfits a ha),
    fun a ha s hs => ⟨hstatistic s (hunits a ha s hs), hunit s.unit (hunits a ha s hs).1⟩,
    hrange _ (by decide), hhunk _ (by decide), hconfig _ (by decide)⟩

end Report

end DocDrift
