import DocDrift.Config
import DocDrift.Json.Codec
import DocDrift.Report.Format

/-!
# JSON forms

How the types of the program are written and read.
-/

namespace DocDrift

open Json

namespace Json.Codec

def line : Codec Nat := .natural maxLine "u32"

def count : Codec Nat := .natural maxCount "usize"

def path : Codec Path := ⟨fun p => .string p.text, do return ⟨← Reader.string "path string"⟩⟩

end Json.Codec

def UnitKind.codec : Codec UnitKind :=
  .choice UnitKind.name
    [("module", .module), ("class", .classBlock), ("function", .function), ("method", .method)]

def VcsKind.codec : Codec VcsKind :=
  .choice VcsKind.name [("git", .git), ("hg", .mercurial), ("mercurial", .mercurial)]

def OutputFormat.codec : Codec OutputFormat :=
  .choice OutputFormat.name [("text", .text), ("json", .json), ("lint", .lint)]

def Revision.codec : Codec Revision :=
  .record "struct Revision" false
    (.field "id" .string none (.field "isTip" .bool none .done))
    (fun f => ⟨f.1, f.2.1⟩) (fun r => (r.id, r.isTip, ()))

def HistoryEntry.codec : Codec HistoryEntry :=
  .record "struct HistoryEntry" false
    (.field "revision" Revision.codec none (.field "path" .path none
      (.field "crossedRename" .bool none .done)))
    (fun f => ⟨f.1, f.2.1, f.2.2.1⟩) (fun e => (e.revision, e.path, e.crossedRename, ()))

def LineRange.codec : Codec LineRange :=
  .record "struct LineRange" false
    (.field "start" .line none (.field "end" .line none .done))
    (fun f => ⟨f.1, f.2.1⟩) (fun r => (r.first, r.last, ()))

def Hunk.codec : Codec Hunk :=
  .record "struct Hunk" false
    (.field "oldStart" .line none (.field "oldLen" .line none
      (.field "newStart" .line none (.field "newLen" .line none .done))))
    (fun f => ⟨f.1, f.2.1, f.2.2.1, f.2.2.2.1⟩)
    (fun h => (h.oldStart, h.oldLength, h.newStart, h.newLength, ()))

def DocumentedUnit.codec : Codec DocumentedUnit :=
  .record "struct DocumentedUnit" false
    (.field "qualifiedName" .string none (.field "kind" UnitKind.codec none
      (.field "docRange" LineRange.codec none (.field "bodyRange" LineRange.codec none .done))))
    (fun f => ⟨f.1, f.2.1, f.2.2.1, f.2.2.2.1⟩)
    (fun u => (u.qualifiedName, u.kind, u.docRange, u.bodyRange, ()))

def UnitStatistic.codec : Codec UnitStatistic :=
  .record "struct UnitStatistic" false
    (.field "unit" DocumentedUnit.codec none (.field "lastDocRevision" Revision.codec none
      (.field "lastDocRevisionAge" .count none (.field "changesSinceCount" .count none
        (.field "truncatedByRename" .bool none .done)))))
    (fun f => ⟨f.1, f.2.1, f.2.2.1, f.2.2.2.1, f.2.2.2.2.1⟩)
    (fun s => (s.unit, s.lastDocRevision, s.lastDocRevisionAge, s.changesSinceCount,
      s.truncatedByRename, ()))

def FileAnalysis.codec : Codec FileAnalysis :=
  .record "struct FileAnalysis" false
    (.field "path" .path none (.field "revisions" .count none
      (.field "units" (.list UnitStatistic.codec) none .done)))
    (fun f => ⟨f.1, f.2.1, f.2.2.1⟩) (fun a => (a.path, a.revisions, a.units, ()))

def ExecutableConfig.codec : Codec ExecutableConfig :=
  .record "struct ExecutableConfig" true (.field "executable" .path none .done)
    (fun f => ⟨f.1⟩) (fun c => (c.executable, ()))

def Config.codec : Codec Config :=
  let d : Config := {}
  .record "struct DocsweepConfig" true
    (.field "vcs" VcsKind.codec (some d.vcs) (.field "follow_rename" .bool (some d.followRename)
      (.field "max_changes" .count (some d.maxChanges)
        (.field "jobs" (.optional .count) (some d.jobs)
          (.field "git" ExecutableConfig.codec (some d.git)
            (.field "hg" ExecutableConfig.codec (some d.hg) .done))))))
    (fun f => ⟨f.1, f.2.1, f.2.2.1, f.2.2.2.1, f.2.2.2.2.1, f.2.2.2.2.2.1⟩)
    (fun c => (c.vcs, c.followRename, c.maxChanges, c.jobs, c.git, c.hg, ()))

end DocDrift
