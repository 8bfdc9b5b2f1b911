import DocDrift.Main
import DocDrift.Proofs.Diff.Change
import DocDrift.Proofs.Diff.Choice
import DocDrift.Proofs.Diff.Header
import DocDrift.Proofs.History.Comparison
import DocDrift.Proofs.History.Congruence
import DocDrift.Proofs.History.Content
import DocDrift.Proofs.History.Nesting
import DocDrift.Proofs.History.Staleness
import DocDrift.Proofs.History.Statistic
import DocDrift.Proofs.History.Trace
import DocDrift.Proofs.Lines.Retrace
import DocDrift.Proofs.Lines.Script
import DocDrift.Proofs.Path
import DocDrift.Proofs.Text.Pieces
import DocDrift.Proofs.Vcs.Agreement
import DocDrift.Proofs.Vcs.GitLog
import DocDrift.Proofs.Vcs.MercurialLog
import DocDrift.Proofs.Vcs.Timeline
import DocDrift.Proofs.History.Session
import DocDrift.Proofs.History.Consistency
import DocDrift.Proofs.History.Cut
import DocDrift.Proofs.Vcs.FirstRename
import DocDrift.Proofs.Diff.Numbers
import DocDrift.Proofs.Diff.Patch
import DocDrift.Proofs.History.Questions
import DocDrift.Proofs.Source.Definitions
import DocDrift.Proofs.Check.Completion
import DocDrift.Proofs.Vcs.Crash
import DocDrift.Proofs.History.Limits
import DocDrift.Proofs.Lines.Ancestors
import DocDrift.Proofs.Source.Layout
import DocDrift.Proofs.Json.Scalars
import DocDrift.Proofs.Json.Records
import DocDrift.Proofs.Report.ReadBack
import DocDrift.Proofs.Vcs.Sighting
import DocDrift.Proofs.Diff.Accounting
import DocDrift.Proofs.Diff.Concatenation
import DocDrift.Proofs.Diff.Plain
import DocDrift.Proofs.Vcs.StatusLines
import DocDrift.Proofs.Report.Outdated
import DocDrift.Proofs.Report.Age
import DocDrift.Proofs.Source.Docstrings
import DocDrift.Proofs.Lines.Words
import DocDrift.Proofs.Diff.LineFields
import DocDrift.Proofs.Diff.AbsentSides
