import DocDrift.VcsKind

/-!
# Output formats
-/

namespace DocDrift

inductive OutputFormat where
  /-- A few lines for every unit. -/
  | text
  /-- All statistics for other programs. -/
  | json
  /-- One line for every unit whose documentation may be outdated. -/
  | lint
deriving DecidableEq, Repr, Inhabited

namespace OutputFormat

def name : OutputFormat → String
  | text => "text"
  | json => "json"
  | lint => "lint"

/-- The format of this name, whatever the case of its letters. -/
def ofName (s : String) : Except UnknownName OutputFormat :=
  match Text.lower s with
  | "text" => .ok text
  | "json" => .ok json
  | "lint" | "flake8" => .ok lint
  | name => .error ⟨"output format", name⟩

end OutputFormat

end DocDrift
