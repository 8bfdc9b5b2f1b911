import DocDrift.Path
import DocDrift.Proofs.Text.Pieces

/-!
# Plain paths

Names of files that logs and diffs write as they are.
-/

namespace DocDrift.Path

/-- Whether the character stands for itself: it is not below the space, and no quote. -/
def isPrinted (c : Char) : Bool := 32 ≤ c.toNat && c != '"'

/-- The path stands for itself, without blanks at its ends. -/
structure Plain (p : Path) : Prop where
  printed : p.text.toList.all isPrinted = true
  trimmed : Text.Trimmed p.text.toList

instance (p : Path) : Decidable p.Plain :=
  decidable_of_iff (p.text.toList.all isPrinted = true ∧ Text.Trimmed p.text.toList)
    ⟨fun h => ⟨h.1, h.2⟩, fun h => ⟨h.printed, h.trimmed⟩⟩

theorem Plain.not_mem {p : Path} (h : p.Plain) {c : Char} (hc : c.toNat < 32) :
    c ∉ p.text.toList := by
  intro hmem
  have hprinted := List.all_eq_true.mp h.printed c hmem
  simp only [isPrinted, Bool.and_eq_true, decide_eq_true_eq] at hprinted
  omega

theorem Plain.quote_not_mem {p : Path} (h : p.Plain) : '"' ∉ p.text.toList := by
  intro hmem
  exact absurd (List.all_eq_true.mp h.printed _ hmem) (by decide)

/-- The path has none of the characters for which a diff would put it in quotes or cut it off. -/
def Verbatim (p : Path) : Prop :=
  ∀ c ∈ p.text.toList, c ≠ '\t' ∧ c ≠ '\n' ∧ c ≠ '\r' ∧ c ≠ '"'

instance (p : Path) : Decidable p.Verbatim :=
  List.decidableBAll (fun c => c ≠ '\t' ∧ c ≠ '\n' ∧ c ≠ '\r' ∧ c ≠ '"') p.text.toList

theorem Verbatim.tab_not_mem {p : Path} (h : p.Verbatim) : '\t' ∉ p.text.toList :=
  fun hmem => (h _ hmem).1 rfl

theorem Verbatim.quote_not_mem {p : Path} (h : p.Verbatim) : '"' ∉ p.text.toList :=
  fun hmem => (h _ hmem).2.2.2 rfl

theorem Verbatim.closed {p : Path} (h : p.Verbatim) :
    '\n' ∉ p.text.toList ∧ '\r' ∉ p.text.toList :=
  ⟨fun hmem => (h _ hmem).2.1 rfl, fun hmem => (h _ hmem).2.2.1 rfl⟩

theorem Plain.verbatim {p : Path} (h : p.Plain) : p.Verbatim := by
  intro c hc
  have hlow : ∀ d : Char, d.toNat < 32 → c ≠ d := by
    rintro d hd rfl
    exact h.not_mem hd hc
  refine ⟨hlow _ (by decide), hlow _ (by decide), hlow _ (by decide), ?_⟩
  rintro rfl
  exact h.quote_not_mem hc

@[simp] theorem ofList_toList (p : Path) : Path.mk (String.ofList p.text.toList) = p := by
  rw [String.ofList_toList]

theorem same_iff {p q : Path} : p.same q = true ↔ p.components = q.components := beq_iff_eq

@[simp] theorem same_refl (p : Path) : p.same p = true := by
  simp [same]

end DocDrift.Path
