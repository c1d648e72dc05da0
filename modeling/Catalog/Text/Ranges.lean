/-!
Sets of characters given by ascending ranges of code points.
-/
namespace Catalog.Text

/-- Ranges of code points, both ends included. -/
abbrev Ranges := Array (Nat × Nat)

namespace Ranges

def contains (r : Ranges) (c : Char) : Bool :=
  r.any fun (low, high) => low ≤ c.toNat && c.toNat ≤ high

theorem contains_iff {r : Ranges} {c : Char} :
    r.contains c = true ↔ ∃ p ∈ r, p.1 ≤ c.toNat ∧ c.toNat ≤ p.2 := by
  simp only [contains, Array.any_eq_true, Array.mem_iff_getElem, Bool.and_eq_true, decide_eq_true_eq]
  constructor
  · rintro ⟨i, hi, h⟩
    exact ⟨r[i], ⟨i, hi, rfl⟩, h⟩
  · rintro ⟨p, ⟨i, hi, e⟩, h⟩
    exact ⟨i, hi, by simpa [e] using h⟩

end Ranges

end Catalog.Text
