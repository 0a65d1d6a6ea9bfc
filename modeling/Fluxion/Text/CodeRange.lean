/-
# Sets of characters as ranges of code points

A character property is a union of ranges.  The tables that use it list their ranges in
ascending order, so a range can be read off a table of the standard line by line.
-/
namespace Fluxion.Text

/-- A union of ranges of code points, both ends included. -/
abbrev CodeRanges := List (Nat × Nat)

namespace CodeRanges

/-- The character lies in one of the ranges. -/
def contains (rs : CodeRanges) (c : Char) : Bool :=
  rs.any fun r => r.1 ≤ c.toNat && c.toNat ≤ r.2

theorem contains_iff {rs : CodeRanges} {c : Char} :
    rs.contains c = true ↔ ∃ r ∈ rs, r.1 ≤ c.toNat ∧ c.toNat ≤ r.2 := by
  simp [contains]

end CodeRanges

end Fluxion.Text
