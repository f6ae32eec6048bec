/-!
# Sets of characters given by ranges

A property of characters that a standard defines by a table is kept as the list of its ranges, in
increasing order. `Ranges.mem` asks whether a code point lies in one of them.
-/

namespace Assessment.Text

/-- Ranges of code points, first and last, in increasing order. -/
abbrev Ranges := List (Nat × Nat)

/-- Some range holds the code point `n`. -/
def Ranges.mem (ranges : Ranges) (n : Nat) : Bool :=
  ranges.any fun range => range.1 ≤ n && n ≤ range.2

/-- A code point is in the ranges exactly when one of them encloses it. -/
theorem Ranges.mem_iff {ranges : Ranges} {n : Nat} :
    ranges.mem n = true ↔ ∃ range ∈ ranges, range.1 ≤ n ∧ n ≤ range.2 := by
  simp [Ranges.mem]

end Assessment.Text
