/-!
# Whole numbers in decimal

The text of a whole number: its decimal digits, after a minus sign if it is below zero.
-/

namespace Assessment.Number

/-- The decimal digits of a natural number. -/
def decimal (n : Nat) : List Char := Nat.toDigits 10 n

/-- The text of a whole number. -/
def signed : Int → List Char
  | .ofNat n => decimal n
  | .negSucc n => '-' :: decimal (n + 1)

theorem signed_natCast (n : Nat) : signed (n : Int) = decimal n := rfl

theorem signed_neg {n : Nat} (h : 0 < n) : signed (-(n : Int)) = '-' :: decimal n := by
  obtain ⟨m, rfl⟩ : ∃ m, n = m + 1 := ⟨n - 1, by omega⟩
  rfl

end Assessment.Number
