import Assessment.Number.Decimal
import Assessment.Number.Shortest

/-!
# The text of a number

Where the point stands, when an exponent is written and what the special values are called. The
choices are one record, `Layout`; `points` is the layout of scores.
-/

namespace Assessment.Number

/-- How digits are laid out. -/
structure Layout where
  /-- The least position of the point, counted from the first digit, without an exponent. -/
  lowest : Int
  /-- The greatest position of the point without an exponent. -/
  highest : Int
  /-- The least number of digits of an exponent. -/
  exponentWidth : Nat

/-- Scores from a ten-thousandth up to sixteen digits stand without an exponent, and an exponent has
a sign and at least two digits. -/
def points : Layout := ⟨-3, 16, 2⟩

/-- The decimal digits of `n` without the zeros at the end, and how many zeros were left out. -/
def significant (n : Nat) : List Char × Nat :=
  let digits := (decimal n).reverse
  let zeros := digits.takeWhile (· == '0')
  ((digits.dropWhile (· == '0')).reverse, zeros.length)

/-- An exponent with its sign. -/
def exponentText (width : Nat) (e : Int) : List Char :=
  let digits := decimal e.natAbs
  'e' :: (if e < 0 then '-' else '+') :: (List.replicate (width - digits.length) '0' ++ digits)

/-- Digits with the point after the first `point` of them. -/
def Layout.place (layout : Layout) (digits : List Char) (point : Int) : List Char :=
  if layout.lowest ≤ point && point ≤ layout.highest then
    if point ≤ 0 then
      "0.".toList ++ List.replicate (-point).toNat '0' ++ digits
    else
      let whole := digits.take point.toNat
      let rest := digits.drop point.toNat
      whole ++ List.replicate (point.toNat - whole.length) '0' ++ '.' ::
        (if rest.isEmpty then ['0'] else rest)
  else
    match digits with
    | [] => exponentText layout.exponentWidth (point - 1)
    | [d] => d :: exponentText layout.exponentWidth (point - 1)
    | d :: rest => d :: '.' :: rest ++ exponentText layout.exponentWidth (point - 1)

/-- The text of a number. -/
def Layout.render (layout : Layout) (x : Float) : List Char :=
  match Reading.ofFloat x with
  | .nan => "nan".toList
  | .infinite negative => if negative then "-inf".toList else "inf".toList
  | .finite negative m q =>
    let sign := if negative then ['-'] else []
    if m = 0 then sign ++ "0.0".toList
    else
      let (n, k) := shortest m q
      let (digits, dropped) := significant n
      sign ++ layout.place digits (digits.length + dropped + k)

end Assessment.Number
