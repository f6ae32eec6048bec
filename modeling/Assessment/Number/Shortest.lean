/-!
# The fewest digits that read back

A finite number is `m * 2 ^ q`. Among the decimals that are nearer to it than to any other number
there are some with fewest digits, and of those one that is nearest to it: that one is its text.

The search is exact, over the natural numbers. For one digit, two digits and so on up to seventeen it
looks at the two neighbours of the number on that decimal grid and asks whether they lie in the
interval of reals that round to the number. The ends of the interval belong to it exactly when `m` is
even, because a tie rounds to the even neighbour.
-/

namespace Assessment.Number

/-- What the bits of a number say. -/
inductive Reading where
  /-- No number. -/
  | nan
  /-- An infinity, negative if the flag is set. -/
  | infinite (negative : Bool)
  /-- The number `m * 2 ^ q`, negative if the flag is set. -/
  | finite (negative : Bool) (m : Nat) (q : Int)

/-- Reads the sign, the exponent and the mantissa of a number off its bits. -/
def Reading.ofFloat (x : Float) : Reading :=
  let bits : Nat := x.toBits.toNat
  let negative := bits / Nat.pow 2 63 % 2 == 1
  let exponent : Nat := bits / Nat.pow 2 52 % Nat.pow 2 11
  let mantissa : Nat := bits % Nat.pow 2 52
  if exponent = 2047 then
    if mantissa = 0 then .infinite negative else .nan
  else if exponent = 0 then .finite negative mantissa (-1074)
  else .finite negative (Nat.pow 2 52 + mantissa) ((exponent : Int) - 1075)

/-- A number and the interval of reals that round to it, over one denominator. -/
structure Target where
  /-- The numerator of the number. -/
  value : Nat
  /-- The numerator of the lower end of the interval. -/
  low : Nat
  /-- The numerator of the upper end of the interval. -/
  high : Nat
  /-- The denominator of all three. -/
  den : Nat
  /-- The ends belong to the interval. -/
  closed : Bool

/-- The interval of `m * 2 ^ q`. Below a power of two the neighbours are twice as close. -/
def Target.of (m : Nat) (q : Int) : Target :=
  let scale := Nat.pow 2 (q - 2).toNat
  { value := 4 * m * scale
    low := (if m = Nat.pow 2 52 && q != -1074 then 4 * m - 1 else 4 * m - 2) * scale
    high := (4 * m + 2) * scale
    den := Nat.pow 2 (2 - q).toNat
    closed := m % 2 == 0 }

/-- The decimal `n * 10 ^ k` rounds to the number. -/
def Target.admits (t : Target) (n : Nat) (k : Int) : Bool :=
  let point := n * Nat.pow 10 k.toNat * t.den
  let up := Nat.pow 10 (-k).toNat
  if t.closed then t.low * up ≤ point && point ≤ t.high * up
  else t.low * up < point && point < t.high * up

/-- The grid point `n * 10 ^ k` just below the number, and the doubled rest in units of the grid, as a
comparison with one half. -/
def Target.below (t : Target) (k : Int) : Nat × Ordering :=
  let num := t.value * Nat.pow 10 (-k).toNat
  let den := t.den * Nat.pow 10 k.toNat
  (num / den, compare (2 * (num % den)) den)

/-- The nearest admitted neighbour of the number on the grid of multiples of `10 ^ k`. Of two that
are equally near the even one wins. -/
def Target.neighbour? (t : Target) (k : Int) : Option Nat :=
  let (n, rest) := t.below k
  match t.admits n k, t.admits (n + 1) k with
  | true, true =>
    match rest with
    | .lt => some n
    | .gt => some (n + 1)
    | .eq => some (if n % 2 = 0 then n else n + 1)
  | true, false => some n
  | false, true => some (n + 1)
  | false, false => none

/-- The power of ten just above the number: `10 ^ (p - 1) ≤ value < 10 ^ p`, looked for downwards
from `p`. -/
def Target.magnitude (t : Target) : Nat → Int → Int
  | 0, p => p
  | fuel + 1, p =>
    if t.den * Nat.pow 10 (p - 1).toNat ≤ t.value * Nat.pow 10 (1 - p).toNat then p
    else t.magnitude fuel (p - 1)

/-- The first grid, from coarse to fine, that has an admitted neighbour. The grid of one digit has
the step `10 ^ k`. -/
def Target.search (t : Target) : Nat → Int → Nat × Int
  | 0, k => ((t.below k).1, k)
  | fuel + 1, k =>
    match t.neighbour? k with
    | some n => (n, k)
    | none => t.search fuel (k - 1)

/-- The fewest digits `n`, and the power of ten they count, of the positive number `m * 2 ^ q`. -/
def shortest (m : Nat) (q : Int) : Nat × Int :=
  let t := Target.of m q
  t.search 17 (t.magnitude 700 310 - 1)

end Assessment.Number
