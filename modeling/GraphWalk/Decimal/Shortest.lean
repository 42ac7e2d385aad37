/-!
# The fewest digits that read back

A finite positive binary64 number is `m * 2 ^ q`. The reals that round to it form an interval
around it, which contains its ends exactly when `m` is even. For one digit, two digits and so
on the two neighbours of the number on that decimal grid are tested against the interval in
exact arithmetic; the first grid with a hit wins, and of two hits the nearer one.
-/

namespace GraphWalk.Decimal

/-- The number `digits * 10 ^ exponent`. -/
structure Expansion where
  digits : Nat
  exponent : Int
  deriving DecidableEq

/-- A finite positive number of the binary64 format, `mantissa * 2 ^ exponent`. The interval
below it is half as wide as the one above when the mantissa is the least of its binade. -/
structure Binary where
  mantissa : Nat
  exponent : Int
  atBinadeStart : Bool
  deriving DecidableEq

/-- The parts of a float's magnitude; zero has mantissa zero. -/
def Binary.ofFloat (x : Float) : Binary :=
  let bits := x.toBits.toNat
  let fraction : Nat := bits % 0x10000000000000
  let biased : Nat := bits / 0x10000000000000 % 0x800
  if biased = 0 then ⟨fraction, -1074, false⟩
  else ⟨fraction + 0x10000000000000, (biased : Int) - 1075, fraction = 0 ∧ 1 < biased⟩

/-- Two factors `(up, down)` that stand in the proportion `2 ^ e : 10 ^ g`. -/
def proportion (e g : Int) : Nat × Nat :=
  (Nat.pow 2 e.toNat * Nat.pow 10 (-g).toNat, Nat.pow 2 (-e).toNat * Nat.pow 10 g.toNat)

namespace Binary

/-- The decimal exponent of the leading digit. -/
def magnitude (b : Binary) : Int :=
  -- The quotient is a little below the decimal logarithm of two: the guess is at most one off.
  let guess := (b.mantissa.log2 + b.exponent) * 1233 / 4096
  let reaches (g : Int) : Bool :=
    let (up, down) := proportion b.exponent g
    down ≤ b.mantissa * up
  if reaches (guess + 1) then guess + 1 else if reaches guess then guess else guess - 1

/-- The hit on the grid of multiples of `10 ^ grid`. Lengths are counted in quarters of the
last binary place, so that the interval's ends are whole. -/
def nearest? (b : Binary) (grid : Int) : Option Nat :=
  let (up, down) := proportion (b.exponent - 2) grid
  let value := 4 * b.mantissa * up
  let low := (4 * b.mantissa - if b.atBinadeStart then 1 else 2) * up
  let high := (4 * b.mantissa + 2) * up
  -- A tie between two floats goes to the even mantissa.
  let within (n : Nat) : Bool :=
    if b.mantissa % 2 = 0 then low ≤ n * down ∧ n * down ≤ high
    else low < n * down ∧ n * down < high
  let floor := value / down
  let below := value - floor * down
  let above := (floor + 1) * down - value
  match within floor, within (floor + 1) with
  | false, false => none
  | true, false => some floor
  | false, true => some (floor + 1)
  | true, true =>
    if below < above then some floor
    else if above < below then some (floor + 1)
    else some (if floor % 2 = 0 then floor else floor + 1)

/-- Seventeen digits always suffice, so the grid for them serves as the last resort. -/
def search (b : Binary) (magnitude : Int) : Nat → Nat → Expansion
  | _, 0 => ⟨0, 0⟩
  | places, more + 1 =>
    match b.nearest? (magnitude - places) with
    | some n => ⟨n, magnitude - places⟩
    | none => search b magnitude (places + 1) more

end Binary

namespace Expansion

def dropZeros (x : Expansion) : Nat → Expansion
  | 0 => x
  | more + 1 =>
    if x.digits ≠ 0 ∧ x.digits % 10 = 0 then
      dropZeros ⟨x.digits / 10, x.exponent + 1⟩ more
    else x

/-- The shortest expansion of a float's magnitude, without trailing zeros. -/
def ofFloat (x : Float) : Expansion :=
  let b := Binary.ofFloat x
  if b.mantissa = 0 then ⟨0, 0⟩ else (b.search b.magnitude 0 18).dropZeros 18

end Expansion

end GraphWalk.Decimal
