/-
# The shortest decimal text of a double

`Decimal.shortest` gives the decimal with the fewest digits among those that
read back as the same double, of those the nearest to it, and of two equally
near the one with an even last digit. It decodes the bits of the double into
`m * 2 ^ q` and tests the two neighbours of the value on the grids of 1, 2, …
17 digits, by exact comparison of natural numbers.

`Decimal.layout` writes such a decimal: positionally with a `.0` after a whole
number while its first digit stands for `10 ^ -5` to `10 ^ 15`, else with one
digit before the point and a signed exponent after `e`.

Not covered: infinities and NaN, which no JSON text holds.

Key definitions: `Decimal`, `Binary.ofBits`, `Binary.interval`, `Decimal.shortest`,
`Decimal.layout`, `Decimal.text`.
-/
namespace ApiReference

/-- The number `coefficient * 10 ^ exponent`. -/
structure Decimal where
  coefficient : Nat
  exponent : Int
  deriving DecidableEq, Repr

/-- The number `mantissa * 2 ^ exponent`; `narrow` if the next smaller double is
only half as far away as the next larger one. -/
structure Binary where
  mantissa : Nat
  exponent : Int
  narrow : Bool
  deriving DecidableEq, Repr

/-- The fraction `num / den` of two natural numbers. -/
structure Ratio where
  num : Nat
  den : Nat
  deriving DecidableEq, Repr

namespace Ratio

/-- The fraction `n * 2 ^ e`. -/
def ofBinary (n : Nat) : Int → Ratio
  | .ofNat e => ⟨n * Nat.pow 2 e, 1⟩
  | .negSucc e => ⟨n, Nat.pow 2 (e + 1)⟩

/-- The fraction `n * 10 ^ e`. -/
def ofDecimal (n : Nat) : Int → Ratio
  | .ofNat e => ⟨n * Nat.pow 10 e, 1⟩
  | .negSucc e => ⟨n, Nat.pow 10 (e + 1)⟩

/-- How two fractions compare. -/
def compare (x y : Ratio) : Ordering := Ord.compare (x.num * y.den) (y.num * x.den)

/-- The largest natural number not above the fraction divided by `10 ^ e`. -/
def floorByTen (x : Ratio) : Int → Nat
  | .ofNat e => x.num / (x.den * Nat.pow 10 e)
  | .negSucc e => x.num * Nat.pow 10 (e + 1) / x.den

/-- How many decimal digits a natural number has. -/
def digitCount (n : Nat) : Nat := (Nat.toDigits 10 n).length

/-- The power of ten that the first digit of a fraction other than zero stands for. -/
def firstPower (x : Ratio) : Int :=
  if x.den ≤ x.num then digitCount (x.num / x.den) - 1 else -digitCount (x.den / x.num)

end Ratio

namespace Binary

/-- The magnitude of a double with the given bits, its sign left out. -/
def ofBits (bits : UInt64) : Binary :=
  let fraction := (bits &&& 0xFFFFFFFFFFFFF).toNat
  let exponent := (bits >>> 52 &&& 0x7FF).toNat
  if exponent = 0 then ⟨fraction, -1074, false⟩
  else ⟨0x10000000000000 + fraction, Int.ofNat exponent - 1075, fraction = 0 && 1 < exponent⟩

/-- The number itself. -/
def ratio (x : Binary) : Ratio := .ofBinary x.mantissa x.exponent

/-- The least and the greatest number that round to it; both count as rounding
to it exactly if its mantissa is even. -/
def interval (x : Binary) : Ratio × Ratio :=
  (.ofBinary (4 * x.mantissa - if x.narrow then 1 else 2) (x.exponent - 2),
   .ofBinary (4 * x.mantissa + 2) (x.exponent - 2))

/-- A number rounds to `x`. -/
def roundsFrom (x : Binary) (r : Ratio) : Bool :=
  let (low, high) := x.interval
  let inside : Ordering → Bool := fun o => o == .lt || (o == .eq && x.mantissa % 2 = 0)
  inside (low.compare r) && inside (r.compare high)

end Binary

namespace Decimal

/-- Of the numbers `c` and `c + 1` times `10 ^ e`, with `x` between them, the
nearer to `x`, the even one if both are equally near. -/
def nearer (x : Ratio) (c : Nat) (e : Int) : Nat :=
  match (Ratio.ofDecimal (2 * c + 1) e).compare ⟨2 * x.num, x.den⟩ with
  | .lt => c + 1
  | .gt => c
  | .eq => if c % 2 = 0 then c else c + 1

/-- The number on the grid of step `10 ^ e` that rounds to `x`, the nearest to it
if two do. -/
def onGrid? (x : Binary) (e : Int) : Option Decimal :=
  let c := x.ratio.floorByTen e
  match x.roundsFrom (.ofDecimal c e), x.roundsFrom (.ofDecimal (c + 1) e) with
  | true, true => some ⟨nearer x.ratio c e, e⟩
  | true, false => some ⟨c, e⟩
  | false, true => some ⟨c + 1, e⟩
  | false, false => none

/-- The same number without zeros at the end of the coefficient, of which at
most `fuel` are taken off. -/
def trim : Nat → Decimal → Decimal
  | 0, d => d
  | fuel + 1, d =>
    if d.coefficient ≠ 0 ∧ d.coefficient % 10 = 0 then trim fuel ⟨d.coefficient / 10, d.exponent + 1⟩ else d

/-- Seventeen digits tell any two doubles apart. -/
def maxDigits : Nat := 17

/-- The shortest decimal that reads back as `x`. -/
def shortest (x : Binary) : Decimal :=
  if x.mantissa = 0 then ⟨0, 0⟩
  else
    let top := x.ratio.firstPower
    match (List.range maxDigits).findSome? fun n : Nat => onGrid? x (top - n) with
    | some d => trim maxDigits d
    | none => ⟨x.mantissa, 0⟩

/-- The least and the greatest power of ten of a first digit that is written
positionally. -/
def positional : Int × Int := (-5, 15)

/-- The text of a decimal. -/
def layout (d : Decimal) : String :=
  let digits := Nat.toDigits 10 d.coefficient
  let first := d.exponent + digits.length - 1
  if first < positional.1 ∨ positional.2 < first then
    let tail := if digits.tail = [] then "" else "." ++ String.ofList digits.tail
    let sign := if first < 0 then "-" else "+"
    String.ofList (digits.take 1) ++ tail ++ "e" ++ sign ++ toString first.natAbs
  else if first < 0 then
    "0." ++ String.ofList (List.replicate (first.natAbs - 1) '0' ++ digits)
  else
    let whole := digits.take (first.toNat + 1)
    let fraction := digits.drop (first.toNat + 1)
    String.ofList (whole ++ List.replicate (first.toNat + 1 - whole.length) '0') ++ "." ++
      if fraction = [] then "0" else String.ofList fraction

/-- The shortest text of a double. -/
def text (x : Float) : String :=
  (if x.toBits >>> 63 = 1 then "-" else "") ++ layout (shortest (.ofBits x.toBits))

end Decimal
end ApiReference
