/-
# The number a written numeral stands for

A numeral is kept as it is written: a sign, the digits before the point, the
digits after it, and an exponent. `Numeral.value?` gives its number. A numeral
without point and exponent that fits 64 bits is an integer; any other is a
double, computed from a significand of at most 64 bits (`Numeral.significand`)
and one multiplication or division by a power of ten (`scaleByTen?`). The
double is therefore not always the nearest one to the numeral.

Key definitions: `Numeral`, `Number`, `Numeral.significand`, `scaleByTen?`,
`Numeral.value?`.
-/
namespace ApiReference

/-- A number read from a text. -/
inductive Number where
  | int (n : Int)
  | float (x : Float)

namespace Numeral

/-- The exponent of a numeral, its digits with the most significant first. -/
structure Exponent where
  negative : Bool
  digits : List Nat

end Numeral

/-- A numeral as it is written, digits with the most significant first. -/
structure Numeral where
  negative : Bool
  whole : List Nat
  fraction : List Nat
  exponent : Option Numeral.Exponent

namespace Numeral

/-- The number that decimal digits spell. -/
def ofDigits (digits : List Nat) : Nat :=
  digits.foldl (fun n d => 10 * n + d) 0

/-- The largest significand, the largest number of 64 bits. -/
def maxSignificand : Nat := 0xFFFFFFFFFFFFFFFF

/-- The largest exponent that is counted, the largest signed number of 32 bits. -/
def maxExponent : Nat := 0x7FFFFFFF

/-- Append whole digits to the significand `n` while it fits; the second number
counts the digits from the first that does not fit on. -/
def takeWhole : Nat → List Nat → Nat × Nat
  | n, [] => (n, 0)
  | n, d :: ds => if 10 * n + d ≤ maxSignificand then takeWhole (10 * n + d) ds else (n, ds.length + 1)

/-- Append fraction digits to the significand `n` while it fits; the second
number counts the digits taken. -/
def takeFraction : Nat → List Nat → Nat × Nat
  | n, [] => (n, 0)
  | n, d :: ds =>
    if 10 * n + d ≤ maxSignificand then
      let (m, k) := takeFraction (10 * n + d) ds
      (m, k + 1)
    else (n, 0)

/-- The significand of the digits and the power of ten that belongs to it: each
whole digit that does not fit raises the power by one, each fraction digit taken
lowers it by one. -/
def significand (x : Numeral) : Nat × Int :=
  let (n, dropped) := takeWhole 0 x.whole
  let (m, taken) := takeFraction n x.fraction
  (m, dropped - taken)

namespace Exponent

/-- How many digits of an exponent are read until it passes `maxExponent`, the
passing one included, if it does. -/
def overflowAt? (n : Nat) : List Nat → Option Nat
  | [] => none
  | d :: ds =>
    if 10 * n + d ≤ maxExponent then (overflowAt? (10 * n + d) ds).map (· + 1) else some 1

/-- The digits read until the exponent passes `maxExponent`, if it does. -/
def overflow? (e : Exponent) : Option Nat := overflowAt? 0 e.digits

/-- The exponent with its sign. -/
def value (e : Exponent) : Int :=
  if e.negative then -ofDigits e.digits else ofDigits e.digits

end Exponent

/-- Ten to the power `k`, the nearest double. -/
def tenTo (k : Nat) : Float := Float.ofScientific 1 false k

/-- The largest power of ten that is a double. -/
def maxPower : Nat := 308

/-- Divide by ten to the power `k`, by at most `10 ^ maxPower` at a time and only
until nothing is left. -/
def shrink (x : Float) (k : Nat) : Float :=
  if k ≤ maxPower then x / tenTo k
  else if x == 0 then x
  else shrink (x / tenTo maxPower) (k - maxPower)
termination_by k
decreasing_by simp only [maxPower] at *; omega

/-- `x` times ten to the power `e`, unless that is too large for a double. -/
def scaleByTen? (x : Float) (e : Int) : Option Float :=
  match e with
  | .ofNat k =>
    if k ≤ maxPower then
      let y := x * tenTo k
      if y.isInf then none else some y
    else if x == 0 then some x
    else none
  | .negSucc k => some (shrink x (k + 1))

/-- A double with a sign put before it. -/
def signed (negative : Bool) (x : Float) : Float := if negative then -x else x

/-- The largest magnitude of a negative integer, of 64 bits with its sign. -/
def maxNegative : Nat := 0x8000000000000000

/-- A numeral without point and exponent that fits 64 bits, the sign included.
A negative zero is no integer. -/
def int? (x : Numeral) : Option Int :=
  let n := ofDigits x.whole
  if x.fraction ≠ [] ∨ x.exponent.isSome then none
  else if x.negative then if 0 < n ∧ n ≤ maxNegative then some (-n) else none
  else if n ≤ maxSignificand then some n
  else none

/-- The double of a numeral, unless it is too large. An exponent that passes
`maxExponent` leaves zero if the significand is zero or the exponent negative. -/
def float? (x : Numeral) : Option Float :=
  let (n, e) := x.significand
  let m := n.toUInt64.toFloat
  match x.exponent with
  | none => (scaleByTen? m e).map (signed x.negative)
  | some exponent =>
    if exponent.overflow?.isSome then
      if n = 0 ∨ exponent.negative then some (signed x.negative 0) else none
    else (scaleByTen? m (e + exponent.value)).map (signed x.negative)

/-- The number of a numeral, unless it is too large. -/
def value? (x : Numeral) : Option Number :=
  match x.int? with
  | some n => some (.int n)
  | none => x.float?.map .float

end Numeral
end ApiReference
