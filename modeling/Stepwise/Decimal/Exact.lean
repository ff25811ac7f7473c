/-!
# Doubles, exactly

A finite double is a whole number of units, each a power of two. This file takes a double apart into
that exact value, and gives the decimal arithmetic on it that the written forms rest on: a fraction of
whole numbers for the value at any decimal scale, and the power of ten of its leading digit.
-/

namespace Stepwise.Decimal

/-- The value a double stands for: a finite one is `mantissa * 2 ^ exponent`, with a sign. -/
inductive Exact where
  | nan
  | infinite (negative : Bool)
  | finite (negative : Bool) (mantissa : Nat) (exponent : Int)
  deriving DecidableEq

/-- Takes the bits of a double apart: a sign bit, eleven bits of exponent, fifty-two of fraction. -/
def Exact.ofFloat (x : Float) : Exact :=
  let bits := x.toBits.toNat
  let negative := decide (Nat.pow 2 63 ≤ bits)
  let exponent : Nat := bits / Nat.pow 2 52 % Nat.pow 2 11
  let fraction := bits % Nat.pow 2 52
  if exponent = 2047 then
    if fraction = 0 then .infinite negative else .nan
  else if exponent = 0 then
    .finite negative fraction (-1074)
  else
    .finite negative (Nat.pow 2 52 + fraction) ((exponent : Int) - 1075)

/-- The decimal number `units * 10 ^ power`. -/
structure Amount where
  units : Nat
  power : Int
  deriving DecidableEq

/-- How many decimal digits a positive number has. -/
def digitCount (n : Nat) : Nat :=
  (Nat.toDigits 10 n).length

/-- `mantissa * 2 ^ exponent * 10 ^ shift` as a numerator and a denominator. -/
def scaled (mantissa : Nat) (exponent shift : Int) : Nat × Nat :=
  (mantissa * Nat.pow 2 exponent.toNat * Nat.pow 10 shift.toNat,
    Nat.pow 2 (-exponent).toNat * Nat.pow 10 (-shift).toNat)

/-- The power of ten of the leading digit of a positive fraction. -/
def leadingPower (num den : Nat) : Int :=
  if den ≤ num then digitCount (num / den) - 1 else -digitCount ((den - 1) / num)

end Stepwise.Decimal
