/-
Binary floating point numbers of 64 bits, held as bit patterns. A positive
fraction is rounded to the nearest such number, ties going to the even
significand, in exact natural arithmetic; what lies beyond the largest finite
number becomes infinity.
-/
namespace Covenant.Number

/-- The quotient rounded to the nearest natural number, a half to the even one. -/
def roundDiv (num den : Nat) : Nat :=
  let quotient := num / den
  let rest := num % den
  if 2 * rest < den then quotient
  else if den < 2 * rest then quotient + 1
  else quotient + quotient % 2

/-- The largest `k` with `2 ^ k ≤ num / den`, for positive numbers. -/
def binaryOrder (num den : Nat) : Int :=
  let guess : Int := num.log2 - den.log2
  let reached := if 0 ≤ guess then den * Nat.pow 2 guess.toNat ≤ num
    else den ≤ num * Nat.pow 2 (-guess).toNat
  if reached then guess else guess - 1

/-- The bit pattern of positive infinity. -/
def infinityBits : Nat := 0x7ff0000000000000

/-- The bit pattern that stands for what is not a number. -/
def quietNaNBits : Nat := 0x7ff8000000000000

/-- The bit pattern of the number nearest to `num / den`. The scale is the power of two that
leaves 53 binary places, or the smallest one; the pattern counts the scales passed and adds the
significand, so that a carry out of the significand moves to the next scale by itself. -/
def nearestBits (num den : Nat) : Nat :=
  if num = 0 then 0
  else
    let scale := max (binaryOrder num den - 52) (-1074)
    let significand :=
      if 0 ≤ scale then roundDiv num (den * Nat.pow 2 scale.toNat)
      else roundDiv (num * Nat.pow 2 (-scale).toNat) den
    min ((scale + 1074).toNat * Nat.pow 2 52 + significand) infinityBits

/-- The bit pattern of the number nearest to `digits · 10 ^ exponent`, where `digits` has `count`
decimal places, none of them a leading zero. Powers far beyond either end of the range are not
computed. -/
def decimalBits (digits count : Nat) (exponent : Int) : Nat :=
  if digits = 0 then 0
  else if 400 < count + exponent then infinityBits
  else if count + exponent < -400 then 0
  else if 0 ≤ exponent then nearestBits (digits * Nat.pow 10 exponent.toNat) 1
  else nearestBits digits (Nat.pow 10 (-exponent).toNat)

end Covenant.Number
