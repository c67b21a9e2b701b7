/-
`int` of a float.

A float is kept as the text of its literal.  What `int` makes of it is the whole part of
the double nearest to the literal, so the literal is rounded to 53 significant bits
first, halves to even.
-/
import ExecRestApi.Lib.Numeral

namespace Py

/-- The integer nearest to `num / den`, the even one of two. -/
def roundHalfEven (num den : Nat) : Nat :=
  let q := num / den
  let twice := 2 * (num % den)
  if twice < den then q
  else if den < twice then q + 1
  else q + q % 2

/-- The whole part of the double nearest to `num / den`. -/
def wholePart (num den : Nat) : Nat :=
  if 2 * num < den then 0
  else
    -- the position of the leading bit, counted from one half
    let e := Nat.log2 (2 * num / den)
    if e ≤ 53 then roundHalfEven (num * 2 ^ (53 - e)) den / 2 ^ (53 - e)
    else roundHalfEven num (den * 2 ^ (e - 53)) * 2 ^ (e - 53)

/-- `int(x)` on the literal of a finite float. -/
def truncFloat (lit : String) : Int :=
  let cs := lit.toList
  let mantissa := cs.takeWhile fun c => c != 'e' && c != 'E'
  let exponent := (cs.drop mantissa.length).drop 1
  let digits := foldDigits 10 0 (mantissa.filter isDecimal)
  let power := foldDigits 10 0 (exponent.filter isDecimal)
  let fraction := ((mantissa.dropWhile fun c => c != '.').drop 1).length
  let scale : Int := (if exponent.head? = some '-' then -(power : Int) else power) - fraction
  let whole :=
    if 0 ≤ scale then wholePart (digits * 10 ^ scale.toNat) 1
    else wholePart digits (10 ^ (-scale).toNat)
  if cs.head? = some '-' then -(whole : Int) else whole

/-- The nearest doubles are 1, an even number above `2 ^ 53`, and the literal itself. -/
example : truncFloat "0.99999999999999999999" = 1
    ∧ truncFloat "9007199254740993.1" = 9007199254740994 ∧ truncFloat "-2.5e1" = -25 := by
  decide +kernel

end Py
