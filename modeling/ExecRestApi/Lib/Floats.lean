/-
The text of a `float`, with exact values.

The text is a decimal number with an exponent, or one of the names of infinity and of no number.
`float` rounds the number, which is for `Lib.Double`; what a reader takes it for is here.
Comparisons are those of the language: no number is neither above nor below anything.
-/
import Mathlib.Algebra.Order.Ring.Rat
import Mathlib.Algebra.Order.Monoid.Unbundled.WithTop
import ExecRestApi.Lib.Text

namespace Py

/-- A `float`. -/
inductive Flt where
  | finite (x : ℚ)
  | inf (negative : Bool)
  | nan
  deriving DecidableEq

/-- Digits that may be left out. -/
def digitRun? (cs : List Char) : Option (List Nat) := if cs = [] then some [] else digitRun cs

/-- The number some digits stand for. -/
def ofDigits (ds : List Nat) : Nat := ds.foldl (fun acc d => 10 * acc + d) 0

/-- A sign and what follows it. -/
def signed (cs : List Char) : Bool × List Char :=
  match cs with
  | '-' :: cs => (true, cs)
  | '+' :: cs => (false, cs)
  | cs => (false, cs)

/-- The exponent of a number, with the letter it begins with. -/
def exponentOf (cs : List Char) : Option Int :=
  match cs with
  | [] => some 0
  | _ :: cs =>
      let (negative, cs) := signed cs
      (digitRun cs).map fun ds => if negative then -(ofDigits ds : Int) else ofDigits ds

/-- The number that `float(s)` rounds, `none` where it raises `ValueError`. -/
def floatLiteral? (cs : List Char) : Option Flt :=
  let (negative, cs) := signed (stripBy isNumberSpace cs)
  let word := lower (String.ofList cs)
  if word = "inf" ∨ word = "infinity" then some (.inf negative)
  else if word = "nan" then some .nan
  else do
    let mantissa := cs.takeWhile fun c => c != 'e' && c != 'E'
    let exponent ← exponentOf (cs.drop mantissa.length)
    let whole := mantissa.takeWhile fun c => c != '.'
    let fraction := (mantissa.drop whole.length).drop 1
    if whole = [] ∧ fraction = [] then none
    else do
      let ds ← digitRun? whole
      let fs ← digitRun? fraction
      let x : ℚ := (ofDigits (ds ++ fs) : ℚ) * 10 ^ (exponent - fs.length)
      pure (.finite (if negative then -x else x))

/-- `-x` -/
def Flt.neg : Flt → Flt
  | finite x => .finite (-x)
  | inf negative => .inf (!negative)
  | nan => .nan

/-- `x < y` -/
def Flt.lt : Flt → Flt → Bool
  | finite x, finite y => decide (x < y)
  | finite _, inf negative => !negative
  | inf negative, finite _ => negative
  | inf a, inf b => a && !b
  | _, _ => false

/-- `x <= 0.0` -/
def Flt.nonpos : Flt → Bool
  | finite x => decide (x ≤ 0)
  | inf negative => negative
  | nan => false

/-- The place of a number between the infinities. -/
def Flt.rank : Flt → WithBot (WithTop ℚ)
  | finite x => ((x : WithTop ℚ) : WithBot (WithTop ℚ))
  | inf negative => if negative then ⊥ else ⊤
  | nan => ⊥

/-- **Numbers compare like their places**, the other way round if their signs are changed. -/
theorem Flt.lt_neg_iff {x y : Flt} (hx : x ≠ .nan) (hy : y ≠ .nan) :
    x.neg.lt y.neg = true ↔ y.rank < x.rank := by
  cases x with
  | finite a =>
      cases y with
      | finite b => simp [neg, lt, rank]
      | inf negative =>
          cases negative with
          | true => simp [neg, lt, rank, WithBot.bot_lt_coe]
          | false => simp [neg, lt, rank]
      | nan => exact absurd rfl hy
  | inf negative =>
      cases y with
      | finite b =>
          cases negative with
          | true => simp [neg, lt, rank]
          | false =>
              have htop : (finite b).rank < (inf false).rank :=
                WithBot.coe_lt_coe.mpr (WithTop.coe_lt_top b)
              exact iff_of_true rfl htop
      | inf other => cases negative <;> cases other <;> simp [neg, lt, rank]
      | nan => exact absurd rfl hy
  | nan => exact absurd rfl hx

theorem Flt.nonpos_iff {x : Flt} (hx : x ≠ .nan) : x.nonpos = true ↔ x.rank ≤ 0 := by
  cases x with
  | finite a => simp [nonpos, rank]
  | inf negative =>
      have htop : (0 : WithBot (WithTop ℚ)) < ⊤ := WithBot.coe_lt_coe.mpr (WithTop.coe_lt_top 0)
      cases negative <;> simp [nonpos, rank, htop.ne]
  | nan => exact absurd rfl hx

example : floatLiteral? " -1_0.5e-1 ".toList = some (.finite (-21 / 20))
    ∧ floatLiteral? "iNf".toList = some (.inf false) ∧ floatLiteral? "1_.5".toList = none
    ∧ floatLiteral? ".".toList = none ∧ floatLiteral? "zzz".toList = none := by
  decide +kernel

end Py
