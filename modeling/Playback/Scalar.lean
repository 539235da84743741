/-!
# Scalars

Timestamps, clocks, rates and delays are numbers of one type `S`. The class `Scalar` lists what
the library asks of that type: the field operations, an order that can be tested, decimal
literals, rounding, and conversions from and to the integers. Sessions run on `Float`; the exact
reading of the same formulas is the instance on the rationals in `Playback.Scalar.Exact`.

The comparisons `Scalar.max`, `Scalar.min` and `Scalar.clamp` are defined here once from the order
and from `Scalar.isNaN`, so that both instances share them.
-/

namespace Playback

/-- Numbers in which time is computed. -/
class Scalar (S : Type) extends Add S, Sub S, Mul S, Div S, Neg S, OfScientific S, LT S, LE S,
    BEq S where
  /-- The order is decidable. -/
  decLt : ∀ a b : S, Decidable (a < b)
  /-- The weak order is decidable. -/
  decLe : ∀ a b : S, Decidable (a ≤ b)
  /-- The number nearest to a natural number. -/
  ofNat : Nat → S
  /-- The number nearest to an integer. -/
  ofInt : Int → S
  /-- Holds of what is not a number. -/
  isNaN : S → Bool
  /-- Holds of numbers other than the infinities. -/
  isFinite : S → Bool
  /-- The absolute value. -/
  abs : S → S
  /-- The largest integral number not above the argument. -/
  floor : S → S
  /-- The smallest integral number not below the argument. -/
  ceil : S → S
  /-- The nearest integral number; a half goes away from zero. -/
  round : S → S
  /-- Drops the fraction; what does not fit into 64 bits with sign goes to the nearest end. -/
  toInt64 : S → Int
  /-- Drops the fraction; what does not fit into 64 bits without sign goes to the nearest end. -/
  toNat64 : S → Nat

namespace Scalar

variable {S : Type} [Scalar S]

instance (a b : S) : Decidable (a < b) := Scalar.decLt a b

instance (a b : S) : Decidable (a ≤ b) := Scalar.decLe a b

/-- The larger of two numbers; if one is not a number, the other. -/
def max (a b : S) : S :=
  if isNaN a then b else if a < b then b else a

/-- The smaller of two numbers; if one is not a number, the other. -/
def min (a b : S) : S :=
  if isNaN a then b else if b < a then b else a

/-- The nearest number to `x` between `lo` and `hi`; what is not a number stays as it is. -/
def clamp (x lo hi : S) : S :=
  if x < lo then lo else if hi < x then hi else x

end Scalar

/-- The smallest integer that 64 bits with sign hold. -/
def int64Min : Int := -9223372036854775808

/-- The largest integer that 64 bits with sign hold. -/
def int64Max : Int := 9223372036854775807

/-- The largest integer that 64 bits without sign hold. -/
def nat64Max : Nat := 18446744073709551615

/-- The number is one that 64 bits with sign hold. -/
def FitsInt64 (n : Int) : Prop :=
  int64Min ≤ n ∧ n ≤ int64Max

instance (n : Int) : Decidable (FitsInt64 n) :=
  inferInstanceAs (Decidable (_ ∧ _))

instance : Scalar Float where
  decLt := fun a b => inferInstanceAs (Decidable (a < b))
  decLe := fun a b => inferInstanceAs (Decidable (a ≤ b))
  ofNat n := if n ≤ nat64Max then n.toUInt64.toFloat else Float.ofNat n
  ofInt n :=
    match n with
    | .ofNat m => if m ≤ nat64Max then m.toUInt64.toFloat else Float.ofNat m
    | .negSucc m => if m < nat64Max then -((m + 1).toUInt64.toFloat) else Float.ofInt n
  isNaN := Float.isNaN
  isFinite := Float.isFinite
  abs := Float.abs
  floor := Float.floor
  ceil := Float.ceil
  round := Float.round
  toInt64 x := x.toInt64.toInt
  toNat64 x := x.toUInt64.toNat

end Playback
