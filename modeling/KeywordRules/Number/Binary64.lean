/-!
# Doubles on the grid of 2^-1074

A double is a sign and a magnitude. The magnitude is the bit pattern without the sign bit, so larger
patterns are larger numbers; `units` says which multiple of 2^-1074 a pattern stands for. Products and
quotients are formed exactly in natural numbers and rounded once, to the nearest pattern and to the
even one on a tie. There is no pattern for "not a number": nothing here can produce it. Zero has two
signs, which are kept apart as data and compare equal.
-/

namespace KeywordRules

/-- A double, finite or infinite. -/
structure Binary64 where
  /-- Whether the sign bit is set. -/
  negative : Bool
  /-- The bit pattern without the sign bit. -/
  magnitude : Nat
  deriving DecidableEq, Repr, Inhabited

namespace Binary64

/-- How many units of 2^-1074 make one. -/
def one : Nat := Nat.pow 2 1074

/-- How many magnitudes share a power of two. -/
def binade : Nat := Nat.pow 2 52

/-- The magnitude of an infinity, one above the largest finite magnitude. -/
def infinity : Nat := 2047 * binade

/-- How many units of 2^-1074 a finite magnitude stands for. -/
def units (magnitude : Nat) : Nat :=
  if magnitude < binade then magnitude
  else (binade + magnitude % binade) * Nat.pow 2 (magnitude / binade - 1)

/-- The whole number nearest to a quotient; halfway between two it is the even one. -/
def roundDiv (num den : Nat) : Nat :=
  let q := num / den
  let r := num % den
  if 2 * r < den then q else if den < 2 * r then q + 1 else q + q % 2

/-- The magnitude nearest to a quotient of units; anything beyond the finite ones is infinite. -/
def nearest (num den : Nat) : Nat :=
  let shift := Nat.log2 (num / den) - 52
  min (shift * binade + roundDiv num (den * Nat.pow 2 shift)) infinity

/-- The magnitude nearest to a natural number. -/
def ofNat (n : Nat) : Nat :=
  nearest (n * one) 1

/-- The magnitude nearest to a power of ten. -/
def powerOfTen (k : Nat) : Nat :=
  ofNat (Nat.pow 10 k)

/-- The rounded product of two finite magnitudes. -/
def mul (a b : Nat) : Nat :=
  nearest (units a * units b) one

/-- The rounded quotient of two finite magnitudes. -/
def div (a b : Nat) : Nat :=
  nearest (units a * one) (units b)

/-- The magnitude nearest to the decimal number `significand * 10 ^ exponent`. -/
def ofDecimal (significand : Nat) (exponent : Int) : Nat :=
  nearest (significand * Nat.pow 10 exponent.toNat * one) (Nat.pow 10 (-exponent).toNat)

/-- Whether two doubles compare equal: they are the same, or both are zeros, of whatever sign. -/
def equals (x y : Binary64) : Bool :=
  x = y ∨ x.magnitude = 0 ∧ y.magnitude = 0

theorem equals_iff {x y : Binary64} :
    x.equals y = true ↔ x = y ∨ x.magnitude = 0 ∧ y.magnitude = 0 :=
  decide_eq_true_iff

end Binary64

end KeywordRules
