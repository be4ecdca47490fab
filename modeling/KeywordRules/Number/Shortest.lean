import KeywordRules.Number.Binary64
import KeywordRules.Text.Decimal

/-!
# The shortest text of a double

`shortest` finds the fewest decimal digits that lie nearer to the double than to its neighbours (the
ends of that interval count when the last bit is even) and, among those, the nearest ones. Where the
point goes is a decision of its own, kept in the record `layout`.
-/

namespace KeywordRules.Binary64

/-- The interval of reals that round to a finite positive magnitude, in quarter units: its low end,
the value and its high end. -/
def interval (magnitude : Nat) : Nat × Nat × Nat :=
  let value := units magnitude
  let above := units (magnitude + 1)
  let below := units (magnitude - 1)
  (2 * (below + value), 4 * value, 2 * (value + above))

/-- Whether `significand * 10 ^ exponent` rounds to the magnitude, for a positive magnitude. -/
def readsBack (magnitude significand : Nat) (exponent : Int) : Bool :=
  let (low, _, high) := interval magnitude
  let num := 4 * significand * Nat.pow 10 exponent.toNat * one
  let den := Nat.pow 10 (-exponent).toNat
  if magnitude % 2 = 0 then decide (low * den ≤ num) && decide (num ≤ high * den)
  else decide (low * den < num) && decide (num < high * den)

/-- The distance of `significand * 10 ^ exponent` from the magnitude, times a factor that depends on
the exponent alone. -/
def decimalDistance (magnitude significand : Nat) (exponent : Int) : Nat :=
  let value := units magnitude * Nat.pow 10 (-exponent).toNat
  let candidate := significand * Nat.pow 10 exponent.toNat * one
  (value - candidate) + (candidate - value)

/-- The significand on the grid of `10 ^ exponent` that reads back as the magnitude and is nearest to
it, the even one on a tie. -/
def onGrid? (magnitude : Nat) (exponent : Int) : Option Nat :=
  let num := units magnitude * Nat.pow 10 (-exponent).toNat
  let den := Nat.pow 10 exponent.toNat * one
  let low := num / den
  let high := low + 1
  match readsBack magnitude low exponent, readsBack magnitude high exponent with
  | false, false => none
  | true, false => some low
  | false, true => some high
  | true, true =>
    let toLow := decimalDistance magnitude low exponent
    let toHigh := decimalDistance magnitude high exponent
    if toLow < toHigh then some low
    else if toHigh < toLow then some high
    else some (low + low % 2)

/-- The first grid with a hit, going from `exponent` downwards. -/
def firstHit (magnitude : Nat) : Nat → Int → Nat × Int
  | 0, exponent => (0, exponent)
  | tries + 1, exponent =>
    match onGrid? magnitude exponent with
    | some significand => (significand, exponent)
    | none => firstHit magnitude tries (exponent - 1)

/-- A decimal number without the trailing zeros of its significand. -/
def stripZeros : Nat → Nat × Int → Nat × Int
  | 0, x => x
  | tries + 1, (significand, exponent) =>
    if significand ≠ 0 ∧ significand % 10 = 0 then stripZeros tries (significand / 10, exponent + 1)
    else (significand, exponent)

/-- The exponent of the leading decimal digit of a positive magnitude. -/
def leadingExponent (magnitude : Nat) : Int :=
  let value := units magnitude
  if one ≤ value then (Text.digits (value / one)).length - 1
  else -(Text.digits ((one - 1) / value)).length

/-- The shortest decimal `significand * 10 ^ exponent` of a finite magnitude. -/
def shortest (magnitude : Nat) : Nat × Int :=
  if magnitude = 0 then (0, 0)
  else stripZeros 400 (firstHit magnitude 20 (leadingExponent magnitude + 1))

/-- How the digits and the exponent of a double are laid out. -/
structure Layout where
  /-- The least exponent of the leading digit that is written positionally. -/
  least : Int
  /-- The greatest exponent of the leading digit that is written positionally. -/
  greatest : Int
  /-- What follows the mark `e` when the exponent is not negative. -/
  plus : String
  deriving Repr

/-- The layout of messages: positional from 10^-5 up to below 10^16, with a sign on every exponent. -/
def layout : Layout := ⟨-5, 15, "+"⟩

/-- The digits of a decimal number with the point in its place, and `.0` after a whole number. -/
def positional (ds : List Char) (exponent : Int) : List Char :=
  if 0 ≤ exponent then ds ++ List.replicate exponent.toNat '0' ++ ['.', '0']
  else
    let places := (-exponent).toNat
    if places < ds.length then ds.take (ds.length - places) ++ '.' :: ds.drop (ds.length - places)
    else '0' :: '.' :: (List.replicate (places - ds.length) '0' ++ ds)

/-- One digit, the others after a point, and the exponent of the first. -/
def scientific (ds : List Char) (leading : Int) : List Char :=
  let sign := if leading < 0 then "-" else layout.plus
  ds.take 1 ++ (if ds.length = 1 then [] else '.' :: ds.drop 1) ++
    'e' :: (sign.toList ++ Text.digits leading.natAbs)

/-- The text of a finite double. -/
def text (x : Binary64) : String :=
  let (significand, exponent) := shortest x.magnitude
  let ds := Text.digits significand
  let leading := exponent + ds.length - 1
  let body :=
    if layout.least ≤ leading ∧ leading ≤ layout.greatest then positional ds exponent
    else scientific ds leading
  String.ofList (if x.negative then '-' :: body else body)

end KeywordRules.Binary64
