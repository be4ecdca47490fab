import KeywordRules.Number.Binary64
import KeywordRules.Text.Decimal

/-!
# Number literals

A literal is kept as its digits: a sign, a whole part, and where present a fraction and an exponent.
`Spells` is the grammar of literals; the reader takes from the start of a text what spells a literal, and
finds the literal again in front of a text that does not go on with it.

`Numeral.value?` classifies it. A literal with neither fraction nor exponent is an integer when it lies
in `-2^63 … 2^64 - 1` and is not `-0`; every other literal is a double. The conversion to a double
keeps as many digits as fit into 64 bits and then scales by a power of ten, one rounding each, so it
can differ from the nearest double in the last bit. A literal too large for a double has no value.
-/

namespace KeywordRules.Json

open KeywordRules.Text

/-- The exponent part of a literal. -/
structure Exponent where
  /-- Whether the exponent is written with a minus sign. -/
  negative : Bool
  /-- Its decimal digits. -/
  digits : List Char
  deriving DecidableEq, Repr

/-- A number literal. -/
structure Numeral where
  /-- Whether the literal starts with a minus sign. -/
  negative : Bool
  /-- The digits before the point. -/
  whole : List Char
  /-- The digits after the point, if there is one. -/
  fraction : Option (List Char)
  /-- The exponent, if there is one. -/
  exponent : Option Exponent
  deriving DecidableEq, Repr

/-- The value of a number. -/
inductive Number where
  | int (n : Int)
  | float (x : Binary64)
  deriving DecidableEq, Repr

namespace Numeral

/-! ## Reading a literal -/

/-- Reads the digits after a point, of which there must be one. -/
def readFraction : List Char → Option (Option (List Char) × List Char)
  | '.' :: r =>
    match spanDigits r with
    | ([], _) => none
    | (ds, rest) => some (some ds, rest)
  | r => some (none, r)

/-- Reads the digits of an exponent, of which there must be one. -/
def readExponentDigits (negative : Bool) (cs : List Char) : Option (Option Exponent × List Char) :=
  match spanDigits cs with
  | ([], _) => none
  | (ds, rest) => some (some ⟨negative, ds⟩, rest)

/-- Reads an exponent, if one follows. -/
def readExponent : List Char → Option (Option Exponent × List Char)
  | c :: r =>
    if c = 'e' ∨ c = 'E' then
      match r with
      | '-' :: r' => readExponentDigits true r'
      | '+' :: r' => readExponentDigits false r'
      | r' => readExponentDigits false r'
    else some (none, c :: r)
  | [] => some (none, [])

/-- Reads a literal without its sign; a zero is not followed by further digits. -/
def readUnsigned (negative : Bool) (cs : List Char) : Option (Numeral × List Char) :=
  match spanDigits cs with
  | ([], _) => none
  | ('0' :: _ :: _, _) => none
  | (whole, r) => do
    let (fraction, r) ← readFraction r
    let (exponent, r) ← readExponent r
    return (⟨negative, whole, fraction, exponent⟩, r)

/-- Reads a literal from the start of a text. -/
def read : List Char → Option (Numeral × List Char)
  | '-' :: r => readUnsigned true r
  | r => readUnsigned false r

/-! ## Writing a literal -/

/-- The literal of an integer. -/
def ofInt (n : Int) : Numeral :=
  ⟨decide (n < 0), digits n.natAbs, none, none⟩

/-- The text of a literal; an exponent is marked by `e` and has no plus sign. -/
def render (l : Numeral) : List Char :=
  (if l.negative then ['-'] else []) ++ l.whole ++
    (match l.fraction with
      | none => []
      | some ds => '.' :: ds) ++
    (match l.exponent with
      | none => []
      | some e => 'e' :: ((if e.negative then ['-'] else []) ++ e.digits))

/-! ## The grammar of literals -/

/-- One decimal digit or more. -/
structure AreDigits (ds : List Char) : Prop where
  ne_nil : ds ≠ []
  isDigit : ∀ c ∈ ds, c.isDigit = true

/-- The digits of a whole part: no digit follows a zero in front. -/
structure IsWhole (ds : List Char) : Prop extends AreDigits ds where
  zero_alone : ∀ d r, ds ≠ '0' :: d :: r

/-- What stands between the whole part and the exponent spells a fraction, or nothing. -/
inductive SpellsFraction : List Char → Option (List Char) → Prop where
  | absent : SpellsFraction [] none
  | given {ds : List Char} (hds : AreDigits ds) : SpellsFraction ('.' :: ds) (some ds)

/-- What stands behind the mark of an exponent: digits, with a sign or without. -/
inductive SpellsPower : List Char → Exponent → Prop where
  | plain {ds : List Char} (hds : AreDigits ds) : SpellsPower ds ⟨false, ds⟩
  | plus {ds : List Char} (hds : AreDigits ds) : SpellsPower ('+' :: ds) ⟨false, ds⟩
  | minus {ds : List Char} (hds : AreDigits ds) : SpellsPower ('-' :: ds) ⟨true, ds⟩

/-- What stands at the end of a literal spells an exponent, or nothing. -/
inductive SpellsExponent : List Char → Option Exponent → Prop where
  | absent : SpellsExponent [] none
  | given {mark : Char} {ds : List Char} {e : Exponent} (hmark : mark = 'e' ∨ mark = 'E')
    (h : SpellsPower ds e) : SpellsExponent (mark :: ds) (some e)

/-- The sign of a literal. -/
def sign (negative : Bool) : List Char :=
  if negative then ['-'] else []

/-- A text spells a number literal. -/
inductive Spells : List Char → Numeral → Prop where
  | mk {whole f e : List Char} {fraction : Option (List Char)} {exponent : Option Exponent}
    (negative : Bool) (hwhole : IsWhole whole) (hfraction : SpellsFraction f fraction)
    (hexponent : SpellsExponent e exponent) :
    Spells (sign negative ++ (whole ++ (f ++ e))) ⟨negative, whole, fraction, exponent⟩

/-! ## A literal that is read is spelled -/

theorem areDigits_of_spanDigits {cs ds r : List Char} (h : spanDigits cs = (ds, r)) (hne : ds ≠ []) :
    cs = ds ++ r ∧ AreDigits ds :=
  have ⟨hcs, hds, _⟩ := spanDigits_eq_iff.1 h
  ⟨hcs, hne, hds⟩

/-- A fraction that is read is spelled in front of the rest. -/
theorem exists_of_readFraction {cs rest : List Char} {fraction : Option (List Char)}
    (h : readFraction cs = some (fraction, rest)) :
    ∃ f, cs = f ++ rest ∧ SpellsFraction f fraction := by
  unfold readFraction at h
  split at h
  -- behind a point digits are due
  · rename_i r
    rcases hspan : spanDigits r with ⟨ds, r'⟩
    rw [hspan] at h
    cases ds with
    | nil => cases h
    | cons d ds =>
      obtain ⟨rfl, rfl⟩ := Prod.mk.inj (Option.some.inj h)
      obtain ⟨rfl, hds⟩ := areDigits_of_spanDigits hspan (List.cons_ne_nil d ds)
      exact ⟨_, rfl, .given hds⟩
  · obtain ⟨rfl, rfl⟩ := Prod.mk.inj (Option.some.inj h)
    exact ⟨[], rfl, .absent⟩

theorem exists_of_readExponentDigits {negative : Bool} {cs rest : List Char}
    {exponent : Option Exponent} (h : readExponentDigits negative cs = some (exponent, rest)) :
    ∃ ds, cs = ds ++ rest ∧ AreDigits ds ∧ exponent = some ⟨negative, ds⟩ := by
  unfold readExponentDigits at h
  rcases hspan : spanDigits cs with ⟨ds, r⟩
  rw [hspan] at h
  cases ds with
  | nil => cases h
  | cons d ds =>
    obtain ⟨rfl, rfl⟩ := Prod.mk.inj (Option.some.inj h)
    obtain ⟨rfl, hds⟩ := areDigits_of_spanDigits hspan (List.cons_ne_nil d ds)
    exact ⟨_, rfl, hds, rfl⟩

/-- An exponent that is read is spelled in front of the rest. -/
theorem exists_of_readExponent {cs rest : List Char} {exponent : Option Exponent}
    (h : readExponent cs = some (exponent, rest)) :
    ∃ e, cs = e ++ rest ∧ SpellsExponent e exponent := by
  unfold readExponent at h
  split at h
  · rename_i mark r
    split at h
    · rename_i hmark
      -- behind the mark: a minus, a plus, or digits at once
      split at h
      · obtain ⟨ds, rfl, hds, rfl⟩ := exists_of_readExponentDigits h
        exact ⟨_, rfl, .given hmark (.minus hds)⟩
      · obtain ⟨ds, rfl, hds, rfl⟩ := exists_of_readExponentDigits h
        exact ⟨_, rfl, .given hmark (.plus hds)⟩
      · obtain ⟨ds, rfl, hds, rfl⟩ := exists_of_readExponentDigits h
        exact ⟨_, rfl, .given hmark (.plain hds)⟩
    · obtain ⟨rfl, rfl⟩ := Prod.mk.inj (Option.some.inj h)
      exact ⟨[], rfl, .absent⟩
  · obtain ⟨rfl, rfl⟩ := Prod.mk.inj (Option.some.inj h)
    exact ⟨[], rfl, .absent⟩

theorem exists_of_readUnsigned {negative : Bool} {cs rest : List Char} {l : Numeral}
    (h : readUnsigned negative cs = some (l, rest)) :
    ∃ token, cs = token ++ rest ∧ Spells (sign negative ++ token) l := by
  unfold readUnsigned at h
  rcases hspan : spanDigits cs with ⟨whole, r⟩
  rw [hspan] at h
  split at h
  · cases h
  · cases h
  -- neither an empty whole part nor a zero with digits behind it
  · rename_i hne hzero hpair
    simp only [Option.bind_eq_bind, Option.bind_eq_some_iff, Prod.exists] at h
    obtain ⟨fraction, r', hfraction, exponent, r'', hexponent, h⟩ := h
    obtain ⟨rfl, rfl⟩ := Prod.mk.inj hpair
    obtain ⟨rfl, rfl⟩ := Prod.mk.inj (Option.some.inj h)
    obtain ⟨rfl, hdigits⟩ := areDigits_of_spanDigits hspan hne
    obtain ⟨f, rfl, hf⟩ := exists_of_readFraction hfraction
    obtain ⟨e, rfl, he⟩ := exists_of_readExponent hexponent
    exact ⟨_, by simp only [List.append_assoc], .mk negative ⟨hdigits, hzero⟩ hf he⟩

/-- A literal that is read is spelled by what stands in front of the rest. -/
theorem exists_spells_of_read {cs rest : List Char} {l : Numeral}
    (h : Numeral.read cs = some (l, rest)) : ∃ token, cs = token ++ rest ∧ Spells token l := by
  unfold Numeral.read at h
  split at h
  · obtain ⟨token, rfl, hspells⟩ := exists_of_readUnsigned h
    exact ⟨'-' :: token, rfl, hspells⟩
  · exact exists_of_readUnsigned h

/-! ## A literal that is spelled is read -/

/-- A text in front of which a number literal ends. -/
def EndsNumber (r : List Char) : Prop :=
  ∀ c ∈ r.head?, c.isDigit = false ∧ c ≠ '.' ∧ c ≠ 'e' ∧ c ≠ 'E'

theorem AreDigits.readExponentDigits_append {ds rest : List Char} (hds : AreDigits ds)
    (hrest : ∀ c ∈ rest.head?, c.isDigit = false) (negative : Bool) :
    readExponentDigits negative (ds ++ rest) = some (some ⟨negative, ds⟩, rest) := by
  rw [Numeral.readExponentDigits, spanDigits_append hds.isDigit hrest]
  split
  · rename_i h
    exact absurd (Prod.mk.inj h).1 hds.ne_nil
  · rename_i h
    obtain ⟨rfl, rfl⟩ := Prod.mk.inj h
    rfl

/-- Digits do not start with a character that is no digit. -/
theorem AreDigits.ne_cons {ds : List Char} (hds : AreDigits ds) {c : Char}
    (hc : c.isDigit = false) (r rest : List Char) : ds ++ rest ≠ c :: r := by
  intro h
  cases ds with
  | nil => exact hds.ne_nil rfl
  | cons d ds =>
    obtain rfl := (List.cons.inj h).1
    exact absurd (hds.isDigit _ List.mem_cons_self) (by simp [hc])

theorem SpellsPower.readExponent_append {ds rest : List Char} {e : Exponent} {mark : Char}
    (h : SpellsPower ds e) (hmark : mark = 'e' ∨ mark = 'E')
    (hrest : ∀ c ∈ rest.head?, c.isDigit = false) :
    readExponent (mark :: (ds ++ rest)) = some (some e, rest) := by
  cases h with
  -- digits are none of the signs that are looked for first
  | plain hds =>
    rw [Numeral.readExponent, if_pos hmark, hds.readExponentDigits_append hrest]
    · exact fun r => hds.ne_cons (by decide) r rest
    · exact fun r => hds.ne_cons (by decide) r rest
  | plus hds =>
    rw [List.cons_append, Numeral.readExponent, if_pos hmark, hds.readExponentDigits_append hrest]
  | minus hds =>
    rw [List.cons_append, Numeral.readExponent, if_pos hmark, hds.readExponentDigits_append hrest]

theorem SpellsExponent.readExponent_append {e rest : List Char} {exponent : Option Exponent}
    (h : SpellsExponent e exponent) (hrest : EndsNumber rest) :
    readExponent (e ++ rest) = some (exponent, rest) := by
  cases h with
  | absent =>
    cases rest with
    | nil => rfl
    | cons c rest => simp [Numeral.readExponent, hrest c (by simp)]
  | given hmark h => exact h.readExponent_append hmark fun c hc => (hrest c hc).1

/-- Behind the fraction, neither a digit nor a point goes on. -/
theorem SpellsExponent.head_append {e rest : List Char} {exponent : Option Exponent}
    (h : SpellsExponent e exponent) (hrest : EndsNumber rest) :
    ∀ c ∈ (e ++ rest).head?, c.isDigit = false ∧ c ≠ '.' := by
  cases h with
  | absent => exact fun c hc => ⟨(hrest c hc).1, (hrest c hc).2.1⟩
  | given hmark h =>
    intro c hc
    obtain rfl := Option.some.inj hc
    rcases hmark with rfl | rfl <;> decide

theorem SpellsFraction.readFraction_append {f rest : List Char} {fraction : Option (List Char)}
    (h : SpellsFraction f fraction) (hrest : ∀ c ∈ rest.head?, c.isDigit = false ∧ c ≠ '.') :
    readFraction (f ++ rest) = some (fraction, rest) := by
  cases h with
  | absent =>
    rw [List.nil_append]
    unfold Numeral.readFraction
    split
    · exact absurd rfl (hrest '.' rfl).2
    · rfl
  | @given ds hds =>
    rw [List.cons_append, Numeral.readFraction,
      spanDigits_append hds.isDigit fun c hc => (hrest c hc).1]
    split
    · rename_i h
      exact absurd (Prod.mk.inj h).1 hds.ne_nil
    · rename_i h
      obtain ⟨rfl, rfl⟩ := Prod.mk.inj h
      rfl

/-- Behind the whole part no digit goes on. -/
theorem SpellsFraction.head_append {f rest : List Char} {fraction : Option (List Char)}
    (h : SpellsFraction f fraction) (hrest : ∀ c ∈ rest.head?, c.isDigit = false ∧ c ≠ '.') :
    ∀ c ∈ (f ++ rest).head?, c.isDigit = false := by
  cases h with
  | absent => exact fun c hc => (hrest c hc).1
  | given hds =>
    intro c hc
    obtain rfl := Option.some.inj hc
    decide

/-- A literal is read in front of a text that does not go on with it. -/
theorem Spells.read_append {token rest : List Char} {l : Numeral} (h : Spells token l)
    (hrest : EndsNumber rest) : Numeral.read (token ++ rest) = some (l, rest) := by
  obtain @⟨whole, f, e, fraction, exponent, negative, hwhole, hfraction, hexponent⟩ := h
  have hexponent' := hexponent.readExponent_append hrest
  have hfraction' := hfraction.readFraction_append (hexponent.head_append hrest)
  have hspan := spanDigits_append hwhole.isDigit
    (hfraction.head_append (hexponent.head_append hrest))
  have hunsigned : readUnsigned negative (whole ++ (f ++ (e ++ rest))) =
      some (⟨negative, whole, fraction, exponent⟩, rest) := by
    unfold readUnsigned
    rw [hspan]
    split
    · rename_i h
      exact absurd (Prod.mk.inj h).1 hwhole.ne_nil
    · rename_i h
      exact absurd (Prod.mk.inj h).1 (hwhole.zero_alone _ _)
    · rename_i h
      obtain ⟨rfl, rfl⟩ := Prod.mk.inj h
      simp [hfraction', hexponent']
  simp only [List.append_assoc]
  cases negative with
  | true => exact hunsigned
  | false =>
    rw [sign, if_neg Bool.false_ne_true, List.nil_append]
    unfold Numeral.read
    split
    · exact absurd ‹_› (hwhole.ne_cons (by decide) _ _)
    · exact hunsigned

/-- A text spells one literal at most. -/
theorem Spells.unique {token : List Char} {l l' : Numeral} (h : Spells token l) (h' : Spells token l') :
    l = l' := by
  have hend : EndsNumber [] := by simp [EndsNumber]
  have hread := (h.read_append hend).symm.trans (h'.read_append hend)
  exact (Prod.mk.inj (Option.some.inj hread)).1

/-- A literal starts with a minus sign or a digit. -/
theorem Spells.exists_cons {token : List Char} {l : Numeral} (h : Spells token l) :
    ∃ c r, token = c :: r ∧ (c = '-' ∨ c.isDigit = true) := by
  obtain @⟨whole, f, e, fraction, exponent, negative, hwhole, -, -⟩ := h
  cases negative with
  | true => exact ⟨_, _, rfl, .inl rfl⟩
  | false =>
    cases whole with
    | nil => exact absurd rfl hwhole.ne_nil
    | cons d ds => exact ⟨d, _, rfl, .inr (hwhole.isDigit d List.mem_cons_self)⟩

/-! ## Reading back an integer -/

theorem isWhole_digits (n : Nat) : IsWhole (digits n) :=
  ⟨⟨digits_ne_nil n, fun _ h => isDigit_of_mem_digits h⟩, fun _ _ h => digits_eq_cons_cons h rfl⟩

theorem spells_render_ofInt (n : Int) : Spells (ofInt n).render (ofInt n) := by
  have h := Spells.mk (decide (n < 0)) (isWhole_digits n.natAbs) .absent .absent
  simpa [render, ofInt, sign] using h

/-! ## The value of a literal -/

/-- Appends digits to a significand while it fits into 64 bits; the digits left over are returned. -/
def accumulate (significand : Nat) : List Char → Nat × List Char
  | [] => (significand, [])
  | d :: r =>
    let next := 10 * significand + ofDigits [d]
    if next < UInt64.size then accumulate next r else (significand, d :: r)

/-- Divides by `10 ^ k`, in steps of at most `10 ^ 308`. -/
def divPowerOfTen (x k : Nat) : Nat :=
  if k ≤ 308 then Binary64.div x (Binary64.powerOfTen k)
  else if x = 0 then 0
  else divPowerOfTen (Binary64.div x (Binary64.powerOfTen 308)) (k - 308)
termination_by k

/-- The magnitude of `significand * 10 ^ exponent`, unless it is too large. -/
def scale? (significand : Nat) (exponent : Int) : Option Nat :=
  let x := Binary64.ofNat significand
  if exponent < 0 then some (divPowerOfTen x exponent.natAbs)
  else if x = 0 then some 0
  else if 308 < exponent then none
  else
    let y := Binary64.mul x (Binary64.powerOfTen exponent.natAbs)
    if y = Binary64.infinity then none else some y

/-- The integer that a literal without fraction and exponent denotes. -/
def wholeValue (l : Numeral) : Int :=
  if l.negative then -(ofDigits l.whole : Int) else ofDigits l.whole

/-- Whether a literal without fraction and exponent is an integer rather than a double. -/
def isInteger (l : Numeral) : Bool :=
  if l.negative then decide (0 < ofDigits l.whole) && decide (ofDigits l.whole ≤ UInt64.size / 2)
  else decide (ofDigits l.whole < UInt64.size)

/-- The value of an exponent part, zero where there is none. -/
def exponentValue : Option Exponent → Int
  | none => 0
  | some e => if e.negative then -(ofDigits e.digits : Int) else ofDigits e.digits

/-- The magnitude of a literal read as a double, unless it is too large. -/
def magnitude? (l : Numeral) : Option Nat :=
  let (significand, dropped) := accumulate 0 l.whole
  match l.fraction with
  | none => scale? significand (dropped.length + exponentValue l.exponent)
  | some ds =>
    let (significand, rest) := accumulate significand ds
    scale? significand (dropped.length - (ds.length - rest.length : Nat) + exponentValue l.exponent)

/-- The value of a literal, unless it is too large for a double. -/
def value? (l : Numeral) : Option Number :=
  if l.fraction = none ∧ l.exponent = none ∧ l.isInteger = true then some (.int l.wholeValue)
  else l.magnitude?.map fun m => .float ⟨l.negative, m⟩

end Numeral

end KeywordRules.Json
