/-!
# Decimal digits

Reading and writing numbers in base ten. Core's `Nat.toDigits` and `Nat.ofDigitChars` do the work;
here stand the signed form and the splitting of a text after its leading digits. The lemmas say that
digits read back, that no needless zero is written, and that splitting finds the digits again.
-/

namespace KeywordRules.Text

/-- The digits of a natural number, the most significant first, without leading zeros. -/
def digits (n : Nat) : List Char :=
  Nat.toDigits 10 n

/-- The number that a list of decimal digits denotes; the empty list denotes zero. -/
def ofDigits (ds : List Char) : Nat :=
  Nat.ofDigitChars 10 ds 0

/-- An integer in base ten, with a minus sign when it is negative. -/
def signedDigits (n : Int) : List Char :=
  if n < 0 then '-' :: digits n.natAbs else digits n.natAbs

/-- A text split after its leading decimal digits. -/
def spanDigits (cs : List Char) : List Char × List Char :=
  (cs.takeWhile Char.isDigit, cs.dropWhile Char.isDigit)

theorem ofDigits_digits (n : Nat) : ofDigits (digits n) = n :=
  Nat.ofDigitChars_toDigits (by decide) (by decide)

theorem isDigit_of_mem_digits {n : Nat} {c : Char} (h : c ∈ digits n) : c.isDigit = true :=
  Nat.isDigit_of_mem_toDigits (by decide) (by decide) h

theorem digits_ne_nil (n : Nat) : digits n ≠ [] :=
  Nat.toDigits_ne_nil

theorem digits_eq (n : Nat) :
    digits n =
      if n < 10 then [Nat.digitChar n] else digits (n / 10) ++ [Nat.digitChar (n % 10)] := by
  simp only [digits]
  split
  · exact Nat.toDigits_of_lt_base (by assumption)
  · exact Nat.toDigits_of_base_le (by decide) (by omega)

/-- A positive number is written without a zero in front. -/
theorem head?_digits_ne_zero (n : Nat) (hn : 0 < n) : (digits n).head? ≠ some '0' := by
  induction n using Nat.strongRecOn with
  | _ n ih =>
    rw [digits_eq]
    split
    · rename_i h
      have small : ∀ d, d < 10 → 0 < d → Nat.digitChar d ≠ '0' := by decide
      simpa using small n h hn
    · have tens := ih (n / 10) (by omega) (by omega)
      rw [List.head?_append]
      cases h : (digits (n / 10)).head? with
      | none => exact absurd (List.head?_eq_none_iff.1 h) (digits_ne_nil _)
      | some c => rw [h] at tens; simpa using tens

/-- Where several digits are written, the first is not a zero. -/
theorem digits_eq_cons_cons {n : Nat} {c d : Char} {r : List Char} (h : digits n = c :: d :: r) :
    c ≠ '0' := by
  rcases Nat.eq_zero_or_pos n with rfl | hn
  · have zero : digits 0 = ['0'] := by decide
    rw [zero] at h
    cases h
  · have head := head?_digits_ne_zero n hn
    rw [h] at head
    simpa using head

/-- Digits are found again in front of a text that starts with none. -/
theorem spanDigits_append {ds r : List Char} (h : ∀ c ∈ ds, c.isDigit = true)
    (hr : ∀ c ∈ r.head?, c.isDigit = false) : spanDigits (ds ++ r) = (ds, r) := by
  induction ds with
  | nil =>
    cases r with
    | nil => rfl
    | cons c r => simp [spanDigits, hr c (by simp)]
  | cons d ds ih =>
    have rest := ih fun c hc => h c (by simp [hc])
    simp only [spanDigits, Prod.mk.injEq] at rest
    simp [spanDigits, h d (by simp), rest]

/-- A text is split after its leading digits in just one way. -/
theorem spanDigits_eq_iff {cs ds r : List Char} :
    spanDigits cs = (ds, r) ↔
      cs = ds ++ r ∧ (∀ c ∈ ds, c.isDigit = true) ∧ ∀ c ∈ r.head?, c.isDigit = false := by
  constructor
  · intro h
    obtain ⟨rfl, rfl⟩ := Prod.mk.inj h
    refine ⟨List.takeWhile_append_dropWhile.symm, ?_, fun c hc => ?_⟩
    · exact List.all_eq_true.1 List.all_takeWhile
    · have hnot := List.head?_dropWhile_not Char.isDigit cs
      rw [hc] at hnot
      exact hnot
  · rintro ⟨rfl, hds, hr⟩
    exact spanDigits_append hds hr

/-- The value of a hexadecimal digit of either case. -/
def hexDigit? (c : Char) : Option Nat :=
  if '0' ≤ c ∧ c ≤ '9' then some (c.toNat - 48)
  else if 'a' ≤ c ∧ c ≤ 'f' then some (c.toNat - 87)
  else if 'A' ≤ c ∧ c ≤ 'F' then some (c.toNat - 55)
  else none

theorem hexDigit?_digitChar : ∀ d, d < 16 → hexDigit? (Nat.digitChar d) = some d := by
  decide

/-- The number that a list of hexadecimal digits denotes, if all of them are such digits. -/
def ofHexDigits? (cs : List Char) : Option Nat :=
  cs.foldl (fun acc c => acc.bind fun n => (hexDigit? c).map (16 * n + ·)) (some 0)

/-- Two hexadecimal digits after two zeros read back. -/
theorem ofHexDigits?_lowByte (n : Nat) (h : n < 256) :
    ofHexDigits? ['0', '0', Nat.digitChar (n / 16), Nat.digitChar (n % 16)] = some n := by
  have zero : hexDigit? '0' = some 0 := by decide
  have high := hexDigit?_digitChar (n / 16) (by omega)
  have low := hexDigit?_digitChar (n % 16) (by omega)
  simp only [ofHexDigits?, List.foldl_cons, List.foldl_nil, zero, high, low, Option.bind_some,
    Option.map_some]
  congr 1
  omega

end KeywordRules.Text
