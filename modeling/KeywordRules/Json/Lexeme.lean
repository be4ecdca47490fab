import KeywordRules.Text.Decimal

/-!
# String literals

Between the quotes a character stands for itself or is written by an escape. An escape `\uXXXX` gives
one UTF-16 unit; two of them that form a surrogate pair give one character, and a surrogate that is
left over gives no text. Characters below U+0020 are never raw.

`Spells` is the grammar of what stands between the quotes. A literal is read as a text exactly if its body
spells it, and the body ends at the first quote that is not escaped (`read_eq_some_iff`); the reader first
scans the units of the body (`Units`), then joins them. What `render` writes is a spelling
(`spells_flatMap_escape`), so it is read back in front of any text.
-/

namespace KeywordRules.Json

open KeywordRules.Text

namespace Lexeme

/-- The character that a one-letter escape stands for. -/
def unescape? : Char → Option Char
  | '"' => some '"'
  | '\\' => some '\\'
  | '/' => some '/'
  | 'b' => some '\x08'
  | 'f' => some '\x0c'
  | 'n' => some '\n'
  | 'r' => some '\r'
  | 't' => some '\t'
  | _ => none

/-- Reads up to the closing quote; `units` holds what came before, the last first. A raw character
counts as one unit, whatever its size. -/
def scan (units : List Nat) : List Char → Option (List Nat × List Char)
  | [] => none
  | '"' :: r => some (units.reverse, r)
  | '\\' :: r =>
    match r with
    | 'u' :: a :: b :: c :: d :: r' =>
      match ofHexDigits? [a, b, c, d] with
      | some unit => scan (unit :: units) r'
      | none => none
    | e :: r' =>
      match unescape? e with
      | some c => scan (c.toNat :: units) r'
      | none => none
    | [] => none
  | c :: r => if c.toNat < 0x20 then none else scan (c.toNat :: units) r

/-- Whether a unit is the first half of a surrogate pair. -/
def isHigh (unit : Nat) : Bool :=
  decide (0xD800 ≤ unit) && decide (unit < 0xDC00)

/-- Whether a unit is the second half of a surrogate pair. -/
def isLow (unit : Nat) : Bool :=
  decide (0xDC00 ≤ unit) && decide (unit < 0xE000)

/-- The text of a list of units, unless a surrogate has no partner. -/
def join : List Nat → Option (List Char)
  | [] => some []
  | unit :: r =>
    if isHigh unit then
      match r with
      | [] => none
      | second :: r' =>
        if isLow second then
          (join r').map (Char.ofNat (0x10000 + (unit - 0xD800) * 0x400 + (second - 0xDC00)) :: ·)
        else none
    else if isLow unit then none
    else (join r).map (Char.ofNat unit :: ·)

/-- Reads a literal whose opening quote has been read: its text, where it has one, and what follows. -/
def read (cs : List Char) : Option (Option String × List Char) :=
  (scan [] cs).map fun (units, r) => ((join units).map String.ofList, r)

/-- One character inside a literal: quote, backslash and the characters below U+0020 are escaped. -/
def escape (c : Char) : List Char :=
  match c with
  | '"' => ['\\', '"']
  | '\\' => ['\\', '\\']
  | '\x08' => ['\\', 'b']
  | '\x0c' => ['\\', 'f']
  | '\n' => ['\\', 'n']
  | '\r' => ['\\', 'r']
  | '\t' => ['\\', 't']
  | c =>
    if c.toNat < 0x20 then
      ['\\', 'u', '0', '0', Nat.digitChar (c.toNat / 16), Nat.digitChar (c.toNat % 16)]
    else [c]

/-- The literal of a text. -/
def render (text : String) : List Char :=
  '"' :: text.toList.flatMap escape ++ ['"']

/-! ## The grammar of literals -/

/-- What stands between the quotes of a literal spells a text. -/
inductive Spells : List Char → List Char → Prop where
  | nil : Spells [] []
  /-- A character from U+0020 on stands for itself, quote and backslash apart. -/
  | raw {c : Char} {body cs : List Char} (hquote : c ≠ '"') (hbackslash : c ≠ '\\')
    (hcontrol : 0x20 ≤ c.toNat) (h : Spells body cs) : Spells (c :: body) (c :: cs)
  /-- A one-letter escape. -/
  | letter {e c : Char} {body cs : List Char} (he : unescape? e = some c) (h : Spells body cs) :
    Spells ('\\' :: e :: body) (c :: cs)
  /-- Four hexadecimal digits give a code point that is no surrogate. -/
  | code {w x y z : Char} {unit : Nat} {body cs : List Char}
    (hunit : ofHexDigits? [w, x, y, z] = some unit) (hhigh : isHigh unit = false)
    (hlow : isLow unit = false) (h : Spells body cs) :
    Spells ('\\' :: 'u' :: w :: x :: y :: z :: body) (Char.ofNat unit :: cs)
  /-- Two times four hexadecimal digits give the halves of a surrogate pair. -/
  | pair {w x y z w' x' y' z' : Char} {high low : Nat} {body cs : List Char}
    (hunit : ofHexDigits? [w, x, y, z] = some high) (hhigh : isHigh high = true)
    (hunit' : ofHexDigits? [w', x', y', z'] = some low) (hlow : isLow low = true)
    (h : Spells body cs) :
    Spells ('\\' :: 'u' :: w :: x :: y :: z :: '\\' :: 'u' :: w' :: x' :: y' :: z' :: body)
      (Char.ofNat (0x10000 + (high - 0xD800) * 0x400 + (low - 0xDC00)) :: cs)

/-! ## Units of a literal -/

/-- What stands between the quotes of a literal gives a list of units. -/
inductive Units : List Char → List Nat → Prop where
  | nil : Units [] []
  | raw {c : Char} {body : List Char} {units : List Nat} (hquote : c ≠ '"') (hbackslash : c ≠ '\\')
    (hcontrol : 0x20 ≤ c.toNat) (h : Units body units) : Units (c :: body) (c.toNat :: units)
  | letter {e c : Char} {body : List Char} {units : List Nat} (he : unescape? e = some c)
    (h : Units body units) : Units ('\\' :: e :: body) (c.toNat :: units)
  | code {w x y z : Char} {unit : Nat} {body : List Char} {units : List Nat}
    (hunit : ofHexDigits? [w, x, y, z] = some unit) (h : Units body units) :
    Units ('\\' :: 'u' :: w :: x :: y :: z :: body) (unit :: units)

/-- A body is scanned up to the quote that follows it. -/
theorem Units.scan {body : List Char} {us : List Nat} (h : Units body us) (units : List Nat)
    (rest : List Char) :
    Lexeme.scan units (body ++ '"' :: rest) = some (units.reverse ++ us, rest) := by
  induction h generalizing units with
  | nil => simp [Lexeme.scan]
  | raw hquote hbackslash hcontrol _ ih =>
    rw [List.cons_append, Lexeme.scan, if_neg (Nat.not_lt.2 hcontrol), ih]
    · simp
    · exact hquote
    · exact hbackslash
  | @letter e c body us he _ ih =>
    -- an escape of a code point is tried first, and the letter is not its `u`
    have hu : ∀ (w x y z : Char) (r : List Char), e = 'u' → body ++ '"' :: rest = w :: x :: y :: z :: r →
        False := by
      rintro w x y z r rfl -
      cases he
    rw [List.cons_append, List.cons_append, Lexeme.scan]
    · simp [he, ih]
    · exact hu
  | code hunit _ ih => simp [Lexeme.scan, hunit, ih]

/-- What is scanned is the units of a body with a quote behind it. -/
theorem exists_units_of_scan {units all : List Nat} {cs rest : List Char}
    (h : scan units cs = some (all, rest)) :
    ∃ body us, cs = body ++ '"' :: rest ∧ Units body us ∧ all = units.reverse ++ us := by
  fun_induction scan units cs with
  | case1 => cases h
  -- a quote, an escape of a code point, one of a letter, and any other character
  | case2 units r =>
    obtain ⟨rfl, rfl⟩ := Prod.mk.inj (Option.some.inj h)
    exact ⟨[], [], rfl, .nil, (List.append_nil _).symm⟩
  | case3 units w x y z r unit hunit ih =>
    obtain ⟨body, us, rfl, hbody, rfl⟩ := ih h
    exact ⟨_, _, rfl, .code hunit hbody, by simp⟩
  | case4 => cases h
  | case5 units e r _ c he ih =>
    obtain ⟨body, us, rfl, hbody, rfl⟩ := ih h
    exact ⟨_, _, rfl, .letter he hbody, by simp⟩
  | case6 => cases h
  | case7 => cases h
  | case8 => cases h
  | case9 units c r hquote hbackslash hcontrol ih =>
    obtain ⟨body, us, rfl, hbody, rfl⟩ := ih h
    exact ⟨_, _, rfl, .raw hquote hbackslash (Nat.not_lt.1 hcontrol) hbody, by simp⟩

/-! ## Joining units -/

/-- No character is a surrogate. -/
theorem scalar_toNat (c : Char) : ¬ (0xD800 ≤ c.toNat ∧ c.toNat < 0xE000) := by
  have valid := c.valid
  simp only [UInt32.isValidChar, Nat.isValidChar] at valid
  have code : c.toNat = c.val.toNat := rfl
  omega

theorem isHigh_toNat (c : Char) : isHigh c.toNat = false := by
  have scalar := scalar_toNat c
  simp [isHigh]
  omega

theorem isLow_toNat (c : Char) : isLow c.toNat = false := by
  have scalar := scalar_toNat c
  simp [isLow]
  omega

/-- A unit that is no surrogate is a character. -/
theorem join_cons {unit : Nat} (high : isHigh unit = false) (low : isLow unit = false)
    (units : List Nat) : join (unit :: units) = (join units).map (Char.ofNat unit :: ·) := by
  rw [join.eq_def]
  simp [high, low]

/-- Half of a surrogate pair comes from an escape of its code. -/
theorem Units.exists_code {body : List Char} {unit : Nat} {us : List Nat}
    (h : Units body (unit :: us)) (hunit : isHigh unit = true ∨ isLow unit = true) :
    ∃ w x y z body', body = '\\' :: 'u' :: w :: x :: y :: z :: body' ∧
      ofHexDigits? [w, x, y, z] = some unit ∧ Units body' us := by
  cases h with
  | @raw c =>
    rw [isHigh_toNat, isLow_toNat] at hunit
    simp at hunit
  | @letter e c =>
    rw [isHigh_toNat, isLow_toNat] at hunit
    simp at hunit
  | code hcode hrest => exact ⟨_, _, _, _, _, rfl, hcode, hrest⟩

/-- A body spells what its units join to. -/
theorem Spells.of_units {body : List Char} {us : List Nat} {cs : List Char} (h : Units body us)
    (hjoin : join us = some cs) : Spells body cs := by
  fun_induction join us generalizing body cs with
  | case1 =>
    cases h
    obtain rfl := Option.some.inj hjoin
    exact .nil
  | case2 => cases hjoin
  -- a high surrogate and the low one behind it come from two escapes
  | case3 high hhigh low us hlow ih =>
    obtain ⟨cs, hcs, rfl⟩ := Option.map_eq_some_iff.1 hjoin
    obtain ⟨_, _, _, _, _, rfl, hcode, hrest⟩ := h.exists_code (.inl hhigh)
    obtain ⟨_, _, _, _, _, rfl, hcode', hrest⟩ := hrest.exists_code (.inr hlow)
    exact .pair hcode hhigh hcode' hlow (ih hrest hcs)
  | case4 => cases hjoin
  | case5 => cases hjoin
  -- any other unit is a character, however it was written
  | case6 unit us hhigh hlow ih =>
    obtain ⟨cs, hcs, rfl⟩ := Option.map_eq_some_iff.1 hjoin
    cases h with
    | raw hquote hbackslash hcontrol hrest =>
      rw [Char.ofNat_toNat]
      exact .raw hquote hbackslash hcontrol (ih hrest hcs)
    | letter he hrest =>
      rw [Char.ofNat_toNat]
      exact .letter he (ih hrest hcs)
    | code hcode hrest =>
      exact .code hcode (Bool.eq_false_iff.2 hhigh) (Bool.eq_false_iff.2 hlow) (ih hrest hcs)

/-- A body that spells a text has units that join to it. -/
theorem Spells.exists_units {body cs : List Char} (h : Spells body cs) :
    ∃ us, Units body us ∧ join us = some cs := by
  induction h with
  | nil => exact ⟨[], .nil, rfl⟩
  | @raw c body cs hquote hbackslash hcontrol _ ih =>
    obtain ⟨us, hus, hjoin⟩ := ih
    refine ⟨_, .raw hquote hbackslash hcontrol hus, ?_⟩
    rw [join_cons (isHigh_toNat c) (isLow_toNat c), hjoin, Option.map_some, Char.ofNat_toNat]
  | @letter e c body cs he _ ih =>
    obtain ⟨us, hus, hjoin⟩ := ih
    refine ⟨_, .letter he hus, ?_⟩
    rw [join_cons (isHigh_toNat c) (isLow_toNat c), hjoin, Option.map_some, Char.ofNat_toNat]
  | code hunit hhigh hlow _ ih =>
    obtain ⟨us, hus, hjoin⟩ := ih
    exact ⟨_, .code hunit hus, by rw [join_cons hhigh hlow, hjoin, Option.map_some]⟩
  | pair hunit hhigh hunit' hlow _ ih =>
    obtain ⟨us, hus, hjoin⟩ := ih
    refine ⟨_, .code hunit (.code hunit' hus), ?_⟩
    simp [join, hhigh, hlow, hjoin]

/-- A literal is read as a text exactly if its body spells the text. -/
theorem read_eq_some_iff {cs rest : List Char} {s : String} :
    Lexeme.read cs = some (some s, rest) ↔
      ∃ body, cs = body ++ '"' :: rest ∧ Spells body s.toList := by
  rw [Lexeme.read, Option.map_eq_some_iff]
  constructor
  · rintro ⟨⟨us, rest'⟩, hscan, hread⟩
    obtain ⟨hjoin, rfl⟩ := Prod.mk.inj hread
    obtain ⟨text, htext, rfl⟩ := Option.map_eq_some_iff.1 hjoin
    obtain ⟨body, us, rfl, hbody, rfl⟩ := exists_units_of_scan hscan
    refine ⟨body, rfl, ?_⟩
    rw [String.toList_ofList]
    exact .of_units hbody htext
  · rintro ⟨body, rfl, hbody⟩
    obtain ⟨us, hus, hjoin⟩ := hbody.exists_units
    refine ⟨_, hus.scan [] rest, ?_⟩
    simp [hjoin]

/-- A body spells one text at most. -/
theorem Spells.unique {body cs cs' : List Char} (h : Spells body cs) (h' : Spells body cs') :
    cs = cs' := by
  have hread : ∀ {ds}, Spells body ds →
      Lexeme.read (body ++ ['"']) = some (some (String.ofList ds), []) := fun hds =>
    read_eq_some_iff.2 ⟨body, rfl, by rwa [String.toList_ofList]⟩
  have heq := Option.some.inj ((hread h).symm.trans (hread h'))
  exact String.ofList_injective (Option.some.inj (Prod.mk.inj heq).1)

/-! ## Reading back what was written -/

/-- An escaped character spells the character. -/
theorem Spells.escape_append {body cs : List Char} (h : Spells body cs) (c : Char) :
    Spells (escape c ++ body) (c :: cs) := by
  unfold escape
  split
  · exact .letter rfl h
  · exact .letter rfl h
  · exact .letter rfl h
  · exact .letter rfl h
  · exact .letter rfl h
  · exact .letter rfl h
  · exact .letter rfl h
  · rename_i _ hquote hbackslash _ _ _ _ _
    split
    · rename_i hc
      have hcode := Spells.code (ofHexDigits?_lowByte c.toNat (by omega)) (isHigh_toNat c)
        (isLow_toNat c) h
      rwa [Char.ofNat_toNat] at hcode
    · rename_i hc
      exact .raw hquote hbackslash (Nat.not_lt.1 hc) h

theorem spells_flatMap_escape (cs : List Char) : Spells (cs.flatMap escape) cs := by
  induction cs with
  | nil => exact .nil
  | cons c cs ih => exact ih.escape_append c

end Lexeme

end KeywordRules.Json
