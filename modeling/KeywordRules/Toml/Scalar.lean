import KeywordRules.Number.Binary64
import KeywordRules.Toml.Text

/-!
# TOML numbers, dates and words

An unquoted value is one token, which is a boolean, an integer, a float or a date or time as a whole;
blanks inside belong to it. Underscores may stand between two digits of a number. An integer is kept with
its value, a float only with whether it is too large for a double, a date or time as nothing more than
that. A token that only looks like an integer, such as `0x` or `1_a`, is illegible: it does no harm where
nothing asks for its value.
-/

namespace KeywordRules.Toml

open KeywordRules.Text

/-- A value without parts. -/
inductive Scalar where
  | bool (b : Bool)
  | integer (n : Int)
  /-- What looks like an integer and has no value. -/
  | illegible
  | float (tooLarge : Bool)
  /-- A date, a time or both. -/
  | moment
  | string (s : String)
  deriving DecidableEq, Repr

namespace Scalar

/-! ## Signs, underscores and bases -/

/-- The sign in front of a number. -/
inductive Sign where
  | plus
  | minus
  deriving DecidableEq, Repr

/-- The number with a sign and an absolute value; no sign is a plus. -/
def Sign.apply (sign : Option Sign) (n : Nat) : Int :=
  match sign with
  | some .minus => -(n : Int)
  | _ => n

/-- The sign of a token, if there is one, and what follows it. -/
def splitSign : List Char → Option Sign × List Char
  | '-' :: r => (some .minus, r)
  | '+' :: r => (some .plus, r)
  | r => (none, r)

/-- A text without its underscores, each of which must stand before a digit and after a digit; `after`
says whether the character before the text is one. -/
def join? (isDigit : Char → Bool) (after : Bool) : List Char → Option (List Char)
  | [] => some []
  | c :: r =>
    if c = '_' then
      match r with
      | d :: _ => if after && isDigit d then join? isDigit false r else none
      | [] => none
    else (join? isDigit (isDigit c) r).map (c :: ·)

/-- Whether a character is a digit in a base up to sixteen. -/
def isDigitIn (base : Nat) (c : Char) : Bool :=
  match hexDigit? c with
  | some d => decide (d < base)
  | none => false

/-- The number that digits denote in a base up to sixteen. -/
def valueIn (base : Nat) (ds : List Char) : Nat :=
  ds.foldl (fun n c => base * n + (hexDigit? c).getD 0) 0

/-! ## Integers -/

/-- The integer whose digits follow the mark of a base; without any digit it is illegible. -/
def inBase? (base : Nat) (cs : List Char) : Option Scalar :=
  match join? (isDigitIn base) false cs with
  | some [] => some .illegible
  | some ds => if ds.all (isDigitIn base) then some (.integer (valueIn base ds)) else none
  | none => none

/-- The integer of a token in base ten. It does not start with a needless zero. After an underscore
other characters than digits make it illegible, but no space, no point and no exponent. -/
def decimal? (cs : List Char) : Option Scalar :=
  let (sign, body) := splitSign cs
  let leading := body.takeWhile Char.isDigit
  if body = leading then
    if body = [] ∨ (body.head? = some '0' ∧ body ≠ ['0']) then none
    else some (.integer (Sign.apply sign (ofDigits body)))
  else if body.head? = some '0' ∨ (body.drop leading.length).head? ≠ some '_' ∨
      body.any (fun c => c == ' ' || c == '.' || c == 'e' || c == 'E') then none
  else
    (join? (isDigitIn 16) false body).map fun ds =>
      if ds.all Char.isDigit then .integer (Sign.apply sign (ofDigits ds)) else .illegible

/-- The integer that a token is. Only a decimal one may have a sign. -/
def integer? (cs : List Char) : Option Scalar :=
  match cs with
  | '0' :: 'x' :: r => inBase? 16 r
  | '0' :: 'o' :: r => inBase? 8 r
  | '0' :: 'b' :: r => inBase? 2 r
  | _ => decimal? cs

/-! ## Floats -/

/-- A token split at the first of the given characters, without it. -/
def splitAtChar (isMark : Char → Bool) (cs : List Char) : List Char × Option (List Char) :=
  match cs.dropWhile (fun c => !isMark c) with
  | [] => (cs, none)
  | _ :: r => (cs.takeWhile (fun c => !isMark c), some r)

/-- A group of digits, of which there is at least one. -/
def digits? (cs : List Char) : Option (List Char) :=
  if cs.isEmpty || !cs.all Char.isDigit then none else some cs

/-- The value of an exponent, which may have zeros in front. -/
def exponent? (cs : List Char) : Option Int :=
  let (sign, r) := splitSign cs
  (digits? r).map fun ds => Sign.apply sign (ofDigits ds)

/-- Whether a decimal number is too large for a double. The number of its digits settles all but the
close cases. -/
def isTooLarge (significand : Nat) (exponent : Int) : Bool :=
  let size := exponent + (digits significand).length
  if significand = 0 ∨ size < 300 then false
  else if 320 < size then true
  else Binary64.ofDecimal significand exponent == Binary64.infinity

/-- Whether a float is too large, if the token is a float: it has a fraction or an exponent, or is the
word for infinity or for no number. Its whole part does not start with a needless zero. -/
def float? (cs : List Char) : Option Bool :=
  let (_, body) := splitSign cs
  if body = ['i', 'n', 'f'] ∨ body = ['n', 'a', 'n'] then some false
  else do
    let joined ← join? Char.isDigit false body
    let (mantissa, exponent) := splitAtChar (fun c => c == 'e' || c == 'E') joined
    let (whole, fraction) := splitAtChar (fun c => c == '.') mantissa
    let ds ← digits? whole
    if body.head? = some '0' ∧ 1 < ds.length then none
    else
      match fraction, exponent with
      | none, none => none
      | none, some e => return isTooLarge (ofDigits ds) (← exponent? e)
      | some f, none => do
        let fs ← digits? f
        return isTooLarge (ofDigits (ds ++ fs)) (-(fs.length : Int))
      | some f, some e => do
        let fs ← digits? f
        return isTooLarge (ofDigits (ds ++ fs)) ((← exponent? e) - (fs.length : Int))

/-! ## Dates and times -/

/-- Reads a number of two digits. -/
def twoDigits? : List Char → Option (Nat × List Char)
  | a :: b :: r => if a.isDigit && b.isDigit then some (ofDigits [a, b], r) else none
  | _ => none

/-- Reads a number of two digits after a mark. -/
def twoDigitsAfter? (mark : Char) : List Char → Option (Nat × List Char)
  | c :: r => if c = mark then twoDigits? r else none
  | [] => none

/-- Whether a year has a 29th of February. -/
def isLeap (year : Nat) : Bool :=
  decide (year % 4 = 0) && (decide (year % 100 ≠ 0) || decide (year % 400 = 0))

/-- The number of days of a month, none for a month that does not exist. -/
def daysIn (year month : Nat) : Nat :=
  if month = 2 then if isLeap year then 29 else 28
  else if month = 4 ∨ month = 6 ∨ month = 9 ∨ month = 11 then 30
  else if 1 ≤ month ∧ month ≤ 12 then 31
  else 0

/-- Reads a date. -/
def date? (cs : List Char) : Option (List Char) := do
  let (century, r) ← twoDigits? cs
  let (ofCentury, r) ← twoDigits? r
  let (month, r) ← twoDigitsAfter? '-' r
  let (day, r) ← twoDigitsAfter? '-' r
  if 1 ≤ day ∧ day ≤ daysIn (100 * century + ofCentury) month then some r else none

/-- Reads the fraction of a second, if there is one. -/
def secondFraction? : List Char → Option (List Char)
  | '.' :: r => if (spanDigits r).1.isEmpty then none else some (spanDigits r).2
  | r => some r

/-- Reads a time of day; a leap second is allowed. -/
def time? (cs : List Char) : Option (List Char) := do
  let (hour, r) ← twoDigits? cs
  let (minute, r) ← twoDigitsAfter? ':' r
  let (second, r) ← twoDigitsAfter? ':' r
  if hour < 24 ∧ minute < 60 ∧ second ≤ 60 then secondFraction? r else none

/-- Whether a text is empty or an offset from universal time. -/
def isOffset (cs : List Char) : Bool :=
  match cs with
  | [] | ['Z'] | ['z'] => true
  | sign :: r =>
    if sign = '+' ∨ sign = '-' then
      match twoDigits? r with
      | some (hours, r) =>
        match twoDigitsAfter? ':' r with
        | some (minutes, []) => decide (hours < 24) && decide (minutes < 60)
        | _ => false
      | none => false
    else false

/-- Whether a token is a date, a time, or a date with a time and possibly an offset. -/
def isMoment (cs : List Char) : Bool :=
  match date? cs with
  | some [] => true
  | some (mark :: r) =>
    if mark = 'T' ∨ mark = 't' ∨ mark = ' ' then
      match time? r with
      | some r => isOffset r
      | none => false
    else false
  | none => time? cs == some []

/-! ## Tokens -/

/-- The scalar that a token is. -/
def ofToken? (token : List Char) : Option Scalar :=
  if token = ['t', 'r', 'u', 'e'] then some (.bool true)
  else if token = ['f', 'a', 'l', 's', 'e'] then some (.bool false)
  else
    match integer? token with
    | some scalar => some scalar
    | none =>
      match float? token with
      | some tooLarge => some (.float tooLarge)
      | none => if isMoment token then some .moment else none

/-- Whether a character can be part of an unquoted value: it neither ends a line nor divides values. -/
def isTokenChar (c : Char) : Bool :=
  !(isBlank c || c == '\n' || c == '\r' || c == '#' || c == '=' || c == ',' || c == '[' || c == ']' ||
    c == '\x7b' || c == '\x7d')

/-- A text split after the token at its start and the blanks behind it. Blanks belong to the token if it
goes on after them, which it does not with a string; `blanks` holds those just passed, the last first. -/
def spanToken (blanks : List Char) : List Char → List Char × List Char
  | [] => ([], [])
  | c :: r =>
    if isBlank c then spanToken (c :: blanks) r
    else if isTokenChar c && (blanks.isEmpty || (c != '"' && c != '\'')) then
      let (token, rest) := spanToken [] r
      (blanks.reverse ++ c :: token, rest)
    else ([], c :: r)

/-- Reads an unquoted value. -/
def read? (cs : List Char) : Option (Scalar × List Char) :=
  let (token, r) := spanToken [] cs
  (ofToken? token).map fun scalar => (scalar, r)

end Scalar

end KeywordRules.Toml
