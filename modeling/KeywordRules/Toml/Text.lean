import KeywordRules.Text.Decimal

/-!
# TOML strings and keys

The four kinds of strings and the keys that are made of names and points. Control characters other
than the tab stand in no string and no comment; a line ends with a line feed, with or without a
carriage return before it, and a carriage return stands nowhere else.
-/

namespace KeywordRules.Toml

open KeywordRules.Text

/-- Whether a character is a space or a tab. -/
def isBlank (c : Char) : Bool :=
  c == ' ' || c == '\t'

/-- A text without the spaces and tabs at its start. -/
def skipBlank (cs : List Char) : List Char :=
  cs.dropWhile isBlank

/-- Whether a character may not stand for itself within a line. -/
def isControl (c : Char) : Bool :=
  (decide (c.toNat < 0x20) && c != '\t') || c.toNat == 0x7F

/-! ## Strings -/

/-- The character that a one-letter escape stands for. -/
def unescape? : Char → Option Char
  | '"' => some '"'
  | '\\' => some '\\'
  | 'b' => some '\x08'
  | 'f' => some '\x0c'
  | 'n' => some '\n'
  | 'r' => some '\r'
  | 't' => some '\t'
  | _ => none

/-- The character with a hexadecimal number; a surrogate has none. -/
def numbered? (cs : List Char) : Option Char :=
  (ofHexDigits? cs).bind fun n =>
    if n < 0xD800 ∨ 0xDFFF < n ∧ n < 0x110000 then some (Char.ofNat n) else none

/-- Reads an escape whose backslash has been read. -/
def readEscape : List Char → Option (Char × List Char)
  | 'u' :: a :: b :: c :: d :: r => (numbered? [a, b, c, d]).map fun ch => (ch, r)
  | 'U' :: a :: b :: c :: d :: e :: f :: g :: h :: r =>
    (numbered? [a, b, c, d, e, f, g, h]).map fun ch => (ch, r)
  | e :: r => (unescape? e).map fun ch => (ch, r)
  | [] => none

/-- Reads a string with escapes up to its closing quote; `before` holds what came before, the last
first. The `fuel` is at least the length of the text. -/
def readBasic (before : List Char) : Nat → List Char → Option (List Char × List Char)
  | 0, _ => none
  | _, [] => none
  | fuel + 1, c :: r =>
    if c = '"' then some (before.reverse, r)
    else if c = '\\' then
      match readEscape r with
      | some (ch, r) => readBasic (ch :: before) fuel r
      | none => none
    else if isControl c then none
    else readBasic (c :: before) fuel r

/-- Reads a string without escapes up to its closing quote. -/
def readPlain (before : List Char) : List Char → Option (List Char × List Char)
  | [] => none
  | c :: r =>
    if c = '\'' then some (before.reverse, r)
    else if isControl c then none
    else readPlain (c :: before) r

/-- Closes a string over several lines after three quotes: up to two more quotes belong to it. -/
def closeLines (quote : Char) (before r : List Char) : List Char × List Char :=
  match r with
  | c :: d :: r' =>
    if c = quote then
      if d = quote then ((quote :: quote :: before).reverse, r')
      else ((quote :: before).reverse, d :: r')
    else (before.reverse, r)
  | [c] => if c = quote then ((quote :: before).reverse, []) else (before.reverse, r)
  | [] => (before.reverse, r)

/-- A text without the line end at its start, if there is one. -/
def skipLineEnd : List Char → List Char
  | '\n' :: r => r
  | '\r' :: '\n' :: r => r
  | r => r

/-- Whether blanks and line ends are skipped in a string over several lines: never, after a backslash
that a line end has to follow, or after that line end. -/
inductive Skipping where
  | no
  | due
  | done
  deriving DecidableEq, Repr

/-- Reads a string with escapes over several lines up to its closing quotes. -/
def readBasicLines (before : List Char) (skipping : Skipping) :
    Nat → List Char → Option (List Char × List Char)
  | 0, _ => none
  | _, [] => none
  | fuel + 1, c :: r =>
    if skipping ≠ .no ∧ isBlank c = true then readBasicLines before skipping fuel r
    else if c = '\r' then
      match r with
      | '\n' :: _ => readBasicLines before skipping fuel r
      | _ => none
    else if c = '\n' then
      match skipping with
      | .no => readBasicLines (c :: before) .no fuel r
      | _ => readBasicLines before .done fuel r
    else if skipping = .due then none
    else if c = '"' then
      match r with
      | '"' :: '"' :: r' => some (closeLines '"' before r')
      | _ => readBasicLines (c :: before) .no fuel r
    else if c = '\\' then
      match r with
      | d :: _ =>
        if isBlank d ∨ d = '\n' ∨ d = '\r' then readBasicLines before .due fuel r
        else
          match readEscape r with
          | some (ch, r) => readBasicLines (ch :: before) .no fuel r
          | none => none
      | [] => none
    else if isControl c then none
    else readBasicLines (c :: before) .no fuel r

/-- Reads a string without escapes over several lines up to its closing quotes. -/
def readPlainLines (before : List Char) : List Char → Option (List Char × List Char)
  | [] => none
  | c :: r =>
    if c = '\r' then
      match r with
      | '\n' :: _ => readPlainLines before r
      | _ => none
    else if c = '\n' then readPlainLines (c :: before) r
    else if c = '\'' then
      match r with
      | '\'' :: '\'' :: r' => some (closeLines '\'' before r')
      | _ => readPlainLines (c :: before) r
    else if isControl c then none
    else readPlainLines (c :: before) r

/-- Reads a string on one line. -/
def readString : List Char → Option (List Char × List Char)
  | '"' :: r => readBasic [] r.length r
  | '\'' :: r => readPlain [] r
  | _ => none

/-- Reads a string of any kind; a line end right after three opening quotes is not part of it. -/
def readAnyString : List Char → Option (List Char × List Char)
  | '"' :: '"' :: '"' :: r => readBasicLines [] .no r.length (skipLineEnd r)
  | '\'' :: '\'' :: '\'' :: r => readPlainLines [] (skipLineEnd r)
  | r => readString r

/-! ## Keys -/

/-- Whether a character can be part of an unquoted name. -/
def isNameChar (c : Char) : Bool :=
  c.isAlphanum || c == '_' || c == '-'

/-- Reads one name of a key. -/
def readName (cs : List Char) : Option (String × List Char) :=
  match cs with
  | c :: _ =>
    if c = '"' ∨ c = '\'' then (readString cs).map fun (name, r) => (String.ofList name, r)
    else if isNameChar c then
      some (String.ofList (cs.takeWhile isNameChar), cs.dropWhile isNameChar)
    else none
  | [] => none

/-- How many names a key may have. -/
def keyLimit : Nat := 80

/-- Reads a key of at most `limit` names, with points between them and blanks around each. -/
def readKey : (limit : Nat) → List Char → Option (List String × List Char)
  | 0, _ => none
  | limit + 1, cs => do
    let (name, r) ← readName (skipBlank cs)
    match skipBlank r with
    | '.' :: r => do
      let (names, r) ← readKey limit r
      return (name :: names, r)
    | r => return ([name], r)

end KeywordRules.Toml
