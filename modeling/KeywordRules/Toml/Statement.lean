import KeywordRules.Toml.Scalar
import KeywordRules.Toml.Text

/-!
# TOML statements

A TOML text is a list of statements, one to a line: assignments of a value to a key, and headers of
tables. `readStatements` reads them; what they build is the business of `Toml.Table`. Arrays may extend
over several lines and end with a comma, tables in braces may do neither, and the two may be nested at
most `nestingLimit` deep.
-/

namespace KeywordRules.Toml

/-- A value as it is written. -/
inductive Literal where
  | scalar (s : Scalar)
  | array (items : List Literal)
  /-- A table in braces, with its assignments in text order. -/
  | braced (pairs : List (List String × Literal))
  deriving Repr, Inhabited

/-- A header: of a table, or of one more table of an array. -/
inductive Header where
  | table (key : List String)
  | element (key : List String)
  deriving DecidableEq, Repr

/-- A statement. -/
inductive Statement where
  | assign (key : List String) (value : Literal)
  | header (h : Header)
  deriving Repr

/-- How deep arrays and tables in braces may be nested. -/
def nestingLimit : Nat := 80

/-! ## Line ends and comments -/

/-- A text without the blanks, line ends and comments at its start. -/
def skipLines (inComment : Bool) : List Char → Option (List Char)
  | [] => some []
  | c :: r =>
    if c = '\n' then skipLines false r
    else if c = '\r' then
      match r with
      | '\n' :: _ => skipLines inComment r
      | _ => none
    else if inComment then if isControl c then none else skipLines true r
    else if isBlank c then skipLines false r
    else if c = '#' then skipLines true r
    else some (c :: r)

/-- The next line of a text on whose first line nothing but a comment is left. -/
def endLine (inComment : Bool) : List Char → Option (List Char)
  | [] => some []
  | c :: r =>
    if c = '\n' then some r
    else if c = '\r' then
      match r with
      | '\n' :: r' => some r'
      | _ => none
    else if inComment then if isControl c then none else endLine true r
    else if isBlank c then endLine false r
    else if c = '#' then endLine true r
    else none

/-! ## Values -/

mutual

/-- Reads a value within which containers may be nested `depth` deep. -/
def readValue : Nat → Nat → List Char → Option (Literal × List Char)
  | 0, _, _ => none
  | fuel + 1, depth, cs =>
    match cs with
    | [] => none
    | c :: r =>
      if c = '[' then
        match depth with
        | 0 => none
        | depth + 1 => (readItems fuel depth r).map fun (items, r) => (.array items, r)
      else if c = '\x7b' then
        match depth with
        | 0 => none
        | depth + 1 =>
          match skipBlank r with
          | '\x7d' :: r => some (.braced [], r)
          | r => (readPairs fuel depth r).map fun (pairs, r) => (.braced pairs, r)
      else if c = '"' ∨ c = '\'' then
        (readAnyString cs).map fun (s, r) => (.scalar (.string (String.ofList s)), r)
      else (Scalar.read? cs).map fun (s, r) => (.scalar s, r)

/-- Reads the items of an array up to its closing bracket. -/
def readItems : Nat → Nat → List Char → Option (List Literal × List Char)
  | 0, _, _ => none
  | fuel + 1, depth, cs => do
    match ← skipLines false cs with
    | ']' :: r => return ([], r)
    | r => do
      let (item, r) ← readValue fuel depth r
      match ← skipLines false r with
      | ',' :: r => do
        let (items, r) ← readItems fuel depth r
        return (item :: items, r)
      | ']' :: r => return ([item], r)
      | _ => none

/-- Reads the assignments of a table in braces up to its closing brace. -/
def readPairs : Nat → Nat → List Char → Option (List (List String × Literal) × List Char)
  | 0, _, _ => none
  | fuel + 1, depth, cs => do
    let (key, r) ← readKey keyLimit cs
    match skipBlank r with
    | '=' :: r => do
      let (value, r) ← readValue fuel depth (skipBlank r)
      match skipBlank r with
      | ',' :: r => do
        let (pairs, r) ← readPairs fuel depth r
        return ((key, value) :: pairs, r)
      | '\x7d' :: r => return ([(key, value)], r)
      | _ => none
    | _ => none

end

/-! ## Statements -/

/-- Reads a statement up to the end of its line. -/
def readStatement (cs : List Char) : Option (Statement × List Char) :=
  match cs with
  | '[' :: '[' :: r => do
    match ← readKey keyLimit r with
    | (key, ']' :: ']' :: r) => return (.header (.element key), r)
    | _ => none
  | '[' :: r => do
    match ← readKey keyLimit r with
    | (key, ']' :: r) => return (.header (.table key), r)
    | _ => none
  | r => do
    match ← readKey keyLimit r with
    | (key, '=' :: r) => do
      let r := skipBlank r
      let (value, r) ← readValue (2 * r.length + 2) nestingLimit r
      return (.assign key value, r)
    | _ => none

/-- Reads the statements of a text. -/
def readStatements : Nat → List Char → Option (List Statement)
  | 0, _ => none
  | fuel + 1, cs => do
    match ← skipLines false cs with
    | [] => return []
    | r => do
      let (statement, r) ← readStatement r
      let r ← endLine false r
      let statements ← readStatements fuel r
      return statement :: statements

/-- A text without the byte order mark at its start, if there is one. -/
def skipMark : List Char → List Char
  | '\uFEFF' :: r => r
  | r => r

/-- The statements of a text, if it is TOML line by line. -/
def statements? (text : String) : Option (List Statement) :=
  let cs := skipMark text.toList
  readStatements (cs.length + 1) cs

end KeywordRules.Toml
