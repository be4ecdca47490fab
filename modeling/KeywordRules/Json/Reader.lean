import KeywordRules.Json.Document

/-!
# Reading a document

`Document.read` reads a text of any kind: a faulty one gives the document up to the first fault. The
`fuel` of the inner functions bounds their recursion. Every call on a value or on a list of values
either ends or has consumed a character before the next call of its kind, so twice the length of the
text is enough.
-/

namespace KeywordRules.Json

/-- Whether a character may stand between the tokens of a document. -/
def isSpace (c : Char) : Bool :=
  c = ' ' || c = '\t' || c = '\n' || c = '\r'

/-- A text without the space at its start. -/
def skipSpace (cs : List Char) : List Char :=
  cs.dropWhile isSpace

namespace Document

/-- Reads the rest of a literal word. -/
def readWord (word : String) (value : Document) (cs : List Char) : Document × Option (List Char) :=
  match word.toList.isPrefixOf? cs with
  | some rest => (value, some rest)
  | none => (.broken, none)

mutual

/-- Reads a value, and says what follows it unless there is a fault. -/
def readValue : Nat → List Char → Document × Option (List Char)
  | 0, _ => (.broken, none)
  | fuel + 1, cs =>
    match skipSpace cs with
    | [] => (.broken, none)
    | c :: r =>
      if c = '"' then
        match Lexeme.read r with
        | some (text?, rest) => (.string text?, some rest)
        | none => (.broken, none)
      else if c = '[' then
        match skipSpace r with
        | ']' :: rest => (.array [] true, some rest)
        | r =>
          let (items, rest) := readItems fuel r
          (.array items rest.isSome, rest)
      else if c = '\x7b' then
        match skipSpace r with
        | '\x7d' :: rest => (.object [] true, some rest)
        | r =>
          let (pairs, rest) := readPairs fuel r
          (.object pairs rest.isSome, rest)
      else if c = 'n' then readWord "ull" .null r
      else if c = 't' then readWord "rue" (.bool true) r
      else if c = 'f' then readWord "alse" (.bool false) r
      else
        match Numeral.read (c :: r) with
        | some (literal, rest) => (.number literal, some rest)
        | none => (.broken, none)

/-- Reads the items of an array from the first one to the closing bracket. -/
def readItems : Nat → List Char → List Document × Option (List Char)
  | 0, _ => ([], none)
  | fuel + 1, cs =>
    match readValue fuel cs with
    | (item, none) => ([item], none)
    | (item, some r) =>
      match skipSpace r with
      | ',' :: r =>
        let (items, rest) := readItems fuel r
        (item :: items, rest)
      | ']' :: rest => ([item], some rest)
      | _ => ([item], none)

/-- Reads the pairs of an object from the first key to the closing brace. -/
def readPairs : Nat → List Char → List (Document × Document) × Option (List Char)
  | 0, _ => ([], none)
  | fuel + 1, cs =>
    match readValue fuel cs with
    | (.string text?, some r) =>
      match skipSpace r with
      | ':' :: r =>
        match readValue fuel r with
        | (value, none) => ([(.string text?, value)], none)
        | (value, some r) =>
          match skipSpace r with
          | ',' :: r =>
            let (pairs, rest) := readPairs fuel r
            ((.string text?, value) :: pairs, rest)
          | '\x7d' :: rest => ([(.string text?, value)], some rest)
          | _ => ([(.string text?, value)], none)
      | _ => ([(.string text?, .broken)], none)
    | (key, _) => ([(key, .broken)], none)

end

/-- What was read of a text. -/
structure Reading where
  /-- The document at the start of the text. -/
  document : Document
  /-- Whether the document is without a fault and nothing but space follows it. -/
  complete : Bool

/-- Reads a text. -/
def read (text : String) : Reading :=
  let cs := text.toList
  match readValue (2 * cs.length + 2) cs with
  | (document, none) => ⟨document, false⟩
  | (document, some rest) => ⟨document, (skipSpace rest).isEmpty⟩

end Document

end KeywordRules.Json
