import KeywordRules.Json.Lexeme
import KeywordRules.Json.Numeral

/-!
# Documents

A document keeps what a text says in the order of the text: object pairs as they stand, repeated keys
included, and number literals by their digits. It also keeps how far a faulty text could be read: the
place of the first fault is a `broken` leaf or a container that is not closed, and nothing that
follows a fault is part of the document. A reader of documents can therefore tell which of two defects
comes first in the text.
-/

namespace KeywordRules.Json

/-- What a text says, up to its first fault. -/
inductive Document where
  | null
  | bool (b : Bool)
  | number (literal : Numeral)
  /-- A string literal; a surrogate without a partner leaves it without a text. -/
  | string (text? : Option String)
  /-- An array, and whether its closing bracket was reached. -/
  | array (items : List Document) (closed : Bool)
  /-- An object with its pairs of key and value in text order, and whether its closing brace was
  reached. A key that is no string literal is the last one of a faulty object. -/
  | object (pairs : List (Document × Document)) (closed : Bool)
  /-- The place where a value was due and none could be read. -/
  | broken
  deriving Repr, Inhabited

namespace Document

/-- A string. -/
def text (s : String) : Document :=
  .string (some s)

/-- An integer. -/
def int (n : Int) : Document :=
  .number (Numeral.ofInt n)

/-- A complete array. -/
def list (items : List Document) : Document :=
  .array items true

/-- A complete object. -/
def record (pairs : List (String × Document)) : Document :=
  .object (pairs.map fun pair => (text pair.1, pair.2)) true

end Document

end KeywordRules.Json
