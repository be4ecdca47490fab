import KeywordRules.Json.Document

/-!
# Writing a document

The compact text of a document: no space between tokens, pairs in their order. A document with a fault
is written as far as it goes, and a string without a text as a lone surrogate.
-/

namespace KeywordRules.Json.Document

mutual

/-- The characters of a document. -/
def render : Document → List Char
  | .null => "null".toList
  | .bool true => "true".toList
  | .bool false => "false".toList
  | .number literal => literal.render
  | .string none => ['"', '\\', 'u', 'd', '8', '0', '0', '"']
  | .string (some s) => Lexeme.render s
  | .array items closed => '[' :: (renderItems items ++ if closed then [']'] else [])
  | .object pairs closed => '\x7b' :: (renderPairs pairs ++ if closed then ['\x7d'] else [])
  | .broken => []

/-- The items of an array with commas between them. -/
def renderItems : List Document → List Char
  | [] => []
  | [item] => item.render
  | item :: next :: rest => item.render ++ ',' :: renderItems (next :: rest)

/-- The pairs of an object with commas between them. -/
def renderPairs : List (Document × Document) → List Char
  | [] => []
  | [(key, value)] => key.render ++ ':' :: value.render
  | (key, value) :: next :: rest =>
    key.render ++ ':' :: (value.render ++ ',' :: renderPairs (next :: rest))

end

/-- The compact text of a document. -/
def compact (d : Document) : String :=
  String.ofList d.render

end KeywordRules.Json.Document
