import KeywordRules.Json.Document
import KeywordRules.Json.Value

/-!
# Documents and values

`Document.value?` gives the value of a document, unless the document has a fault, a number too large for
a double, a string that is no text, or arrays and objects nested deeper than the limit.
`Value.document?` goes back, unless the value has a double in it, and yields the one document with the
fields in key order.
-/

namespace KeywordRules.Json

namespace Value

/-- The value of a number. -/
def ofNumber : Number → Value
  | .int n => .int n
  | .float x => .float x

end Value

namespace Document

/-- How deep arrays and objects of a document may be nested. -/
def depthLimit : Nat := 127

mutual

/-- The value of a document whose containers are nested at most `depth` deep. -/
def valueWithin? (depth : Nat) : Document → Option Value
  | .null => some .null
  | .bool b => some (.bool b)
  | .number literal => literal.value?.map Value.ofNumber
  | .string text? => text?.map .string
  | .array items closed =>
    match depth with
    | 0 => none
    | depth + 1 => if closed then (itemsWithin? depth items).map .array else none
  | .object pairs closed =>
    match depth with
    | 0 => none
    | depth + 1 =>
      if closed then (pairsWithin? depth pairs).map fun ps => .object (Value.ofPairs ps) else none
  | .broken => none

/-- The values of the items of an array. -/
def itemsWithin? (depth : Nat) : List Document → Option (List Value)
  | [] => some []
  | item :: rest => do
    let value ← valueWithin? depth item
    let values ← itemsWithin? depth rest
    return value :: values

/-- The pairs of an object with their values, in text order. -/
def pairsWithin? (depth : Nat) : List (Document × Document) → Option (List (String × Value))
  | [] => some []
  | (.string (some key), item) :: rest => do
    let value ← valueWithin? depth item
    let pairs ← pairsWithin? depth rest
    return (key, value) :: pairs
  | _ :: _ => none

end

/-- The value of a document. -/
def value? (d : Document) : Option Value :=
  d.valueWithin? depthLimit

end Document

namespace Value

mutual

/-- The document of a value, unless a double occurs in it. -/
def document? : Value → Option Document
  | .null => some .null
  | .bool b => some (.bool b)
  | .int n => some (.int n)
  | .float _ => none
  | .string s => some (.text s)
  | .array items => (documents? items).map .list
  | .object fields => (fieldDocuments? fields).map .record

/-- The documents of a list of values. -/
def documents? : List Value → Option (List Document)
  | [] => some []
  | value :: rest => do
    let item ← document? value
    let items ← documents? rest
    return item :: items

/-- The documents of a list of fields. -/
def fieldDocuments? : List (String × Value) → Option (List (String × Document))
  | [] => some []
  | (key, value) :: rest => do
    let item ← document? value
    let pairs ← fieldDocuments? rest
    return (key, item) :: pairs

end

end Value

end KeywordRules.Json
