/-!
# Kinds of members

The three kinds of generated members and the words that name them in a text.
-/

namespace KeywordRules

/-- What a generated member is. -/
inductive Kind where
  | classType
  | method
  | field
  deriving DecidableEq, Repr

namespace Kind

/-- Every kind, in the order of the list of known words. -/
def all : List Kind :=
  [.classType, .method, .field]

/-- The word for a kind. -/
def word : Kind → String
  | .classType => "class"
  | .method => "method"
  | .field => "field"

/-- The kind with a given word. -/
def ofWord? (word : String) : Option Kind :=
  all.find? fun kind => kind.word == word

end Kind

end KeywordRules
