/-!
# Names made of words

A name of several words is written with a capital at the start of each word, or in lower case with
underscores between the words.
-/

namespace KeywordRules.Text

/-- A name with capitals, written in lower case: an underscore stands before every capital but one at
the start. -/
def snakeCase (name : String) : String :=
  match name.toList with
  | [] => ""
  | c :: cs =>
    String.ofList (c.toLower :: cs.flatMap fun c => if c.isUpper then ['_', c.toLower] else [c])

end KeywordRules.Text
