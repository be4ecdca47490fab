import KeywordRules.Json.Value
import KeywordRules.Text.Blank

/-!
# Schema nodes

A schema node is a value of a schema document, such as the one under the keyword `required`. Rules
read it through two questions: which node lies under a key, and is the node to be taken as true.
-/

namespace KeywordRules.Json.Value

/-- The field of an object under a key; no other value has fields. -/
def get? (key : String) : Value → Option Value
  | .object fields => fields.lookup key
  | _ => none

/-- The node reached by following keys one after another. -/
def find? (keys : List String) (node : Value) : Option Value :=
  keys.foldl (fun reached key => reached.bind (get? key)) (some node)

/-- The nodes reached after each of the keys. -/
def trail (keys : List String) (node : Value) : List (Option Value) :=
  (List.range keys.length).map fun n => node.find? (keys.take (n + 1))

/-- Whether a node counts as true: `true`, an integer other than zero, or a string that reads `true`
between white space. -/
def asBoolean : Value → Bool
  | .bool b => b
  | .int n => n != 0
  | .string s => Text.trim s.toList == ['t', 'r', 'u', 'e']
  | .null | .float _ | .array _ | .object _ => false

end KeywordRules.Json.Value
