import KeywordRules.Form.Fault
import KeywordRules.Json.Conversion
import KeywordRules.Json.Writer
import KeywordRules.Schema

/-!
# The JSON form of a schema node

Any JSON text is a node. The compact text of a node is defined where no double occurs in it.
-/

namespace KeywordRules.Json.Value

/-- The node of a document. -/
def ofDocument (d : Document) : Except Fault Value :=
  match d.value? with
  | some node => .ok node
  | none => .error .malformed

/-- Reads a node from a text. -/
def parse (text : String) : Except Fault Value :=
  Document.parse ofDocument text

/-- The compact text of a node, unless a double occurs in it. -/
def compact? (node : Value) : Option String :=
  node.document?.map Document.compact

end KeywordRules.Json.Value
