import KeywordRules.Form.Fault
import KeywordRules.Json.Writer
import KeywordRules.Member.Javadoc

/-!
# The JSON form of a comment

A comment is written as the array of its parts.
-/

namespace KeywordRules

open KeywordRules.Json

namespace Javadoc

/-- The JSON form of a comment is the list of its parts. -/
def toDocument (doc : Javadoc) : Document :=
  .list (doc.parts.map .text)

/-- The compact text of a comment. -/
def compact (doc : Javadoc) : String :=
  doc.toDocument.compact

/-- A comment is an array of strings. -/
def ofDocument : Document → Except Fault Javadoc
  | .array items closed => do
    let parts ← items.mapM Document.asString
    if closed then return ⟨parts⟩ else throw .malformed
  | d => .error (d.mismatch .sequence)

/-- Reads a comment from a text. -/
def parse (text : String) : Except Fault Javadoc :=
  Document.parse ofDocument text

end Javadoc

end KeywordRules
