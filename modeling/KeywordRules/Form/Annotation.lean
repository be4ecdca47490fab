import KeywordRules.Form.Fault
import KeywordRules.Json.Writer
import KeywordRules.Member.Annotation

/-!
# The JSON form of an annotation

An annotation is written as its simple name. It is also read from an object whose only key is that name;
what may stand under the key depends on whether the annotation is part of a member or a whole text.
-/

namespace KeywordRules

open KeywordRules.Json

namespace Annotation

/-- The JSON form of an annotation is its simple name. -/
def toDocument (a : Annotation) : Document :=
  .text a.simpleName

/-- The compact text of an annotation. -/
def compact (a : Annotation) : String :=
  a.toDocument.compact

/-- The annotation of a name, or the fault of an unknown one. -/
def named (name : String) : Except Fault Annotation :=
  match ofName? name with
  | some a => .ok a
  | none => .error (.unfit (.unknownVariant name (all.map simpleName)))

/-- An annotation inside a member: its name, or an object with that one key and nothing of note under
it. -/
def ofDocument : Document → Except Fault Annotation
  | .string (some name) => named name
  | .object [(.string (some name), value)] _ => do
    let a ← named name
    match value with
    | .null => return a
    | .object [] _ => return a
    | d => throw (d.mismatch .unit)
  | .object _ _ => .error (.unfit .notSinglePair)
  | d => .error (d.mismatch .nameOrPair)

/-- An annotation that is a whole document: its name, or an object with that one key and `null` under
it. What stands there instead of the `null` is found unfit as soon as it has been read; a key that is no
string is malformed. -/
def ofWholeDocument : Document → Except Fault Annotation
  | .string (some name) => named name
  | .object ((key, value) :: rest) closed => do
    let a ←
      match key with
      | .string (some name) => named name
      | _ => .error .malformed
    match value with
    | .null => if rest.isEmpty && closed then return a else throw .malformed
    | d => throw (d.mismatch .unit)
  | _ => .error .malformed

/-- Reads an annotation from a text. -/
def parse (text : String) : Except Fault Annotation :=
  Document.parse ofWholeDocument text

end Annotation

end KeywordRules
