import KeywordRules.Json.Reader
import KeywordRules.Member.Kind
import KeywordRules.Number.Shortest
import KeywordRules.Text.Quoted

/-!
# Why a text is refused

A text is refused either because it is no JSON (`malformed`) or because its content does not fit what
is wanted (`unfit`), and then for one of a few causes. Each cause has one message. A container of the
wrong kind is refused on sight; a number or a string only after it has been read in full, so a faulty
one is malformed. `parse` reads a document and lets a decoder refuse it before it looks at what follows
the document.
-/

namespace KeywordRules

open KeywordRules.Json

/-- What a message says about the value that was found. -/
inductive Found where
  | null
  | bool (b : Bool)
  | int (n : Int)
  | float (x : Binary64)
  | string (s : String)
  | sequence
  | map
  deriving DecidableEq, Repr

/-- What was wanted in the place of a value. -/
inductive Wanted where
  | boolean
  | string
  | sequence
  | unit
  | config
  | options
  | memberTag
  | member
  /-- An annotation: its name, or an object with its name as the only key. -/
  | nameOrPair
  deriving DecidableEq, Repr

/-- Why well-formed content does not fit. -/
inductive Misfit where
  | invalidType (found : Found) (wanted : Wanted)
  /-- An annotation object that does not have exactly one pair. -/
  | notSinglePair
  | missingField (name : String)
  | duplicateField (name : String)
  | unknownVariant (name : String) (known : List String)
  /-- A positional member of a kind with too few elements after its tag. -/
  | tooFew (count : Nat) (kind : Kind)
  /-- A positional member with more elements after its tag than it has fields. -/
  | tooMany (count limit : Nat)
  deriving DecidableEq, Repr

/-- Why a text is refused. -/
inductive Fault where
  | malformed
  | unfit (cause : Misfit)
  deriving DecidableEq, Repr

/-! ## Messages -/

/-- A name between backticks. -/
def ticked (name : String) : String :=
  "\x60" ++ name ++ "\x60"

/-- A number in base ten. -/
def counted (n : Nat) : String :=
  String.ofList (Text.digits n)

namespace Found

/-- The words for a value that was found. -/
def message : Found → String
  | .null => "null"
  | .bool b => "boolean " ++ ticked (if b then "true" else "false")
  | .int n => "integer " ++ ticked (String.ofList (Text.signedDigits n))
  | .float x => "floating point " ++ ticked x.text
  | .string s => "string " ++ Text.quoted s
  | .sequence => "sequence"
  | .map => "map"

end Found

namespace Wanted

/-- The words for what was wanted. -/
def message : Wanted → String
  | .boolean => "a boolean"
  | .string => "a string"
  | .sequence => "a sequence"
  | .unit => "unit"
  | .config => "struct Config"
  | .options => "struct GenerationConfig"
  | .memberTag => "variant identifier"
  | .member => "internally tagged enum GeneratedMember"
  | .nameOrPair => "string or map"

end Wanted

namespace Misfit

/-- The words for the positional form of a kind. -/
def positionalForm : Kind → String
  | .classType => "struct ClassDecl with 2 elements"
  | .method => "struct MethodDecl with 2 elements"
  | .field => "struct FieldDecl with 4 elements"

/-- The message of a cause. -/
def message : Misfit → String
  | .invalidType found wanted => "invalid type: " ++ found.message ++ ", expected " ++ wanted.message
  | .notSinglePair => "invalid value: map, expected map with a single key"
  | .missingField name => "missing field " ++ ticked name
  | .duplicateField name => "duplicate field " ++ ticked name
  | .unknownVariant name known =>
    "unknown variant " ++ ticked name ++ ", expected one of " ++
      String.intercalate ", " (known.map ticked)
  | .tooFew count kind => "invalid length " ++ counted count ++ ", expected " ++ positionalForm kind
  | .tooMany count limit =>
    "invalid length " ++ counted count ++ ", expected " ++ counted limit ++ " elements in sequence"

end Misfit

/-! ## Decoding documents -/

namespace Json.Document

/-- What a message says about a document, if the document is good enough to be talked about. -/
def found? : Document → Option Found
  | .null => some .null
  | .bool b => some (.bool b)
  | .number literal =>
    literal.value?.map fun number =>
      match number with
      | .int n => .int n
      | .float x => .float x
  | .string text? => text?.map .string
  | .array _ _ => some .sequence
  | .object _ _ => some .map
  | .broken => none

/-- The fault of a document that stands where something else is wanted. -/
def mismatch (wanted : Wanted) (d : Document) : Fault :=
  match d.found? with
  | some found => .unfit (.invalidType found wanted)
  | none => .malformed

/-- The text of a string. -/
def asString : Document → Except Fault String
  | .string (some s) => .ok s
  | d => .error (d.mismatch .string)

/-- A boolean. -/
def asBool : Document → Except Fault Bool
  | .bool b => .ok b
  | d => .error (d.mismatch .boolean)

/-- Reads a text as whatever a decoder makes of its document. -/
def parse {α : Type} (decode : Document → Except Fault α) (text : String) : Except Fault α :=
  let reading := Document.read text
  match decode reading.document with
  | .error fault => .error fault
  | .ok result => if reading.complete then .ok result else .error .malformed

end Json.Document

end KeywordRules
