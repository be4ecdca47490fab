import KeywordRules.Member.Annotation
import KeywordRules.Member.Javadoc
import KeywordRules.Member.Kind

/-!
# Generated members

The classes, methods and fields of the code being generated. Every member has a name and a comment;
a field also has a type and annotations. Attaching an annotation leaves a field alone that already
carries it. A field that was read from a text may carry one annotation several times.
-/

namespace KeywordRules

/-- What a member is, with what only that kind of member has. -/
inductive Role where
  | classType
  | method
  | field (typeName : String) (annotations : List Annotation)
  deriving DecidableEq, Repr

/-- A member of the generated code. -/
structure Member where
  /-- The name in the generated source. -/
  name : String
  /-- The documentation comment. -/
  javadoc : Javadoc
  /-- What the member is. -/
  role : Role
  deriving DecidableEq, Repr

namespace Role

/-- The kind of a member. -/
def kind : Role → Kind
  | .classType => .classType
  | .method => .method
  | .field _ _ => .field

end Role

namespace Member

/-- A class without comment. -/
def ofClass (name : String) : Member := ⟨name, .empty, .classType⟩

/-- A method without comment. -/
def ofMethod (name : String) : Member := ⟨name, .empty, .method⟩

/-- A field without comment and annotations. -/
def ofField (name typeName : String) : Member := ⟨name, .empty, .field typeName []⟩

/-- Whether the member is a field. -/
def isField (m : Member) : Bool :=
  match m.role with
  | .field _ _ => true
  | _ => false

/-- The declared type of a field. -/
def typeName? (m : Member) : Option String :=
  match m.role with
  | .field typeName _ => some typeName
  | _ => none

/-- The annotations of a field; other members have none. -/
def annotations (m : Member) : List Annotation :=
  match m.role with
  | .field _ annotations => annotations
  | _ => []

/-- Whether a field carries an annotation. -/
def carries (a : Annotation) (m : Member) : Bool :=
  m.annotations.contains a

/-- The member with one more part of comment. -/
def document (part : String) (m : Member) : Member :=
  { m with javadoc := m.javadoc.append part }

/-- The field with an annotation added behind the others, unless it carries it already; other members
stay as they are. -/
def attach (a : Annotation) (m : Member) : Member :=
  match m.role with
  | .field typeName annotations =>
    if annotations.contains a then m else { m with role := .field typeName (annotations ++ [a]) }
  | _ => m

/-- A field gains an annotation exactly if it does not carry it yet. -/
theorem annotations_attach (a : Annotation) (m : Member) :
    (m.attach a).annotations =
      if m.isField = true ∧ a ∉ m.annotations then m.annotations ++ [a] else m.annotations := by
  obtain ⟨name, javadoc, role⟩ := m
  cases role with
  | classType => simp [attach, annotations, isField]
  | method => simp [attach, annotations, isField]
  | field typeName as =>
    by_cases h : a ∈ as <;> simp [attach, annotations, isField, h]

end Member

end KeywordRules
