/-!
# Annotations

The marks that a generated field can carry for bean validation and for nullness checkers.
-/

namespace KeywordRules

/-- An annotation of a generated field. -/
inductive Annotation where
  /-- A bean validation constraint. -/
  | notNull
  /-- A nullness hint: never null. -/
  | nonnull
  /-- A nullness hint: possibly null. -/
  | nullable
  deriving DecidableEq, Repr

namespace Annotation

/-- Every annotation, in the order of the list of known names. -/
def all : List Annotation :=
  [.notNull, .nonnull, .nullable]

/-- The name of the annotation type within its package. -/
def simpleName : Annotation → String
  | .notNull => "NotNull"
  | .nonnull => "Nonnull"
  | .nullable => "Nullable"

/-- The full name of the annotation type. -/
def qualifiedName : Annotation → String
  | .notNull => "javax.validation.constraints.NotNull"
  | .nonnull => "javax.annotation.Nonnull"
  | .nullable => "javax.annotation.Nullable"

/-- The annotation as it is written above a field. -/
def marker (a : Annotation) : String :=
  "@" ++ a.simpleName

/-- The annotation with a given simple name. -/
def ofName? (name : String) : Option Annotation :=
  all.find? fun a => a.simpleName == name

end Annotation

end KeywordRules
