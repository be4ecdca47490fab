import KeywordRules.Member.Annotation
import KeywordRules.Text.Words

/-!
# Branches of the rule

The decisions that the rule reports to its observer. Applying the rule is one of two branches; each
annotation that it calls for is a branch of its own.
-/

namespace KeywordRules

/-- A decision that the rule has taken. -/
inductive Branch where
  /-- The property is required; the note was added to the comment. -/
  | required
  /-- A required field was to get the validation constraint. -/
  | notNullAnnotated
  /-- A required field was to get the hint that it is never null. -/
  | nonnullAnnotated
  /-- The property is not required. -/
  | notRequired
  /-- A field that is not required was to get the hint that it may be null. -/
  | nullableAnnotated
  deriving DecidableEq, Repr

namespace Branch

/-- Every branch, in the order of reports. -/
def all : List Branch :=
  [.required, .notNullAnnotated, .nonnullAnnotated, .notRequired, .nullableAnnotated]

/-- The label of a branch. -/
def label : Branch → String
  | .required => "required"
  | .notNullAnnotated => "not_null_annotated"
  | .nonnullAnnotated => "nonnull_annotated"
  | .notRequired => "not_required"
  | .nullableAnnotated => "nullable_annotated"

/-- The name of a branch, with a capital at the start of each word. -/
def name : Branch → String
  | .required => "Required"
  | .notNullAnnotated => "NotNullAnnotated"
  | .nonnullAnnotated => "NonnullAnnotated"
  | .notRequired => "NotRequired"
  | .nullableAnnotated => "NullableAnnotated"

/-- The word for a branch in JSON: its name in lower case. -/
def word (branch : Branch) : String :=
  Text.snakeCase branch.name

/-- The place of the counter of a branch. -/
def index : Branch → Fin 5
  | .required => 0
  | .notNullAnnotated => 1
  | .nonnullAnnotated => 2
  | .notRequired => 3
  | .nullableAnnotated => 4

/-- The branch with a given label. -/
def ofLabel? (label : String) : Option Branch :=
  all.find? fun branch => branch.label == label

/-- No two branches share a counter. -/
theorem index_injective : Function.Injective index := by
  intro branch branch' h
  cases branch <;> cases branch' <;> first | rfl | exact absurd h (by decide)

/-- There is no counter without a branch. -/
theorem exists_index_eq (i : Fin 5) : ∃ branch, index branch = i := by
  match i with
  | 0 => exact ⟨.required, rfl⟩
  | 1 => exact ⟨.notNullAnnotated, rfl⟩
  | 2 => exact ⟨.nonnullAnnotated, rfl⟩
  | 3 => exact ⟨.notRequired, rfl⟩
  | 4 => exact ⟨.nullableAnnotated, rfl⟩

/-- JSON names a branch by its label. -/
theorem word_eq_label (branch : Branch) : branch.word = branch.label := by
  cases branch <;> rfl

theorem ofLabel?_label (branch : Branch) : ofLabel? branch.label = some branch := by
  cases branch <;> rfl

end Branch

/-- The branch of an annotation that is called for. -/
def Annotation.branch : Annotation → Branch
  | .notNull => .notNullAnnotated
  | .nonnull => .nonnullAnnotated
  | .nullable => .nullableAnnotated

end KeywordRules
