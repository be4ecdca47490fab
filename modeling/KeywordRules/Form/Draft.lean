import KeywordRules.Form.Annotation
import KeywordRules.Form.Javadoc
import KeywordRules.Member.Basic

/-!
# Members in the making

A member is read by filling the slots of its kind. Each slot takes a value that fits it and only once;
some slots have to be filled before the member is finished.
-/

namespace KeywordRules

open KeywordRules.Json

/-! ## Slots -/

/-- What a pair of a member object can fill. -/
inductive Slot where
  | name
  | typeName
  | javadoc
  | annotations
  deriving DecidableEq, Repr

namespace Slot

/-- The key of a slot. -/
def key : Slot → String
  | .name => "name"
  | .typeName => "type_name"
  | .javadoc => "javadoc"
  | .annotations => "annotations"

end Slot

namespace Kind

/-- The slots of a kind, in the order of the positional form. -/
def slots : Kind → List Slot
  | .classType | .method => [.name, .javadoc]
  | .field => [.name, .typeName, .javadoc, .annotations]

/-- How many of the slots, counted from the first, have to be filled. -/
def needed : Kind → Nat
  | .classType | .method => 1
  | .field => 2

/-- The slot of a kind with a given key. -/
def slot? (kind : Kind) (key : String) : Option Slot :=
  kind.slots.find? fun slot => slot.key == key

end Kind

/-! ## Drafts -/

/-- A member in the making: the slots filled so far. -/
structure Draft where
  name : Option String
  typeName : Option String
  javadoc : Option Javadoc
  annotations : Option (List Annotation)
  deriving DecidableEq, Repr

namespace Draft

/-- The draft with no slot filled. -/
def blank : Draft := ⟨none, none, none, none⟩

/-- Whether a slot is filled. -/
def isFilled (draft : Draft) : Slot → Bool
  | .name => draft.name.isSome
  | .typeName => draft.typeName.isSome
  | .javadoc => draft.javadoc.isSome
  | .annotations => draft.annotations.isSome

/-- The annotations of a list, in its order and with its repetitions. -/
def annotationList : Document → Except Fault (List Annotation)
  | .array items _ => items.mapM Annotation.ofDocument
  | d => .error (d.mismatch .sequence)

/-- Fills a slot with a value that fits it. -/
def fill (draft : Draft) (slot : Slot) (value : Document) : Except Fault Draft :=
  match slot with
  | .name => do return { draft with name := some (← value.asString) }
  | .typeName => do return { draft with typeName := some (← value.asString) }
  | .javadoc => do return { draft with javadoc := some (← Javadoc.ofDocument value) }
  | .annotations => do return { draft with annotations := some (← annotationList value) }

/-- Takes a pair: a second one for a slot is refused whatever it holds, and a key without a slot is
passed over. -/
def take (kind : Kind) (draft : Draft) (pair : String × Document) : Except Fault Draft :=
  match kind.slot? pair.1 with
  | none => .ok draft
  | some slot =>
    if draft.isFilled slot then .error (.unfit (.duplicateField slot.key))
    else draft.fill slot pair.2

/-- The member of a draft; a slot that has to be filled is missed in the order of the slots. -/
def finish (kind : Kind) (draft : Draft) : Except Fault Member := do
  let some name := draft.name | throw (.unfit (.missingField Slot.name.key))
  let javadoc := draft.javadoc.getD .empty
  match kind with
  | .classType => return ⟨name, javadoc, .classType⟩
  | .method => return ⟨name, javadoc, .method⟩
  | .field =>
    let some typeName := draft.typeName | throw (.unfit (.missingField Slot.typeName.key))
    return ⟨name, javadoc, .field typeName (draft.annotations.getD [])⟩

end Draft

end KeywordRules
