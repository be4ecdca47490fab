import KeywordRules.Form.Draft
import KeywordRules.Json.Conversion

/-!
# The JSON form of a member

A member is an object whose key `kind` says what it is. The other pairs fill the slots of that kind,
each at most once, in any order and between pairs that no slot wants. An array stands for the object
with the same tag and the slots filled in their order. The tag comes first in every respect: it is
looked for in the whole text before any slot is filled, and everything else has to be sound JSON before
a slot can be found unfit.
-/

namespace KeywordRules

open KeywordRules.Json

namespace Kind

/-- The kind that a tag names. -/
def ofDocument : Document → Except Fault Kind
  | .string (some word) =>
    match ofWord? word with
    | some kind => .ok kind
    | none => .error (.unfit (.unknownVariant word (all.map Kind.word)))
  | d => .error (d.mismatch .memberTag)

end Kind

namespace Member

/-- The key of the tag. -/
def tagKey : String := "kind"

/-- The pairs of the JSON form; annotations are left out when there are none. -/
def toPairs (m : Member) : List (String × Document) :=
  [(tagKey, .text m.role.kind.word), (Slot.name.key, .text m.name)] ++
    (match m.role with
      | .field typeName _ => [(Slot.typeName.key, .text typeName)]
      | _ => []) ++
    [(Slot.javadoc.key, m.javadoc.toDocument)] ++
    (match m.annotations with
      | [] => []
      | as => [(Slot.annotations.key, .list (as.map Annotation.toDocument))])

/-- The JSON form of a member. -/
def toDocument (m : Member) : Document :=
  .record m.toPairs

/-- The compact text of a member. -/
def compact (m : Member) : String :=
  m.toDocument.compact

/-- Whether a value inside a member is sound JSON. -/
def isSound (value : Document) : Bool :=
  (value.valueWithin? (Document.depthLimit - 1)).isSome

/-- The tag and the other pairs of an object, in text order; `tag` is what came before. -/
def splitTag (tag : Option Kind) :
    List (Document × Document) → Except Fault (Option Kind × List (String × Document))
  | [] => .ok (tag, [])
  | (.string (some key), value) :: rest =>
    if key = tagKey then
      match tag with
      | some _ => .error (.unfit (.duplicateField tagKey))
      | none => do splitTag (some (← Kind.ofDocument value)) rest
    else if isSound value then do
      let (tag, pairs) ← splitTag tag rest
      return (tag, (key, value) :: pairs)
    else .error .malformed
  | _ :: _ => .error .malformed

/-- The member of a kind with the given pairs. -/
def ofPairs (kind : Kind) (pairs : List (String × Document)) : Except Fault Member := do
  let draft ← pairs.foldlM (Draft.take kind) Draft.blank
  draft.finish kind

/-- The member of a kind whose slots hold the given items. -/
def ofItems (kind : Kind) (items : List Document) : Except Fault Member := do
  let draft ← (kind.slots.zip items).foldlM (fun draft (slot, item) => draft.fill slot item)
    Draft.blank
  if items.length < kind.needed then throw (.unfit (.tooFew items.length kind))
  if kind.slots.length < items.length then
    throw (.unfit (.tooMany items.length kind.slots.length))
  draft.finish kind

/-- The member of a document. -/
def ofDocument : Document → Except Fault Member
  | .object pairs closed => do
    let (tag, pairs) ← splitTag none pairs
    if !closed then throw .malformed
    let some kind := tag | throw (.unfit (.missingField tagKey))
    ofPairs kind pairs
  | .array [] closed => .error (if closed then .unfit (.missingField tagKey) else .malformed)
  | .array (tag :: items) closed => do
    let kind ← Kind.ofDocument tag
    if closed && items.all isSound then ofItems kind items else throw .malformed
  | d => .error (d.mismatch .member)

/-- Reads a member from a text. -/
def parse (text : String) : Except Fault Member :=
  Document.parse ofDocument text

end Member

end KeywordRules
