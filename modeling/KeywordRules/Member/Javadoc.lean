/-!
# Documentation comments

A comment is a list of text parts. Rules only ever append; the comment reads as its parts joined.
-/

namespace KeywordRules

/-- The documentation comment of a generated member. -/
structure Javadoc where
  /-- The parts, in the order in which they were appended. -/
  parts : List String
  deriving DecidableEq, Repr, Inhabited

namespace Javadoc

/-- The comment without parts. -/
def empty : Javadoc := ⟨[]⟩

/-- A comment that starts with a description. -/
def ofDescription (description : String) : Javadoc := ⟨[description]⟩

/-- A comment with one more part at its end. -/
def append (doc : Javadoc) (part : String) : Javadoc := ⟨doc.parts ++ [part]⟩

/-- The text of a comment. -/
def text (doc : Javadoc) : String := String.join doc.parts

/-- Whether a comment has no text; parts without text do not count. -/
def isEmpty (doc : Javadoc) : Bool := doc.parts.all String.isEmpty

/-- Appending a part appends its text. -/
theorem text_append (doc : Javadoc) (part : String) :
    (doc.append part).text = doc.text ++ part := by
  simp [append, text, String.join_append]

theorem isEmpty_append (doc : Javadoc) (part : String) :
    (doc.append part).isEmpty = (doc.isEmpty && part.isEmpty) := by
  simp [append, isEmpty]

end Javadoc

end KeywordRules
