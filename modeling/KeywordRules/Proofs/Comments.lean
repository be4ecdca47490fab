import KeywordRules.Proofs.Runs

/-!
# Comments and what is appended to them

A comment can be asked for its text and for being empty, and each answer is computed from the parts in a
way of its own. The two agree (`isEmpty_iff`), and they stay in step however often something is appended
(`text_appendAll`, `isEmpty_appendAll`). A run of the rule is one more way of appending: it appends as
many notes as it has required applications, whatever the member is and whatever its options are
(`javadoc_runAll`).
-/

namespace KeywordRules

namespace Javadoc

/-- The comment with several more parts at its end. -/
def appendAll (texts : List String) (doc : Javadoc) : Javadoc :=
  texts.foldl append doc

theorem appendAll_cons (text : String) (texts : List String) (doc : Javadoc) :
    doc.appendAll (text :: texts) = (doc.append text).appendAll texts := rfl

theorem parts_appendAll (texts : List String) (doc : Javadoc) :
    (doc.appendAll texts).parts = doc.parts ++ texts := by
  induction texts generalizing doc with
  | nil => exact (List.append_nil _).symm
  | cons text texts ih =>
    rw [appendAll_cons, ih, append, List.append_assoc, List.singleton_append]

/-- A comment is determined by its parts. -/
theorem eq_iff_parts {doc doc' : Javadoc} : doc = doc' ↔ doc.parts = doc'.parts := by
  obtain ⟨parts⟩ := doc
  obtain ⟨parts'⟩ := doc'
  rw [mk.injEq]

/-- No text comes out of parts exactly if none of them has text. -/
theorem join_eq_empty_iff {texts : List String} :
    String.join texts = "" ↔ ∀ text ∈ texts, text = "" := by
  induction texts with
  | nil => simp
  | cons text texts ih => rw [String.join_cons, String.append_eq_empty_iff, ih, List.forall_mem_cons]

theorem isEmpty_iff_forall (doc : Javadoc) : doc.isEmpty = true ↔ ∀ part ∈ doc.parts, part = "" := by
  rw [isEmpty, List.all_eq_true]
  exact forall₂_congr fun part _ => String.isEmpty_iff

/-- A comment is empty exactly if its text is. -/
theorem isEmpty_iff (doc : Javadoc) : doc.isEmpty = true ↔ doc.text = "" := by
  rw [isEmpty_iff_forall, text, join_eq_empty_iff]

theorem text_appendAll (texts : List String) (doc : Javadoc) :
    (doc.appendAll texts).text = doc.text ++ String.join texts := by
  induction texts generalizing doc with
  | nil => exact (String.append_empty).symm
  | cons text texts ih => rw [appendAll_cons, ih, text_append, String.join_cons, String.append_assoc]

/-- A comment stays empty exactly while nothing but empty texts is appended. -/
theorem isEmpty_appendAll (texts : List String) (doc : Javadoc) :
    (doc.appendAll texts).isEmpty = true ↔ doc.isEmpty = true ∧ ∀ text ∈ texts, text = "" := by
  induction texts generalizing doc with
  | nil => simp [appendAll]
  | cons text texts ih =>
    rw [appendAll_cons, ih, isEmpty_append, Bool.and_eq_true, String.isEmpty_iff, and_assoc,
      List.forall_mem_cons]

end Javadoc

namespace Application

/-- A run of the rule appends one note for each required application. -/
theorem javadoc_runAll (applications : List Application) (m : Member) :
    (runAll applications m).javadoc =
      m.javadoc.appendAll (List.replicate (applications.countP required) "\n(Required)") := by
  rw [Javadoc.eq_iff_parts, parts_runAll, Javadoc.parts_appendAll]

end Application

namespace Javadoc

/-- **Text and emptiness of a comment agree over every history.** A comment is empty exactly if its text
is. Texts that are appended stand behind its text in their order, and it stays empty exactly if it was
and all of them are. A run of the rule on any member with the comment appends to its text the note, as
often as there are required applications: with one of them the comment is not empty any more, and
without any, and only then, it is the comment it was, part by part. -/
theorem history_agrees (doc : Javadoc) :
    (doc.isEmpty = true ↔ doc.text = "") ∧
      (∀ texts : List String,
        (texts.foldl append doc).text = doc.text ++ String.join texts ∧
          ((texts.foldl append doc).isEmpty = true ↔
            doc.isEmpty = true ∧ ∀ text ∈ texts, text = "")) ∧
      ∀ (name : String) (role : Role) (applications : List Application),
        let left := (Application.runAll applications ⟨name, doc, role⟩).javadoc
        let notes := applications.countP Application.required
        left.text = doc.text ++ String.join (List.replicate notes "\n(Required)") ∧
          (left.isEmpty = true ↔ doc.isEmpty = true ∧ notes = 0) ∧
          (left = doc ↔ notes = 0) := by
  refine ⟨isEmpty_iff doc, fun texts => ⟨text_appendAll texts doc, isEmpty_appendAll texts doc⟩, ?_⟩
  intro name role applications left notes
  have hleft : left = doc.appendAll (List.replicate notes "\n(Required)") :=
    Application.javadoc_runAll applications ⟨name, doc, role⟩
  refine ⟨?_, ?_, ?_⟩
  · rw [hleft, text_appendAll]
  · have hnote : ¬"\n(Required)" = "" := by decide
    rw [hleft, isEmpty_appendAll, List.forall_mem_replicate, or_iff_left hnote]
  · rw [hleft, eq_iff_parts, parts_appendAll, List.append_right_eq_self, List.replicate_eq_nil_iff]

end Javadoc

end KeywordRules
