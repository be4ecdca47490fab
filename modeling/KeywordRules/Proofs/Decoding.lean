import KeywordRules.Proofs.WellFormed

/-!
# Which documents the readers of parts accept

Each reader of a part of a member accepts exactly the documents that its grammar names, and what it
reads is determined by them: a text, the word of a kind, an annotation in one of its spellings, a list
of texts, a list of annotations. An annotation reader looks no further into a faulty document than it
has to, so its grammar is stated for sound documents.
-/

namespace KeywordRules

open KeywordRules.Json

theorem Json.Document.asString_eq_ok_iff {d : Document} {s : String} :
    d.asString = .ok s ↔ d = .text s := by
  constructor
  · intro h
    unfold asString at h
    split at h
    · rw [Except.ok.inj h, text]
    · cases h
  · rintro rfl
    rfl

namespace Kind

theorem ofWord?_eq_some_iff {word : String} {kind : Kind} :
    ofWord? word = some kind ↔ word = kind.word := by
  constructor
  · intro h
    rw [ofWord?] at h
    have hword := List.find?_some h
    exact (eq_of_beq hword).symm
  · rintro rfl
    cases kind <;> decide

/-- A tag is the word of its kind. -/
theorem ofDocument_eq_ok_iff {d : Document} {kind : Kind} :
    ofDocument d = .ok kind ↔ d = .text kind.word := by
  constructor
  · intro h
    unfold ofDocument at h
    split at h
    · split at h
      · rename_i hword
        obtain rfl := Except.ok.inj h
        rw [ofWord?_eq_some_iff.1 hword, Document.text]
      · cases h
    · cases h
  · rintro rfl
    simp only [ofDocument, Document.text]
    rw [ofWord?_eq_some_iff.2 rfl]

end Kind

namespace Annotation

theorem named_eq_ok_iff {name : String} {a : Annotation} : named name = .ok a ↔ name = a.simpleName := by
  constructor
  · intro h
    unfold named at h
    split at h
    · rename_i hname
      obtain rfl := Except.ok.inj h
      rw [ofName?] at hname
      have hsimple := List.find?_some hname
      exact (eq_of_beq hsimple).symm
    · cases h
  · rintro rfl
    cases a <;> decide

/-- The spellings of an annotation inside a member: its name, or an object whose only key is the name,
with nothing of note under it. -/
inductive Spells : Document → Annotation → Prop where
  | name (a : Annotation) : Spells (.text a.simpleName) a
  | null (a : Annotation) : Spells (.record [(a.simpleName, .null)]) a
  | empty (a : Annotation) : Spells (.record [(a.simpleName, .record [])]) a

/-- A document with a value is read as an annotation exactly if it is one of its spellings. -/
theorem ofDocument_eq_ok_iff {d : Document} {a : Annotation} (hd : d.HasValue) :
    ofDocument d = .ok a ↔ Spells d a := by
  constructor
  · intro h
    unfold ofDocument at h
    split at h
    · obtain rfl := named_eq_ok_iff.1 h
      exact .name a
    · rename_i name value closed
      rw [Except.bind_eq_ok_iff] at h
      obtain ⟨b, hb, h⟩ := h
      obtain rfl := named_eq_ok_iff.1 hb
      -- the reader looks at no closing brace; that the document has a value settles them
      obtain rfl := hd.of_object
      have hvalue : value.HasValue :=
        Document.HasValue.of_record (show (Document.record [(b.simpleName, value)]).HasValue from hd)
          _ List.mem_cons_self
      split at h
      · obtain rfl := Except.ok.inj h
        exact .null b
      · obtain rfl := Except.ok.inj h
        obtain rfl := hvalue.of_object
        exact .empty b
      · cases h
    · cases h
    · cases h
  · rintro (_ | _ | _)
    · exact named_eq_ok_iff.2 rfl
    · cases a <;> rfl
    · cases a <;> rfl

end Annotation

/-- A comment is a list of texts. -/
theorem Javadoc.ofDocument_eq_ok_iff {d : Document} {doc : Javadoc} :
    ofDocument d = .ok doc ↔ d = .list (doc.parts.map .text) := by
  have hparts : ∀ (items : List Document) (parts : List String),
      items.mapM Document.asString = .ok parts ↔ items = parts.map .text := by
    intro items parts
    rw [Except.mapM_eq_ok_iff fun _ _ _ => Document.asString_eq_ok_iff, ← List.forall₂_eq_eq_eq,
      List.forall₂_map_right_iff]
  constructor
  · intro h
    unfold ofDocument at h
    split at h
    · rename_i items closed
      rw [Except.bind_eq_ok_iff] at h
      obtain ⟨parts, hitems, h⟩ := h
      split at h
      · rename_i hclosed
        obtain rfl := Except.ok.inj h
        rw [(hparts items parts).1 hitems, hclosed, Document.list]
      · cases h
    · cases h
  · rintro rfl
    rw [Document.list, ofDocument, (hparts _ _).2 rfl]
    rfl

/-- A list of annotations is an array of their spellings, in its order. -/
theorem Draft.annotationList_eq_ok_iff {d : Document} {as : List Annotation} (hd : d.HasValue) :
    annotationList d = .ok as ↔
      ∃ items, d = .list items ∧ List.Forall₂ Annotation.Spells items as := by
  have hspelled : ∀ items : List Document, (∀ item ∈ items, item.HasValue) →
      (items.mapM Annotation.ofDocument = .ok as ↔ List.Forall₂ Annotation.Spells items as) :=
    fun items hitems => Except.mapM_eq_ok_iff fun item hitem _ =>
      Annotation.ofDocument_eq_ok_iff (hitems item hitem)
  constructor
  · intro h
    unfold annotationList at h
    split at h
    · rename_i items closed
      obtain ⟨rfl, hitems⟩ := hd.of_array
      exact ⟨items, rfl, (hspelled items hitems).1 h⟩
    · cases h
  · rintro ⟨items, rfl, h⟩
    exact (hspelled items hd.of_array.2).2 h

end KeywordRules
