import KeywordRules.Proofs.MemberGrammar

/-!
# Writing and reading members

The compact text of a member written out (`layout`), and that it reads back as the member
(`parse_compact`). The values of a member object are textual: texts and lists of texts. Such documents
are plain, so `Document.read_compact` gives the pairs back, and sound, so the grammar of members says
what is read of them.
-/

namespace KeywordRules

open KeywordRules.Json

namespace Json.Document

/-! ## Textual documents -/

/-- A text or a list of texts. -/
def IsTextual (d : Document) : Prop :=
  (∃ s, d = .text s) ∨ ∃ ss : List String, d = .list (ss.map .text)

theorem IsTextual.isPlain {d : Document} (h : d.IsTextual) : d.IsPlain := by
  obtain ⟨s, rfl⟩ | ⟨ss, rfl⟩ := h
  · exact rfl
  · rw [list, IsPlain, arePlain_iff]
    refine ⟨rfl, fun item hitem => ?_⟩
    obtain ⟨s, -, rfl⟩ := List.mem_map.1 hitem
    exact rfl

theorem IsTextual.isSound {d : Document} (h : d.IsTextual) : Member.isSound d = true := by
  obtain ⟨s, rfl⟩ | ⟨ss, rfl⟩ := h
  · rfl
  · refine (isSome_valueWithin?_array 125 _ true).2 ⟨rfl, fun item hitem => ?_⟩
    obtain ⟨s, -, rfl⟩ := List.mem_map.1 hitem
    rfl

/-! ## Written documents -/

theorem renderItems_eq_intercalate (items : List Document) :
    renderItems items = [','].intercalate (items.map render) := by
  induction items with
  | nil => rfl
  | cons item items ih =>
    cases items with
    | nil => simp [renderItems]
    | cons next rest =>
      rw [renderItems, ih]
      simp

theorem renderPairs_eq_intercalate (pairs : List (String × Document)) :
    renderPairs (pairs.map fun pair => (text pair.1, pair.2)) =
      [','].intercalate (pairs.map fun pair => Lexeme.render pair.1 ++ ':' :: pair.2.render) := by
  induction pairs with
  | nil => rfl
  | cons pair pairs ih =>
    cases pairs with
    | nil => simp [renderPairs, text, render]
    | cons next rest =>
      simp only [List.map_cons] at ih ⊢
      rw [renderPairs, ih]
      simp [text, render]

end Json.Document

namespace Member

variable (m : Member)

/-! ## The text of a member -/

/-- A list of texts as it is written. -/
def textsLayout (ss : List String) : List Char :=
  '[' :: ([','].intercalate (ss.map Lexeme.render) ++ [']'])

/-- The fields of a member as they are written, each its key and what it holds. -/
def fieldLayouts : List (String × List Char) :=
  [("kind", Lexeme.render m.role.kind.word), ("name", Lexeme.render m.name)] ++
    m.typeName?.toList.map (fun typeName => ("type_name", Lexeme.render typeName)) ++
    [("javadoc", textsLayout m.javadoc.parts)] ++
    if m.annotations = [] then []
    else [("annotations", textsLayout (m.annotations.map Annotation.simpleName))]

/-- The compact text of a member, character by character. -/
def layout : List Char :=
  '\x7b' :: ([','].intercalate (m.fieldLayouts.map fun field =>
    Lexeme.render field.1 ++ ':' :: field.2) ++ ['\x7d'])

theorem render_texts (ss : List String) :
    (Document.list (ss.map .text)).render = textsLayout ss := by
  rw [Document.list, Document.render, Document.renderItems_eq_intercalate, List.map_map]
  rfl

/-- The pairs of a member by its parts, whatever its kind. -/
theorem toPairs_eq :
    m.toPairs =
      [("kind", .text m.role.kind.word), ("name", .text m.name)] ++
        m.typeName?.toList.map (fun typeName => ("type_name", .text typeName)) ++
        [("javadoc", m.javadoc.toDocument)] ++
        if m.annotations = [] then []
        else [("annotations", .list (m.annotations.map Annotation.toDocument))] := by
  obtain ⟨name, javadoc, role⟩ := m
  cases role with
  | classType => rfl
  | method => rfl
  | field typeName annotations => cases annotations <;> rfl

/-- The pairs of a member are written as its fields. -/
theorem map_render_toPairs :
    m.toPairs.map (fun pair => (pair.1, pair.2.render)) = m.fieldLayouts := by
  have hannotations : ∀ as : List Annotation, (Document.list (as.map Annotation.toDocument)).render =
      textsLayout (as.map Annotation.simpleName) := by
    intro as
    rw [← render_texts, List.map_map]
    rfl
  rw [toPairs_eq, fieldLayouts]
  simp only [List.map_append, List.map_cons, List.map_nil, List.map_map, Javadoc.toDocument,
    render_texts, Document.text, Document.render]
  congr 1
  split
  · rfl
  · rw [List.map_cons, hannotations]
    rfl

theorem toList_compact : m.compact.toList = m.layout := by
  rw [compact, Document.compact, String.toList_ofList, toDocument, Document.record, Document.render,
    Document.renderPairs_eq_intercalate, layout, ← map_render_toPairs, List.map_map]
  rfl

/-! ## Reading it back -/

/-- The values of a member object are textual. -/
theorem isTextual_of_mem_toPairs {pair : String × Document} (h : pair ∈ m.toPairs) :
    pair.2.IsTextual := by
  have htexts : ∀ as : List Annotation, (Document.list (as.map Annotation.toDocument)).IsTextual :=
    fun as => .inr ⟨as.map Annotation.simpleName, by rw [List.map_map]; rfl⟩
  rw [toPairs_eq] at h
  simp only [List.mem_append, List.mem_cons, List.not_mem_nil, or_false, List.mem_map] at h
  obtain (((rfl | rfl) | ⟨typeName, -, rfl⟩) | rfl) | h := h
  · exact .inl ⟨_, rfl⟩
  · exact .inl ⟨_, rfl⟩
  · exact .inl ⟨_, rfl⟩
  · exact .inr ⟨_, rfl⟩
  · split at h
    · cases h
    · obtain rfl := List.mem_singleton.1 h
      exact htexts m.annotations

/-- The pairs that are written for a member denote it. -/
theorem denotes_toPairs : Denotes m.toPairs m := by
  have hspells : ∀ as : List Annotation,
      List.Forall₂ Annotation.Spells (as.map Annotation.toDocument) as :=
    fun as => List.forall₂_map_left_iff.2 (List.forall₂_same.2 fun a _ => .name a)
  obtain ⟨name, javadoc, role⟩ := m
  cases role with
  | classType => exact ⟨⟨rfl, nofun, .inr rfl, nofun⟩, rfl⟩
  | method => exact ⟨⟨rfl, nofun, .inr rfl, nofun⟩, rfl⟩
  | field typeName as =>
    cases as with
    | nil =>
      refine ⟨⟨rfl, ?_, .inr rfl, fun _ => .inl ⟨rfl, rfl⟩⟩, rfl⟩
      rintro _ ⟨rfl⟩
      rfl
    | cons a as =>
      refine ⟨⟨rfl, ?_, .inr rfl, fun _ => .inr ⟨_, rfl, hspells (a :: as)⟩⟩, rfl⟩
      rintro _ ⟨rfl⟩
      rfl

/-- **A member is read back from its compact text.** The text has the fields in order, annotations left
out when there are none; reading it gives the member, so the text tells members apart. -/
theorem parse_compact :
    m.compact.toList = m.layout ∧ parse m.compact = .ok m ∧ ∀ m', m.compact = m'.compact ↔ m = m' := by
  have hparse : ∀ m : Member, parse m.compact = .ok m := by
    intro m
    have hplain : (Document.record m.toPairs).IsPlain :=
      Document.isPlain_record_iff.2 fun _ hpair => (m.isTextual_of_mem_toPairs hpair).isPlain
    have hsound : ∀ pair ∈ m.toPairs, isSound pair.2 = true :=
      fun _ hpair => (m.isTextual_of_mem_toPairs hpair).isSound
    have htext : Document.IsObjectText m.compact m.toPairs := .of_isPlain hplain hsound
    exact htext.parse_iff.2 ((ofDocument_record_eq_ok_iff hsound).2 m.denotes_toPairs)
  refine ⟨m.toList_compact, hparse m, fun m' => ⟨fun h => ?_, congrArg compact⟩⟩
  have hm' := hparse m'
  rw [← h, hparse m] at hm'
  exact Except.ok.inj hm'

end Member

end KeywordRules
