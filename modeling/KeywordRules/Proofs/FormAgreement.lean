import KeywordRules.Proofs.Attachment
import KeywordRules.Proofs.FirstDefect
import KeywordRules.Proofs.Positional

/-!
# Both forms of a member agree

A member can be written as an object or as an array that gives the values of the object in the order of
the slots. As long as an array has as many items as its kind admits, both texts are read alike, with the
same member or the same fault (`parse_eq_of_positional`); other arrays are refused. The fault is that of
the first item that its slot refuses.

Both readers fold over the same slots: `ofItems_eq_error_iff` says when that fails, and
`parse_record_eq_ofPairs` that the tag makes no difference among the pairs of an object, wherever it
stands.
-/

namespace KeywordRules

open KeywordRules.Json

/-! ## Texts of arrays -/

namespace Json.Document

/-- A well-formed text of an array with the given items. -/
structure IsArrayText (text : String) (items : List Document) : Prop where
  /-- The text reads as a schema node. -/
  wellFormed : ∃ node, Value.parse text = .ok node
  /-- The text says an array with these items. -/
  document_eq : (read text).document = .list items

namespace IsArrayText

variable {text : String} {items : List Document}

/-- The items of a well-formed array are sound. -/
theorem isSound (h : IsArrayText text items) : ∀ item ∈ items, Member.isSound item = true := by
  obtain ⟨node, hnode⟩ := h.wellFormed
  have hvalue := (Value.parse_eq_ok_iff.1 hnode).1
  rw [h.document_eq, value?, depthLimit] at hvalue
  have hsome : ((list items).valueWithin? (125 + 1 + 1)).isSome := Option.isSome_of_eq_some hvalue
  exact ((isSome_valueWithin?_array _ items true).1 hsome).2

/-- The text of an array is read as whatever the decoder makes of the array. -/
theorem parse_eq {α : Type} (h : IsArrayText text items) (decode : Document → Except Fault α) :
    Document.parse decode text = decode (.list items) := by
  obtain ⟨node, hnode⟩ := h.wellFormed
  rw [parse_eq_of_complete (Value.parse_eq_ok_iff.1 hnode).2, h.document_eq]

/-- The compact text of a plain array with sound items is such a text. -/
theorem of_isPlain (hplain : (list items).IsPlain) (hsound : ∀ item ∈ items, Member.isSound item = true) :
    IsArrayText (list items).compact items := by
  have hread : read (list items).compact = ⟨list items, true⟩ := read_compact hplain
  have hsome : ((list items).valueWithin? (125 + 1 + 1)).isSome :=
    (isSome_valueWithin?_array _ items true).2 ⟨rfl, hsound⟩
  obtain ⟨node, hnode⟩ := Option.isSome_iff_exists.1 hsome
  refine ⟨⟨node, Value.parse_eq_ok_iff.2 ?_⟩, by rw [hread]⟩
  rw [hread]
  exact ⟨hnode, rfl⟩

end IsArrayText

end Json.Document

/-- How many items may stand behind the tag: a name, the type of a field, and then, or not, a comment and
the annotations of a field. -/
def Kind.Admits : Kind → Nat → Prop
  | .classType, count | .method, count => 1 ≤ count ∧ count ≤ 2
  | .field, count => 2 ≤ count ∧ count ≤ 4

theorem Kind.admits_iff {kind : Kind} {count : Nat} :
    kind.Admits count ↔ kind.needed ≤ count ∧ count ≤ kind.slots.length := by
  cases kind <;> rfl

namespace Member

variable {kind : Kind} {items : List Document} {m : Member}

/-! ## Items that are refused -/

/-- As many items as a kind admits leave out nothing that it has to have. -/
theorem not_lacks_positionalPairs (hitems : kind.Admits items.length) (cause : Misfit) :
    ¬ Lacks kind (positionalPairs kind items) cause := by
  -- the first item is the name, and the second one the type of a field
  match kind, items, hitems with
  | .classType, [], h | .method, [], h | .field, [], h | .field, [_], h => simp [Kind.Admits] at h
  | .classType, name :: rest, _ => rintro (⟨h⟩ | ⟨⟨⟩⟩); cases h
  | .method, name :: rest, _ => rintro (⟨h⟩ | ⟨⟨⟩⟩); cases h
  | .field, name :: typeName :: rest, _ => rintro (⟨h⟩ | ⟨-, -, h⟩) <;> cases h

/-- Filling slots with sound items fails exactly for the first one that its slot refuses. -/
theorem foldlM_fill_eq_error_iff {slots : List Slot} (hvalue : ∀ item ∈ items, item.HasValue)
    (draft : Draft) (fault : Fault) :
    (slots.zip items).foldlM (fun draft pair => draft.fill pair.1 pair.2) draft = .error fault ↔
      ∃ cause, fault = .unfit cause ∧
        FirstFailure (fun _ pair => pair.1.Refuses pair.2) (slots.zip items) cause := by
  have hfill : ∀ pair ∈ slots.zip items, ∀ (_ : List (Slot × Document)) (draft : Draft) (fault : Fault),
      True → (draft.fill pair.1 pair.2 = .error fault ↔
        ∃ cause, fault = .unfit cause ∧ pair.1.Refuses pair.2 cause) := by
    intro pair hpair _ draft fault _
    rw [Draft.fill_eq, Except.map_eq_error_iff, Slot.read_eq_error_iff (hvalue _ (List.of_mem_zip hpair).2)]
  -- whether an item is refused does not depend on the draft, so nothing has to be known of it
  rw [Except.foldlM_eq_error_iff (fun _ _ => True) [] hfill (fun _ _ _ _ _ _ => trivial) trivial]
  exact firstFailure_unfit_iff

/-- As many sound items as a kind admits are refused exactly for the first one that its slot refuses. -/
theorem ofItems_eq_error_iff (hitems : kind.Admits items.length)
    (hvalue : ∀ item ∈ items, item.HasValue) (fault : Fault) :
    ofItems kind items = .error fault ↔
      ∃ cause, fault = .unfit cause ∧
        FirstFailure (fun _ pair => pair.1.Refuses pair.2) (kind.slots.zip items) cause := by
  obtain ⟨hlow, hhigh⟩ := Kind.admits_iff.1 hitems
  rw [ofItems_eq_ofPairs hlow hhigh, ofPairs, Except.bind_eq_error_iff, ← foldlM_fill_slots_eq,
    foldlM_fill_eq_error_iff hvalue]
  -- finishing cannot fail: the draft holds the pairs of the items, which lack nothing
  refine or_iff_left ?_
  rintro ⟨draft, hfold, hfinish⟩
  rw [foldlM_fill_slots_eq] at hfold
  have hdraft : draft.Holds kind (positionalPairs kind items) :=
    (Draft.holds_blank kind).of_foldlM_take hfold
  obtain ⟨cause, -, hlacks⟩ := (Draft.finish_eq_error_iff hdraft fault).1 hfinish
  exact not_lacks_positionalPairs hitems cause hlacks

/-! ## The two texts -/

/-- The text of an array with a tag is read by its items. -/
theorem parse_list_eq_ofItems {text : String}
    (htext : Document.IsArrayText text (.text kind.word :: items)) : parse text = ofItems kind items := by
  have hsound : items.all isSound = true :=
    List.all_eq_true.2 fun item hitem => htext.isSound item (List.mem_cons_of_mem _ hitem)
  have hkind : Kind.ofDocument (.text kind.word) = .ok kind := Kind.ofDocument_eq_ok_iff.2 rfl
  rw [parse, htext.parse_eq, Document.list, ofDocument, hkind, hsound]
  rfl

/-- The text of an object with one tag is read by its other pairs, wherever the tag stands. -/
theorem parse_record_eq_ofPairs {text : String} {before after : List (String × Document)}
    (htext : Document.IsObjectText text (before ++ ("kind", .text kind.word) :: after))
    (htag : valuesOf "kind" (before ++ after) = []) :
    parse text = ofPairs kind (before ++ after) := by
  have hkind : Kind.ofDocument (.text kind.word) = .ok kind := Kind.ofDocument_eq_ok_iff.2 rfl
  rw [valuesOf_append, List.append_eq_nil_iff] at htag
  have hvalues : valuesOf "kind" (before ++ ("kind", .text kind.word) :: after) = [.text kind.word] := by
    rw [valuesOf_append, valuesOf_cons, htag.1, htag.2]
    rfl
  rw [parse, htext.parse_eq, ofDocument_record_eq htext.isSound, hvalues]
  simp only [hkind]
  -- without the tag the pairs are the same
  calc ofPairs kind (before ++ ("kind", .text kind.word) :: after)
    _ = ofPairs kind ((before ++ ("kind", .text kind.word) :: after).filter fun pair =>
          !decide (pair.1 = tagKey)) := (ofPairs_filter kind _).symm
    _ = ofPairs kind ((before ++ after).filter fun pair => !decide (pair.1 = tagKey)) := by
          simp [List.filter_append, tagKey]
    _ = ofPairs kind (before ++ after) := ofPairs_filter kind _

/-- A pair that an item stands for has the key of a slot that the items reach. -/
theorem exists_slot_of_mem_positionalPairs {pair : String × Document}
    (h : pair ∈ positionalPairs kind items) : ∃ slot ∈ kind.slots.take items.length, pair.1 = slot.key := by
  obtain ⟨i, hi⟩ := List.mem_iff_getElem?.1 h
  obtain ⟨hkey, hitem⟩ := List.getElem?_zip_eq_some.1 hi
  rw [List.getElem?_map, Option.map_eq_some_iff] at hkey
  obtain ⟨slot, hslot, hkey⟩ := hkey
  refine ⟨slot, List.mem_of_getElem? (i := i) ?_, hkey.symm⟩
  rw [List.getElem?_take_of_lt (List.getElem?_eq_some_iff.1 hitem).1, hslot]

theorem valuesOf_positionalPairs_eq_nil {key : String}
    (h : ∀ slot ∈ kind.slots.take items.length, slot.key ≠ key) :
    valuesOf key (positionalPairs kind items) = [] := by
  rw [valuesOf, List.map_eq_nil_iff, List.filter_eq_nil_iff]
  intro pair hpair
  obtain ⟨slot, hslot, hkey⟩ := exists_slot_of_mem_positionalPairs hpair
  simpa [hkey] using h slot hslot

/-- What the items of an array do not reach is empty. -/
theorem HasParts.eq_empty_of_not_reached (h : HasParts (positionalPairs kind items) m) :
    (.javadoc ∉ kind.slots.take items.length → m.javadoc = .empty) ∧
      (.annotations ∉ kind.slots.take items.length → m.annotations = []) := by
  -- the keys of the slots differ, so a slot that is not reached has no pair
  have hnil : ∀ slot ∉ kind.slots.take items.length,
      valuesOf slot.key (positionalPairs kind items) = [] := by
    refine fun slot hslot => valuesOf_positionalPairs_eq_nil fun other hother hkey => hslot ?_
    rwa [← Slot.key_injective hkey]
  refine ⟨fun hjavadoc => ?_, fun hannotations => ?_⟩
  · obtain ⟨-, hparts⟩ | hparts := h.javadoc
    · exact congrArg Javadoc.mk hparts
    · cases (hnil .javadoc hjavadoc).symm.trans hparts
  · by_cases hfield : m.isField = true
    · obtain ⟨-, hnone⟩ | ⟨_, hitems, -⟩ := h.annotations hfield
      · exact hnone
      · cases (hnil .annotations hannotations).symm.trans hitems
    · exact annotations_of_not_isField (Bool.eq_false_iff.2 hfield)

/-- **Both forms of a member are read alike.** An array with the tag of a kind is read as a member exactly
if it has as many items as the kind admits and the object that gives them under the keys of the slots, with
its tag anywhere, is read as that member; parts that the items do not reach are empty in it. If the number
of items is right, both texts are refused alike as well: for the first item that its slot refuses. -/
theorem parse_eq_of_positional {text text' : String} {before after : List (String × Document)}
    (hpositional : Document.IsArrayText text (.text kind.word :: items))
    (hnamed : Document.IsObjectText text' (before ++ ("kind", .text kind.word) :: after))
    (hpairs : before ++ after = positionalPairs kind items) :
    (∀ m, parse text = .ok m ↔ kind.Admits items.length ∧ parse text' = .ok m) ∧
    (∀ m, parse text = .ok m →
      (.javadoc ∉ kind.slots.take items.length → m.javadoc = .empty) ∧
        (.annotations ∉ kind.slots.take items.length → m.annotations = [])) ∧
    (kind.Admits items.length →
      parse text = parse text' ∧
        ∀ fault, parse text = .error fault ↔ ∃ cause, fault = .unfit cause ∧
          FirstFailure (fun _ pair => pair.1.Refuses pair.2) (kind.slots.zip items) cause) := by
  have hvalue : ∀ item ∈ items, item.HasValue :=
    fun item hitem => ⟨_, hpositional.isSound item (List.mem_cons_of_mem _ hitem)⟩
  have htag : valuesOf "kind" (before ++ after) = [] := by
    rw [hpairs]
    exact valuesOf_positionalPairs_eq_nil fun slot _ => by cases slot <;> decide
  have htext : parse text = ofItems kind items := parse_list_eq_ofItems hpositional
  have htext' : parse text' = ofPairs kind (positionalPairs kind items) := by
    rw [parse_record_eq_ofPairs hnamed htag, hpairs]
  -- both forms fill the same slots with the same documents
  have heq : kind.Admits items.length → parse text = parse text' := by
    intro hitems
    obtain ⟨hlow, hhigh⟩ := Kind.admits_iff.1 hitems
    rw [htext, htext', ofItems_eq_ofPairs hlow hhigh]
  have hok : ∀ m, parse text = .ok m ↔ kind.Admits items.length ∧ parse text' = .ok m := by
    intro m
    constructor
    · intro h
      have hitems := Kind.admits_iff.2 (length_of_ofItems_eq_ok (htext.symm.trans h))
      exact ⟨hitems, (heq hitems).symm.trans h⟩
    · rintro ⟨hitems, h⟩
      exact (heq hitems).trans h
  refine ⟨hok, fun m h => ?_, fun hitems => ⟨heq hitems, fun fault => ?_⟩⟩
  · have hpositionalValue : ∀ pair ∈ positionalPairs kind items, pair.2.HasValue :=
      fun pair hpair => hvalue _ (List.of_mem_zip hpair).2
    obtain ⟨-, hparts⟩ := (ofPairs_eq_ok_iff hpositionalValue).1 (htext'.symm.trans ((hok m).1 h).2)
    exact hparts.eq_empty_of_not_reached
  · rw [htext]
    exact ofItems_eq_error_iff hitems hvalue fault

/-- A field without annotations, by position and with its tag between the other pairs. -/
theorem parse_eq_of_positional_field :
    let items : List Document := [.text "id", .text "Long", .list [.text "The key."]]
    let text := (Document.list (.text "field" :: items)).compact
    let text' := (Document.record [("name", .text "id"), ("kind", .text "field"),
      ("type_name", .text "Long"), ("javadoc", .list [.text "The key."])]).compact
    let m : Member := ⟨"id", ⟨["The key."]⟩, .field "Long" []⟩
    Document.IsArrayText text (.text "field" :: items) ∧ parse text = .ok m ∧ parse text' = .ok m ∧
      m.annotations = [] := by
  intro items text text' m
  have hpositional : Document.IsArrayText text (.text Kind.field.word :: items) := by
    refine .of_isPlain ?_ (by decide)
    simp [items, Document.list, Document.text, Document.IsPlain, Document.ArePlain]
  have hnamed : Document.IsObjectText text' ([("name", .text "id")] ++
      ("kind", .text Kind.field.word) ::
        [("type_name", .text "Long"), ("javadoc", .list [.text "The key."])]) := by
    refine .of_isPlain ?_ (by decide)
    simp [Document.list, Document.isPlain_record_iff, Document.text, Document.IsPlain, Document.ArePlain]
  obtain ⟨hok, hempty, -⟩ := parse_eq_of_positional hpositional hnamed rfl
  have hparse : parse text = .ok m := by decide +kernel
  exact ⟨hpositional, hparse, ((hok m).1 hparse).2, (hempty m hparse).2 (by decide)⟩

end Member

end KeywordRules
