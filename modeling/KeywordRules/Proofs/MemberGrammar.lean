import KeywordRules.Proofs.Decoding
import KeywordRules.Proofs.Slots

/-!
# The grammar of member objects

Which objects are read as a member, and as which one. `Member.Denotes` says it by the values under each
key, without regard to the order of the pairs: the tag and the name stand once and are texts, a field
has its type once, and comment and annotations stand at most once. A well-formed text of an object is
read as a member exactly if it denotes it (`parse_eq_ok_iff_denotes`); pairs under keys that the kind
does not know can hold anything, any number of times. A text that is not well-formed is never read as a
member (`parse_object_eq_ok_iff`).

The reader splits off the tag (`splitTag_record`) and fills the slots of the kind with the other pairs;
`Draft.foldlM_take_eq_ok_iff` turns that into one condition for each slot.
-/

namespace KeywordRules

open KeywordRules.Json

/-! ## The grammar -/

/-- Whether pairs under a key say something about a member of a kind. -/
def Kind.knows (kind : Kind) (key : String) : Bool :=
  key == Member.tagKey || (kind.slot? key).isSome

/-- Two objects hold the same pairs under the keys that a kind knows, in whatever order and between
whatever other pairs. -/
def Kind.SameContent (kind : Kind) (pairs pairs' : List (String × Document)) : Prop :=
  (pairs.filter fun pair => kind.knows pair.1).Perm (pairs'.filter fun pair => kind.knows pair.1)

namespace Member

/-- The pairs of an object give the parts of a member, its kind apart: each key that the kind knows has
the values for its part. -/
structure HasParts (pairs : List (String × Document)) (m : Member) : Prop where
  /-- The name stands once. -/
  name : valuesOf "name" pairs = [.text m.name]
  /-- The type of a field stands once. -/
  typeName : ∀ typeName ∈ m.typeName?, valuesOf "type_name" pairs = [.text typeName]
  /-- The parts of the comment stand at most once, as an array; without it there are none. -/
  javadoc : (valuesOf "javadoc" pairs = [] ∧ m.javadoc.parts = []) ∨
    valuesOf "javadoc" pairs = [.list (m.javadoc.parts.map .text)]
  /-- The annotations of a field stand at most once, as an array of spellings; without it there are
  none. -/
  annotations : m.isField = true → (valuesOf "annotations" pairs = [] ∧ m.annotations = []) ∨
    ∃ items, valuesOf "annotations" pairs = [.list items] ∧
      List.Forall₂ Annotation.Spells items m.annotations

/-- The pairs of an object denote a member: they give its parts, and the tag stands once and is the
word of its kind. -/
structure Denotes (pairs : List (String × Document)) (m : Member) : Prop extends HasParts pairs m where
  kind : valuesOf "kind" pairs = [.text m.role.kind.word]

/-- The pairs of an object follow the grammar of a kind: the tag stands once and is its word, the name
stands once and is a text, and the other parts stand as the kind wants them. -/
structure Conforms (kind : Kind) (pairs : List (String × Document)) : Prop where
  tag : valuesOf "kind" pairs = [.text kind.word]
  name : ∃ name, valuesOf "name" pairs = [.text name]
  typeName : kind = .field → ∃ typeName, valuesOf "type_name" pairs = [.text typeName]
  javadoc : valuesOf "javadoc" pairs = [] ∨
    ∃ parts : List String, valuesOf "javadoc" pairs = [.list (parts.map .text)]
  annotations : kind = .field → valuesOf "annotations" pairs = [] ∨
    ∃ items, valuesOf "annotations" pairs = [.list items] ∧ ∀ item ∈ items, ∃ a, Annotation.Spells item a

/-- An object follows the grammar of a kind exactly if it denotes a member of it. -/
theorem exists_denotes_iff {kind : Kind} {pairs : List (String × Document)} :
    (∃ m, Denotes pairs m ∧ m.role.kind = kind) ↔ Conforms kind pairs := by
  constructor
  · rintro ⟨⟨name, javadoc, role⟩, h, rfl⟩
    refine ⟨h.kind, ⟨_, h.name⟩, fun hfield => ?_, ?_, fun hfield => ?_⟩
    · cases role with
      | classType => cases hfield
      | method => cases hfield
      | field typeName annotations => exact ⟨typeName, h.typeName typeName rfl⟩
    · exact h.javadoc.imp And.left fun hparts => ⟨javadoc.parts, hparts⟩
    · cases role with
      | classType => cases hfield
      | method => cases hfield
      | field typeName annotations =>
        refine (h.annotations rfl).imp And.left ?_
        rintro ⟨items, hitems, hspells⟩
        exact ⟨items, hitems, exists_forall₂_iff.1 ⟨_, hspells⟩⟩
  · intro h
    obtain ⟨name, hname⟩ := h.name
    -- a comment that is left out is empty, and so are annotations
    obtain ⟨parts, hparts⟩ : ∃ parts : List String,
        (valuesOf "javadoc" pairs = [] ∧ parts = []) ∨
          valuesOf "javadoc" pairs = [.list (parts.map .text)] := by
      obtain hnone | ⟨parts, hparts⟩ := h.javadoc
      · exact ⟨[], .inl ⟨hnone, rfl⟩⟩
      · exact ⟨parts, .inr hparts⟩
    cases kind with
    | classType =>
      exact ⟨⟨name, ⟨parts⟩, .classType⟩, ⟨⟨hname, nofun, hparts, nofun⟩, h.tag⟩, rfl⟩
    | method =>
      exact ⟨⟨name, ⟨parts⟩, .method⟩, ⟨⟨hname, nofun, hparts, nofun⟩, h.tag⟩, rfl⟩
    | field =>
      obtain ⟨typeName, htypeName⟩ := h.typeName rfl
      obtain ⟨annotations, hannotations⟩ : ∃ annotations : List Annotation,
          (valuesOf "annotations" pairs = [] ∧ annotations = []) ∨
            ∃ items, valuesOf "annotations" pairs = [.list items] ∧
              List.Forall₂ Annotation.Spells items annotations := by
        obtain hnone | ⟨items, hitems, hspelled⟩ := h.annotations rfl
        · exact ⟨[], .inl ⟨hnone, rfl⟩⟩
        · obtain ⟨annotations, hspells⟩ := exists_forall₂_iff.2 hspelled
          exact ⟨annotations, .inr ⟨items, hitems, hspells⟩⟩
      refine ⟨⟨name, ⟨parts⟩, .field typeName annotations⟩, ⟨⟨hname, ?_, hparts, ?_⟩, h.tag⟩, rfl⟩
      · rintro _ ⟨rfl⟩
        exact htypeName
      · exact fun _ => hannotations

/-! ## Splitting off the tag -/

/-- What the values under the tag's key come to, after a tag that was found before. -/
def tagOf (tag : Option Kind) : List Document → Except Fault (Option Kind)
  | [] => .ok tag
  | value :: values =>
    match tag with
    | some _ => .error (.unfit (.duplicateField tagKey))
    | none => do tagOf (some (← Kind.ofDocument value)) values

theorem splitTag_some_cons_tag (kind : Kind) (value : Document)
    (rest : List (Document × Document)) :
    splitTag (some kind) ((.text tagKey, value) :: rest) =
      .error (.unfit (.duplicateField tagKey)) := by
  rw [Document.text, splitTag, if_pos rfl]

theorem splitTag_none_cons_tag (value : Document) (rest : List (Document × Document)) :
    splitTag none ((.text tagKey, value) :: rest) =
      Kind.ofDocument value >>= fun kind => splitTag (some kind) rest := by
  rw [Document.text, splitTag, if_pos rfl]

theorem splitTag_cons_of_ne (tag : Option Kind) {key : String} (hkey : key ≠ tagKey)
    {value : Document} (hvalue : isSound value = true) (rest : List (Document × Document)) :
    splitTag tag ((.text key, value) :: rest) =
      (splitTag tag rest).map fun found => (found.1, (key, value) :: found.2) := by
  cases tag <;> rw [Document.text, splitTag, if_neg hkey, if_pos hvalue] <;>
    cases splitTag _ rest <;> rfl

/-- In an object with sound values, splitting off the tag fails only for the tags, and leaves the
pairs under other keys in their order. -/
theorem splitTag_record (tag : Option Kind) (pairs : List (String × Document))
    (hsound : ∀ pair ∈ pairs, isSound pair.2 = true) :
    splitTag tag (pairs.map fun pair => (.text pair.1, pair.2)) =
      (tagOf tag (valuesOf tagKey pairs)).map fun tag =>
        (tag, pairs.filter fun pair => !decide (pair.1 = tagKey)) := by
  induction pairs generalizing tag with
  | nil => rfl
  | cons pair pairs ih =>
    obtain ⟨key, value⟩ := pair
    obtain ⟨hvalue, hpairs⟩ := List.forall_mem_cons.1 hsound
    rw [List.map_cons, valuesOf_cons, List.filter_cons]
    by_cases hkey : key = tagKey
    · subst hkey
      rw [if_pos rfl, if_neg (by simp)]
      cases tag with
      | some kind =>
        -- a second tag is refused before anything after it is looked at
        rw [splitTag_some_cons_tag, tagOf]
        rfl
      | none =>
        rw [splitTag_none_cons_tag, tagOf]
        cases Kind.ofDocument value with
        | error fault => rfl
        | ok kind => exact ih (some kind) hpairs
    · rw [splitTag_cons_of_ne tag hkey hvalue, ih tag hpairs, if_neg hkey, if_pos (by simpa using hkey)]
      cases tagOf tag (valuesOf tagKey pairs) <;> rfl

/-- Splitting off the tag looks at every value: a faulty one is refused wherever it stands. -/
theorem isSound_of_splitTag {tag : Option Kind} {pairs : List (String × Document)}
    {found : Option Kind × List (String × Document)}
    (h : splitTag tag (pairs.map fun pair => (.text pair.1, pair.2)) = .ok found) :
    ∀ pair ∈ pairs, isSound pair.2 = true := by
  induction pairs generalizing tag found with
  | nil => exact fun _ hpair => absurd hpair List.not_mem_nil
  | cons pair pairs ih =>
    obtain ⟨key, value⟩ := pair
    rw [List.map_cons] at h
    rw [List.forall_mem_cons]
    -- the value of the tag is the word of a kind, and any other value was looked at
    by_cases hkey : key = tagKey
    · subst hkey
      cases tag with
      | some kind =>
        rw [splitTag_some_cons_tag] at h
        cases h
      | none =>
        rw [splitTag_none_cons_tag, Except.bind_eq_ok_iff] at h
        obtain ⟨kind, hkind, hrest⟩ := h
        obtain rfl := Kind.ofDocument_eq_ok_iff.1 hkind
        exact ⟨rfl, ih hrest⟩
    · by_cases hvalue : isSound value = true
      · rw [splitTag_cons_of_ne tag hkey hvalue, Except.map_eq_ok_iff] at h
        obtain ⟨rest, hrest, -⟩ := h
        exact ⟨hvalue, ih hrest⟩
      · cases tag <;> rw [Document.text, splitTag, if_neg hkey, if_neg hvalue] at h <;> cases h

/-- A tag is found exactly if one value stands under its key and is the word of a kind. -/
theorem tagOf_none_eq_ok_some_iff {values : List Document} {kind : Kind} :
    tagOf none values = .ok (some kind) ↔ values = [.text kind.word] := by
  cases values with
  | nil => simp [tagOf]
  | cons value values =>
    simp only [tagOf, Except.bind_eq_ok_iff, Kind.ofDocument_eq_ok_iff]
    cases values with
    | nil =>
      simp only [tagOf, Except.ok.injEq, Option.some.injEq]
      constructor
      · rintro ⟨_, rfl, rfl⟩
        rfl
      · intro h
        exact ⟨kind, (List.cons.inj h).1, rfl⟩
    | cons value' values => simp [tagOf]

end Member

/-! ## Finishing a draft -/

/-- A draft is finished as the member whose parts its slots hold. -/
theorem Draft.finish_eq_ok_iff {kind : Kind} {draft : Draft} {m : Member} :
    draft.finish kind = .ok m ↔
      m.role.kind = kind ∧ draft.name = some m.name ∧
        (∀ typeName ∈ m.typeName?, draft.typeName = some typeName) ∧
        m.javadoc = draft.javadoc.getD .empty ∧
        (m.isField = true → m.annotations = draft.annotations.getD []) := by
  constructor
  · intro h
    rw [finish] at h
    -- the name is due for every kind, the type for a field only
    cases hname : draft.name with
    | none =>
      rw [hname] at h
      cases h
    | some name =>
      rw [hname] at h
      cases kind with
      | classType =>
        obtain rfl := Except.ok.inj h
        exact ⟨rfl, rfl, nofun, rfl, nofun⟩
      | method =>
        obtain rfl := Except.ok.inj h
        exact ⟨rfl, rfl, nofun, rfl, nofun⟩
      | field =>
        cases htypeName : draft.typeName with
        | none =>
          rw [htypeName] at h
          cases h
        | some typeName =>
          rw [htypeName] at h
          obtain rfl := Except.ok.inj h
          exact ⟨rfl, rfl, fun _ ht => ht ▸ rfl, rfl, fun _ => rfl⟩
  · obtain ⟨name, javadoc, role⟩ := m
    rintro ⟨rfl, hname, htypeName, rfl, hannotations⟩
    rw [finish, hname]
    cases role with
    | classType => rfl
    | method => rfl
    | field typeName annotations =>
      obtain rfl : annotations = draft.annotations.getD [] := hannotations rfl
      rw [htypeName typeName rfl]
      rfl

namespace Member

/-! ## The parts of a member, slot by slot -/

variable {kind : Kind} {pairs : List (String × Document)} {m : Member}

/-- The slot of the name gets the name of a member exactly if it stands once. -/
theorem exists_fills_name_iff :
    (∃ new : Option String, Slot.name.Fills none (kind.valuesFor .name pairs) new ∧
        new = some m.name) ↔
      valuesOf "name" pairs = [.text m.name] := by
  rw [Kind.valuesFor_of_mem kind.name_mem_slots, exists_eq_right, Slot.fills_some_iff]
  simp only [Slot.read, Document.asString_eq_ok_iff]
  exact exists_eq_right

/-- The slot of the type gets the type of a field exactly if it stands once; other kinds have no such
slot. -/
theorem exists_fills_typeName_iff :
    (∃ new : Option String, Slot.typeName.Fills none (m.role.kind.valuesFor .typeName pairs) new ∧
        ∀ typeName ∈ m.typeName?, new = some typeName) ↔
      ∀ typeName ∈ m.typeName?, valuesOf "type_name" pairs = [.text typeName] := by
  obtain ⟨name, javadoc, role⟩ := m
  cases role with
  | classType =>
    have hslot : Slot.typeName ∉ Kind.classType.slots := by decide
    simp [Role.kind, Kind.valuesFor_of_notMem hslot, typeName?, Slot.Fills]
  | method =>
    have hslot : Slot.typeName ∉ Kind.method.slots := by decide
    simp [Role.kind, Kind.valuesFor_of_notMem hslot, typeName?, Slot.Fills]
  | field typeName annotations =>
    simp only [Role.kind, Kind.valuesFor_of_mem (Kind.mem_slots_field _), typeName?,
      Option.mem_some_iff, forall_eq']
    rw [exists_eq_right, Slot.fills_some_iff]
    simp only [Slot.read, Document.asString_eq_ok_iff]
    exact exists_eq_right

/-- The slot of the comment may stay free for a member without comment. -/
theorem exists_fills_javadoc_iff :
    (∃ new : Option Javadoc, Slot.javadoc.Fills none (kind.valuesFor .javadoc pairs) new ∧
        m.javadoc = new.getD .empty) ↔
      (valuesOf "javadoc" pairs = [] ∧ m.javadoc.parts = []) ∨
        valuesOf "javadoc" pairs = [.list (m.javadoc.parts.map .text)] := by
  have hempty : ∀ doc : Javadoc, doc = .empty ↔ doc.parts = [] := by
    rintro ⟨parts⟩
    simp [Javadoc.empty]
  rw [Kind.valuesFor_of_mem kind.javadoc_mem_slots, ← hempty]
  refine (@Slot.exists_fills_getD_iff .javadoc _ _ _).trans (or_congr_right ?_)
  simp only [Slot.read, Javadoc.ofDocument_eq_ok_iff]
  exact exists_eq_right

/-- The slot of the annotations may stay free for a field without annotations. -/
theorem exists_fills_annotations_iff (hsound : ∀ pair ∈ pairs, pair.2.HasValue) :
    (∃ new : Option (List Annotation),
        Slot.annotations.Fills none (m.role.kind.valuesFor .annotations pairs) new ∧
        (m.isField = true → m.annotations = new.getD [])) ↔
      (m.isField = true → (valuesOf "annotations" pairs = [] ∧ m.annotations = []) ∨
        ∃ items, valuesOf "annotations" pairs = [.list items] ∧
          List.Forall₂ Annotation.Spells items m.annotations) := by
  obtain ⟨name, javadoc, role⟩ := m
  cases role with
  | classType =>
    have hslot : Slot.annotations ∉ Kind.classType.slots := by decide
    simp [Role.kind, Kind.valuesFor_of_notMem hslot, isField, Slot.Fills]
  | method =>
    have hslot : Slot.annotations ∉ Kind.method.slots := by decide
    simp [Role.kind, Kind.valuesFor_of_notMem hslot, isField, Slot.Fills]
  | field typeName annotations =>
    simp only [Role.kind, Kind.valuesFor_of_mem (Kind.mem_slots_field _), isField,
      Member.annotations, forall_const]
    refine (@Slot.exists_fills_getD_iff .annotations _ _ _).trans (or_congr_right ?_)
    constructor
    · rintro ⟨value, h, hread⟩
      obtain ⟨items, rfl, hitems⟩ :=
        (Draft.annotationList_eq_ok_iff (hasValue_of_valuesOf hsound h)).1 hread
      exact ⟨items, h, hitems⟩
    · rintro ⟨items, h, hitems⟩
      exact ⟨_, h, (Draft.annotationList_eq_ok_iff (hasValue_of_valuesOf hsound h)).2
        ⟨items, rfl, hitems⟩⟩

/-- Pairs are read as a member of a kind exactly if they give its parts. -/
theorem ofPairs_eq_ok_iff (hsound : ∀ pair ∈ pairs, pair.2.HasValue) :
    ofPairs kind pairs = .ok m ↔ m.role.kind = kind ∧ HasParts pairs m := by
  rw [ofPairs, Except.bind_eq_ok_iff]
  simp only [Draft.foldlM_take_eq_ok_iff, Draft.finish_eq_ok_iff]
  -- the conditions on the draft fall apart into one for each slot
  constructor
  · rintro ⟨draft, hfills, rfl, hname, htypeName, hjavadoc, hannotations⟩
    exact ⟨rfl, exists_fills_name_iff.1 ⟨_, hfills .name, hname⟩,
      exists_fills_typeName_iff.1 ⟨_, hfills .typeName, htypeName⟩,
      exists_fills_javadoc_iff.1 ⟨_, hfills .javadoc, hjavadoc⟩,
      (exists_fills_annotations_iff hsound).1 ⟨_, hfills .annotations, hannotations⟩⟩
  · rintro ⟨rfl, hparts⟩
    obtain ⟨name, hname, hname'⟩ := exists_fills_name_iff.2 hparts.name
    obtain ⟨typeName, htypeName, htypeName'⟩ := exists_fills_typeName_iff.2 hparts.typeName
    obtain ⟨javadoc, hjavadoc, hjavadoc'⟩ := exists_fills_javadoc_iff.2 hparts.javadoc
    obtain ⟨annotations, hannotations, hannotations'⟩ :=
      (exists_fills_annotations_iff hsound).2 hparts.annotations
    refine ⟨⟨name, typeName, javadoc, annotations⟩, fun slot => ?_, rfl, hname', htypeName',
      hjavadoc', hannotations'⟩
    cases slot with
    | name => exact hname
    | typeName => exact htypeName
    | javadoc => exact hjavadoc
    | annotations => exact hannotations

/-! ## Reading an object -/

/-- The parts of a member depend on the values for the slots of its kind only, in whatever order they
stand. -/
theorem HasParts.of_perm {pairs' : List (String × Document)}
    (hperm : ∀ slot ∈ m.role.kind.slots, (valuesOf slot.key pairs).Perm (valuesOf slot.key pairs'))
    (h : HasParts pairs m) : HasParts pairs' m := by
  -- a list of one value or of none is determined up to order
  have hone : ∀ slot ∈ m.role.kind.slots, ∀ value,
      valuesOf slot.key pairs = [value] → valuesOf slot.key pairs' = [value] :=
    fun slot hslot value hvalue => List.perm_singleton.1 (hvalue ▸ (hperm slot hslot).symm)
  have hnone : ∀ slot ∈ m.role.kind.slots,
      valuesOf slot.key pairs = [] → valuesOf slot.key pairs' = [] :=
    fun slot hslot hvalue => List.perm_nil.1 (hvalue ▸ (hperm slot hslot).symm)
  obtain ⟨name, javadoc, role⟩ := m
  have hjavadoc := Kind.javadoc_mem_slots role.kind
  refine ⟨hone .name (Kind.name_mem_slots _) _ h.name, fun typeName htypeName => ?_,
    h.javadoc.imp (And.imp_left (hnone .javadoc hjavadoc)) (hone .javadoc hjavadoc _),
    fun hfield => ?_⟩
  · cases role with
    | classType => cases htypeName
    | method => cases htypeName
    | field _ _ => exact hone .typeName (Kind.mem_slots_field _) _ (h.typeName typeName htypeName)
  · cases role with
    | classType => cases hfield
    | method => cases hfield
    | field _ _ =>
      have hslot := Kind.mem_slots_field .annotations
      refine (h.annotations rfl).imp (And.imp_left (hnone .annotations hslot)) ?_
      rintro ⟨items, hitems, hspells⟩
      exact ⟨items, hone .annotations hslot _ hitems, hspells⟩

/-- The tag is no part of a member. -/
theorem hasParts_filter_iff :
    HasParts (pairs.filter fun pair => !decide (pair.1 = tagKey)) m ↔ HasParts pairs m := by
  have hvalues : ∀ slot : Slot,
      valuesOf slot.key (pairs.filter fun pair => !decide (pair.1 = tagKey)) =
        valuesOf slot.key pairs := by
    intro slot
    have hkey : (!decide (slot.key = tagKey)) = true := by cases slot <;> decide
    exact @valuesOf_filter (fun key => !decide (key = tagKey)) slot.key hkey pairs
  exact ⟨HasParts.of_perm fun slot _ => .of_eq (hvalues slot),
    HasParts.of_perm fun slot _ => .of_eq (hvalues slot).symm⟩

/-- An object with sound values is read as a member exactly if it denotes it. -/
theorem ofDocument_record_eq_ok_iff (hsound : ∀ pair ∈ pairs, isSound pair.2 = true) :
    ofDocument (.record pairs) = .ok m ↔ Denotes pairs m := by
  have hvalue : ∀ pair ∈ pairs.filter fun pair => !decide (pair.1 = tagKey), pair.2.HasValue :=
    fun pair hpair => ⟨_, hsound pair (List.mem_of_mem_filter hpair)⟩
  rw [Document.record, ofDocument, splitTag_record none pairs hsound, Except.bind_eq_ok_iff]
  simp only [Except.map_eq_ok_iff]
  constructor
  · rintro ⟨_, ⟨tag, htag, rfl⟩, h⟩
    cases tag with
    | none =>
      -- an object without a tag is refused
      cases h
    | some kind =>
      obtain ⟨rfl, hparts⟩ := (ofPairs_eq_ok_iff hvalue).1 h
      exact ⟨hasParts_filter_iff.1 hparts, tagOf_none_eq_ok_some_iff.1 htag⟩
  · intro h
    refine ⟨_, ⟨_, tagOf_none_eq_ok_some_iff.2 h.kind, rfl⟩, ?_⟩
    exact (ofPairs_eq_ok_iff hvalue).2 ⟨rfl, hasParts_filter_iff.2 h.toHasParts⟩

/-- A text that says an object is read as a member exactly if it is well-formed and denotes it. -/
theorem parse_object_eq_ok_iff {text : String}
    (hdocument : (Document.read text).document = .record pairs) :
    parse text = .ok m ↔ Document.IsObjectText text pairs ∧ Denotes pairs m := by
  constructor
  · intro h
    obtain ⟨hread, hcomplete⟩ := Document.parse_eq_ok_iff.1 h
    rw [hdocument] at hread
    -- the reader has looked at every value before it gave a member
    have hsound : ∀ pair ∈ pairs, isSound pair.2 = true := by
      rw [Document.record, ofDocument, Except.bind_eq_ok_iff] at hread
      obtain ⟨_, hsplit, -⟩ := hread
      exact isSound_of_splitTag hsplit
    refine ⟨Document.IsObjectText.iff_isSound.2 ⟨?_, hsound⟩,
      (ofDocument_record_eq_ok_iff hsound).1 hread⟩
    rw [← hdocument, ← hcomplete]
  · rintro ⟨htext, hdenotes⟩
    exact htext.parse_iff.2 ((ofDocument_record_eq_ok_iff htext.isSound).2 hdenotes)

/-! ## What the reading depends on -/

theorem valuesOf_perm_of_sameContent {pairs' : List (String × Document)}
    (h : kind.SameContent pairs pairs') {key : String} (hkey : kind.knows key = true) :
    (valuesOf key pairs).Perm (valuesOf key pairs') := by
  rw [← valuesOf_filter hkey pairs, ← valuesOf_filter hkey pairs']
  exact (List.Perm.filter _ h).map _

theorem Denotes.of_sameContent {pairs' : List (String × Document)}
    (hsame : m.role.kind.SameContent pairs pairs') (h : Denotes pairs m) : Denotes pairs' m := by
  refine ⟨h.toHasParts.of_perm fun slot hslot => valuesOf_perm_of_sameContent hsame ?_, ?_⟩
  · rw [Kind.knows, Kind.slot?_eq_some_iff.2 ⟨hslot, rfl⟩]
    exact Bool.or_true _
  · have htag : (valuesOf "kind" pairs).Perm (valuesOf "kind" pairs') :=
      valuesOf_perm_of_sameContent hsame (by simp [Kind.knows, tagKey])
    exact List.perm_singleton.1 (h.kind ▸ htag.symm)

/-- **The named form of a member is accepted exactly on its grammar.** A well-formed text of an object is
read as some member exactly if its pairs follow the grammar of a kind, and as a given member exactly if
they denote it. Any other such text with the same pairs under the keys that the kind of the member knows
is read as the same member: neither pairs under other keys nor the order of the pairs matter. -/
theorem parse_eq_ok_iff_denotes {text : String} {pairs : List (String × Document)}
    (htext : Document.IsObjectText text pairs) :
    ((∃ m, parse text = .ok m) ↔ ∃ kind, Conforms kind pairs) ∧
      (∀ m, parse text = .ok m ↔ Denotes pairs m) ∧
      ∀ (m : Member) (text' : String) (pairs' : List (String × Document)),
        Document.IsObjectText text' pairs' → m.role.kind.SameContent pairs pairs' →
          (parse text = .ok m ↔ parse text' = .ok m) := by
  have hparse : ∀ {text pairs}, Document.IsObjectText text pairs →
      ∀ m, parse text = .ok m ↔ Denotes pairs m :=
    fun htext m => (parse_object_eq_ok_iff htext.document_eq).trans (and_iff_right htext)
  refine ⟨?_, hparse htext, fun m text' pairs' htext' hsame => ?_⟩
  · simp only [hparse htext, ← exists_denotes_iff]
    exact ⟨fun ⟨m, h⟩ => ⟨_, m, h, rfl⟩, fun ⟨_, m, h, _⟩ => ⟨m, h⟩⟩
  · rw [hparse htext, hparse htext']
    exact ⟨.of_sameContent hsame, .of_sameContent hsame.symm⟩

/-- A field with a pair that no field wants, and the same field without it and with the other pairs the
other way round. -/
theorem parse_reversed_field :
    let annotations : Document := .list [.text "Nonnull", .record [("NotNull", .record [])],
      .text "Nonnull"]
    let pairs : List (String × Document) := [("annotations", annotations), ("name", .text "id"),
      ("kind", .text "field"), ("type_name", .text "Long")]
    let field : Member := ⟨"id", ⟨[]⟩, .field "Long" [.nonnull, .notNull, .nonnull]⟩
    parse (Document.record (("kinds", .record [("kind", .text "class")]) :: pairs)).compact =
        .ok field ∧
      parse (Document.record pairs.reverse).compact = .ok field := by
  intro annotations pairs field
  have hpairs : ∀ pair ∈ pairs, pair.2.IsPlain := by
    simp [pairs, annotations, Document.list, Document.arePlain_iff, Document.isPlain_record_iff,
      Document.text, Document.IsPlain]
  have hplain : (Document.record (("kinds", .record [("kind", .text "class")]) :: pairs)).IsPlain := by
    rw [Document.isPlain_record_iff, List.forall_mem_cons, Document.isPlain_record_iff]
    exact ⟨List.forall_mem_singleton.2 rfl, hpairs⟩
  have hplain' : (Document.record pairs.reverse).IsPlain :=
    Document.isPlain_record_iff.2 fun pair hpair => hpairs pair (List.mem_reverse.1 hpair)
  obtain ⟨-, hparse, hsame⟩ := parse_eq_ok_iff_denotes (.of_isPlain hplain (by decide))
  have hfield := (hparse field).2 {
    name := rfl
    typeName := by
      rintro _ ⟨rfl⟩
      rfl
    javadoc := .inl ⟨rfl, rfl⟩
    annotations := fun _ => .inr ⟨_, rfl, .cons (.name .nonnull)
      (.cons (.empty .notNull) (.cons (.name .nonnull) .nil))⟩
    kind := rfl }
  refine ⟨hfield, (hsame _ _ _ (.of_isPlain hplain' (by decide)) ?_).1 hfield⟩
  exact (List.reverse_perm pairs).symm

end Member

end KeywordRules
