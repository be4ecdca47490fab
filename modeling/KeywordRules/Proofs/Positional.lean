import KeywordRules.Proofs.MemberGrammar

/-!
# The positional form of a member

An array stands for the object that has the same tag and whose other pairs are the items, each under the
key of its slot (`ofItems_eq_ofPairs`). So a text gives a member by pairs in either form: `IsGivenBy` says
by which ones, and whatever is read as a member has its parts from them (`exists_hasParts_of_parse`).
-/

namespace KeywordRules

open KeywordRules.Json

/-! ## Filling slots in their order -/

namespace Draft

variable {kind : Kind} {draft : Draft}

/-- A pair for a slot that is free is taken by filling the slot. -/
theorem take_of_get?_eq_none {slot : Slot} (hslot : slot ∈ kind.slots)
    (hfree : draft.get? slot = none) (item : Document) :
    draft.take kind (slot.key, item) = draft.fill slot item := by
  have hkey : kind.slot? slot.key = some slot := Kind.slot?_eq_some_iff.2 ⟨hslot, rfl⟩
  simp [take, hkey, isFilled_eq, hfree]

/-- Filling free slots in their order is taking the pairs of their keys. -/
theorem foldlM_fill_eq {slots : List Slot} (hslots : ∀ slot ∈ slots, slot ∈ kind.slots)
    (hnodup : slots.Nodup) (items : List Document) (hfree : ∀ slot ∈ slots, draft.get? slot = none) :
    (slots.zip items).foldlM (fun draft pair => draft.fill pair.1 pair.2) draft =
      ((slots.map Slot.key).zip items).foldlM (take kind) draft := by
  induction slots generalizing items draft with
  | nil => rfl
  | cons slot slots ih =>
    cases items with
    | nil => rfl
    | cons item items =>
      obtain ⟨hslot, hrest⟩ := List.forall_mem_cons.1 hslots
      obtain ⟨hne, hnodup⟩ := List.nodup_cons.1 hnodup
      obtain ⟨hslotFree, hrestFree⟩ := List.forall_mem_cons.1 hfree
      rw [List.zip_cons_cons, List.map_cons, List.zip_cons_cons, List.foldlM_cons, List.foldlM_cons,
        take_of_get?_eq_none hslot hslotFree, fill_eq]
      cases slot.read item with
      | error fault => rfl
      | ok content =>
        -- the slots that come later are other ones, so they are still free
        refine ih hrest hnodup items fun other hother => ?_
        have hother' : slot ≠ other := fun h => hne (h ▸ hother)
        rw [get?_set_of_ne draft content hother', hrestFree other hother]

end Draft

namespace Member

variable {kind : Kind} {m : Member}

/-- The pairs that the items of an array stand for: each under the key of its slot. -/
def positionalPairs (kind : Kind) (items : List Document) : List (String × Document) :=
  (kind.slots.map Slot.key).zip items

/-- Filling the slots of a kind in their order is taking the pairs that the items stand for. -/
theorem foldlM_fill_slots_eq (kind : Kind) (items : List Document) :
    (kind.slots.zip items).foldlM (fun draft pair => draft.fill pair.1 pair.2) Draft.blank =
      (positionalPairs kind items).foldlM (Draft.take kind) Draft.blank := by
  have hnodup : kind.slots.Nodup := by
    cases kind <;> decide
  have hfree : ∀ slot ∈ kind.slots, Draft.blank.get? slot = none := by
    intro slot _
    cases slot <;> rfl
  exact Draft.foldlM_fill_eq (fun slot (h : slot ∈ kind.slots) => h) hnodup items hfree

/-- As many items as a kind admits are read like the pairs that they stand for. -/
theorem ofItems_eq_ofPairs {items : List Document} (hlow : kind.needed ≤ items.length)
    (hhigh : items.length ≤ kind.slots.length) :
    ofItems kind items = ofPairs kind (positionalPairs kind items) := by
  rw [ofItems, ofPairs, ← foldlM_fill_slots_eq]
  simp only [if_neg (Nat.not_lt.2 hlow), if_neg (Nat.not_lt.2 hhigh)]

/-- An array of any other length is refused. -/
theorem length_of_ofItems_eq_ok {items : List Document} (h : ofItems kind items = .ok m) :
    kind.needed ≤ items.length ∧ items.length ≤ kind.slots.length := by
  rw [ofItems, Except.bind_eq_ok_iff] at h
  obtain ⟨draft, -, h⟩ := h
  by_cases hlow : items.length < kind.needed
  · rw [if_pos hlow] at h
    cases h
  · rw [if_neg hlow] at h
    by_cases hhigh : kind.slots.length < items.length
    · rw [if_pos hhigh] at h
      cases h
    · exact ⟨Nat.not_lt.1 hlow, Nat.not_lt.1 hhigh⟩

/-! ## Both forms -/

/-- The pairs by which a document gives a member of a kind: those of an object, or those that the items of
an array behind the tag stand for. -/
inductive IsGivenBy (kind : Kind) : Document → List (String × Document) → Prop where
  | named (pairs : List (String × Document)) : IsGivenBy kind (.record pairs) pairs
  | positional (items : List Document) :
    IsGivenBy kind (.list (.text kind.word :: items)) (positionalPairs kind items)

/-- Splitting off the tag succeeds only where every key is a text. -/
theorem exists_pairs_of_splitTag {tag : Option Kind} {pairs : List (Document × Document)}
    {found : Option Kind × List (String × Document)} (h : splitTag tag pairs = .ok found) :
    ∃ named : List (String × Document),
      pairs = named.map fun pair => (Document.text pair.1, pair.2) := by
  induction pairs generalizing tag found with
  | nil => exact ⟨[], rfl⟩
  | cons pair pairs ih =>
    -- it is enough that the key is a text and the rest of the pairs was split
    have hrest : ∀ {key : String} {value : Document}, pair = (.string (some key), value) →
        (∃ tag found, splitTag tag pairs = .ok found) →
        ∃ named : List (String × Document),
          pair :: pairs = named.map fun pair => (Document.text pair.1, pair.2) := by
      rintro key value rfl ⟨tag, found, hfound⟩
      obtain ⟨named, hnamed⟩ := ih hfound
      exact ⟨(key, value) :: named, by rw [hnamed]; rfl⟩
    unfold splitTag at h
    split at h
    · cases ‹pair :: pairs = []›
    · rename_i key value rest heq
      obtain ⟨rfl, rfl⟩ := List.cons.inj heq
      refine hrest rfl ?_
      split at h
      · cases tag with
        | some kind => cases h
        | none =>
          obtain ⟨kind, -, hkind⟩ := Except.bind_eq_ok_iff.1 h
          exact ⟨_, _, hkind⟩
      · split at h
        · obtain ⟨found', hfound', -⟩ := Except.bind_eq_ok_iff.1 h
          exact ⟨_, _, hfound'⟩
        · cases h
    · cases h

/-- Whatever is read as a member, by the one form or the other, has its parts from the pairs that give
it. -/
theorem exists_hasParts_of_parse {text : String} (h : parse text = .ok m) :
    ∃ pairs, IsGivenBy m.role.kind (Document.read text).document pairs ∧ HasParts pairs m := by
  have hread := (Document.parse_eq_ok_iff.1 h).1
  cases hdocument : (Document.read text).document with
  | object pairs closed =>
    rw [hdocument, ofDocument, Except.bind_eq_ok_iff] at hread
    obtain ⟨found, hfound, hread⟩ := hread
    obtain ⟨named, rfl⟩ := exists_pairs_of_splitTag hfound
    cases closed with
    | false => cases hread
    | true =>
      obtain ⟨-, hdenotes⟩ := (parse_object_eq_ok_iff hdocument).1 h
      exact ⟨named, .named named, hdenotes.toHasParts⟩
  | array items closed =>
    rw [hdocument] at hread
    cases items with
    | nil => cases closed <;> cases hread
    | cons tag items =>
      rw [ofDocument, Except.bind_eq_ok_iff] at hread
      obtain ⟨kind, hkind, hread⟩ := hread
      obtain rfl := Kind.ofDocument_eq_ok_iff.1 hkind
      split at hread
      · rename_i hsound
        -- the items are sound, and as many as the kind admits, so they are read like pairs
        obtain ⟨rfl, hitems⟩ := (Bool.and_eq_true_iff).1 hsound
        obtain ⟨hlow, hhigh⟩ := length_of_ofItems_eq_ok hread
        rw [ofItems_eq_ofPairs hlow hhigh] at hread
        have hvalue : ∀ pair ∈ positionalPairs kind items, pair.2.HasValue := by
          intro pair hpair
          exact ⟨_, List.all_eq_true.1 hitems _ (List.of_mem_zip hpair).2⟩
        obtain ⟨rfl, hparts⟩ := (ofPairs_eq_ok_iff hvalue).1 hread
        exact ⟨_, .positional items, hparts⟩
      · cases hread
  | _ =>
    rw [hdocument] at hread
    cases hread

end Member

end KeywordRules
