import KeywordRules.Proofs.WellFormed

/-!
# Filling slots

A draft seen slot by slot. `Slot.Content` is what a slot holds and `Slot.read` how a value is read for
it, so that filling is reading and then setting (`fill_eq`). Each slot of a kind takes the values under
its key and nothing else, whatever stands between them (`foldlM_take_eq_ok_iff`): the pairs of an object
fill a draft exactly if they fill each of its slots.
-/

namespace KeywordRules

open KeywordRules.Json

/-! ## The slots of a draft -/

/-- What a slot holds. -/
abbrev Slot.Content : Slot → Type
  | .name => String
  | .typeName => String
  | .javadoc => Javadoc
  | .annotations => List Annotation

/-- Reads a value for a slot. -/
def Slot.read : (slot : Slot) → Document → Except Fault slot.Content
  | .name => Document.asString
  | .typeName => Document.asString
  | .javadoc => Javadoc.ofDocument
  | .annotations => Draft.annotationList

/-- Different slots have different keys. -/
theorem Slot.key_injective : Function.Injective Slot.key := by
  intro slot slot'
  cases slot <;> cases slot' <;> decide

namespace Draft

/-- What a slot of a draft holds, if it is filled. -/
def get? (draft : Draft) : (slot : Slot) → Option slot.Content
  | .name => draft.name
  | .typeName => draft.typeName
  | .javadoc => draft.javadoc
  | .annotations => draft.annotations

/-- The draft with a slot filled. -/
def set (draft : Draft) : (slot : Slot) → slot.Content → Draft
  | .name, name => { draft with name := some name }
  | .typeName, typeName => { draft with typeName := some typeName }
  | .javadoc, javadoc => { draft with javadoc := some javadoc }
  | .annotations, annotations => { draft with annotations := some annotations }

theorem get?_set_self (draft : Draft) (slot : Slot) (content : slot.Content) :
    (draft.set slot content).get? slot = some content := by
  cases slot <;> rfl

theorem get?_set_of_ne (draft : Draft) {slot other : Slot} (content : slot.Content)
    (h : slot ≠ other) : (draft.set slot content).get? other = draft.get? other := by
  cases slot <;> cases other <;> first | rfl | exact absurd rfl h

/-- A draft is determined by its slots. -/
theorem ext_get? {draft draft' : Draft} (h : ∀ slot, draft.get? slot = draft'.get? slot) :
    draft = draft' := by
  have hname : draft.name = draft'.name := h .name
  have htypeName : draft.typeName = draft'.typeName := h .typeName
  have hjavadoc : draft.javadoc = draft'.javadoc := h .javadoc
  have hannotations : draft.annotations = draft'.annotations := h .annotations
  obtain ⟨name, typeName, javadoc, annotations⟩ := draft
  simp only at hname htypeName hjavadoc hannotations
  rw [hname, htypeName, hjavadoc, hannotations]

theorem isFilled_eq (draft : Draft) (slot : Slot) :
    draft.isFilled slot = (draft.get? slot).isSome := by
  cases slot <;> rfl

/-- Filling a slot is reading the value for it and setting what was read. -/
theorem fill_eq (draft : Draft) (slot : Slot) (value : Document) :
    draft.fill slot value = (slot.read value).map (draft.set slot) := by
  cases slot with
  | name => simp only [fill, Slot.read]; cases value.asString <;> rfl
  | typeName => simp only [fill, Slot.read]; cases value.asString <;> rfl
  | javadoc => simp only [fill, Slot.read]; cases Javadoc.ofDocument value <;> rfl
  | annotations => simp only [fill, Slot.read]; cases annotationList value <;> rfl

theorem take_of_slot?_eq_none {kind : Kind} {pair : String × Document}
    (h : kind.slot? pair.1 = none) (draft : Draft) : draft.take kind pair = .ok draft := by
  rw [take, h]

/-- A pair for a slot is taken exactly if the slot is free and the value fits it. -/
theorem take_eq_ok_iff {kind : Kind} {pair : String × Document} {slot : Slot}
    (h : kind.slot? pair.1 = some slot) (draft draft' : Draft) :
    draft.take kind pair = .ok draft' ↔
      draft.get? slot = none ∧ ∃ content, slot.read pair.2 = .ok content ∧
        draft.set slot content = draft' := by
  rw [take, h]
  simp only [isFilled_eq, fill_eq, ← Except.map_eq_ok_iff]
  cases draft.get? slot <;> simp

end Draft

/-! ## The values for a slot -/

/-- The values under a key, in the order of the pairs. -/
def valuesOf (key : String) (pairs : List (String × Document)) : List Document :=
  (pairs.filter fun pair => pair.1 = key).map Prod.snd

theorem valuesOf_cons (key : String) (pair : String × Document) (pairs : List (String × Document)) :
    valuesOf key (pair :: pairs) =
      if pair.1 = key then pair.2 :: valuesOf key pairs else valuesOf key pairs := by
  rw [valuesOf, List.filter_cons]
  split <;> simp_all [valuesOf]

/-- Picking out pairs by their keys keeps the values under a key that is picked. -/
theorem valuesOf_filter {p : String → Bool} {key : String} (hkey : p key = true)
    (pairs : List (String × Document)) :
    valuesOf key (pairs.filter fun pair => p pair.1) = valuesOf key pairs := by
  rw [valuesOf, valuesOf, List.filter_filter]
  congr 1
  refine List.filter_congr fun pair _ => ?_
  by_cases h : pair.1 = key <;> simp [h, hkey]

/-- The only value under a key has a value if all have one. -/
theorem hasValue_of_valuesOf {pairs : List (String × Document)} {key : String} {value : Document}
    (hsound : ∀ pair ∈ pairs, pair.2.HasValue) (h : valuesOf key pairs = [value]) :
    value.HasValue := by
  have hmem : value ∈ valuesOf key pairs := h ▸ List.mem_cons_self
  obtain ⟨pair, hpair, rfl⟩ := List.mem_map.1 hmem
  exact hsound pair (List.mem_of_mem_filter hpair)

namespace Kind

theorem name_mem_slots (kind : Kind) : .name ∈ kind.slots := by
  cases kind <;> decide

theorem javadoc_mem_slots (kind : Kind) : .javadoc ∈ kind.slots := by
  cases kind <;> decide

/-- A field has every slot. -/
theorem mem_slots_field (slot : Slot) : slot ∈ Kind.field.slots := by
  cases slot <;> decide

theorem slot?_eq_some_iff {kind : Kind} {key : String} {slot : Slot} :
    kind.slot? key = some slot ↔ slot ∈ kind.slots ∧ key = slot.key := by
  constructor
  · intro h
    rw [slot?] at h
    have hkey := List.find?_some h
    exact ⟨List.mem_of_find?_eq_some h, (eq_of_beq hkey).symm⟩
  · rintro ⟨hslot, rfl⟩
    revert hslot
    cases kind <;> cases slot <;> decide

/-- The values that a slot of a kind is filled from; a slot that the kind does not have gets none. -/
def valuesFor (kind : Kind) (slot : Slot) (pairs : List (String × Document)) : List Document :=
  if slot ∈ kind.slots then valuesOf slot.key pairs else []

theorem valuesFor_of_mem {kind : Kind} {slot : Slot} (h : slot ∈ kind.slots)
    (pairs : List (String × Document)) : kind.valuesFor slot pairs = valuesOf slot.key pairs :=
  if_pos h

theorem valuesFor_of_notMem {kind : Kind} {slot : Slot} (h : slot ∉ kind.slots)
    (pairs : List (String × Document)) : kind.valuesFor slot pairs = [] :=
  if_neg h

theorem valuesFor_cons (kind : Kind) (slot : Slot) (pair : String × Document)
    (pairs : List (String × Document)) :
    kind.valuesFor slot (pair :: pairs) =
      if kind.slot? pair.1 = some slot then pair.2 :: kind.valuesFor slot pairs
      else kind.valuesFor slot pairs := by
  simp only [valuesFor, slot?_eq_some_iff, valuesOf_cons]
  by_cases hslot : slot ∈ kind.slots <;> simp [hslot]

end Kind

/-! ## Filling a draft -/

/-- One slot, filled from a list of values: it takes a value only while it is free. -/
def Slot.Fills (slot : Slot) (old : Option slot.Content) :
    List Document → Option slot.Content → Prop
  | [], new => new = old
  | value :: values, new =>
    old = none ∧ ∃ content, slot.read value = .ok content ∧ slot.Fills (some content) values new

/-- A free slot stays free or takes the only value there is for it. -/
theorem Slot.fills_none_iff {slot : Slot} {values : List Document} {new : Option slot.Content} :
    slot.Fills none values new ↔
      (values = [] ∧ new = none) ∨
        ∃ value content, values = [value] ∧ slot.read value = .ok content ∧ new = some content := by
  cases values with
  | nil => simp [Slot.Fills]
  | cons value values => cases values <;> simp [Slot.Fills]

theorem Slot.fills_some_iff {slot : Slot} {values : List Document} {content : slot.Content} :
    slot.Fills none values (some content) ↔
      ∃ value, values = [value] ∧ slot.read value = .ok content := by
  simp [Slot.fills_none_iff]

/-- A slot that may stay free, read with a default. -/
theorem Slot.exists_fills_getD_iff {slot : Slot} {values : List Document}
    {content fallback : slot.Content} :
    (∃ new, slot.Fills none values new ∧ content = new.getD fallback) ↔
      (values = [] ∧ content = fallback) ∨
        ∃ value, values = [value] ∧ slot.read value = .ok content := by
  simp only [Slot.fills_none_iff]
  constructor
  · rintro ⟨_, ⟨hvalues, rfl⟩ | ⟨value, content', hvalues, hread, rfl⟩, rfl⟩
    · exact .inl ⟨hvalues, rfl⟩
    · exact .inr ⟨value, hvalues, hread⟩
  · rintro (⟨hvalues, rfl⟩ | ⟨value, hvalues, hread⟩)
    · exact ⟨none, .inl ⟨hvalues, rfl⟩, rfl⟩
    · exact ⟨some content, .inr ⟨value, content, hvalues, hread, rfl⟩, rfl⟩

namespace Draft

/-- Pairs are taken one after another exactly if each slot of the draft is filled from the values for
it. -/
theorem foldlM_take_eq_ok_iff (kind : Kind) (pairs : List (String × Document))
    (draft draft' : Draft) :
    pairs.foldlM (take kind) draft = .ok draft' ↔
      ∀ slot : Slot, slot.Fills (draft.get? slot) (kind.valuesFor slot pairs) (draft'.get? slot) := by
  induction pairs generalizing draft with
  | nil =>
    have hnil : ∀ slot, kind.valuesFor slot [] = [] := by
      intro slot
      simp [Kind.valuesFor, valuesOf]
    simp only [hnil, Slot.Fills, List.foldlM_nil]
    constructor
    · intro h slot
      rw [Except.ok.inj h]
    · intro h
      exact congrArg Except.ok (ext_get? fun slot => (h slot).symm)
  | cons pair pairs ih =>
    rw [List.foldlM_cons, Except.bind_eq_ok_iff]
    cases hslot : kind.slot? pair.1 with
    | none =>
      -- no slot sees the pair
      simp only [take_of_slot?_eq_none hslot, Kind.valuesFor_cons, hslot, ih]
      simp
    | some slot =>
      -- the slot of the pair takes its value, and the other slots do not see it
      simp only [take_eq_ok_iff hslot, ih, Kind.valuesFor_cons, hslot, Option.some.injEq]
      constructor
      · rintro ⟨_, ⟨hfree, content, hread, rfl⟩, hrest⟩ other
        by_cases hother : slot = other
        · subst hother
          rw [if_pos rfl]
          refine ⟨hfree, content, hread, ?_⟩
          simpa only [get?_set_self] using hrest slot
        · rw [if_neg hother]
          simpa only [get?_set_of_ne draft content hother] using hrest other
      · intro h
        obtain ⟨hfree, content, hread, hrest⟩ : (slot.Fills (draft.get? slot)
            (pair.2 :: kind.valuesFor slot pairs) (draft'.get? slot)) := by simpa using h slot
        refine ⟨_, ⟨hfree, content, hread, rfl⟩, fun other => ?_⟩
        by_cases hother : slot = other
        · subst hother
          rw [get?_set_self]
          exact hrest
        · rw [get?_set_of_ne draft content hother]
          simpa only [if_neg hother] using h other

end Draft

end KeywordRules
