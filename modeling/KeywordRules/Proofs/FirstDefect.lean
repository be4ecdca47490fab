import KeywordRules.Proofs.MemberGrammar
import KeywordRules.Proofs.Refusal

/-!
# Which defect of a member object is reported

An object can have many defects at once; one of them is reported. `Reports` says which: the tag comes
first, wherever it stands; then the first pair in text order that offends, because it repeats a slot of
the kind or holds a value that the slot refuses; and last a slot that has to be filled and is not. A
well-formed object is refused exactly for the cause that it reports, and accepted if there is none
(`parse_eq_error_iff_reports`).

A draft knows which slots the pairs before have filled (`Draft.Holds`), so each step fails exactly if its
pair offends (`take_eq_error_iff`); the fold over the pairs fails with the first one that does.
-/

namespace KeywordRules

open KeywordRules.Json

/-! ## Defects -/

namespace Member

/-- A pair offends against a kind, after the pairs before it: a slot of the kind gets a second value,
whatever it is, or a first value that it refuses. -/
inductive Offends (kind : Kind) (before : List (String × Document)) (pair : String × Document) :
    Misfit → Prop where
  | repeated {slot : Slot} (hslot : slot ∈ kind.slots) (hkey : pair.1 = slot.key)
    (hseen : valuesOf slot.key before ≠ []) : Offends kind before pair (.duplicateField slot.key)
  | refused {slot : Slot} {cause : Misfit} (hslot : slot ∈ kind.slots) (hkey : pair.1 = slot.key)
    (hnew : valuesOf slot.key before = []) (h : slot.Refuses pair.2 cause) :
    Offends kind before pair cause

/-- An object lacks a value that its kind has to have: a name, or else the type of a field. -/
inductive Lacks (kind : Kind) (pairs : List (String × Document)) : Misfit → Prop where
  | name (h : valuesOf "name" pairs = []) : Lacks kind pairs (.missingField "name")
  | typeName (hkind : kind = .field) (hname : valuesOf "name" pairs ≠ [])
    (h : valuesOf "type_name" pairs = []) : Lacks kind pairs (.missingField "type_name")

/-- The cause for which an object is refused. -/
inductive Reports (pairs : List (String × Document)) : Misfit → Prop where
  /-- There is no tag. -/
  | noTag (h : valuesOf "kind" pairs = []) : Reports pairs (.missingField "kind")
  /-- The first tag names no kind. -/
  | wrongTag {tag : Document} {more : List Document} {cause : Misfit}
    (h : valuesOf "kind" pairs = tag :: more) (htag : Kind.Refuses tag cause) : Reports pairs cause
  /-- The first tag names a kind, and there is a second one. -/
  | secondTag {kind : Kind} {tag : Document} {more : List Document}
    (h : valuesOf "kind" pairs = .text kind.word :: tag :: more) :
    Reports pairs (.duplicateField "kind")
  /-- The tag is in order, and a pair offends; the first one that does is reported. -/
  | offence {kind : Kind} {cause : Misfit} (h : valuesOf "kind" pairs = [.text kind.word])
    (hfirst : FirstFailure (Offends kind) pairs cause) : Reports pairs cause
  /-- The tag is in order and no pair offends, but something is missing. -/
  | lack {kind : Kind} {cause : Misfit} (h : valuesOf "kind" pairs = [.text kind.word])
    (hnone : ∀ cause, ¬ FirstFailure (Offends kind) pairs cause) (hlack : Lacks kind pairs cause) :
    Reports pairs cause

end Member

/-! ## Filling a draft -/

theorem valuesOf_append (key : String) (pairs pairs' : List (String × Document)) :
    valuesOf key (pairs ++ pairs') = valuesOf key pairs ++ valuesOf key pairs' := by
  rw [valuesOf, List.filter_append, List.map_append, valuesOf, valuesOf]

namespace Draft

variable {kind : Kind} {before : List (String × Document)} {draft draft' : Draft}
  {pair : String × Document}

/-- A draft holds what pairs have brought: a slot of the kind is filled exactly if there was a value for
it. -/
def Holds (kind : Kind) (before : List (String × Document)) (draft : Draft) : Prop :=
  ∀ slot ∈ kind.slots, draft.get? slot = none ↔ valuesOf slot.key before = []

theorem holds_blank (kind : Kind) : Holds kind [] blank := by
  intro slot _
  cases slot <;> exact ⟨fun _ => rfl, fun _ => rfl⟩

/-- A pair that is taken is one more that the draft holds. -/
theorem Holds.of_take (hdraft : Holds kind before draft) (h : draft.take kind pair = .ok draft') :
    Holds kind (before ++ [pair]) draft' := by
  intro other hother
  rw [valuesOf_append, valuesOf_cons]
  by_cases hkey : pair.1 = other.key
  · -- the pair has filled this slot
    have hslot : kind.slot? pair.1 = some other := Kind.slot?_eq_some_iff.2 ⟨hother, hkey⟩
    obtain ⟨-, content, -, rfl⟩ := (take_eq_ok_iff hslot draft draft').1 h
    rw [get?_set_self, if_pos hkey]
    simp
  -- the pair has filled another slot, or none
  · have hnil : valuesOf other.key [] = [] := rfl
    rw [if_neg hkey, hnil, List.append_nil, ← hdraft other hother]
    cases hslot : kind.slot? pair.1 with
    | none =>
      rw [take_of_slot?_eq_none hslot] at h
      rw [Except.ok.inj h]
    | some slot =>
      obtain ⟨-, content, -, rfl⟩ := (take_eq_ok_iff hslot draft draft').1 h
      have hne : slot ≠ other := fun hsame =>
        hkey (hsame ▸ (Kind.slot?_eq_some_iff.1 hslot).2)
      rw [get?_set_of_ne draft content hne]

/-- A pair with a sound value is refused exactly if it offends. -/
theorem take_eq_error_iff (hdraft : Holds kind before draft) (hpair : pair.2.HasValue) (fault : Fault) :
    draft.take kind pair = .error fault ↔
      ∃ cause, fault = .unfit cause ∧ Member.Offends kind before pair cause := by
  cases hslot : kind.slot? pair.1 with
  | none =>
    rw [take_of_slot?_eq_none hslot]
    refine ⟨nofun, ?_⟩
    rintro ⟨cause, -, ⟨hmem, hkey, -⟩ | ⟨hmem, hkey, -⟩⟩ <;>
    · rw [Kind.slot?_eq_some_iff.2 ⟨hmem, hkey⟩] at hslot
      cases hslot
  | some slot =>
    obtain ⟨hmem, hkey⟩ := Kind.slot?_eq_some_iff.1 hslot
    -- a key has one slot, so the pair can offend in this one only
    have hunique : ∀ {other : Slot}, other ∈ kind.slots → pair.1 = other.key → other = slot := by
      intro other hother hkey'
      have hother' := Kind.slot?_eq_some_iff.2 ⟨hother, hkey'⟩
      exact Option.some.inj (hother'.symm.trans hslot)
    rw [Draft.take, hslot]
    simp only [isFilled_eq]
    -- a free slot reads the value; a filled one is a second value for the same part
    by_cases hfree : draft.get? slot = none
    · rw [hfree]
      simp only [Option.isSome_none, Bool.false_eq_true, if_false]
      rw [fill_eq, Except.map_eq_error_iff, Slot.read_eq_error_iff hpair]
      refine exists_congr fun cause => and_congr_right fun _ => ⟨.refused hmem hkey ?_, ?_⟩
      · exact (hdraft slot hmem).1 hfree
      · rintro (⟨hother, hkey', hseen⟩ | ⟨hother, hkey', -, hrefuses⟩)
        · obtain rfl := hunique hother hkey'
          exact (hseen ((hdraft _ hother).1 hfree)).elim
        · obtain rfl := hunique hother hkey'
          exact hrefuses
    · have hseen : valuesOf slot.key before ≠ [] := fun h => hfree ((hdraft slot hmem).2 h)
      rw [if_pos (Option.isSome_iff_ne_none.2 hfree)]
      constructor
      · intro h
        exact ⟨_, (Except.error.inj h).symm, .repeated hmem hkey hseen⟩
      · rintro ⟨cause, rfl, ⟨hother, hkey', -⟩ | ⟨hother, hkey', hnew, -⟩⟩
        · rw [hunique hother hkey']
        · obtain rfl := hunique hother hkey'
          exact (hseen hnew).elim

/-- Pairs with sound values are refused exactly for the first one that offends. -/
theorem foldlM_take_eq_error_iff {pairs : List (String × Document)}
    (hsound : ∀ pair ∈ pairs, pair.2.HasValue) (fault : Fault) :
    pairs.foldlM (take kind) blank = .error fault ↔
      ∃ cause, fault = .unfit cause ∧ FirstFailure (Member.Offends kind) pairs cause := by
  rw [Except.foldlM_eq_error_iff (Holds kind) []
    (fun pair hpair seen draft fault hdraft => take_eq_error_iff hdraft (hsound pair hpair) fault)
    (fun _ _ _ _ => Holds.of_take) (holds_blank kind)]
  simp only [List.nil_append]
  exact firstFailure_unfit_iff

theorem Holds.of_foldlM_take {pairs : List (String × Document)} (hdraft : Holds kind before draft)
    (h : pairs.foldlM (take kind) draft = .ok draft') : Holds kind (before ++ pairs) draft' := by
  induction pairs generalizing before draft with
  | nil =>
    rw [List.append_nil, ← Except.ok.inj h]
    exact hdraft
  | cons pair pairs ih =>
    rw [List.foldlM_cons] at h
    obtain ⟨draft₁, htake, h⟩ := Except.bind_eq_ok_iff.1 h
    simpa using ih (hdraft.of_take htake) h

/-- A draft is finished unless the pairs that it holds lack a value. -/
theorem finish_eq_error_iff {pairs : List (String × Document)} (hdraft : Holds kind pairs draft)
    (fault : Fault) :
    draft.finish kind = .error fault ↔ ∃ cause, fault = .unfit cause ∧ Member.Lacks kind pairs cause := by
  have hname : draft.name = none ↔ valuesOf "name" pairs = [] := hdraft .name kind.name_mem_slots
  refine eq_error_iff_of_total (fun _ h => h) (fun cause h => ?_) ?_ fault
  · cases h with
    | name h =>
      rw [finish, hname.2 h]
      rfl
    | typeName hkind hgiven h =>
      subst hkind
      obtain ⟨name, hsome⟩ := Option.ne_none_iff_exists'.1 fun hnone => hgiven (hname.1 hnone)
      have htypeName : draft.typeName = none := (hdraft .typeName (Kind.mem_slots_field _)).2 h
      rw [finish, hsome, htypeName]
      rfl
  -- the name is asked for first, and the type only where there is a name
  · cases hfilled : draft.name with
    | none => exact .inr ⟨_, .name (hname.1 hfilled)⟩
    | some name =>
      rw [finish, hfilled]
      cases kind with
      | classType => exact .inl ⟨_, rfl⟩
      | method => exact .inl ⟨_, rfl⟩
      | field =>
        cases htypeName : draft.typeName with
        | some typeName => exact .inl ⟨_, rfl⟩
        | none =>
          have hgiven : valuesOf "name" pairs ≠ [] := fun h => by simp [hname.2 h] at hfilled
          have hlacks := (hdraft .typeName (Kind.mem_slots_field _)).1 htypeName
          exact .inr ⟨_, .typeName rfl hgiven hlacks⟩

end Draft

/-! ## Reading an object -/

namespace Member

variable {kind : Kind} {pairs : List (String × Document)}

/-- The pairs of a kind are refused for the first one that offends, or else for what they lack. -/
theorem ofPairs_eq_error_iff (hsound : ∀ pair ∈ pairs, pair.2.HasValue) (fault : Fault) :
    ofPairs kind pairs = .error fault ↔
      ∃ cause, fault = .unfit cause ∧
        (FirstFailure (Offends kind) pairs cause ∨
          (∀ cause, ¬ FirstFailure (Offends kind) pairs cause) ∧ Lacks kind pairs cause) := by
  rw [ofPairs, Except.bind_eq_error_iff, Draft.foldlM_take_eq_error_iff hsound]
  constructor
  · rintro (h | ⟨draft, hfold, hfinish⟩)
    · exact h.imp fun _ => And.imp_right .inl
    · have hdraft : draft.Holds kind pairs := (Draft.holds_blank kind).of_foldlM_take hfold
      obtain ⟨cause, rfl, hlacks⟩ := (Draft.finish_eq_error_iff hdraft fault).1 hfinish
      refine ⟨cause, rfl, .inr ⟨fun cause' hfirst => ?_, hlacks⟩⟩
      -- pairs that were all taken have none that offends
      cases hfold.symm.trans ((Draft.foldlM_take_eq_error_iff hsound _).2 ⟨cause', rfl, hfirst⟩)
  · rintro ⟨cause, rfl, hfirst | ⟨hnone, hlacks⟩⟩
    · exact .inl ⟨cause, rfl, hfirst⟩
    · cases hfold : pairs.foldlM (Draft.take kind) Draft.blank with
      | error fault =>
        obtain ⟨cause', -, hfirst⟩ := (Draft.foldlM_take_eq_error_iff hsound fault).1 hfold
        exact (hnone cause' hfirst).elim
      | ok draft =>
        have hdraft : draft.Holds kind pairs := (Draft.holds_blank kind).of_foldlM_take hfold
        exact .inr ⟨draft, rfl, (Draft.finish_eq_error_iff hdraft _).2 ⟨cause, rfl, hlacks⟩⟩

/-- The tag has no slot, so it makes no difference among the pairs. -/
theorem ofPairs_filter (kind : Kind) (pairs : List (String × Document)) :
    ofPairs kind (pairs.filter fun pair => !decide (pair.1 = tagKey)) = ofPairs kind pairs := by
  have htag : kind.slot? tagKey = none := by cases kind <;> rfl
  have hfold : ∀ draft : Draft,
      (pairs.filter fun pair => !decide (pair.1 = tagKey)).foldlM (Draft.take kind) draft =
        pairs.foldlM (Draft.take kind) draft := by
    induction pairs with
    | nil => exact fun _ => rfl
    | cons pair pairs ih =>
      intro draft
      by_cases hkey : pair.1 = tagKey
      · rw [List.filter_cons_of_neg (by simp [hkey]), ih, List.foldlM_cons,
          Draft.take_of_slot?_eq_none (hkey ▸ htag)]
        rfl
      · rw [List.filter_cons_of_pos (by simp [hkey]), List.foldlM_cons, List.foldlM_cons]
        exact congrArg _ (funext ih)
  rw [ofPairs, ofPairs, hfold]

/-- How a sound object is read: by its tags, and by the kind that they name if there is only one. -/
theorem ofDocument_record_eq (hsound : ∀ pair ∈ pairs, isSound pair.2 = true) :
    ofDocument (.record pairs) =
      match valuesOf "kind" pairs with
      | [] => .error (.unfit (.missingField "kind"))
      | [tag] => Kind.ofDocument tag >>= fun kind => ofPairs kind pairs
      | tag :: _ :: _ => Kind.ofDocument tag >>= fun _ => .error (.unfit (.duplicateField "kind")) := by
  rw [Document.record, ofDocument, splitTag_record none pairs hsound, tagKey]
  cases valuesOf "kind" pairs with
  | nil => rfl
  | cons tag more =>
    rw [tagOf]
    cases more with
    | nil =>
      dsimp only
      cases Kind.ofDocument tag with
      | error fault => rfl
      | ok kind => exact ofPairs_filter kind pairs
    | cons tag' more =>
      dsimp only
      cases Kind.ofDocument tag <;> rfl

theorem hasValue_of_tags {tag : Document} {more : List Document}
    (hsound : ∀ pair ∈ pairs, pair.2.HasValue) (h : valuesOf "kind" pairs = tag :: more) :
    tag.HasValue := by
  have hmem : tag ∈ valuesOf "kind" pairs := h ▸ List.mem_cons_self
  obtain ⟨pair, hpair, rfl⟩ := List.mem_map.1 hmem
  exact hsound pair (List.mem_of_mem_filter hpair)

/-- An object with sound values is refused for what it reports. -/
theorem Reports.ofDocument_record (hsound : ∀ pair ∈ pairs, isSound pair.2 = true) {cause : Misfit}
    (h : Reports pairs cause) : ofDocument (.record pairs) = .error (.unfit cause) := by
  have hvalue : ∀ pair ∈ pairs, pair.2.HasValue := fun pair hpair => ⟨_, hsound pair hpair⟩
  have hnamed : ∀ kind : Kind, Kind.ofDocument (.text kind.word) = .ok kind :=
    fun _ => Kind.ofDocument_eq_ok_iff.2 rfl
  rw [ofDocument_record_eq hsound]
  cases h with
  | noTag h => rw [h]
  | wrongTag h htag =>
    rename_i tag more
    have hkind := (Kind.ofDocument_eq_error_iff (hasValue_of_tags hvalue h) _).2 ⟨cause, rfl, htag⟩
    rw [h]
    cases more <;>
    · simp only [hkind]
      rfl
  | secondTag h =>
    rw [h]
    simp only [hnamed]
    rfl
  | offence h hfirst =>
    rw [h]
    simp only [hnamed]
    exact (ofPairs_eq_error_iff hvalue _).2 ⟨cause, rfl, .inl hfirst⟩
  | lack h hnone hlack =>
    rw [h]
    simp only [hnamed]
    exact (ofPairs_eq_error_iff hvalue _).2 ⟨cause, rfl, .inr ⟨hnone, hlack⟩⟩

/-- An object with sound values is read, or it reports a cause. -/
theorem exists_ofDocument_record_or_reports (hsound : ∀ pair ∈ pairs, isSound pair.2 = true) :
    (∃ m, ofDocument (.record pairs) = .ok m) ∨ ∃ cause, Reports pairs cause := by
  have hvalue : ∀ pair ∈ pairs, pair.2.HasValue := fun pair hpair => ⟨_, hsound pair hpair⟩
  rw [ofDocument_record_eq hsound]
  -- by the tags: none, one that is refused, several, or one that names a kind
  cases htags : valuesOf "kind" pairs with
  | nil => exact .inr ⟨_, .noTag htags⟩
  | cons tag more =>
    cases hkind : Kind.ofDocument tag with
    | error fault =>
      obtain ⟨cause, -, hrefuses⟩ :=
        (Kind.ofDocument_eq_error_iff (hasValue_of_tags hvalue htags) fault).1 hkind
      exact .inr ⟨cause, .wrongTag htags hrefuses⟩
    | ok kind =>
      obtain rfl := Kind.ofDocument_eq_ok_iff.1 hkind
      cases more with
      | cons tag more => exact .inr ⟨_, .secondTag htags⟩
      | nil =>
        simp only [hkind]
        cases hpairs : ofPairs kind pairs with
        | ok m => exact .inl ⟨m, hpairs⟩
        | error fault =>
          obtain ⟨cause, -, hfirst | ⟨hnone, hlack⟩⟩ := (ofPairs_eq_error_iff hvalue fault).1 hpairs
          · exact .inr ⟨cause, .offence htags hfirst⟩
          · exact .inr ⟨cause, .lack htags hnone hlack⟩

/-- **A well-formed object is refused for one cause, and which one it is can be told from its pairs.** The
text is refused exactly for the causes that its pairs report; there is never more than one, and if there
is none the text is read as a member. -/
theorem parse_eq_error_iff_reports {text : String} (htext : Document.IsObjectText text pairs) :
    (∀ fault, parse text = .error fault ↔ ∃ cause, fault = .unfit cause ∧ Reports pairs cause) ∧
      (∀ cause cause', Reports pairs cause → Reports pairs cause' → cause = cause') ∧
      ((∃ m, parse text = .ok m) ↔ ∀ cause, ¬ Reports pairs cause) := by
  have hparse : parse text = ofDocument (.record pairs) := htext.parse_eq ofDocument
  have hreports : ∀ cause, Reports pairs cause → parse text = .error (.unfit cause) :=
    fun _ h => hparse.trans (h.ofDocument_record htext.isSound)
  have htotal := exists_ofDocument_record_or_reports htext.isSound
  rw [← hparse] at htotal
  refine ⟨eq_error_iff_of_total (fun _ h => h) hreports htotal, fun cause cause' h h' => ?_, ?_⟩
  · exact Fault.unfit.inj (Except.error.inj ((hreports cause h).symm.trans (hreports cause' h')))
  · constructor
    · rintro ⟨m, hm⟩ cause h
      cases hm.symm.trans (hreports cause h)
    · exact fun hnone => htotal.resolve_right (not_exists.2 hnone)

/-- A field with a pair that no field wants, a list of annotations with something under a known name, a
second list, a name that is no text, and no type: the list that stands first is reported. -/
theorem parse_eq_error_iff_reports_annotation :
    let pairs : List (String × Document) := [("names", .record [("name", .null)]),
      ("annotations", .list [.text "NotNull", .record [("Nullable", .list [])], .int 7]),
      ("annotations", .text "NotNull"), ("kind", .text "field"), ("name", .int 0)]
    let text := (Document.record pairs).compact
    let cause : Misfit := .invalidType .sequence .unit
    Document.IsObjectText text pairs ∧ parse text = .error (.unfit cause) ∧ Reports pairs cause ∧
      cause.message = "invalid type: sequence, expected unit" := by
  intro pairs text cause
  have hplain : (Document.record pairs).IsPlain := by
    simp [pairs, Document.list, Document.arePlain_iff, Document.isPlain_record_iff, Document.text,
      Document.int, Document.IsPlain]
  have htext : Document.IsObjectText text pairs := .of_isPlain hplain (by decide)
  have hparse : parse text = .error (.unfit cause) := by decide +kernel
  obtain ⟨_, hcause, hreports⟩ := ((parse_eq_error_iff_reports htext).1 _).1 hparse
  obtain rfl := Fault.unfit.inj hcause
  exact ⟨htext, hparse, hreports, by decide⟩

end Member

end KeywordRules
