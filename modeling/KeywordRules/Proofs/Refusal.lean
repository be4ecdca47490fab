import KeywordRules.Proofs.Decoding
import KeywordRules.Proofs.Denotation
import KeywordRules.Proofs.Slots

/-!
# Which documents the readers of parts refuse

The other side of the grammar of parts: a sound document that does not follow it is refused, and for
which cause. A document of another sort is refused with what was found in its place (`IsMistaken`), an
unknown name as an unknown variant, and a list with its first offending item (`FirstFailure`). For each
reader the refusals are an inductive relation beside the accepted spellings; the reader fails exactly as
the relation says, because the two together leave no sound document out (`eq_error_iff_of_total`).
-/

namespace KeywordRules

open KeywordRules.Json

/-! ## The first item that fails -/

/-- An item of a list fails with `e` and no item before it fails; whether one does may depend on the items
before it. -/
def FirstFailure {α ε : Type} (Fails : List α → α → ε → Prop) (as : List α) (e : ε) : Prop :=
  ∃ before a after, as = before ++ a :: after ∧ Fails before a e ∧
    ∀ earlier a' between, before = earlier ++ a' :: between → ∀ e', ¬ Fails earlier a' e'

section

variable {α β σ ε : Type}

theorem not_firstFailure_nil (Fails : List α → α → ε → Prop) (e : ε) : ¬ FirstFailure Fails [] e := by
  rintro ⟨before, a, after, h, -⟩
  cases before <;> cases h

/-- The first failure is that of the head, or comes behind a head that does not fail. -/
theorem firstFailure_cons_iff {Fails : List α → α → ε → Prop} {a : α} {as : List α} {e : ε} :
    FirstFailure Fails (a :: as) e ↔
      Fails [] a e ∨
        (∀ e', ¬ Fails [] a e') ∧ FirstFailure (fun before => Fails (a :: before)) as e := by
  constructor
  · rintro ⟨before, b, after, h, hfails, hbefore⟩
    -- the item that fails is the head, or the head is the first of the items before it
    obtain ⟨rfl, h⟩ | ⟨before, rfl, rfl⟩ := List.cons_eq_append_iff.1 h
    · obtain ⟨rfl, rfl⟩ := List.cons.inj h
      exact .inl hfails
    · refine .inr ⟨hbefore [] a before rfl, before, b, after, rfl, hfails, ?_⟩
      rintro earlier a' between rfl
      exact hbefore (a :: earlier) a' between rfl
  · rintro (hfails | ⟨hhead, before, b, after, rfl, hfails, hbefore⟩)
    · exact ⟨[], a, as, rfl, hfails, fun earlier _ _ h => by cases earlier <;> cases h⟩
    · refine ⟨a :: before, b, after, rfl, hfails, fun earlier a' between h => ?_⟩
      obtain ⟨rfl, h⟩ | ⟨earlier, rfl, rfl⟩ := List.cons_eq_append_iff.1 h
      · obtain ⟨rfl, -⟩ := List.cons.inj h
        exact hhead
      · exact hbefore earlier a' between rfl

/-- Folding fails exactly with the first step that fails; `Inv` says what a state knows of the items that
led to it, and `Fails` when an item fails behind them. -/
theorem Except.foldlM_eq_error_iff {f : σ → α → Except ε σ} (Inv : List α → σ → Prop)
    {Fails : List α → α → ε → Prop} {as : List α} (seen : List α) {s : σ} {e : ε}
    (hfails : ∀ a ∈ as, ∀ seen s e, Inv seen s → (f s a = .error e ↔ Fails seen a e))
    (hinv : ∀ seen s a s', Inv seen s → f s a = .ok s' → Inv (seen ++ [a]) s') (h : Inv seen s) :
    as.foldlM f s = .error e ↔ FirstFailure (fun before => Fails (seen ++ before)) as e := by
  induction as generalizing seen s with
  | nil => exact ⟨nofun, fun hfirst => (not_firstFailure_nil _ e hfirst).elim⟩
  | cons a as ih =>
    obtain ⟨hhead, hrest⟩ := List.forall_mem_cons.1 hfails
    rw [List.foldlM_cons, firstFailure_cons_iff, List.append_nil]
    simp only [← hhead seen s _ h]
    -- the invariant is carried to the state behind a head that does not fail
    cases hstep : f s a with
    | error e' => simp [bind, Except.bind]
    | ok s' =>
      have hfold := ih (seen ++ [a]) hrest (hinv seen s a s' h hstep)
      simp only [List.append_assoc, List.singleton_append] at hfold
      simpa [bind, Except.bind] using hfold

theorem Except.map_eq_error_iff {x : Except ε α} {f : α → β} {e : ε} :
    x.map f = .error e ↔ x = .error e := by
  cases x <;> simp [Except.map]

theorem Except.bind_eq_error_iff {x : Except ε α} {f : α → Except ε β} {e : ε} :
    x >>= f = .error e ↔ x = .error e ∨ ∃ a, x = .ok a ∧ f a = .error e := by
  cases x <;> simp [bind, Except.bind]

/-- A list of steps fails exactly with the first step that fails. -/
theorem Except.mapM_eq_error_iff {f : α → Except ε β} {Fails : α → ε → Prop} {as : List α} {e : ε}
    (hfails : ∀ a ∈ as, ∀ e, f a = .error e ↔ Fails a e) :
    as.mapM f = .error e ↔ FirstFailure (fun _ => Fails) as e := by
  induction as with
  | nil => exact ⟨nofun, fun hfirst => (not_firstFailure_nil _ e hfirst).elim⟩
  | cons a as ih =>
    obtain ⟨hhead, hrest⟩ := List.forall_mem_cons.1 hfails
    rw [List.mapM_cons, firstFailure_cons_iff, ← ih hrest]
    simp only [← hhead]
    cases hstep : f a with
    | error e' => simp [bind, Except.bind]
    | ok b => cases as.mapM f <;> simp [bind, Except.bind, pure, Except.pure]

end

/-- Failures that are all of one sort of fault have a first one of that sort. -/
theorem firstFailure_unfit_iff {α : Type} {Fails : List α → α → Misfit → Prop} {as : List α}
    {fault : Fault} :
    FirstFailure (fun before a fault => ∃ cause, fault = .unfit cause ∧ Fails before a cause) as fault ↔
      ∃ cause, fault = .unfit cause ∧ FirstFailure Fails as cause := by
  constructor
  · rintro ⟨before, a, after, rfl, ⟨cause, rfl, hfails⟩, hbefore⟩
    refine ⟨cause, rfl, before, a, after, rfl, hfails, fun earlier a' between h cause' hearlier => ?_⟩
    exact hbefore earlier a' between h _ ⟨cause', rfl, hearlier⟩
  · rintro ⟨cause, rfl, before, a, after, rfl, hfails, hbefore⟩
    refine ⟨before, a, after, rfl, ⟨cause, rfl, hfails⟩, ?_⟩
    rintro earlier a' between h _ ⟨cause', rfl, hearlier⟩
    exact hbefore earlier a' between h cause' hearlier

/-- A reader fails exactly with the causes for which it refuses, if it accepts or refuses whatever it is
given. -/
theorem eq_error_iff_of_total {α : Type} {read : Except Fault α} {Accepts : α → Prop}
    {Refuses : Misfit → Prop} (haccepts : ∀ a, Accepts a → read = .ok a)
    (hrefuses : ∀ cause, Refuses cause → read = .error (.unfit cause))
    (htotal : (∃ a, Accepts a) ∨ ∃ cause, Refuses cause) (fault : Fault) :
    read = .error fault ↔ ∃ cause, fault = .unfit cause ∧ Refuses cause := by
  constructor
  · intro h
    obtain ⟨a, ha⟩ | ⟨cause, hcause⟩ := htotal
    · cases h.symm.trans (haccepts a ha)
    · exact ⟨cause, Except.error.inj (h.symm.trans (hrefuses cause hcause)), hcause⟩
  · rintro ⟨cause, rfl, hcause⟩
    exact hrefuses cause hcause

/-! ## Documents of another sort -/

namespace Json.Document

/-- A document is not of the sort that is wanted, and the cause says what was found in its place. -/
inductive IsMistaken (wanted : Wanted) (IsOfSort : Document → Prop) : Document → Misfit → Prop where
  | intro {d : Document} {found : Found} (hd : ¬ IsOfSort d) (hfound : d.found? = some found) :
    IsMistaken wanted IsOfSort d (.invalidType found wanted)

/-- A document is a text. -/
def IsText (d : Document) : Prop :=
  ∃ s, d = .text s

/-- A document is a complete array. -/
def IsList (d : Document) : Prop :=
  ∃ items, d = .list items

/-- A document is a complete object whose keys are texts. -/
def IsRecord (d : Document) : Prop :=
  ∃ pairs, d = .record pairs

/-- A document with a value can be talked about. -/
theorem HasValue.exists_found? {d : Document} (hd : d.HasValue) : ∃ found, d.found? = some found := by
  obtain ⟨depth, hd⟩ := hd
  cases d with
  | null => exact ⟨_, rfl⟩
  | bool b => exact ⟨_, rfl⟩
  | number literal =>
    rw [valueWithin?, Option.isSome_map] at hd
    obtain ⟨number, hnumber⟩ := Option.isSome_iff_exists.1 hd
    exact ⟨_, by rw [found?, hnumber]; rfl⟩
  | string text? =>
    rw [valueWithin?, Option.isSome_map] at hd
    obtain ⟨s, rfl⟩ := Option.isSome_iff_exists.1 hd
    exact ⟨_, rfl⟩
  | array items closed => exact ⟨_, rfl⟩
  | object pairs closed => exact ⟨_, rfl⟩
  | broken => cases hd

theorem HasValue.exists_isMistaken {d : Document} (hd : d.HasValue) (wanted : Wanted)
    {IsOfSort : Document → Prop} (h : ¬ IsOfSort d) : ∃ cause, IsMistaken wanted IsOfSort d cause :=
  hd.exists_found?.elim fun _ hfound => ⟨_, .intro h hfound⟩

theorem IsMistaken.mismatch_eq {wanted : Wanted} {IsOfSort : Document → Prop} {d : Document}
    {cause : Misfit} (h : IsMistaken wanted IsOfSort d cause) : d.mismatch wanted = .unfit cause := by
  obtain ⟨-, hfound⟩ := h
  rw [mismatch, hfound]

theorem error_mismatch_eq_iff {α : Type} {wanted : Wanted} {IsOfSort : Document → Prop} {d : Document}
    (hd : d.HasValue) (h : ¬ IsOfSort d) (fault : Fault) :
    (.error (d.mismatch wanted) : Except Fault α) = .error fault ↔
      ∃ cause, fault = .unfit cause ∧ IsMistaken wanted IsOfSort d cause :=
  eq_error_iff_of_total (fun _ => False.elim) (fun _ hmistaken => by rw [hmistaken.mismatch_eq])
    (.inr (hd.exists_isMistaken wanted h)) fault

theorem HasValue.isRecord {pairs : List (Document × Document)} {closed : Bool}
    (h : (object pairs closed).HasValue) : (object pairs closed).IsRecord :=
  h.exists_eq_record

/-- A text is refused exactly where it is none. -/
theorem asString_eq_error_iff {d : Document} (hd : d.HasValue) (fault : Fault) :
    d.asString = .error fault ↔
      ∃ cause, fault = .unfit cause ∧ IsMistaken .string IsText d cause := by
  refine eq_error_iff_of_total (fun s h => asString_eq_ok_iff.2 h) (fun cause h => ?_) ?_ fault
  · have hmismatch := h.mismatch_eq
    obtain ⟨htext, -⟩ := h
    unfold asString
    split
    · exact (htext ⟨_, rfl⟩).elim
    · rw [hmismatch]
  · by_cases h : d.IsText
    · exact .inl h
    · exact .inr (hd.exists_isMistaken _ h)

end Json.Document

/-! ## Tags -/

/-- The tags that name no kind, and why each is refused. -/
inductive Kind.Refuses : Document → Misfit → Prop where
  | word {word : String} (h : ∀ kind : Kind, word ≠ kind.word) :
    Refuses (.text word) (.unknownVariant word ["class", "method", "field"])
  | sort {d : Document} {cause : Misfit} (h : d.IsMistaken .memberTag Document.IsText cause) :
    Refuses d cause

theorem Kind.ofDocument_eq_error_iff {d : Document} (hd : d.HasValue) (fault : Fault) :
    Kind.ofDocument d = .error fault ↔ ∃ cause, fault = .unfit cause ∧ Kind.Refuses d cause := by
  refine eq_error_iff_of_total (fun kind h => ofDocument_eq_ok_iff.2 h) ?_ ?_ fault
  -- a word that no kind has, or no text at all
  · rintro cause (@⟨word, hword⟩ | h)
    · have hnone : ofWord? word = none :=
        Option.eq_none_iff_forall_ne_some.2 fun kind hkind => hword kind (ofWord?_eq_some_iff.1 hkind)
      rw [Document.text, ofDocument, hnone]
      rfl
    · have hmismatch := h.mismatch_eq
      obtain ⟨htext, -⟩ := h
      unfold ofDocument
      split
      · exact (htext ⟨_, rfl⟩).elim
      · rw [hmismatch]
  · by_cases h : d.IsText
    · obtain ⟨word, rfl⟩ := h
      by_cases hword : ∃ kind : Kind, word = kind.word
      · obtain ⟨kind, rfl⟩ := hword
        exact .inl ⟨kind, rfl⟩
      · exact .inr ⟨_, .word (not_exists.1 hword)⟩
    · exact .inr ((hd.exists_isMistaken _ h).imp fun _ => .sort)

/-! ## Annotations -/

namespace Annotation

/-- The documents that spell no annotation, and why each is refused: an unknown name, alone or as the only
key; something of note under a known name; an object with no pair or with several; anything else. -/
inductive Refuses : Document → Misfit → Prop where
  | name {name : String} (h : ∀ a : Annotation, name ≠ a.simpleName) :
    Refuses (.text name) (.unknownVariant name ["NotNull", "Nonnull", "Nullable"])
  | key {name : String} (value : Document) (h : ∀ a : Annotation, name ≠ a.simpleName) :
    Refuses (.record [(name, value)]) (.unknownVariant name ["NotNull", "Nonnull", "Nullable"])
  | value (a : Annotation) {value : Document} {cause : Misfit}
    (h : value.IsMistaken .unit (fun d => d = .null ∨ d = .record []) cause) :
    Refuses (.record [(a.simpleName, value)]) cause
  | pairs {pairs : List (String × Document)} (h : pairs.length ≠ 1) :
    Refuses (.record pairs) .notSinglePair
  | sort {d : Document} {cause : Misfit}
    (h : d.IsMistaken .nameOrPair (fun d => d.IsText ∨ d.IsRecord) cause) : Refuses d cause

theorem named_of_ne {name : String} (h : ∀ a : Annotation, name ≠ a.simpleName) :
    named name = .error (.unfit (.unknownVariant name ["NotNull", "Nonnull", "Nullable"])) := by
  have hnone : ofName? name = none := by
    rw [ofName?, List.find?_eq_none]
    exact fun a _ hname => h a (eq_of_beq hname).symm
  rw [named, hnone]
  rfl

theorem ofDocument_record_singleton {name : String} {a : Annotation} (h : named name = .ok a)
    (value : Document) :
    ofDocument (.record [(name, value)]) =
      (match value with
        | .null => .ok a
        | .object [] _ => .ok a
        | d => .error (d.mismatch .unit)) := by
  rw [Document.record, List.map_singleton, Document.text, ofDocument, h]
  rfl

theorem ofDocument_of_refuses {d : Document} {cause : Misfit} (hd : d.HasValue)
    (h : Refuses d cause) : ofDocument d = .error (.unfit cause) := by
  cases h with
  | name h => rw [Document.text, ofDocument, named_of_ne h]
  | key value h =>
    rw [Document.record, List.map_singleton, Document.text, ofDocument, named_of_ne h]
    rfl
  | value a h =>
    rename_i value
    have hmismatch := h.mismatch_eq
    obtain ⟨hvalue, -⟩ := h
    rw [ofDocument_record_singleton (named_eq_ok_iff.2 rfl)]
    -- the reader lets nothing pass under a known name but null and an object without pairs
    have hpair : value.HasValue := Document.HasValue.of_record hd _ List.mem_cons_self
    split
    · exact (hvalue (.inl rfl)).elim
    · rename_i closed
      obtain rfl := hpair.of_object
      exact (hvalue (.inr rfl)).elim
    · rw [hmismatch]
  | pairs h =>
    rename_i pairs
    obtain _ | ⟨pair, _ | ⟨pair', more⟩⟩ := pairs
    · rfl
    · exact (h rfl).elim
    · rfl
  | sort h =>
    have hmismatch := h.mismatch_eq
    obtain ⟨hsort, -⟩ := h
    unfold ofDocument
    split
    · exact (hsort (.inl ⟨_, rfl⟩)).elim
    · exact (hsort (.inr hd.isRecord)).elim
    · exact (hsort (.inr hd.isRecord)).elim
    · rw [hmismatch]

/-- A document with a value spells an annotation or is refused. -/
theorem exists_spells_or_refuses {d : Document} (hd : d.HasValue) :
    (∃ a, Spells d a) ∨ ∃ cause, Refuses d cause := by
  -- text or object, known name or not, one pair or not, something of note in it or not
  by_cases hsort : d.IsText ∨ d.IsRecord
  · obtain ⟨name, rfl⟩ | ⟨pairs, rfl⟩ := hsort
    · by_cases hname : ∃ a : Annotation, name = a.simpleName
      · obtain ⟨a, rfl⟩ := hname
        exact .inl ⟨a, .name a⟩
      · exact .inr ⟨_, .name (not_exists.1 hname)⟩
    · by_cases hpairs : pairs.length = 1
      · obtain ⟨⟨name, value⟩, rfl⟩ := List.length_eq_one_iff.1 hpairs
        by_cases hname : ∃ a : Annotation, name = a.simpleName
        · obtain ⟨a, rfl⟩ := hname
          by_cases hvalue : value = .null ∨ value = .record []
          · obtain rfl | rfl := hvalue
            · exact .inl ⟨a, .null a⟩
            · exact .inl ⟨a, .empty a⟩
          · have hpair : value.HasValue := Document.HasValue.of_record hd _ List.mem_cons_self
            exact .inr ((hpair.exists_isMistaken .unit hvalue).imp fun _ => .value a)
        · exact .inr ⟨_, .key value (not_exists.1 hname)⟩
      · exact .inr ⟨_, .pairs hpairs⟩
  · exact .inr ((hd.exists_isMistaken .nameOrPair hsort).imp fun _ => .sort)

theorem ofDocument_eq_error_iff {d : Document} (hd : d.HasValue) (fault : Fault) :
    ofDocument d = .error fault ↔ ∃ cause, fault = .unfit cause ∧ Refuses d cause :=
  eq_error_iff_of_total (fun _ => (ofDocument_eq_ok_iff hd).2) (fun _ => ofDocument_of_refuses hd)
    (exists_spells_or_refuses hd) fault

end Annotation

/-! ## Slots -/

namespace Slot

/-- The values that do not fit a slot, and why each is refused: a name and a type have to be texts, a
comment an array of texts, and annotations an array of their spellings. -/
inductive Refuses : Slot → Document → Misfit → Prop where
  | name {d : Document} {cause : Misfit} (h : d.IsMistaken .string Document.IsText cause) :
    Refuses .name d cause
  | typeName {d : Document} {cause : Misfit} (h : d.IsMistaken .string Document.IsText cause) :
    Refuses .typeName d cause
  | javadoc {d : Document} {cause : Misfit} (h : d.IsMistaken .sequence Document.IsList cause) :
    Refuses .javadoc d cause
  | part {items : List Document} {cause : Misfit}
    (h : FirstFailure (fun _ => Document.IsMistaken .string Document.IsText) items cause) :
    Refuses .javadoc (.list items) cause
  | annotations {d : Document} {cause : Misfit} (h : d.IsMistaken .sequence Document.IsList cause) :
    Refuses .annotations d cause
  | annotation {items : List Document} {cause : Misfit}
    (h : FirstFailure (fun _ => Annotation.Refuses) items cause) :
    Refuses .annotations (.list items) cause

/-- A list of items is refused for the first item that is. -/
theorem mapM_eq_error_iff {α : Type} {read : Document → Except Fault α}
    {Refuses : Document → Misfit → Prop}
    (hread : ∀ {d : Document}, d.HasValue → ∀ fault,
      (read d = .error fault ↔ ∃ cause, fault = .unfit cause ∧ Refuses d cause))
    {items : List Document} (hitems : ∀ item ∈ items, item.HasValue) (fault : Fault) :
    items.mapM read = .error fault ↔
      ∃ cause, fault = .unfit cause ∧ FirstFailure (fun _ => Refuses) items cause := by
  rw [Except.mapM_eq_error_iff fun item hitem => hread (hitems item hitem), firstFailure_unfit_iff]

theorem read_javadoc_list (items : List Document) :
    Slot.javadoc.read (.list items) = (items.mapM Document.asString).map Javadoc.mk := by
  rw [read, Document.list, Javadoc.ofDocument]
  cases items.mapM Document.asString <;> rfl

theorem read_annotations_list (items : List Document) :
    Slot.annotations.read (.list items) = items.mapM Annotation.ofDocument := by
  rw [read, Document.list, Draft.annotationList]

/-- Where an array is wanted, a value that is none is refused. -/
theorem read_of_not_isList {slot : Slot} (hslot : slot = .javadoc ∨ slot = .annotations)
    {d : Document} (hd : d.HasValue) (h : ¬ d.IsList) :
    slot.read d = .error (d.mismatch .sequence) := by
  cases d with
  | array items closed =>
    obtain ⟨rfl, -⟩ := hd.of_array
    exact (h ⟨items, rfl⟩).elim
  | _ => obtain rfl | rfl := hslot <;> rfl

/-- Reading a sound value for a slot fails exactly if the slot refuses it. -/
theorem read_eq_error_iff {slot : Slot} {d : Document} (hd : d.HasValue) (fault : Fault) :
    slot.read d = .error fault ↔ ∃ cause, fault = .unfit cause ∧ slot.Refuses d cause := by
  cases slot with
  -- a refusal of one slot is none of another, so each inversion leaves one constructor, or two for an array
  | name =>
    rw [read, Document.asString_eq_error_iff hd]
    refine exists_congr fun _ => and_congr_right fun _ => ⟨.name, ?_⟩
    rintro ⟨h⟩
    exact h
  | typeName =>
    rw [read, Document.asString_eq_error_iff hd]
    refine exists_congr fun _ => and_congr_right fun _ => ⟨.typeName, ?_⟩
    rintro (_ | ⟨h⟩)
    exact h
  | javadoc =>
    by_cases h : d.IsList
    · obtain ⟨items, rfl⟩ := h
      rw [read_javadoc_list, Except.map_eq_error_iff,
        mapM_eq_error_iff Document.asString_eq_error_iff hd.of_array.2]
      refine exists_congr fun _ => and_congr_right fun _ => ⟨.part, ?_⟩
      rintro (_ | _ | ⟨⟨hlist, -⟩⟩ | h)
      · exact (hlist ⟨items, rfl⟩).elim
      · exact h
    · rw [read_of_not_isList (.inl rfl) hd h, Document.error_mismatch_eq_iff hd h]
      refine exists_congr fun _ => and_congr_right fun _ => ⟨.javadoc, ?_⟩
      rintro (_ | _ | h' | _)
      · exact h'
      · exact (h ⟨_, rfl⟩).elim
  | annotations =>
    by_cases h : d.IsList
    · obtain ⟨items, rfl⟩ := h
      rw [read_annotations_list, mapM_eq_error_iff Annotation.ofDocument_eq_error_iff hd.of_array.2]
      refine exists_congr fun _ => and_congr_right fun _ => ⟨Refuses.annotation, ?_⟩
      rintro (_ | _ | _ | _ | ⟨⟨hlist, -⟩⟩ | h)
      · exact (hlist ⟨items, rfl⟩).elim
      · exact h
    · rw [read_of_not_isList (.inr rfl) hd h, Document.error_mismatch_eq_iff hd h]
      refine exists_congr fun _ => and_congr_right fun _ => ⟨.annotations, ?_⟩
      rintro (_ | _ | _ | _ | h' | _)
      · exact h'
      · exact (h ⟨_, rfl⟩).elim

end Slot

end KeywordRules
