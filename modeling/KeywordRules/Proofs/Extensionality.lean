import KeywordRules.Proofs.Dispatch

/-!
# Objects key by key

What an object denotes depends on what the last pair with each key denotes, and on nothing else
(`Document.valueWithin?_record_iff_hasFields`). So pairs with different keys can change places, at any level
of a document, and the document denotes the same value (`Document.Reordered.valueWithin?_eq`).
-/

namespace KeywordRules.Json

/-! ## Fields in key order -/

namespace Value

/-- A key smaller than all keys of a list is not among them. -/
theorem lookup_eq_none_of_lt {key : String} {fields : List (String × Value)}
    (h : ∀ field ∈ fields, key < field.1) : fields.lookup key = none := by
  refine List.lookup_eq_none_iff.2 fun field hfield => bne_iff_ne.2 fun heq => ?_
  exact String.lt_irrefl key (heq ▸ h field hfield)

/-- A key that is found in fields in key order is not smaller than the first one. -/
theorem not_lt_of_lookup_ne_none {key : String} {field : String × Value} {fields : List (String × Value)}
    (h : KeysIncrease (field :: fields)) (hfound : (field :: fields).lookup key ≠ none) :
    ¬key < field.1 := by
  intro hlt
  obtain ⟨hfirst, -⟩ := List.pairwise_cons.1 h
  refine hfound (lookup_eq_none_of_lt (List.forall_mem_cons.2 ⟨hlt, fun other hother => ?_⟩))
  exact String.lt_trans hlt (hfirst other hother)

/-- Fields in key order are related one by one if what is found under each key is. -/
theorem forall₂_of_rel_lookup {R : Value → Value → Prop} {fields fields' : List (String × Value)}
    (h : KeysIncrease fields) (h' : KeysIncrease fields')
    (hlookup : ∀ key, Option.Rel R (fields.lookup key) (fields'.lookup key)) :
    List.Forall₂ (fun field field' => field.1 = field'.1 ∧ R field.2 field'.2) fields fields' := by
  induction fields generalizing fields' with
  | nil =>
    cases fields' with
    | nil => exact .nil
    | cons field' fields' =>
      have hfirst := hlookup field'.1
      rw [List.lookup_nil, List.lookup_cons_self] at hfirst
      cases hfirst
  | cons field fields ih =>
    obtain ⟨key, value⟩ := field
    obtain ⟨hfirst, hrest⟩ := List.pairwise_cons.1 h
    cases fields' with
    | nil =>
      have hkey := hlookup key
      rw [List.lookup_nil, List.lookup_cons_self] at hkey
      cases hkey
    | cons field' fields' =>
      obtain ⟨key', value'⟩ := field'
      obtain ⟨hfirst', hrest'⟩ := List.pairwise_cons.1 h'
      -- each first key is found in the other list, so neither is smaller than the other
      have hnot : ¬key < key' := by
        refine not_lt_of_lookup_ne_none h' fun hnone => ?_
        have hkey := hlookup key
        rw [List.lookup_cons_self, hnone] at hkey
        cases hkey
      have hnot' : ¬key' < key := by
        refine not_lt_of_lookup_ne_none h fun hnone => ?_
        have hkey := hlookup key'
        rw [List.lookup_cons_self, hnone] at hkey
        cases hkey
      obtain rfl : key = key' := String.le_antisymm (String.not_lt.1 hnot') (String.not_lt.1 hnot)
      have hvalue := hlookup key
      rw [List.lookup_cons_self, List.lookup_cons_self] at hvalue
      cases hvalue with
      | some hvalue =>
        refine .cons ⟨rfl, hvalue⟩ (ih hrest hrest' fun other => ?_)
        -- behind the first fields their key is not found any more
        by_cases hother : other = key
        · rw [hother, lookup_eq_none_of_lt hfirst, lookup_eq_none_of_lt hfirst']
          exact .none
        · have hrel := hlookup other
          rwa [lookup_cons, lookup_cons, if_neg hother, if_neg hother] at hrel

end Value

namespace Document

variable {depth : Nat} {pairs : List (String × Document)} {value : Value}

/-! ## What an object denotes -/

/-- Fields are those of an object: their keys increase, and under each key stands what the last pair with
that key denotes. -/
structure HasFields (depth : Nat) (pairs : List (String × Document)) (fields : List (String × Value)) :
    Prop where
  keysIncrease : Value.KeysIncrease fields
  rel_lookup : ∀ key, Option.Rel (fun d value => d.valueWithin? depth = some value)
    (pairs.reverse.lookup key) (fields.lookup key)

/-- What is at two places is related if there is something at both or at none, and if whatever comes of
related things is. -/
theorem rel_of_optionRel {α β : Type} {R : α → β → Prop} {S : β → β → Prop} {a? b? : Option α}
    {x? y? : Option β} (h : Option.Rel R a? x?) (h' : Option.Rel R b? y?) (hnone : a? = none ↔ b? = none)
    (hsome : ∀ a b, a? = some a → b? = some b → ∀ x y, R a x → R b y → S x y) :
    Option.Rel S x? y? := by
  cases h with
  | some hx =>
    cases h' with
    | some hy => exact .some (hsome _ _ rfl rfl _ _ hx hy)
    | none => cases hnone.2 rfl
  | none =>
    cases h' with
    | some => cases hnone.1 rfl
    | none => exact .none

/-- Fields of two objects are related one by one if what the last pairs with each key denote is. -/
theorem HasFields.forall₂ {pairs' : List (String × Document)} {fields fields' : List (String × Value)}
    {S : Value → Value → Prop} (h : HasFields depth pairs fields) (h' : HasFields depth pairs' fields')
    (hkeys : ∀ key, pairs.reverse.lookup key = none ↔ pairs'.reverse.lookup key = none)
    (hlast : ∀ key d d', pairs.reverse.lookup key = some d → pairs'.reverse.lookup key = some d' →
      ∀ value value', d.valueWithin? depth = some value → d'.valueWithin? depth = some value' →
        S value value') :
    List.Forall₂ (fun field field' => field.1 = field'.1 ∧ S field.2 field'.2) fields fields' :=
  Value.forall₂_of_rel_lookup h.keysIncrease h'.keysIncrease fun key =>
    rel_of_optionRel (h.rel_lookup key) (h'.rel_lookup key) (hkeys key) (hlast key)

/-- An object has one list of fields. -/
theorem HasFields.unique {fields fields' : List (String × Value)} (h : HasFields depth pairs fields)
    (h' : HasFields depth pairs fields') : fields = fields' := by
  have hsame : List.Forall₂ (fun field field' => field.1 = field'.1 ∧ field.2 = field'.2)
      fields fields' := by
    refine h.forall₂ h' (fun _ => Iff.rfl) fun key d d' hd hd' value value' hvalue hvalue' => ?_
    obtain rfl := Option.some.inj (hd.symm.trans hd')
    exact Option.some.inj (hvalue.symm.trans hvalue')
  rw [← List.forall₂_eq_eq_eq]
  exact hsame.imp fun _ _ hfield => Prod.ext hfield.1 hfield.2

/-- **An object denotes, under each key, what the last pair with that key denotes.** -/
theorem valueWithin?_record_iff_hasFields :
    (record pairs).valueWithin? (depth + 1) = some value ↔
      (∀ pair ∈ pairs, (pair.2.valueWithin? depth).isSome) ∧
        ∃ fields, value = .object fields ∧ HasFields depth pairs fields := by
  have hfields : ∀ {value}, (record pairs).valueWithin? (depth + 1) = some value →
      ∃ fields, value = .object fields ∧ HasFields depth pairs fields := by
    intro value h
    obtain ⟨values, rfl, hpairs⟩ := valueWithin?_record_eq_some_iff.1 h
    refine ⟨_, rfl, Value.keysIncrease_ofPairs values, fun key => ?_⟩
    rw [Value.lookup_ofPairs]
    exact rel_lookup_of_forall₂ (List.rel_reverse hpairs) key
  constructor
  · intro h
    exact ⟨(isSome_valueWithin?_record depth pairs).1 (Option.isSome_of_eq_some h), hfields h⟩
  · rintro ⟨hsome, fields, rfl, hhas⟩
    obtain ⟨value, hvalue⟩ :=
      Option.isSome_iff_exists.1 ((isSome_valueWithin?_record depth pairs).2 hsome)
    obtain ⟨fields', rfl, hhas'⟩ := hfields hvalue
    rw [hvalue, hhas'.unique hhas]

/-! ## Reordered pairs -/

/-- Two documents that differ in the order of pairs with different keys, at any level. -/
inductive Reordered : Document → Document → Prop where
  | refl (d : Document) : Reordered d d
  | trans {d d' d'' : Document} (h : Reordered d d') (h' : Reordered d' d'') : Reordered d d''
  /-- Two pairs that stand next to each other change places. -/
  | swap (before after : List (String × Document)) {pair pair' : String × Document}
    (hne : pair.1 ≠ pair'.1) :
    Reordered (record (before ++ pair :: pair' :: after)) (record (before ++ pair' :: pair :: after))
  | item (before after : List Document) {d d' : Document} (h : Reordered d d') :
    Reordered (list (before ++ d :: after)) (list (before ++ d' :: after))
  | value (before after : List (String × Document)) (key : String) {d d' : Document}
    (h : Reordered d d') :
    Reordered (record (before ++ (key, d) :: after)) (record (before ++ (key, d') :: after))

/-- The last pair with a key stays the last one when pairs with different keys change places. -/
theorem lookup_reverse_swap (before after : List (String × Document)) {pair pair' : String × Document}
    (hne : pair.1 ≠ pair'.1) (key : String) :
    (before ++ pair' :: pair :: after).reverse.lookup key =
      (before ++ pair :: pair' :: after).reverse.lookup key := by
  obtain ⟨name, d⟩ := pair
  obtain ⟨name', d'⟩ := pair'
  have hpair : [(name, d), (name', d')].lookup key = [(name', d'), (name, d)].lookup key := by
    by_cases hkey : key = name
    · simp [List.lookup_cons, hkey, beq_false_of_ne hne]
    · simp [List.lookup_cons, beq_false_of_ne hkey]
  simp only [List.reverse_append, List.reverse_cons, List.append_assoc, List.singleton_append,
    List.lookup_append, hpair]

/-- An item can be put in the place of one that is related to no more than it is. -/
theorem forall₂_append_cons_imp {α β : Type} {R : α → β → Prop} {before after : List α} {a a' : α}
    {bs : List β} (ha : ∀ b, R a b → R a' b) (h : List.Forall₂ R (before ++ a :: after) bs) :
    List.Forall₂ R (before ++ a' :: after) bs := by
  induction before generalizing bs with
  | nil =>
    obtain ⟨b, bs, hb, hbs, rfl⟩ := List.forall₂_cons_left_iff.1 h
    exact .cons (ha b hb) hbs
  | cons first before ih =>
    obtain ⟨b, bs, hb, hbs, rfl⟩ := List.forall₂_cons_left_iff.1 h
    exact .cons hb (ih hbs)

/-- **A document denotes the same value in whatever order pairs with different keys stand.** -/
theorem Reordered.valueWithin?_eq {d d' : Document} (h : Reordered d d')
    (hvalue : d.valueWithin? depth = some value) : d'.valueWithin? depth = some value := by
  induction h generalizing depth value with
  | refl d => exact hvalue
  | trans _ _ ih ih' => exact ih' (ih hvalue)
  | swap before after hne =>
    obtain _ | depth := depth
    · simp [record, valueWithin?] at hvalue
    obtain ⟨hsome, fields, rfl, hkeys, hrel⟩ := valueWithin?_record_iff_hasFields.1 hvalue
    -- the same pairs stand there, and under each key the same one is the last
    refine valueWithin?_record_iff_hasFields.2 ⟨fun pair hpair => hsome pair ?_, fields, rfl, hkeys,
      fun key => ?_⟩
    · simpa [or_left_comm] using hpair
    · rw [lookup_reverse_swap before after hne]
      exact hrel key
  | item before after _ ih =>
    obtain _ | depth := depth
    · simp [list, valueWithin?] at hvalue
    obtain ⟨hclosed, values, rfl, hitems⟩ := valueWithin?_array_eq_some_iff.1 hvalue
    exact valueWithin?_array_eq_some_iff.2
      ⟨hclosed, values, rfl, forall₂_append_cons_imp (fun _ => ih) hitems⟩
  | value before after key _ ih =>
    obtain _ | depth := depth
    · simp [record, valueWithin?] at hvalue
    obtain ⟨fields, rfl, hpairs⟩ := valueWithin?_record_eq_some_iff.1 hvalue
    refine valueWithin?_record_eq_some_iff.2 ⟨fields, rfl, forall₂_append_cons_imp ?_ hpairs⟩
    exact fun _ hpair => ⟨hpair.1, ih hpair.2⟩

end Document

end KeywordRules.Json
