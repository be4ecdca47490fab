import KeywordRules.Form.Member
import KeywordRules.Form.Node
import KeywordRules.Json.RoundTrip
import Mathlib.Data.List.Forall2

/-!
# Well-formed texts

A text is well-formed JSON if it reads as a schema node: it has no fault, no number out of range, no
surrogate without partner, and it is not nested too deeply. `IsObjectText` names a well-formed text of
an object together with its pairs in text order. Every value in such an object is sound and denotes a
value, and so does everything inside it.
-/

namespace KeywordRules

/-! ## Steps that may fail -/

theorem Except.bind_eq_ok_iff {ε α β : Type} {x : Except ε α} {f : α → Except ε β} {b : β} :
    x >>= f = .ok b ↔ ∃ a, x = .ok a ∧ f a = .ok b := by
  cases x with
  | error e => simp [bind, Except.bind]
  | ok a => simp [bind, Except.bind]

theorem Except.map_eq_ok_iff {ε α β : Type} {x : Except ε α} {f : α → β} {b : β} :
    x.map f = .ok b ↔ ∃ a, x = .ok a ∧ f a = b := by
  cases x with
  | error e => simp [Except.map]
  | ok a => simp [Except.map]

/-- A list of steps succeeds exactly if each step does; `R` says when a step does. -/
theorem Except.mapM_eq_ok_iff {ε α β : Type} {f : α → Except ε β} {R : α → β → Prop} {as : List α}
    {bs : List β} (hf : ∀ a ∈ as, ∀ b, f a = .ok b ↔ R a b) :
    as.mapM f = .ok bs ↔ List.Forall₂ R as bs := by
  induction as generalizing bs with
  | nil => cases bs <;> simp [pure, Except.pure]
  | cons a as ih =>
    obtain ⟨ha, has⟩ := List.forall_mem_cons.1 hf
    rw [List.mapM_cons, Except.bind_eq_ok_iff]
    constructor
    · rintro ⟨b, hb, h⟩
      obtain ⟨bs', hbs, h⟩ := Except.bind_eq_ok_iff.1 h
      obtain rfl : b :: bs' = bs := Except.ok.inj h
      exact .cons ((ha b).1 hb) ((ih has).1 hbs)
    · rintro (_ | ⟨hb, hbs⟩)
      exact ⟨_, (ha _).2 hb, Except.bind_eq_ok_iff.2 ⟨_, (ih has).2 hbs, rfl⟩⟩

/-- Items can be read one by one exactly if each of them can. -/
theorem exists_forall₂_iff {α β : Type} {R : α → β → Prop} {as : List α} :
    (∃ bs, List.Forall₂ R as bs) ↔ ∀ a ∈ as, ∃ b, R a b := by
  induction as with
  | nil => simp
  | cons a as ih =>
    rw [List.forall_mem_cons, ← ih]
    constructor
    · rintro ⟨_, _ | ⟨h, hs⟩⟩
      exact ⟨⟨_, h⟩, ⟨_, hs⟩⟩
    · rintro ⟨⟨b, h⟩, ⟨bs, hs⟩⟩
      exact ⟨b :: bs, .cons h hs⟩

namespace Json.Document

/-- A decoder reads a text exactly if it accepts the document and the text is complete. -/
theorem parse_eq_ok_iff {α : Type} {decode : Document → Except Fault α} {text : String} {a : α} :
    parse decode text = .ok a ↔ decode (read text).document = .ok a ∧ (read text).complete = true := by
  rw [parse]
  cases hdecode : decode (read text).document with
  | error fault => simp
  | ok b => cases (read text).complete <;> simp

/-- A complete text is read as whatever the decoder makes of its document. -/
theorem parse_eq_of_complete {α : Type} {text : String} (h : (read text).complete = true)
    (decode : Document → Except Fault α) : parse decode text = decode (read text).document := by
  rw [parse]
  simp only [h]
  cases decode (read text).document <;> rfl

/-! ## Documents with a value -/

theorem isSome_itemsWithin? (depth : Nat) (items : List Document) :
    (itemsWithin? depth items).isSome ↔ ∀ item ∈ items, (item.valueWithin? depth).isSome := by
  induction items with
  | nil => simp [itemsWithin?]
  | cons item items ih =>
    rw [itemsWithin?, List.forall_mem_cons, ← ih]
    cases item.valueWithin? depth <;> cases itemsWithin? depth items <;> simp

theorem isSome_pairsWithin?_record (depth : Nat) (pairs : List (String × Document)) :
    (pairsWithin? depth (pairs.map fun pair => (text pair.1, pair.2))).isSome ↔
      ∀ pair ∈ pairs, (pair.2.valueWithin? depth).isSome := by
  induction pairs with
  | nil => simp [pairsWithin?]
  | cons pair pairs ih =>
    rw [List.map_cons, text, pairsWithin?, List.forall_mem_cons, ← ih]
    cases pair.2.valueWithin? depth <;>
      cases pairsWithin? depth (pairs.map fun pair => (text pair.1, pair.2)) <;> simp

/-- An array has a value exactly if it is closed and its items have one, a level deeper. -/
theorem isSome_valueWithin?_array (depth : Nat) (items : List Document) (closed : Bool) :
    ((array items closed).valueWithin? (depth + 1)).isSome ↔
      closed = true ∧ ∀ item ∈ items, (item.valueWithin? depth).isSome := by
  rw [valueWithin?, ← isSome_itemsWithin?]
  cases closed <;> simp

/-- An object has a value exactly if its values have one, a level deeper. -/
theorem isSome_valueWithin?_record (depth : Nat) (pairs : List (String × Document)) :
    ((record pairs).valueWithin? (depth + 1)).isSome ↔
      ∀ pair ∈ pairs, (pair.2.valueWithin? depth).isSome := by
  rw [record, valueWithin?, ← isSome_pairsWithin?_record]
  simp

/-- A document denotes a value, whatever its depth. -/
def HasValue (d : Document) : Prop :=
  ∃ depth, (d.valueWithin? depth).isSome

theorem HasValue.of_eq_some {d : Document} {depth : Nat} {value : Value}
    (h : d.valueWithin? depth = some value) : d.HasValue :=
  ⟨depth, Option.isSome_of_eq_some h⟩

theorem HasValue.of_array {items : List Document} {closed : Bool} (h : (array items closed).HasValue) :
    closed = true ∧ ∀ item ∈ items, item.HasValue := by
  obtain ⟨_ | depth, h⟩ := h
  · simp [valueWithin?] at h
  · obtain ⟨hclosed, hitems⟩ := (isSome_valueWithin?_array depth items closed).1 h
    exact ⟨hclosed, fun item hitem => ⟨depth, hitems item hitem⟩⟩

theorem HasValue.of_object {pairs : List (Document × Document)} {closed : Bool}
    (h : (object pairs closed).HasValue) : closed = true := by
  obtain ⟨_ | depth, h⟩ := h
  · simp [valueWithin?] at h
  · cases closed <;> simp [valueWithin?] at h ⊢

theorem HasValue.of_record {pairs : List (String × Document)} (h : (record pairs).HasValue) :
    ∀ pair ∈ pairs, pair.2.HasValue := by
  obtain ⟨_ | depth, h⟩ := h
  · simp [record, valueWithin?] at h
  · exact fun pair hpair => ⟨depth, (isSome_valueWithin?_record depth pairs).1 h pair hpair⟩

/-! ## Plain documents -/

theorem arePlain_iff {items : List Document} : ArePlain items ↔ ∀ item ∈ items, item.IsPlain := by
  induction items with
  | nil => simp [ArePlain]
  | cons item items ih => rw [ArePlain, ih, List.forall_mem_cons]

/-- An object is plain exactly if its values are. -/
theorem isPlain_record_iff {pairs : List (String × Document)} :
    (record pairs).IsPlain ↔ ∀ pair ∈ pairs, pair.2.IsPlain := by
  have hpairs : PairsPlain (pairs.map fun pair => (text pair.1, pair.2)) ↔
      ∀ pair ∈ pairs, pair.2.IsPlain := by
    induction pairs with
    | nil => simp [PairsPlain]
    | cons pair pairs ih =>
      rw [List.map_cons, PairsPlain, ih, List.forall_mem_cons]
      exact and_iff_right ⟨pair.1, rfl⟩
  rw [record, IsPlain, hpairs]
  exact and_iff_right rfl

/-! ## Texts of objects -/

/-- A well-formed text of an object with the given pairs, in the order of the text. -/
structure IsObjectText (text : String) (pairs : List (String × Document)) : Prop where
  /-- The text reads as a schema node. -/
  wellFormed : ∃ node, Value.parse text = .ok node
  /-- The text says an object with these pairs. -/
  document_eq : (read text).document = .record pairs

namespace IsObjectText

variable {text : String} {pairs : List (String × Document)}

theorem complete (h : IsObjectText text pairs) : (read text).complete = true := by
  obtain ⟨node, hnode⟩ := h.wellFormed
  exact (parse_eq_ok_iff.1 hnode).2

/-- The values of a well-formed object are sound. -/
theorem isSound (h : IsObjectText text pairs) : ∀ pair ∈ pairs, Member.isSound pair.2 = true := by
  obtain ⟨node, hnode⟩ := h.wellFormed
  have hvalue := (parse_eq_ok_iff.1 hnode).1
  rw [h.document_eq, Value.ofDocument] at hvalue
  have hsome : ((record pairs).valueWithin? (125 + 1 + 1)).isSome := by
    cases hv : (record pairs).value? with
    | none => simp [hv] at hvalue
    | some v =>
      rw [value?, depthLimit] at hv
      simp [hv]
  exact (isSome_valueWithin?_record _ pairs).1 hsome

/-- Such a text is read without a fault, and its values are sound. -/
theorem iff_isSound :
    IsObjectText text pairs ↔
      read text = ⟨.record pairs, true⟩ ∧ ∀ pair ∈ pairs, Member.isSound pair.2 = true := by
  constructor
  · intro h
    refine ⟨?_, h.isSound⟩
    rw [← h.document_eq, ← h.complete]
  · rintro ⟨hread, hsound⟩
    have hsome : ((record pairs).valueWithin? (125 + 1 + 1)).isSome :=
      (isSome_valueWithin?_record _ pairs).2 hsound
    obtain ⟨node, hnode⟩ := Option.isSome_iff_exists.1 hsome
    refine ⟨⟨node, parse_eq_ok_iff.2 ⟨?_, ?_⟩⟩, ?_⟩
    · rw [hread, Value.ofDocument, value?, depthLimit, hnode]
    · rw [hread]
    · rw [hread]

/-- The compact text of a plain object with sound values is such a text. -/
theorem of_isPlain (hplain : (record pairs).IsPlain)
    (hsound : ∀ pair ∈ pairs, Member.isSound pair.2 = true) :
    IsObjectText (record pairs).compact pairs :=
  iff_isSound.2 ⟨read_compact hplain, hsound⟩

/-- The text of an object is read as whatever the decoder makes of the object. -/
theorem parse_eq {α : Type} (h : IsObjectText text pairs) (decode : Document → Except Fault α) :
    Document.parse decode text = decode (.record pairs) := by
  rw [parse_eq_of_complete h.complete, h.document_eq]

/-- A decoder reads the text of an object exactly if it accepts the object. -/
theorem parse_iff {α : Type} {decode : Document → Except Fault α} {a : α}
    (h : IsObjectText text pairs) :
    Document.parse decode text = .ok a ↔ decode (.record pairs) = .ok a := by
  rw [h.parse_eq]

end IsObjectText

end Json.Document

end KeywordRules
