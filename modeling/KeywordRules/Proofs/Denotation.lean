import KeywordRules.Proofs.FieldOrder
import KeywordRules.Proofs.WellFormed

/-!
# What a document denotes

`Document.valueWithin?` read as a relation. An array denotes the array of what its items denote, and an
object the fields of what its pairs denote, each a level deeper (`valueWithin?_array_eq_some_iff`,
`valueWithin?_object_eq_some_iff`); more room for nesting changes nothing (`valueWithin?_succ`). The
values that come out are those within the limits of the reader (`Value.Fits`): integers of 64 bits,
nesting, and keys in order.
-/

namespace KeywordRules.Json

/-- What stands in a list of results comes from an item. -/
theorem exists_rel_of_mem_right {α β : Type} {R : α → β → Prop} {as : List α} {bs : List β}
    (h : List.Forall₂ R as bs) {b : β} (hb : b ∈ bs) : ∃ a ∈ as, R a b := by
  induction h with
  | nil => cases hb
  | cons hhead _ ih =>
    obtain rfl | hb := List.mem_cons.1 hb
    · exact ⟨_, List.mem_cons_self, hhead⟩
    · obtain ⟨a, ha, hab⟩ := ih hb
      exact ⟨a, List.mem_cons_of_mem _ ha, hab⟩

/-- A list function that goes through its items succeeds exactly if each item does; `R` says when an item
does. -/
theorem eq_some_iff_forall₂ {α β : Type} (f : List α → Option (List β)) (g : α → Option β)
    {R : α → β → Prop} (hnil : f [] = some [])
    (hcons : ∀ a as, f (a :: as) = (g a).bind fun b => (f as).bind fun bs => some (b :: bs))
    (hg : ∀ a b, g a = some b ↔ R a b) {as : List α} {bs : List β} :
    f as = some bs ↔ List.Forall₂ R as bs := by
  induction as generalizing bs with
  | nil =>
    rw [hnil, List.forall₂_nil_left_iff, Option.some.injEq]
    exact eq_comm
  | cons a as ih =>
    rw [hcons, List.forall₂_cons_left_iff]
    simp only [Option.bind_eq_some_iff, Option.some.injEq, hg, ih]
    constructor
    · rintro ⟨b, hb, bs', hbs, rfl⟩
      exact ⟨b, bs', hb, hbs, rfl⟩
    · rintro ⟨b, bs', hb, hbs, rfl⟩
      exact ⟨b, hb, bs', hbs, rfl⟩

namespace Document

variable {depth : Nat}

/-! ## Containers -/

theorem itemsWithin?_eq_some_iff {items : List Document} {values : List Value} :
    itemsWithin? depth items = some values ↔
      List.Forall₂ (fun item value => item.valueWithin? depth = some value) items values :=
  eq_some_iff_forall₂ (itemsWithin? depth) (valueWithin? depth) (by rw [itemsWithin?])
    (fun item items => by rw [itemsWithin?]; rfl) fun _ _ => Iff.rfl

/-- A pair denotes a field if its key is a text and its value denotes something. -/
def fieldWithin? (depth : Nat) : Document × Document → Option (String × Value)
  | (.string (some key), item) => (valueWithin? depth item).map fun value => (key, value)
  | _ => none

theorem fieldWithin?_eq_some_iff (pair : Document × Document) (field : String × Value) :
    fieldWithin? depth pair = some field ↔
      pair.1 = text field.1 ∧ pair.2.valueWithin? depth = some field.2 := by
  unfold fieldWithin?
  split
  · rename_i key item
    simp only [Option.map_eq_some_iff, text, Document.string.injEq, Option.some.injEq]
    constructor
    · rintro ⟨value, hvalue, rfl⟩
      exact ⟨rfl, hvalue⟩
    · rintro ⟨rfl, hvalue⟩
      exact ⟨field.2, hvalue, rfl⟩
  · rename_i hkey
    refine ⟨nofun, fun ⟨htext, _⟩ => ?_⟩
    exact (hkey field.1 pair.2 (Prod.ext htext rfl)).elim

theorem pairsWithin?_eq_some_iff {pairs : List (Document × Document)}
    {fields : List (String × Value)} :
    pairsWithin? depth pairs = some fields ↔
      List.Forall₂ (fun pair field => pair.1 = text field.1 ∧ pair.2.valueWithin? depth = some field.2)
        pairs fields := by
  refine eq_some_iff_forall₂ (pairsWithin? depth) (fieldWithin? depth) (by rw [pairsWithin?])
    (fun pair pairs => ?_) fieldWithin?_eq_some_iff
  unfold fieldWithin?
  split
  · rename_i key item
    rw [pairsWithin?]
    cases valueWithin? depth item <;> rfl
  · rename_i hkey
    rw [pairsWithin?]
    · rfl
    · exact hkey

/-- An array denotes the array of what its items denote. -/
theorem valueWithin?_array_eq_some_iff {items : List Document} {closed : Bool} {value : Value} :
    (array items closed).valueWithin? (depth + 1) = some value ↔
      closed = true ∧ ∃ values, value = .array values ∧
        List.Forall₂ (fun item value => item.valueWithin? depth = some value) items values := by
  simp only [valueWithin?, ← itemsWithin?_eq_some_iff]
  cases closed with
  | false => simp
  | true =>
    simp only [if_true, Option.map_eq_some_iff, true_and]
    exact exists_congr fun values => and_comm.trans (and_congr_left' eq_comm)

/-- An object denotes the fields of what its pairs denote. -/
theorem valueWithin?_object_eq_some_iff {pairs : List (Document × Document)} {closed : Bool}
    {value : Value} :
    (object pairs closed).valueWithin? (depth + 1) = some value ↔
      closed = true ∧ ∃ fields, value = .object (Value.ofPairs fields) ∧
        List.Forall₂ (fun pair field =>
          pair.1 = text field.1 ∧ pair.2.valueWithin? depth = some field.2) pairs fields := by
  simp only [valueWithin?, ← pairsWithin?_eq_some_iff]
  cases closed with
  | false => simp
  | true =>
    simp only [if_true, Option.map_eq_some_iff, true_and]
    exact exists_congr fun fields => and_comm.trans (and_congr_left' eq_comm)

/-- An object with a value is complete, and its keys are texts. -/
theorem HasValue.exists_eq_record {pairs : List (Document × Document)} {closed : Bool}
    (h : (object pairs closed).HasValue) :
    ∃ named : List (String × Document), object pairs closed = record named := by
  obtain ⟨_ | depth, h⟩ := h
  · simp [valueWithin?] at h
  · obtain ⟨value, hvalue⟩ := Option.isSome_iff_exists.1 h
    obtain ⟨rfl, fields, -, hpairs⟩ := valueWithin?_object_eq_some_iff.1 hvalue
    -- what a pair denotes is a field, whose key is the text of the key of the pair
    have hkeys : ∀ pair ∈ pairs, ∃ named : String × Document, pair = (text named.1, named.2) := by
      intro pair hpair
      obtain ⟨field, -, hkey, -⟩ := exists_rel_of_mem_right hpairs.flip hpair
      exact ⟨(field.1, pair.2), Prod.ext hkey rfl⟩
    obtain ⟨named, hnamed⟩ := exists_forall₂_iff.2 hkeys
    have hmap : pairs = named.map fun named => (text named.1, named.2) := by
      rw [← List.forall₂_eq_eq_eq, List.forall₂_map_right_iff]
      exact hnamed
    exact ⟨named, by rw [hmap, record]⟩

theorem text_injective : Function.Injective text := fun _ _ h =>
  Option.some.inj (string.inj h)

/-- An object denotes the fields of what its pairs denote, key by key. -/
theorem valueWithin?_record_eq_some_iff {pairs : List (String × Document)} {value : Value} :
    (record pairs).valueWithin? (depth + 1) = some value ↔
      ∃ fields, value = .object (Value.ofPairs fields) ∧
        List.Forall₂ (fun pair field => pair.1 = field.1 ∧
          pair.2.valueWithin? depth = some field.2) pairs fields := by
  rw [record, valueWithin?_object_eq_some_iff]
  simp only [List.forall₂_map_left_iff, text_injective.eq_iff, true_and]

/-- A document that denotes a value denotes it also where more nesting is allowed. -/
theorem valueWithin?_succ {d : Document} {value : Value} (h : d.valueWithin? depth = some value) :
    d.valueWithin? (depth + 1) = some value := by
  induction depth using Nat.strongRecOn generalizing d value with
  | _ depth ih =>
    cases d with
    | array items closed =>
      cases depth with
      | zero => simp [valueWithin?] at h
      | succ depth =>
        obtain ⟨hclosed, values, hvalue, hitems⟩ := valueWithin?_array_eq_some_iff.1 h
        refine valueWithin?_array_eq_some_iff.2 ⟨hclosed, values, hvalue, hitems.imp ?_⟩
        exact fun _ _ hitem => ih depth (Nat.lt_succ_self _) hitem
    | object pairs closed =>
      cases depth with
      | zero => simp [valueWithin?] at h
      | succ depth =>
        obtain ⟨hclosed, fields, hvalue, hpairs⟩ := valueWithin?_object_eq_some_iff.1 h
        refine valueWithin?_object_eq_some_iff.2 ⟨hclosed, fields, hvalue, hpairs.imp ?_⟩
        exact fun _ _ hpair => ⟨hpair.1, ih depth (Nat.lt_succ_self _) hpair.2⟩
    -- a leaf denotes the same whatever room there is
    | _ => simpa only [valueWithin?] using h

end Document

/-! ## Integers -/

namespace Numeral

/-- A literal without fraction and exponent is an integer exactly if it fits into 64 bits, signed or not,
and is not a zero with a sign. -/
theorem isInteger_iff {l : Numeral} :
    l.isInteger = true ↔
      (-(UInt64.size / 2 : Nat) ≤ l.wholeValue ∧ l.wholeValue < UInt64.size) ∧
        (l.wholeValue = 0 → l.negative = false) := by
  have hsize : UInt64.size = 18446744073709551616 := rfl
  rw [isInteger, wholeValue]
  cases l.negative with
  | false =>
    simp only [Bool.false_eq_true, if_false, decide_eq_true_eq, implies_true, and_true]
    omega
  | true =>
    simp only [if_true, Bool.and_eq_true, decide_eq_true_eq, reduceCtorEq, imp_false]
    omega

/-- The value of a literal is an integer exactly if it has neither fraction nor exponent and is an integer
rather than a double. -/
theorem value?_eq_int_iff {l : Numeral} {n : Int} :
    l.value? = some (.int n) ↔
      l.fraction = none ∧ l.exponent = none ∧ l.isInteger = true ∧ l.wholeValue = n := by
  rw [value?]
  split
  · rename_i hint
    simp [hint]
  · rename_i hint
    simp only [Option.map_eq_some_iff, reduceCtorEq, and_false, exists_false, false_iff]
    exact fun h => hint ⟨h.1, h.2.1, h.2.2.1⟩

/-- A literal whose value is an integer has one of 64 bits, signed or not. -/
theorem bounds_of_value?_eq_int {l : Numeral} {n : Int} (h : l.value? = some (.int n)) :
    -(UInt64.size / 2 : Nat) ≤ n ∧ n < UInt64.size := by
  obtain ⟨-, -, hinteger, rfl⟩ := value?_eq_int_iff.1 h
  exact (isInteger_iff.1 hinteger).1

/-- The literal of an integer of 64 bits denotes it. -/
theorem value?_ofInt {n : Int} (hlow : -(UInt64.size / 2 : Nat) ≤ n) (hhigh : n < UInt64.size) :
    (ofInt n).value? = some (.int n) := by
  have hwhole : (ofInt n).wholeValue = n := by
    rw [wholeValue, ofInt, Text.ofDigits_digits]
    simp only [decide_eq_true_eq]
    split <;> omega
  have hinteger : (ofInt n).isInteger = true := by
    rw [isInteger_iff, hwhole]
    refine ⟨⟨hlow, hhigh⟩, fun hzero => ?_⟩
    rw [hzero]
    rfl
  exact value?_eq_int_iff.2 ⟨rfl, rfl, hinteger, hwhole⟩

end Numeral

/-! ## Values within the limits -/

namespace Value

/-- A value within the limits of the reader: integers have 64 bits, signed or not, arrays and objects are
nested at most `depth` deep, and the keys of an object increase. -/
inductive Fits : (depth : Nat) → Value → Prop where
  | null (depth : Nat) : Fits depth .null
  | bool (depth : Nat) (b : Bool) : Fits depth (.bool b)
  | int (depth : Nat) (n : Int) (hlow : -(UInt64.size / 2 : Nat) ≤ n) (hhigh : n < UInt64.size) :
    Fits depth (.int n)
  | float (depth : Nat) (x : Binary64) : Fits depth (.float x)
  | string (depth : Nat) (s : String) : Fits depth (.string s)
  | array (depth : Nat) (items : List Value) (hitems : ∀ item ∈ items, Fits depth item) :
    Fits (depth + 1) (.array items)
  | object (depth : Nat) (fields : List (String × Value)) (hkeys : KeysIncrease fields)
    (hfields : ∀ field ∈ fields, Fits depth field.2) : Fits (depth + 1) (.object fields)

/-- A node is read from a text exactly if the text is complete and its document denotes the node. -/
theorem parse_eq_ok_iff {text : String} {node : Value} :
    parse text = .ok node ↔
      (Document.read text).document.value? = some node ∧ (Document.read text).complete = true := by
  rw [parse, Document.parse_eq_ok_iff, ofDocument]
  cases (Document.read text).document.value? <;> simp

end Value

/-- Whatever a document denotes is within the limits. -/
theorem Document.fits_of_valueWithin? {depth : Nat} {d : Document} {value : Value}
    (h : d.valueWithin? depth = some value) : value.Fits depth := by
  induction depth using Nat.strongRecOn generalizing d value with
  | _ depth ih =>
    cases d with
    | null =>
      obtain rfl := Option.some.inj h
      exact .null depth
    | bool b =>
      obtain rfl := Option.some.inj h
      exact .bool depth b
    | number literal =>
      obtain ⟨number, hnumber, rfl⟩ := Option.map_eq_some_iff.1 h
      cases number with
      | int n =>
        obtain ⟨hlow, hhigh⟩ := Numeral.bounds_of_value?_eq_int hnumber
        exact .int depth n hlow hhigh
      | float x => exact .float depth _
    | string text? =>
      obtain ⟨s, -, rfl⟩ := Option.map_eq_some_iff.1 h
      exact .string depth s
    | array items closed =>
      cases depth with
      | zero => simp [valueWithin?] at h
      | succ depth =>
        obtain ⟨-, values, rfl, hitems⟩ := valueWithin?_array_eq_some_iff.1 h
        refine .array depth values fun value hvalue => ?_
        obtain ⟨item, -, hitem⟩ := exists_rel_of_mem_right hitems hvalue
        exact ih depth (Nat.lt_succ_self _) hitem
    | object pairs closed =>
      cases depth with
      | zero => simp [valueWithin?] at h
      | succ depth =>
        obtain ⟨-, fields, rfl, hpairs⟩ := valueWithin?_object_eq_some_iff.1 h
        refine .object depth _ (Value.keysIncrease_ofPairs fields) fun field hfield => ?_
        obtain ⟨pair, -, -, hpair⟩ := exists_rel_of_mem_right hpairs (Value.mem_of_mem_ofPairs hfield)
        exact ih depth (Nat.lt_succ_self _) hpair
    | broken => cases h

end KeywordRules.Json
