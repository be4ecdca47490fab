import KeywordRules.Proofs.Application
import KeywordRules.Proofs.Dispatch
import KeywordRules.Proofs.ValueRoundTrip

/-!
# Equality of values

Two values can be equal without being the same, since zeros of either sign are equal. `Alike` says what
equality comes to one layer at a time, and `beq_iff_alike` that it is what the function computes.

Equality is an equivalence (`equivalence_beq`) that no reader of nodes sees through: equal values count
alike as truth values (`asBoolean_eq_of_beq`), have equal values or none under every key
(`rel_get?_of_beq`), and make no difference to the rule (`apply_eq_of_beq`). Where no double occurs, equal
values are the same (`eq_of_beq`).
-/

namespace KeywordRules.Json.Value

/-! ## One layer -/

theorem beqItems_iff {items items' : List Value} :
    beqItems items items' = true ↔ List.Forall₂ (fun a b => a == b) items items' := by
  induction items generalizing items' with
  | nil => cases items' <;> simp [beqItems]
  | cons a items ih =>
    cases items' with
    | nil => simp [beqItems]
    | cons b items' =>
      rw [beqItems, Bool.and_eq_true, ih, List.forall₂_cons]
      rfl

theorem beqFields_iff {fields fields' : List (String × Value)} :
    beqFields fields fields' = true ↔
      List.Forall₂ (fun field field' => field.1 = field'.1 ∧ field.2 == field'.2) fields fields' := by
  induction fields generalizing fields' with
  | nil => cases fields' <;> simp [beqFields]
  | cons field fields ih =>
    cases fields' with
    | nil => simp [beqFields]
    | cons field' fields' =>
      rw [beqFields, Bool.and_eq_true, Bool.and_eq_true, decide_eq_true_iff, ih, List.forall₂_cons,
        and_assoc]
      rfl

/-- Equal values, by their outermost layer. -/
inductive Alike : Value → Value → Prop where
  | null : Alike null null
  | bool (b : Bool) : Alike (bool b) (bool b)
  | int (n : Int) : Alike (int n) (int n)
  /-- A zero is the same with either sign. -/
  | float {x y : Binary64} (h : x = y ∨ x.magnitude = 0 ∧ y.magnitude = 0) : Alike (float x) (float y)
  | string (s : String) : Alike (string s) (string s)
  | array {items items' : List Value} (h : List.Forall₂ (fun a b => a == b) items items') :
    Alike (array items) (array items')
  | object {fields fields' : List (String × Value)}
    (h : List.Forall₂ (fun field field' => field.1 = field'.1 ∧ field.2 == field'.2) fields fields') :
    Alike (object fields) (object fields')

theorem beq_iff_alike {a b : Value} : a == b ↔ Alike a b := by
  show beq a b = true ↔ Alike a b
  constructor
  · intro h
    fun_cases beq a b with
    | case1 => exact .null
    | case2 b b' =>
      obtain rfl : b = b' := of_decide_eq_true h
      exact .bool b
    | case3 n n' =>
      obtain rfl : n = n' := of_decide_eq_true h
      exact .int n
    | case4 x y => exact .float (Binary64.equals_iff.1 h)
    | case5 s s' =>
      obtain rfl : s = s' := of_decide_eq_true h
      exact .string s
    | case6 items items' => exact .array (beqItems_iff.1 h)
    | case7 fields fields' => exact .object (beqFields_iff.1 h)
    | case8 =>
      -- values of different kinds
      simp [beq, *] at h
  · intro h
    cases h with
    | null => rfl
    | bool b => exact decide_eq_true rfl
    | int n => exact decide_eq_true rfl
    | float h => exact Binary64.equals_iff.2 h
    | string s => exact decide_eq_true rfl
    | array h => exact beqItems_iff.2 h
    | object h => exact beqFields_iff.2 h

/-- Induction over a value, where an array has what all of its items have, and an object what all of its
fields have. -/
@[elab_as_elim]
theorem induct {P : Value → Prop} (null : P null) (bool : ∀ b, P (bool b)) (int : ∀ n, P (int n))
    (float : ∀ x, P (float x)) (string : ∀ s, P (string s))
    (array : ∀ items, (∀ item ∈ items, P item) → P (array items))
    (object : ∀ fields, (∀ field ∈ fields, P field.2) → P (object fields)) (a : Value) : P a := by
  refine @Value.rec P (fun items => ∀ item ∈ items, P item) (fun fields => ∀ field ∈ fields, P field.2)
    (fun field => P field.2) null bool int float string array object ?_ ?_ ?_ ?_ ?_ a
  · exact List.forall_mem_nil _
  · exact fun _ _ hitem hitems => List.forall_mem_cons.2 ⟨hitem, hitems⟩
  · exact List.forall_mem_nil _
  · exact fun _ _ hfield hfields => List.forall_mem_cons.2 ⟨hfield, hfields⟩
  · exact fun _ _ hvalue => hvalue

/-! ## An equivalence -/

theorem beq_refl (a : Value) : a == a := by
  refine beq_iff_alike.2 ?_
  induction a using induct with
  | null => exact .null
  | bool b => exact .bool b
  | int n => exact .int n
  | float x => exact .float (.inl rfl)
  | string s => exact .string s
  | array items ih => exact .array (List.forall₂_same.2 fun item hitem => beq_iff_alike.2 (ih item hitem))
  | object fields ih =>
    exact .object (List.forall₂_same.2 fun field hfield => ⟨rfl, beq_iff_alike.2 (ih field hfield)⟩)

theorem beq_symm {a b : Value} (h : a == b) : b == a := by
  rw [beq_iff_alike] at h ⊢
  induction a using induct generalizing b with
  | null | bool | int | string =>
    cases h
    constructor
  | float x =>
    cases h with
    | float h => exact .float (h.imp Eq.symm And.symm)
  | array items ih =>
    cases h with
    | array h =>
      refine .array (((List.forall₂_and_left _ _).2 ⟨ih, h⟩).imp fun item item' hitem => ?_).flip
      exact beq_iff_alike.2 (hitem.1 (beq_iff_alike.1 hitem.2))
  | object fields ih =>
    cases h with
    | object h =>
      refine .object (((List.forall₂_and_left _ _).2 ⟨ih, h⟩).imp fun field field' hfield => ?_).flip
      exact ⟨hfield.2.1.symm, beq_iff_alike.2 (hfield.1 (beq_iff_alike.1 hfield.2.2))⟩

/-- Lists that are related to one list item by item are related. -/
theorem forall₂_trans {α : Type} {R : α → α → Prop} {as bs cs : List α}
    (htrans : ∀ a ∈ as, ∀ b c, R a b → R b c → R a c) (h : List.Forall₂ R as bs)
    (h' : List.Forall₂ R bs cs) : List.Forall₂ R as cs := by
  induction h generalizing cs with
  | nil => exact h'
  | cons hab _ ih =>
    cases h' with
    | cons hbc h' =>
      obtain ⟨hfirst, hrest⟩ := List.forall_mem_cons.1 htrans
      exact .cons (hfirst _ _ hab hbc) (ih hrest h')

theorem beq_trans {a b c : Value} (h : a == b) (h' : b == c) : a == c := by
  rw [beq_iff_alike] at h h' ⊢
  induction a using induct generalizing b c with
  | null | bool | int | string =>
    cases h
    exact h'
  | float x =>
    cases h with
    | float h =>
      cases h' with
      | float h' =>
        -- the three are one double, or all of them are zeros
        rcases h with rfl | ⟨hx, hy⟩
        · exact .float h'
        · rcases h' with rfl | ⟨-, hz⟩
          · exact .float (.inr ⟨hx, hy⟩)
          · exact .float (.inr ⟨hx, hz⟩)
  | array items ih =>
    cases h with
    | array h =>
      cases h' with
      | array h' =>
        refine .array (forall₂_trans (fun item hitem item' item'' hab hbc => ?_) h h')
        rw [beq_iff_alike] at hab hbc ⊢
        exact ih item hitem hab hbc
  | object fields ih =>
    cases h with
    | object h =>
      cases h' with
      | object h' =>
        refine .object (forall₂_trans (fun field hfield field' field'' hab hbc => ?_) h h')
        rw [beq_iff_alike] at hab hbc ⊢
        exact ⟨hab.1.trans hbc.1, ih field hfield hab.2 hbc.2⟩

/-- Equality is an equivalence, although it is not sameness. -/
theorem equivalence_beq : Equivalence fun a b : Value => a == b :=
  ⟨beq_refl, beq_symm, beq_trans⟩

/-- Where no double occurs, equal values are the same. -/
theorem eq_of_beq {a b : Value} (hfree : a.IsFloatFree) (h : a == b) : a = b := by
  rw [beq_iff_alike] at h
  induction a using induct generalizing b with
  | null | bool | int | string =>
    cases h
    rfl
  -- only doubles can be equal without being the same
  | float x => exact absurd .self (hfree x)
  | array items ih =>
    cases h with
    | array h =>
      have hsame : ∀ item ∈ items, ∀ item', item == item' → item = item' := fun item hitem item' heq =>
        ih item hitem (fun x hx => hfree x (.item hitem hx)) (beq_iff_alike.1 heq)
      refine congrArg array ?_
      rw [← List.forall₂_eq_eq_eq]
      exact ((List.forall₂_and_left _ _).2 ⟨hsame, h⟩).imp fun _ _ hitem => hitem.1 _ hitem.2
  | object fields ih =>
    cases h with
    | object h =>
      have hsame : ∀ field ∈ fields, ∀ value, field.2 == value → field.2 = value :=
        fun field hfield value heq =>
          ih field hfield (fun x hx => hfree x (.field hfield hx)) (beq_iff_alike.1 heq)
      refine congrArg object ?_
      rw [← List.forall₂_eq_eq_eq]
      exact ((List.forall₂_and_left _ _).2 ⟨hsame, h⟩).imp fun _ _ hfield =>
        Prod.ext hfield.2.1 (hfield.1 _ hfield.2.2)

/-! ## A congruence -/

variable {a b : Value}

/-- Equal values count alike as truth values. -/
theorem asBoolean_eq_of_beq (h : a == b) : a.asBoolean = b.asBoolean := by
  cases beq_iff_alike.1 h with
  | null | bool | int | float | string | array | object => rfl

/-- Equal values have equal values under a key, or both have none. -/
theorem rel_get?_of_beq (h : a == b) (key : String) :
    Option.Rel (fun x y => x == y) (a.get? key) (b.get? key) := by
  cases beq_iff_alike.1 h with
  | object hfields => exact Document.rel_lookup_of_forall₂ hfields key
  | null | bool | int | float | string | array => exact .none

/-- Equal values make no difference to the rule. -/
theorem apply_eq_of_beq (h : a == b) (context : Context) (target : Member) :
    Required.apply a context target = Required.apply b context target := by
  rw [Required.apply, Required.apply, asBoolean_eq_of_beq h]

end KeywordRules.Json.Value
