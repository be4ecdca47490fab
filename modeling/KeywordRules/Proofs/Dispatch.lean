import KeywordRules.Proofs.Application
import KeywordRules.Proofs.Denotation

/-!
# Dispatch through a parent

Which node the rule is applied to, and what of its surroundings counts. A parent that is an object comes
from a text with pairs at its top, and the node under a key is what the last of the pairs with that key
denotes (`Value.exists_last_of_parse`). The rule then decides by the node as a truth value alone: the
name of the node and the parent show in the first event of an application and nowhere else
(`Required.events_apply`).
-/

namespace KeywordRules

open KeywordRules.Json

/-! ## The fields of an object -/

namespace Json.Document

/-- A field is what a pair denotes: it has the same key and the value of the document. -/
def IsField (pair : String × Document) (field : String × Value) : Prop :=
  pair.1 = field.1 ∧ pair.2.value? = some field.2

/-- An object is denoted by a complete object whose keys are texts, field by field. -/
theorem exists_record_of_value? {d : Document} {fields : List (String × Value)}
    (h : d.value? = some (.object fields)) :
    ∃ pairs values, d = record pairs ∧ fields = Value.ofPairs values ∧
      List.Forall₂ IsField pairs values := by
  cases d with
  | object pairs closed =>
    obtain ⟨named, hnamed⟩ := (HasValue.of_eq_some h).exists_eq_record
    rw [hnamed] at h ⊢
    obtain ⟨values, hfields, hpairs⟩ := valueWithin?_record_eq_some_iff.1 h
    refine ⟨named, values, rfl, Value.object.inj hfields, hpairs.imp fun _ _ hpair => ?_⟩
    exact ⟨hpair.1, valueWithin?_succ hpair.2⟩
  | array items closed =>
    obtain ⟨-, values, hvalues, -⟩ := valueWithin?_array_eq_some_iff.1 h
    cases hvalues
  | number literal =>
    obtain ⟨number, -, hnumber⟩ := Option.map_eq_some_iff.1 h
    cases number <;> cases hnumber
  | string text? =>
    obtain ⟨s, -, hs⟩ := Option.map_eq_some_iff.1 h
    cases hs
  | null => cases h
  | bool b => cases h
  | broken => cases h

theorem record_injective : Function.Injective record := by
  intro pairs pairs' h
  have hmap := (object.inj h).1
  refine List.map_injective_iff.2 (fun pair pair' hpair => ?_) hmap
  obtain ⟨htext, hvalue⟩ := Prod.ext_iff.1 hpair
  exact Prod.ext (text_injective htext) hvalue

/-- A key leads to the same place in two lists of pairs with the same keys. -/
theorem rel_lookup_of_forall₂ {α β : Type} {R : α → β → Prop} {pairs : List (String × α)}
    {fields : List (String × β)}
    (h : List.Forall₂ (fun pair field => pair.1 = field.1 ∧ R pair.2 field.2) pairs fields)
    (key : String) : Option.Rel R (pairs.lookup key) (fields.lookup key) := by
  induction h with
  | nil => exact .none
  | @cons pair field pairs fields hpair _ ih =>
    obtain ⟨name, a⟩ := pair
    obtain ⟨name', b⟩ := field
    obtain ⟨rfl, hab⟩ : name = name' ∧ R a b := hpair
    by_cases hkey : key = name
    · rw [hkey, List.lookup_cons_self, List.lookup_cons_self]
      exact .some hab
    · rw [List.lookup_cons, List.lookup_cons, beq_false_of_ne hkey]
      exact ih

/-- Looking a key up among pairs and among the fields they denote leads to the same place. -/
theorem map_lookup_of_forall₂ {pairs : List (String × Document)} {fields : List (String × Value)}
    (h : List.Forall₂ IsField pairs fields) (key : String) :
    (pairs.lookup key).map value? = (fields.lookup key).map some := by
  have hrel : Option.Rel (fun d value => d.value? = some value) (pairs.lookup key)
      (fields.lookup key) := rel_lookup_of_forall₂ h key
  generalize pairs.lookup key = d?, fields.lookup key = value? at hrel ⊢
  cases hrel with
  | some hvalue => exact congrArg some hvalue
  | none => rfl

/-- What an object has under a key is what the last of its pairs with that key denotes. -/
theorem map_lookup_of_record {pairs : List (String × Document)} {fields : List (String × Value)}
    (h : (record pairs).value? = some (.object fields)) (key : String) :
    (pairs.reverse.lookup key).map value? = (fields.lookup key).map some := by
  obtain ⟨pairs', values, hpairs', rfl, hvalues⟩ := exists_record_of_value? h
  obtain rfl := record_injective hpairs'
  rw [Value.lookup_ofPairs]
  exact map_lookup_of_forall₂ (List.rel_reverse hvalues) key

/-- A key is absent from an object exactly if no pair has it. -/
theorem lookup_eq_none_iff_of_record {pairs : List (String × Document)}
    {fields : List (String × Value)} (h : (record pairs).value? = some (.object fields))
    (key : String) : fields.lookup key = none ↔ ∀ pair ∈ pairs, pair.1 ≠ key := by
  have hlookup := map_lookup_of_record h key
  rw [← Option.map_eq_none_iff (f := some), ← hlookup, Option.map_eq_none_iff, List.lookup_eq_none_iff]
  simp only [List.mem_reverse]
  refine forall₂_congr fun pair _ => ?_
  rw [bne_iff_ne, ne_comm]

/-- A field of an object is what a pair denotes that no later pair overrides. -/
theorem exists_last_of_record {pairs : List (String × Document)} {fields : List (String × Value)}
    (h : (record pairs).value? = some (.object fields)) {key : String} {node : Value}
    (hnode : fields.lookup key = some node) :
    ∃ before last after, pairs = before ++ (key, last) :: after ∧
      (∀ pair ∈ after, pair.1 ≠ key) ∧ last.value? = some node := by
  have hlookup := map_lookup_of_record h key
  rw [hnode, Option.map_some] at hlookup
  obtain ⟨last, hlast, hvalue⟩ := Option.map_eq_some_iff.1 hlookup
  obtain ⟨after, before, hreverse, hafter⟩ := List.lookup_eq_some_iff.1 hlast
  refine ⟨before.reverse, last, after.reverse, ?_, fun pair hpair => ?_, hvalue⟩
  · rw [← List.reverse_reverse pairs, hreverse]
    simp
  · exact (bne_iff_ne.1 (hafter pair (List.mem_reverse.1 hpair))).symm

end Json.Document

namespace Json.Value

/-! ## What a parent has under a key -/

variable {text : String} {parent : Value}

/-- A parent has nothing under a key exactly if it is no object or no pair at its top has the key. -/
theorem get?_eq_none_iff_of_parse (h : parse text = .ok parent) (key : String) :
    parent.get? key = none ↔
      (∀ fields, parent ≠ .object fields) ∨
        ∃ pairs, (Document.read text).document = .record pairs ∧ ∀ pair ∈ pairs, pair.1 ≠ key := by
  have hvalue := (parse_eq_ok_iff.1 h).1
  cases parent with
  | object fields =>
    obtain ⟨pairs, -, hpairs, -⟩ := Document.exists_record_of_value? hvalue
    rw [hpairs] at hvalue ⊢
    rw [get?, Document.lookup_eq_none_iff_of_record hvalue]
    constructor
    · exact fun habsent => .inr ⟨pairs, rfl, habsent⟩
    · rintro (hno | ⟨pairs', hpairs', habsent⟩)
      · exact (hno fields rfl).elim
      · rwa [Document.record_injective hpairs']
  | _ => exact ⟨fun _ => .inl nofun, fun _ => rfl⟩

/-- What a parent has under a key is what the last pair at its top with that key denotes. -/
theorem exists_last_of_parse (h : parse text = .ok parent) {key : String} {node : Value}
    (hnode : parent.get? key = some node) :
    ∃ before last after, (Document.read text).document = .record (before ++ (key, last) :: after) ∧
      (∀ pair ∈ after, pair.1 ≠ key) ∧ last.value? = some node := by
  have hvalue := (parse_eq_ok_iff.1 h).1
  cases parent with
  | object fields =>
    obtain ⟨pairs, -, hpairs, -⟩ := Document.exists_record_of_value? hvalue
    rw [hpairs] at hvalue ⊢
    obtain ⟨before, last, after, rfl, hafter, hlast⟩ := Document.exists_last_of_record hvalue hnode
    exact ⟨before, last, after, rfl, hafter, hlast⟩
  | _ => cases hnode

end Json.Value

namespace Required

/-! ## Dispatch -/

/-- **Dispatch goes by the parent's own pairs and the truth value of the last one.** A parent lacks the
keyword exactly if it is no object or no pair at its top has the keyword; otherwise the node is what the
last such pair denotes, and the member and the branches are those of its truth value. Two applications
to one target with the same options and the same truth value differ in nothing but the node and the
parent that the first event of the log names. -/
theorem dispatch_of_parse {text : String} {parent : Value} (h : Value.parse text = .ok parent) :
    (parent.get? keyword = none ↔
      (∀ fields, parent ≠ .object fields) ∨
        ∃ pairs, (Document.read text).document = .record pairs ∧
          ∀ pair ∈ pairs, pair.1 ≠ "required") ∧
    (∀ node, parent.get? keyword = some node →
      ∃ before last after,
        (Document.read text).document = .record (before ++ ("required", last) :: after) ∧
        (∀ pair ∈ after, pair.1 ≠ "required") ∧ last.value? = some node ∧
        ∀ nodeName options target, ∃ outcome,
          dispatch parent nodeName options target = some outcome ∧
          outcome.member = (annotate node.asBoolean options target).member ∧
          outcome.branches = (annotate node.asBoolean options target).branches) ∧
    ∀ (node node' : Value) (context context' : Context) (target : Member),
      node.asBoolean = node'.asBoolean → context.options = context'.options →
      (apply node context target).member = (apply node' context' target).member ∧
      (apply node context target).branches = (apply node' context' target).branches ∧
      ∃ required field traces,
        (apply node context target).events =
          .applying context.nodeName context.parent required field :: traces ∧
        (apply node' context' target).events =
          .applying context'.nodeName context'.parent required field :: traces ∧
        ∀ event ∈ traces, event.level = .trace := by
  refine ⟨Value.get?_eq_none_iff_of_parse h keyword, ?_, ?_⟩
  · intro node hnode
    obtain ⟨before, last, after, hread, hafter, hlast⟩ := Value.exists_last_of_parse h hnode
    refine ⟨before, last, after, hread, hafter, hlast, fun nodeName options target => ?_⟩
    refine ⟨apply node ⟨nodeName, some parent, options⟩ target, ?_, rfl, rfl⟩
    rw [dispatch, hnode, Option.map_some]
  · intro node node' context context' target hnode hoptions
    refine ⟨?_, ?_, node.asBoolean, target.isField,
      (annotate node.asBoolean context.options target).events, events_apply node context target, ?_,
      level_of_mem_annotate _ _ _⟩
    · rw [member_apply, member_apply, hnode, hoptions]
    · rw [branches_apply, branches_apply, hnode, hoptions]
    · rw [events_apply, hnode, hoptions]

/-- A parent whose keyword stands three times, once by an escape and once in a nested object: the escaped
pair decides. A field that carries the constraint already gains the hint, and both are reported; for any
other node that is true the rule does the same. -/
theorem dispatch_of_parse_escaped_key :
    let text := "\x7b\"required\": false, \"r\\u0065quired\": 1, \"items\": \x7b\"required\": 0\x7d\x7d"
    let parent : Value := .object [("items", .object [("required", .int 0)]), ("required", .int 1)]
    let target : Member := ⟨"items", ⟨["The items."]⟩, .field "List" [.notNull]⟩
    let decorated : Member :=
      ⟨"items", ⟨["The items.", "\n(Required)"]⟩, .field "List" [.notNull, .nonnull]⟩
    Value.parse text = .ok parent ∧ parent.get? keyword = some (.int 1) ∧
      (∃ outcome, dispatch parent "items" ⟨true, true⟩ target = some outcome ∧
        outcome.member = decorated ∧
        outcome.branches = [.required, .notNullAnnotated, .nonnullAnnotated]) ∧
      (apply (.string " true ") ⟨"", none, ⟨true, true⟩⟩ target).member = decorated ∧
      (apply (.string " true ") ⟨"", none, ⟨true, true⟩⟩ target).branches =
        [.required, .notNullAnnotated, .nonnullAnnotated] := by
  intro text parent target decorated
  have hparse : Value.parse text = .ok parent := by decide +kernel
  have hnode : parent.get? keyword = some (.int 1) := by decide +kernel
  have hmember : (annotate true ⟨true, true⟩ target).member = decorated := by decide +kernel
  have hbranches : (annotate true ⟨true, true⟩ target).branches =
      [.required, .notNullAnnotated, .nonnullAnnotated] := by decide +kernel
  have htrue : (Value.string " true ").asBoolean = (Value.int 1).asBoolean := by decide +kernel
  obtain ⟨-, hdispatch, hruns⟩ := dispatch_of_parse hparse
  obtain ⟨_, _, _, -, -, -, happly⟩ := hdispatch _ hnode
  obtain ⟨outcome, houtcome, hsame, hsame'⟩ := happly "items" ⟨true, true⟩ target
  obtain ⟨hlike, hlike', -⟩ := hruns (.string " true ") (.int 1) ⟨"", none, ⟨true, true⟩⟩
    ⟨"items", some parent, ⟨true, true⟩⟩ target htrue rfl
  exact ⟨hparse, hnode, ⟨outcome, houtcome, hsame.trans hmember, hsame'.trans hbranches⟩,
    hlike.trans hmember, hlike'.trans hbranches⟩

end Required

end KeywordRules
