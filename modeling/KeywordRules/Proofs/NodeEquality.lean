import KeywordRules.Proofs.Extensionality
import KeywordRules.Proofs.ValueEquality

/-!
# Equality of nodes

When two texts read as equal nodes, can be told from what they say (`Document.Agrees`): the same leaves up
to spelling, integers apart from doubles, and zeros of either sign alike; arrays item by item; and objects
key by key, where the last pair with a key counts. Equal nodes need not be the same, but every reader of
nodes takes them alike: as truth values, under every key, and in the rule. Where no double occurs, they are
those with the same compact text (`Value.beq_iff_agrees`).
-/

namespace KeywordRules.Json

namespace Document

/-! ## Agreement -/

/-- Two documents agree: they say the same but for the spelling of leaves, the order of the pairs of an
object, and pairs that a later one with the same key overrides. -/
inductive Agrees : Document → Document → Prop where
  | null : Agrees null null
  | bool (b : Bool) : Agrees (bool b) (bool b)
  | string (s : String) : Agrees (text s) (text s)
  | int {l l' : Numeral} {n : Int} (h : l.value? = some (.int n)) (h' : l'.value? = some (.int n)) :
    Agrees (number l) (number l')
  /-- A zero is the same with either sign. -/
  | float {l l' : Numeral} {x x' : Binary64} (h : l.value? = some (.float x))
    (h' : l'.value? = some (.float x')) (hx : x = x' ∨ x.magnitude = 0 ∧ x'.magnitude = 0) :
    Agrees (number l) (number l')
  | list {items items' : List Document} (hlength : items.length = items'.length)
    (hitems : ∀ pair ∈ items.zip items', Agrees pair.1 pair.2) : Agrees (list items) (list items')
  | record {pairs pairs' : List (String × Document)}
    (hkeys : ∀ key, pairs.reverse.lookup key = none ↔ pairs'.reverse.lookup key = none)
    (hlast : ∀ key d d', pairs.reverse.lookup key = some d → pairs'.reverse.lookup key = some d' →
      Agrees d d') : Agrees (record pairs) (record pairs')

/-- What a document denotes, by its outermost layer. -/
inductive Denotes : Nat → Document → Value → Prop where
  | null (depth : Nat) : Denotes depth null .null
  | bool (depth : Nat) (b : Bool) : Denotes depth (bool b) (.bool b)
  | int (depth : Nat) {l : Numeral} {n : Int} (h : l.value? = some (.int n)) :
    Denotes depth (number l) (.int n)
  | float (depth : Nat) {l : Numeral} {x : Binary64} (h : l.value? = some (.float x)) :
    Denotes depth (number l) (.float x)
  | string (depth : Nat) (s : String) : Denotes depth (text s) (.string s)
  | array {depth : Nat} {items : List Document} {values : List Value}
    (h : List.Forall₂ (fun item value => item.valueWithin? depth = some value) items values) :
    Denotes (depth + 1) (list items) (.array values)
  | object {depth : Nat} {pairs : List (String × Document)} {fields : List (String × Value)}
    (h : HasFields depth pairs fields) : Denotes (depth + 1) (record pairs) (.object fields)

variable {depth : Nat} {d d' : Document} {a b : Value}

theorem denotes_of_valueWithin? (h : d.valueWithin? depth = some a) : Denotes depth d a := by
  cases d with
  | null =>
    obtain rfl := Option.some.inj h
    exact .null depth
  | bool b =>
    obtain rfl := Option.some.inj h
    exact .bool depth b
  | number l =>
    obtain ⟨number, hnumber, rfl⟩ := Option.map_eq_some_iff.1 h
    cases number with
    | int n => exact .int depth hnumber
    | float x => exact .float depth hnumber
  | string text? =>
    obtain ⟨s, rfl, rfl⟩ := Option.map_eq_some_iff.1 h
    exact .string depth s
  | array items closed =>
    obtain _ | depth := depth
    · simp [valueWithin?] at h
    obtain ⟨rfl, values, rfl, hitems⟩ := valueWithin?_array_eq_some_iff.1 h
    exact .array hitems
  | object pairs closed =>
    -- an object with a value is complete, and its keys are texts
    obtain ⟨named, hnamed⟩ := (HasValue.of_eq_some h).exists_eq_record
    rw [hnamed] at h ⊢
    obtain _ | depth := depth
    · simp [record, valueWithin?] at h
    obtain ⟨-, fields, rfl, hfields⟩ := valueWithin?_record_iff_hasFields.1 h
    exact .object hfields
  | broken => cases h

/-- Lists are related if the lists that they are related to are. -/
theorem forall₂_of_related {α β γ δ : Type} {R : α → γ → Prop} {S : β → δ → Prop} {T : γ → δ → Prop}
    {as : List α} {bs : List β} {cs : List γ} {ds : List δ} (h : List.Forall₂ R as cs)
    (h' : List.Forall₂ S bs ds) (hrelated : List.Forall₂ T cs ds) :
    List.Forall₂ (fun a b => ∃ c d, R a c ∧ S b d ∧ T c d) as bs := by
  induction h generalizing bs ds with
  | nil =>
    cases hrelated
    cases h'
    exact .nil
  | cons hR _ ih =>
    cases hrelated with
    | cons hT hrelated =>
      cases h' with
      | cons hS h' => exact .cons ⟨_, _, hR, hS, hT⟩ (ih h' hrelated)

/-- So are two places. -/
theorem optionRel_of_related {α β γ δ : Type} {R : α → γ → Prop} {S : β → δ → Prop} {T : γ → δ → Prop}
    {a? : Option α} {b? : Option β} {c? : Option γ} {d? : Option δ} (h : Option.Rel R a? c?)
    (h' : Option.Rel S b? d?) (hrelated : Option.Rel T c? d?) :
    (a? = none ↔ b? = none) ∧ ∀ a b, a? = some a → b? = some b → ∃ c d, R a c ∧ S b d ∧ T c d := by
  cases hrelated with
  | some hT =>
    cases h with
    | some hR =>
      cases h' with
      | some hS =>
        refine ⟨by simp, fun a b ha hb => ?_⟩
        obtain rfl := Option.some.inj ha
        obtain rfl := Option.some.inj hb
        exact ⟨_, _, hR, hS, hT⟩
  | none =>
    cases h
    cases h'
    exact ⟨by simp, nofun⟩

/-- Documents that denote equal values agree. -/
theorem agrees_of_beq (h : d.valueWithin? depth = some a) (h' : d'.valueWithin? depth = some b)
    (heq : a == b) : Agrees d d' := by
  induction depth using Nat.strongRecOn generalizing d d' a b with
  | _ depth ih =>
    have hdenotes := denotes_of_valueWithin? h
    have hdenotes' := denotes_of_valueWithin? h'
    -- both documents are of the kind of their values, and the values are of one kind
    cases Value.beq_iff_alike.1 heq with
    | null =>
      cases hdenotes
      cases hdenotes'
      exact .null
    | bool b =>
      cases hdenotes
      cases hdenotes'
      exact .bool b
    | int n =>
      cases hdenotes with
      | int _ hn =>
        cases hdenotes' with
        | int _ hn' => exact .int hn hn'
    | float hsame =>
      cases hdenotes with
      | float _ hx =>
        cases hdenotes' with
        | float _ hx' => exact .float hx hx' hsame
    | string s =>
      cases hdenotes
      cases hdenotes'
      exact .string s
    | array hequal =>
      cases hdenotes with
      | @array depth items values hitems =>
        cases hdenotes' with
        | array hitems' =>
          obtain ⟨hlength, hzip⟩ := List.forall₂_iff_zip.1 (forall₂_of_related hitems hitems' hequal)
          refine .list hlength fun pair hpair => ?_
          obtain ⟨value, value', hvalue, hvalue', heq⟩ := hzip hpair
          exact ih depth (Nat.lt_succ_self _) hvalue hvalue' heq
    | @object fields fields' hequal =>
      cases hdenotes with
      | @object depth pairs _ hfields =>
        cases hdenotes' with
        | object hfields' =>
          -- equal fields are found under the same keys, hence pairs are found under the same keys
          have hlookup : ∀ key, Option.Rel (fun x y => x == y) (fields.lookup key) (fields'.lookup key) :=
            rel_lookup_of_forall₂ hequal
          have hrelated key := optionRel_of_related (hfields.rel_lookup key) (hfields'.rel_lookup key)
            (hlookup key)
          refine .record (fun key => (hrelated key).1) fun key d d' hd hd' => ?_
          obtain ⟨value, value', hvalue, hvalue', heq⟩ := (hrelated key).2 d d' hd hd'
          exact ih depth (Nat.lt_succ_self _) hvalue hvalue' heq

/-- Lists of the same length are related to related lists if what comes of items at the same place is
related. -/
theorem forall₂_of_zip {α β : Type} {R : α → β → Prop} {S : β → β → Prop} {as as' : List α}
    {bs bs' : List β} (h : List.Forall₂ R as bs) (h' : List.Forall₂ R as' bs')
    (hlength : as.length = as'.length)
    (hitems : ∀ pair ∈ as.zip as', ∀ b b', R pair.1 b → R pair.2 b' → S b b') :
    List.Forall₂ S bs bs' := by
  induction h generalizing as' bs' with
  | nil =>
    obtain rfl := List.length_eq_zero_iff.1 hlength.symm
    cases h'
    exact .nil
  | @cons a b as bs hab _ ih =>
    cases h' with
    | nil => cases hlength
    | cons hab' hrest' =>
      rw [List.zip_cons_cons] at hitems
      obtain ⟨hitem, hitems⟩ := List.forall_mem_cons.1 hitems
      exact .cons (hitem b _ hab hab') (ih hrest' (Nat.succ.inj hlength) hitems)

/-- Documents that agree denote equal values, if any. -/
theorem Agrees.beq (hagrees : Agrees d d') (h : d.valueWithin? depth = some a)
    (h' : d'.valueWithin? depth = some b) : a == b := by
  rw [Value.beq_iff_alike]
  induction hagrees generalizing depth a b with
  | null =>
    obtain rfl := Option.some.inj h
    obtain rfl := Option.some.inj h'
    exact .null
  | bool b =>
    obtain rfl := Option.some.inj h
    obtain rfl := Option.some.inj h'
    exact .bool b
  | string s =>
    obtain rfl := Option.some.inj h
    obtain rfl := Option.some.inj h'
    exact .string s
  | @int l l' n hn hn' =>
    rw [valueWithin?, hn] at h
    rw [valueWithin?, hn'] at h'
    obtain rfl := Option.some.inj h
    obtain rfl := Option.some.inj h'
    exact .int n
  | float hx hx' hsame =>
    rw [valueWithin?, hx] at h
    rw [valueWithin?, hx'] at h'
    obtain rfl := Option.some.inj h
    obtain rfl := Option.some.inj h'
    exact .float hsame
  | list hlength _ ih =>
    obtain _ | depth := depth
    · simp [Document.list, valueWithin?] at h
    obtain ⟨-, values, rfl, hitems⟩ := valueWithin?_array_eq_some_iff.1 h
    obtain ⟨-, values', rfl, hitems'⟩ := valueWithin?_array_eq_some_iff.1 h'
    refine .array (forall₂_of_zip hitems hitems' hlength fun pair hpair value value' hvalue hvalue' => ?_)
    exact Value.beq_iff_alike.2 (ih pair hpair hvalue hvalue')
  | record hkeys _ ih =>
    obtain _ | depth := depth
    · simp [Document.record, valueWithin?] at h
    obtain ⟨-, fields, rfl, hfields⟩ := valueWithin?_record_iff_hasFields.1 h
    obtain ⟨-, fields', rfl, hfields'⟩ := valueWithin?_record_iff_hasFields.1 h'
    -- fields are sorted by key, so look-ups that agree under every key give fields that agree
    refine .object (hfields.forall₂ (S := fun value value' => value == value') hfields' hkeys ?_)
    intro key d d' hd hd' value value' hvalue hvalue'
    exact Value.beq_iff_alike.2 (ih key d d' hd hd' hvalue hvalue')

end Document

namespace Value

open Document

variable {text text' : String} {a b : Value}

/-- A node without doubles is read back from its compact text. -/
theorem exists_compact?_of_parse (h : parse text = .ok a) (hfree : a.IsFloatFree) :
    ∃ written, a.compact? = some written ∧ parse written = .ok a := by
  obtain ⟨d, hd⟩ := (fits_of_valueWithin? (parse_eq_ok_iff.1 h).1).exists_writes hfree
  refine ⟨d.compact, by rw [compact?, hd.document_eq, Option.map_some], ?_⟩
  rw [parse_eq_ok_iff, read_compact hd.isPlain]
  exact ⟨hd.value_eq, rfl⟩

/-- **Equality of nodes is agreement of their texts, a congruence, and equality of compact texts.** Nodes
are equal exactly if the texts that they were read from agree. Equality is an equivalence, and equal nodes
are taken alike as truth values, have equal nodes or none under every key, and lead the rule to the same
member, branches and log. If no double occurs in them, they are written as texts, and are equal exactly if
these are. -/
theorem beq_iff_agrees (h : parse text = .ok a) (h' : parse text' = .ok b) :
    (a == b ↔ Agrees (Document.read text).document (Document.read text').document) ∧
    (Equivalence fun x y : Value => x == y) ∧
    (a == b →
      a.asBoolean = b.asBoolean ∧
      (∀ key, (a.get? key = none ∧ b.get? key = none) ∨
        ∃ x y, a.get? key = some x ∧ b.get? key = some y ∧ x == y) ∧
      ∀ context target,
        (Required.apply a context target).member = (Required.apply b context target).member ∧
        (Required.apply a context target).branches = (Required.apply b context target).branches ∧
        (Required.apply a context target).events = (Required.apply b context target).events) ∧
    (a.IsFloatFree → b.IsFloatFree →
      ∃ written written', a.compact? = some written ∧ b.compact? = some written' ∧
        (a == b ↔ written = written')) := by
  have hvalue := (parse_eq_ok_iff.1 h).1
  have hvalue' := (parse_eq_ok_iff.1 h').1
  refine ⟨⟨agrees_of_beq hvalue hvalue', fun hagrees => hagrees.beq hvalue hvalue'⟩, equivalence_beq,
    fun heq => ⟨asBoolean_eq_of_beq heq, fun key => ?_, fun context target => ?_⟩, fun hfree hfree' => ?_⟩
  · have hrel := rel_get?_of_beq heq key
    generalize a.get? key = x?, b.get? key = y? at hrel
    cases hrel with
    | none => exact .inl ⟨rfl, rfl⟩
    | some hxy => exact .inr ⟨_, _, rfl, rfl, hxy⟩
  · rw [apply_eq_of_beq heq]
    exact ⟨rfl, rfl, rfl⟩
  · obtain ⟨written, hwritten, hread⟩ := exists_compact?_of_parse h hfree
    obtain ⟨written', hwritten', hread'⟩ := exists_compact?_of_parse h' hfree'
    -- compact texts are read back, so they determine the nodes
    refine ⟨written, written', hwritten, hwritten', fun heq => ?_, ?_⟩
    · obtain rfl := eq_of_beq hfree heq
      exact Option.some.inj (hwritten.symm.trans hwritten')
    · rintro rfl
      obtain rfl := Except.ok.inj (hread.symm.trans hread')
      exact beq_refl a

/-- A key that stands twice, an escape, and zeros of different signs: the nodes differ, but they are equal,
and the rule does not tell them apart. An integer and a string are written differently. -/
theorem beq_iff_agrees_zero :
    let text := "\x7b\"a\": 1, \"b\": -0, \"a\": [\"x\"]\x7d"
    let text' := "\x7b\"\\u0061\": [\"\\u0078\"], \"b\": 0.0\x7d"
    let node (negative : Bool) : Value :=
      .object [("a", .array [.string "x"]), ("b", .float ⟨negative, 0⟩)]
    (parse text = .ok (node true) ∧ parse text' = .ok (node false) ∧ node true ≠ node false ∧
      node true == node false ∧
      Agrees (Document.read text).document (Document.read text').document ∧
      ∀ context target, (Required.apply (node true) context target).member =
        (Required.apply (node false) context target).member) ∧
    ∃ written written', (int 0).compact? = some written ∧ (string "0").compact? = some written' ∧
      written ≠ written' := by
  intro text text' node
  have hparse : parse text = .ok (node true) := by decide +kernel
  have hparse' : parse text' = .ok (node false) := by decide +kernel
  have hint : parse "0" = .ok (.int 0) := by decide +kernel
  have hstring : parse "\"0\"" = .ok (.string "0") := by decide +kernel
  have hequal : node true == node false := by decide
  obtain ⟨hagrees, -, hcongruent, -⟩ := beq_iff_agrees hparse hparse'
  refine ⟨⟨hparse, hparse', by decide, hequal, hagrees.1 hequal, fun context target => ?_⟩, ?_⟩
  · exact ((hcongruent hequal).2.2 context target).1
  · obtain ⟨-, -, -, hcompact⟩ := beq_iff_agrees hint hstring
    obtain ⟨written, written', hwritten, hwritten', hbeq⟩ := hcompact nofun nofun
    exact ⟨written, written', hwritten, hwritten', fun heq => absurd (hbeq.2 heq) (by decide)⟩

end Value

end KeywordRules.Json
