import KeywordRules.Proofs.Denotation

/-!
# Writing and reading nodes

The compact text of a node reads back as the node. A node that was read is within the limits of the
reader (`Value.Fits`); if no double occurs in it, it is written as a document that is plain, denotes the
node within the same limits, and has the keys of every object in order (`Value.Fits.exists_writes`). The
reader gives that document back (`Document.read_compact`), so reading a text, writing the node and
reading again leads to the same node (`Value.parse_compact?`).
-/

namespace KeywordRules.Json

/-! ## What occurs in what -/

/-- A document occurs in another one: it is that document, or occurs in an item or in the value of a
pair. -/
inductive Document.Occurs (d : Document) : Document → Prop where
  | self : Occurs d d
  | item {items : List Document} {item : Document} (closed : Bool) (hmem : item ∈ items)
    (h : Occurs d item) : Occurs d (.array items closed)
  | value {pairs : List (Document × Document)} {pair : Document × Document} (closed : Bool)
    (hmem : pair ∈ pairs) (h : Occurs d pair.2) : Occurs d (.object pairs closed)

/-- A value occurs in another one: it is that value, or occurs in an item or in a field. -/
inductive Value.Occurs (v : Value) : Value → Prop where
  | self : Occurs v v
  | item {items : List Value} {item : Value} (hmem : item ∈ items) (h : Occurs v item) :
    Occurs v (.array items)
  | field {fields : List (String × Value)} {field : String × Value} (hmem : field ∈ fields)
    (h : Occurs v field.2) : Occurs v (.object fields)

/-- A value in which no double occurs. -/
def Value.IsFloatFree (v : Value) : Prop :=
  ∀ x, ¬ Occurs (.float x) v

/-- A document in which every object, however deep, is complete and has texts as keys, each with greater
code points than the one before, the first difference deciding. -/
def Document.IsOrdered (d : Document) : Prop :=
  ∀ pairs closed, Occurs (.object pairs closed) d →
    ∃ fields : List (String × Document), .object pairs closed = record fields ∧
      fields.Pairwise fun field field' => Value.codePoints field.1 < Value.codePoints field'.1

namespace Document

theorem isOrdered_null : null.IsOrdered := by
  intro pairs closed hoccurs
  cases hoccurs

theorem isOrdered_bool (b : Bool) : (bool b).IsOrdered := by
  intro pairs closed hoccurs
  cases hoccurs

theorem isOrdered_number (literal : Numeral) : (number literal).IsOrdered := by
  intro pairs closed hoccurs
  cases hoccurs

theorem isOrdered_string (text? : Option String) : (string text?).IsOrdered := by
  intro pairs closed hoccurs
  cases hoccurs

theorem isOrdered_list {items : List Document} (h : ∀ item ∈ items, item.IsOrdered) :
    (list items).IsOrdered := by
  intro pairs closed hoccurs
  rw [list] at hoccurs
  cases hoccurs with
  | item _ hmem hoccurs => exact h _ hmem pairs closed hoccurs

theorem isOrdered_record {fields : List (String × Document)}
    (hkeys : fields.Pairwise fun field field' => Value.codePoints field.1 < Value.codePoints field'.1)
    (h : ∀ field ∈ fields, field.2.IsOrdered) : (record fields).IsOrdered := by
  intro pairs closed hoccurs
  rw [record] at hoccurs
  cases hoccurs with
  | self => exact ⟨fields, rfl, hkeys⟩
  | value _ hmem hoccurs =>
    obtain ⟨field, hfield, rfl⟩ := List.mem_map.1 hmem
    exact h field hfield pairs closed hoccurs

end Document

/-! ## Writing -/

namespace Value

theorem documents?_eq_some_iff {values : List Value} {items : List Document} :
    documents? values = some items ↔
      List.Forall₂ (fun value item => value.document? = some item) values items :=
  eq_some_iff_forall₂ documents? document? (by rw [documents?])
    (fun value values => by rw [documents?]; rfl) fun _ _ => Iff.rfl

theorem fieldDocuments?_eq_some_iff {fields : List (String × Value)}
    {pairs : List (String × Document)} :
    fieldDocuments? fields = some pairs ↔
      List.Forall₂ (fun field pair => field.1 = pair.1 ∧ field.2.document? = some pair.2)
        fields pairs := by
  refine eq_some_iff_forall₂ fieldDocuments?
    (fun field => field.2.document?.map fun item => (field.1, item)) (by rw [fieldDocuments?])
    (fun field fields => ?_) fun field pair => ?_
  · rw [fieldDocuments?]
    cases field.2.document? <;> rfl
  · simp only [Option.map_eq_some_iff]
    constructor
    · rintro ⟨item, hitem, rfl⟩
      exact ⟨rfl, hitem⟩
    · rintro ⟨hkey, hitem⟩
      exact ⟨pair.2, hitem, Prod.ext hkey rfl⟩

/-- A value is written as a document from which it can be had back within a limit of nesting. -/
structure Writes (depth : Nat) (v : Value) (d : Document) : Prop where
  /-- The document is the one of the value. -/
  document_eq : v.document? = some d
  /-- Its text can be read back. -/
  isPlain : d.IsPlain
  /-- It denotes the value. -/
  value_eq : d.valueWithin? depth = some v
  /-- The keys of its objects are in order. -/
  isOrdered : d.IsOrdered

/-- A value within the limits is written, if no double occurs in it. -/
theorem Fits.exists_writes {depth : Nat} {v : Value} (h : v.Fits depth) (hfree : v.IsFloatFree) :
    ∃ d, Writes depth v d := by
  induction h with
  | null depth => exact ⟨.null, rfl, trivial, rfl, Document.isOrdered_null⟩
  | bool depth b => exact ⟨.bool b, rfl, trivial, rfl, Document.isOrdered_bool b⟩
  | int depth n hlow hhigh =>
    refine ⟨.int n, rfl, ⟨n, rfl⟩, ?_, Document.isOrdered_number _⟩
    rw [Document.int, Document.valueWithin?, Numeral.value?_ofInt hlow hhigh]
    rfl
  | float depth x => exact absurd .self (hfree x)
  | string depth s => exact ⟨.text s, rfl, rfl, rfl, Document.isOrdered_string _⟩
  | array depth values hvalues ih =>
    have hwritten : ∀ value ∈ values, ∃ item, Writes depth value item := fun value hvalue =>
      ih value hvalue fun x hoccurs => hfree x (.item hvalue hoccurs)
    obtain ⟨items, hitems⟩ := exists_forall₂_iff.2 hwritten
    have hitem : ∀ item ∈ items, ∃ value, Writes depth value item := fun item hitem =>
      (exists_rel_of_mem_right hitems hitem).imp fun _ h => h.2
    -- what holds of every item holds of the array: document, plainness, value, order
    refine ⟨.list items, ?_, ?_, ?_, ?_⟩
    · have hdocuments : documents? values = some items :=
        documents?_eq_some_iff.2 (hitems.imp fun _ _ h => h.document_eq)
      rw [document?, hdocuments]
      rfl
    · exact ⟨rfl, Document.arePlain_iff.2 fun item h => (hitem item h).elim fun _ h => h.isPlain⟩
    · refine Document.valueWithin?_array_eq_some_iff.2 ⟨rfl, values, rfl, ?_⟩
      exact (hitems.imp fun _ _ h => h.value_eq).flip
    · exact Document.isOrdered_list fun item h => (hitem item h).elim fun _ h => h.isOrdered
  | object depth fields hkeys hfields ih =>
    have hwritten : ∀ field ∈ fields, ∃ pair : String × Document,
        field.1 = pair.1 ∧ Writes depth field.2 pair.2 := fun field hfield =>
      (ih field hfield fun x hoccurs => hfree x (.field hfield hoccurs)).imp' (fun d => (field.1, d))
        fun _ h => ⟨rfl, h⟩
    obtain ⟨pairs, hpairs⟩ := exists_forall₂_iff.2 hwritten
    have hpair : ∀ pair ∈ pairs, ∃ value, Writes depth value pair.2 := fun pair hpair =>
      (exists_rel_of_mem_right hpairs hpair).imp' Prod.snd fun _ h => h.2.2
    refine ⟨.record pairs, ?_, ?_, ?_, ?_⟩
    · have hdocuments : fieldDocuments? fields = some pairs :=
        fieldDocuments?_eq_some_iff.2 (hpairs.imp fun _ _ h => ⟨h.1, h.2.document_eq⟩)
      rw [document?, hdocuments]
      rfl
    · exact Document.isPlain_record_iff.2 fun pair h => (hpair pair h).elim fun _ h => h.isPlain
    · -- fields whose keys increase are the fields that their pairs give
      refine Document.valueWithin?_object_eq_some_iff.2 ⟨rfl, fields, ?_, ?_⟩
      · rw [ofPairs_of_keysIncrease hkeys]
      · rw [List.forall₂_map_left_iff]
        exact (hpairs.imp fun _ _ h => ⟨congrArg Document.text h.1.symm, h.2.value_eq⟩).flip
    · refine Document.isOrdered_record ?_ fun pair h => (hpair pair h).elim fun _ h => h.isOrdered
      -- the pairs have the keys of the fields, which increase
      have hsame : fields.map Prod.fst = pairs.map Prod.fst := by
        rw [← List.forall₂_eq_eq_eq, List.forall₂_map_left_iff, List.forall₂_map_right_iff]
        exact hpairs.imp fun _ _ h => h.1
      have hincrease : (fields.map Prod.fst).Pairwise (· < ·) := List.pairwise_map.2 hkeys
      rw [hsame, List.pairwise_map] at hincrease
      exact hincrease.imp codePoints_lt_of_lt

/-! ## Reading it back -/

/-- **A node is read back from its compact text.** Whatever the text that a node without doubles was read
from, the node has a compact text, which is read as the same node and hence written as the same text.
In that text the keys of every object, however deep, increase by code point, so none stands twice. -/
theorem parse_compact? {text : String} {node : Value} (h : parse text = .ok node)
    (hfree : node.IsFloatFree) :
    ∃ written, node.compact? = some written ∧
      (∃ node', parse written = .ok node' ∧ node' = node ∧ node'.compact? = some written) ∧
      (Document.read written).document.IsOrdered := by
  have hfits : node.Fits Document.depthLimit := Document.fits_of_valueWithin? (parse_eq_ok_iff.1 h).1
  obtain ⟨d, hd⟩ := hfits.exists_writes hfree
  have hcompact : node.compact? = some d.compact := by
    rw [compact?, hd.document_eq]
    rfl
  have hread : Document.read d.compact = ⟨d, true⟩ := Document.read_compact hd.isPlain
  have hparse : parse d.compact = .ok node := by
    rw [parse_eq_ok_iff, hread]
    exact ⟨hd.value_eq, rfl⟩
  refine ⟨d.compact, hcompact, ⟨node, hparse, rfl, hcompact⟩, ?_⟩
  rw [hread]
  exact hd.isOrdered

/-- An object with a key that stands twice and is written by an escape, and an integer at the limit. -/
theorem parse_compact?_repeated_key :
    let text := "\x7b \"b\" : [18446744073709551615], \"a\" : 1, \"\\u0062\" : -9223372036854775808 \x7d"
    let node : Value := .object [("a", .int 1), ("b", .int (-9223372036854775808))]
    parse text = .ok node ∧ node.IsFloatFree ∧
      ∃ written, node.compact? = some written ∧ parse written = .ok node := by
  intro text node
  have hparse : parse text = .ok node := by decide +kernel
  have hfree : node.IsFloatFree := by
    intro x hoccurs
    dsimp only [node] at hoccurs
    cases hoccurs with
    | field hmem hoccurs =>
      simp only [List.mem_cons, List.not_mem_nil, or_false] at hmem
      obtain rfl | rfl := hmem <;> cases hoccurs
  obtain ⟨written, hwritten, ⟨node', hnode', rfl, -⟩, -⟩ := parse_compact? hparse hfree
  exact ⟨hparse, hfree, written, hwritten, hnode'⟩

end Value

end KeywordRules.Json
