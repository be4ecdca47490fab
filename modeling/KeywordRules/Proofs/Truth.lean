import KeywordRules.Proofs.Denotation
import KeywordRules.Proofs.Leaves

/-!
# Which texts count as true

Whether a node counts as true can be told from its source text alone. `SaysTrue` is the list of the texts
that do, space at both ends apart: the word `true`, the literal of an integer of 64 bits other than zero,
and a string that decodes to `true` between white space. Every other text gives a node that does not
(`asBoolean_eq_true_iff`).

The way leads from nodes to documents (`Counts`) and from there, by the grammar of leaves, to texts.
-/

namespace KeywordRules.Json

open KeywordRules.Text

/-! ## Texts that count as true -/

/-- The bounds of the integers that a node can hold: `-2 ^ 63` and `2 ^ 64 - 1`. -/
def InBounds (n : Int) : Prop :=
  -9223372036854775808 ≤ n ∧ n ≤ 18446744073709551615

/-- The texts that count as true, without the space at both ends. -/
inductive SaysTrue : List Char → Prop where
  /-- The word. -/
  | word : SaysTrue ['t', 'r', 'u', 'e']
  /-- A number without fraction and exponent that is not zero and within the bounds. -/
  | number {token : List Char} {l : Numeral} (h : Numeral.Spells token l)
    (hfraction : l.fraction = none) (hexponent : l.exponent = none) (hne : l.wholeValue ≠ 0)
    (hbounds : InBounds l.wholeValue) : SaysTrue token
  /-- A string, whatever its escapes, that decodes to the word between white space. -/
  | string {body u v : List Char} (h : Lexeme.Spells body (u ++ ['t', 'r', 'u', 'e'] ++ v))
    (hu : ∀ c ∈ u, isBlank c = true) (hv : ∀ c ∈ v, isBlank c = true) :
    SaysTrue ('"' :: (body ++ ['"']))

/-- A literal other than zero is an integer exactly if it is within the bounds. -/
theorem Numeral.isInteger_iff_inBounds {l : Numeral} (hne : l.wholeValue ≠ 0) :
    l.isInteger = true ↔ InBounds l.wholeValue := by
  have hsize : UInt64.size = 18446744073709551616 := rfl
  rw [isInteger_iff, InBounds]
  omega

/-! ## Documents -/

/-- The documents of nodes that count as true. -/
inductive Document.Counts : Document → Prop where
  | bool : Counts (.bool true)
  | number {l : Numeral} (hfraction : l.fraction = none) (hexponent : l.exponent = none)
    (hne : l.wholeValue ≠ 0) (hbounds : InBounds l.wholeValue) : Counts (.number l)
  | string {s : String} (h : trim s.toList = ['t', 'r', 'u', 'e']) : Counts (text s)

theorem Document.Counts.isLeaf {d : Document} (h : d.Counts) : d.IsLeaf := by
  cases h <;> trivial

/-- The word between white space is what trims to the word. -/
theorem trim_eq_word_iff {cs : List Char} :
    trim cs = ['t', 'r', 'u', 'e'] ↔
      ∃ u v, cs = u ++ ['t', 'r', 'u', 'e'] ++ v ∧ (∀ c ∈ u, isBlank c = true) ∧
        ∀ c ∈ v, isBlank c = true := by
  have hhead : isBlank 't' = false := by decide
  have hlast : isBlank 'e' = false := by decide
  rw [trim_eq_strip]
  exact strip_eq_iff (by simpa using hhead) (by simpa using hlast)

/-- The texts that count as true are the spellings of the documents that do. -/
theorem saysTrue_iff_exists_counts {token : List Char} :
    SaysTrue token ↔ ∃ d, Document.Spells token d ∧ d.Counts := by
  constructor
  · rintro (_ | ⟨h, hfraction, hexponent, hne, hbounds⟩ | @⟨body, u, v, h, hu, hv⟩)
    · exact ⟨_, .boolTrue, .bool⟩
    · exact ⟨_, .number h, .number hfraction hexponent hne hbounds⟩
    · -- the literal spells a list of characters, and the document holds them as a text
      have htext : (String.ofList (u ++ ['t', 'r', 'u', 'e'] ++ v)).toList =
          u ++ ['t', 'r', 'u', 'e'] ++ v := String.toList_ofList
      rw [← htext] at h
      exact ⟨_, .string h, .string (trim_eq_word_iff.2 ⟨u, v, htext, hu, hv⟩)⟩
  · rintro ⟨d, hspells, _ | ⟨hfraction, hexponent, hne, hbounds⟩ | @⟨s, htrim⟩⟩
    · cases hspells
      exact .word
    · cases hspells with
      | number h => exact .number h hfraction hexponent hne hbounds
    · obtain ⟨u, v, htext, hu, hv⟩ := trim_eq_word_iff.1 htrim
      cases hspells with
      | string h =>
        rw [htext] at h
        exact .string h hu hv

/-- A text that counts as true starts as the word, a string or a number. -/
theorem SaysTrue.exists_cons {token : List Char} (h : SaysTrue token) :
    ∃ c r, token = c :: r ∧ (c = 't' ∨ c = '"' ∨ c = '-' ∨ c.isDigit = true) := by
  cases h with
  | word => exact ⟨_, _, rfl, .inl rfl⟩
  | number h =>
    obtain ⟨c, r, hcons, hstart⟩ := h.exists_cons
    exact ⟨c, r, hcons, .inr (.inr hstart)⟩
  | string => exact ⟨_, _, rfl, .inr (.inl rfl)⟩

/-- Of the numbers, those without fraction and exponent count as true that are not zero and within the
bounds. -/
theorem saysTrue_number_iff {token : List Char} {l : Numeral} (h : Numeral.Spells token l) :
    SaysTrue token ↔
      l.fraction = none ∧ l.exponent = none ∧ l.wholeValue ≠ 0 ∧ InBounds l.wholeValue := by
  constructor
  · intro htrue
    -- the first character tells a number from the word and from a string
    obtain ⟨c, r, hcons, hstart⟩ := h.exists_cons
    cases htrue with
    | word =>
      obtain rfl := (List.cons.inj hcons).1
      exact absurd hstart (by decide)
    | number h' hfraction hexponent hne hbounds =>
      obtain rfl := h.unique h'
      exact ⟨hfraction, hexponent, hne, hbounds⟩
    | string =>
      obtain rfl := (List.cons.inj hcons).1
      exact absurd hstart (by decide)
  · rintro ⟨hfraction, hexponent, hne, hbounds⟩
    exact .number h hfraction hexponent hne hbounds

/-- Of the strings, those count as true that decode to the word between white space. -/
theorem saysTrue_string_iff {body cs : List Char} (h : Lexeme.Spells body cs) :
    SaysTrue ('"' :: (body ++ ['"'])) ↔
      ∃ u v, cs = u ++ ['t', 'r', 'u', 'e'] ++ v ∧ (∀ c ∈ u, isBlank c = true) ∧
        ∀ c ∈ v, isBlank c = true := by
  constructor
  · generalize htoken : '"' :: (body ++ ['"']) = token
    intro htrue
    cases htrue with
    | word => cases htoken
    | number h' =>
      obtain ⟨c, r, rfl, hstart⟩ := h'.exists_cons
      obtain rfl := (List.cons.inj htoken).1
      exact absurd hstart (by decide)
    | @string body' u v h' hu hv =>
      -- one literal has one text
      obtain rfl := List.append_cancel_right (List.cons.inj htoken).2
      exact ⟨u, v, h.unique h', hu, hv⟩
  · rintro ⟨u, v, rfl, hu, hv⟩
    exact .string h hu hv

namespace Value

/-- A node counts as true exactly if its document does. -/
theorem exists_asBoolean_iff_counts {d : Document} :
    (∃ node, d.value? = some node ∧ node.asBoolean = true) ↔ d.Counts := by
  constructor
  · rintro ⟨node, hnode, htrue⟩
    cases d with
    -- of the nodes that are no text, only the Boolean and the integers can count
    | null =>
      obtain rfl := Option.some.inj hnode
      cases htrue
    | bool b =>
      obtain rfl := Option.some.inj hnode
      obtain rfl : b = true := htrue
      exact .bool
    | number l =>
      obtain ⟨number, hnumber, rfl⟩ := Option.map_eq_some_iff.1 hnode
      cases number with
      | int n =>
        obtain ⟨hfraction, hexponent, hinteger, rfl⟩ := Numeral.value?_eq_int_iff.1 hnumber
        have hne : l.wholeValue ≠ 0 := bne_iff_ne.1 htrue
        exact .number hfraction hexponent hne ((Numeral.isInteger_iff_inBounds hne).1 hinteger)
      | float x => cases htrue
    | string text? =>
      obtain ⟨s, rfl, rfl⟩ := Option.map_eq_some_iff.1 hnode
      exact .string (beq_iff_eq.1 htrue)
    | array items closed =>
      obtain ⟨-, _, rfl, -⟩ := Document.valueWithin?_array_eq_some_iff.1 hnode
      cases htrue
    | object pairs closed =>
      obtain ⟨-, _, rfl, -⟩ := Document.valueWithin?_object_eq_some_iff.1 hnode
      cases htrue
    | broken => cases hnode
  · rintro (_ | ⟨hfraction, hexponent, hne, hbounds⟩ | ⟨htrim⟩)
    · exact ⟨_, rfl, rfl⟩
    · have hvalue := Numeral.value?_eq_int_iff.2
        ⟨hfraction, hexponent, (Numeral.isInteger_iff_inBounds hne).2 hbounds, rfl⟩
      exact ⟨_, Option.map_eq_some_iff.2 ⟨_, hvalue, rfl⟩, bne_iff_ne.2 hne⟩
    · exact ⟨_, rfl, beq_iff_eq.2 htrim⟩

/-- A text gives a node that counts as true exactly if it is one of those texts. -/
theorem exists_parse_iff_saysTrue {text : String} :
    (∃ node, parse text = .ok node ∧ node.asBoolean = true) ↔
      SaysTrue (strip isSpace text.toList) := by
  rw [saysTrue_iff_exists_counts]
  constructor
  · rintro ⟨node, hparse, htrue⟩
    obtain ⟨hnode, hcomplete⟩ := parse_eq_ok_iff.1 hparse
    have hcounts := exists_asBoolean_iff_counts.1 ⟨node, hnode, htrue⟩
    have hread : Document.read text = ⟨(Document.read text).document, true⟩ := by rw [← hcomplete]
    exact ⟨_, (Document.read_eq_iff_spells hcounts.isLeaf).1 hread, hcounts⟩
  · rintro ⟨d, hspells, hcounts⟩
    have hread := (Document.read_eq_iff_spells hcounts.isLeaf).2 hspells
    obtain ⟨node, hnode, htrue⟩ := exists_asBoolean_iff_counts.2 hcounts
    exact ⟨node, parse_eq_ok_iff.2 ⟨by rw [hread, hnode], by rw [hread]⟩, htrue⟩

/-- A node counts as true exactly if its text is one of those texts. -/
theorem asBoolean_iff_of_parse {text : String} {node : Value} (h : parse text = .ok node) :
    node.asBoolean = true ↔ SaysTrue (strip isSpace text.toList) := by
  rw [← exists_parse_iff_saysTrue]
  constructor
  · exact fun htrue => ⟨node, h, htrue⟩
  · rintro ⟨node', h', htrue⟩
    obtain rfl := Except.ok.inj (h.symm.trans h')
    exact htrue

/-- **Whether a node counts as true is told from its source text.** The texts that say so, without the
space at both ends, are read, and as nodes that count as true; every other node does not. No number does
that has a fraction or an exponent, is zero, with a sign or without, or is out of bounds; no string with a
zero-width space or a byte order mark in it; and nothing that starts as `null`, `false`, an array or an
object. -/
theorem asBoolean_eq_true_iff (text : String) :
    ((∃ node, parse text = .ok node ∧ node.asBoolean = true) ↔
      SaysTrue (strip isSpace text.toList)) ∧
    ∀ node, parse text = .ok node →
      (node.asBoolean = true ↔ SaysTrue (strip isSpace text.toList)) ∧
      (∀ l, Numeral.Spells (strip isSpace text.toList) l →
        l.fraction ≠ none ∨ l.exponent ≠ none ∨ l.wholeValue = 0 ∨ ¬ InBounds l.wholeValue →
          node.asBoolean = false) ∧
      (∀ body cs, strip isSpace text.toList = '"' :: (body ++ ['"']) → Lexeme.Spells body cs →
        '\u200b' ∈ cs ∨ '\ufeff' ∈ cs → node.asBoolean = false) ∧
      (∀ c ∈ (strip isSpace text.toList).head?, c = 'n' ∨ c = 'f' ∨ c = '[' ∨ c = '\x7b' →
        node.asBoolean = false) := by
  refine ⟨exists_parse_iff_saysTrue, fun node h => ?_⟩
  have hiff := asBoolean_iff_of_parse h
  refine ⟨hiff, ?_⟩
  simp only [← Bool.not_eq_true, hiff]
  refine ⟨fun l hl hother htrue => ?_, fun body cs hbody hcs hmem htrue => ?_,
    fun c hc hother htrue => ?_⟩
  -- numbers
  · obtain ⟨hfraction, hexponent, hne, hbounds⟩ := (saysTrue_number_iff hl).1 htrue
    rcases hother with h | h | h | h
    · exact h hfraction
    · exact h hexponent
    · exact hne h
    · exact h hbounds
  · rw [hbody] at htrue
    obtain ⟨u, v, rfl, hu, hv⟩ := (saysTrue_string_iff hcs).1 htrue
    -- all of the text is white space or a letter of the word, and neither of the two characters is
    have hall : ∀ c ∈ u ++ ['t', 'r', 'u', 'e'] ++ v,
        isBlank c = true ∨ c ∈ ['t', 'r', 'u', 'e'] := by
      simp only [List.forall_mem_append]
      exact ⟨⟨fun c hc => .inl (hu c hc), fun c hc => .inr hc⟩, fun c hc => .inl (hv c hc)⟩
    rcases hmem with hmem | hmem
    · exact absurd (hall _ hmem) (by decide)
    · exact absurd (hall _ hmem) (by decide)
  -- what starts otherwise
  · obtain ⟨d, r, hcons, hstart⟩ := htrue.exists_cons
    rw [hcons] at hc
    obtain rfl := Option.some.inj hc
    rcases hother with rfl | rfl | rfl | rfl <;> exact absurd hstart (by decide)

/-- The word, with an escape in it, between escaped and raw white space that JSON does not know, and space
around the literal. -/
theorem asBoolean_eq_true_iff_escaped_word :
    let text := "\t\"\\u00a0\\u0074ru\\u0065\u3000\" \n"
    parse text = .ok (.string "\u00a0true\u3000") ∧ SaysTrue (strip isSpace text.toList) := by
  intro text
  have hparse : parse text = .ok (.string "\u00a0true\u3000") := by decide +kernel
  obtain ⟨-, hnode⟩ := asBoolean_eq_true_iff text
  exact ⟨hparse, (hnode _ hparse).1.1 (by decide +kernel)⟩

end Value

end KeywordRules.Json
