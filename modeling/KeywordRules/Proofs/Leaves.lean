import KeywordRules.Proofs.WellFormed
import Mathlib.Data.List.DropRight

/-!
# Texts of a leaf

A leaf is a document without further documents in it: `null`, a Boolean, a number or a text. A whole text
reads as a leaf exactly if between the space at its two ends stands a spelling of the leaf and nothing
else (`read_eq_iff_spells`).
-/

namespace KeywordRules

/-! ## Cutting off both ends -/

namespace Text

/-- A text without the characters of one sort at its start and at its end. -/
def strip (p : Char → Bool) (cs : List Char) : List Char :=
  (cs.dropWhile p).rdropWhile p

theorem trim_eq_strip (cs : List Char) : trim cs = strip isBlank cs :=
  rfl

/-- What is cut off is of the sort, at both ends. -/
theorem exists_eq_append_strip (p : Char → Bool) (cs : List Char) :
    ∃ u v, cs = u ++ strip p cs ++ v ∧ (∀ c ∈ u, p c = true) ∧ ∀ c ∈ v, p c = true := by
  refine ⟨cs.takeWhile p, (cs.dropWhile p).rtakeWhile p, ?_, fun c => List.mem_takeWhile_imp,
    fun c => List.mem_rtakeWhile_imp⟩
  rw [strip, List.append_assoc, List.rdropWhile_append_rtakeWhile, List.takeWhile_append_dropWhile]

/-- Nothing more is cut off than what stands around a core with ends of another sort. -/
theorem strip_append {p : Char → Bool} {u core v : List Char} (hu : ∀ c ∈ u, p c = true)
    (hv : ∀ c ∈ v, p c = true) (hhead : ∀ c ∈ core.head?, p c = false)
    (hlast : ∀ c ∈ core.getLast?, p c = false) : strip p (u ++ core ++ v) = core := by
  rw [strip, List.append_assoc, List.dropWhile_append_of_pos hu]
  cases core with
  -- without a core, all of the text is of the sort
  | nil =>
    rw [List.nil_append, List.dropWhile_eq_nil_iff.2 hv, List.rdropWhile_nil]
  | cons c core =>
    rw [List.cons_append, List.dropWhile_cons_of_neg (by simp [hhead c rfl]), ← List.cons_append,
      List.rdropWhile, List.reverse_append,
      List.dropWhile_append_of_pos fun d hd => hv d (List.mem_reverse.1 hd), ← List.rdropWhile,
      List.rdropWhile_eq_self_iff]
    intro hne
    simp [hlast _ (List.getLast?_eq_getLast_of_ne_nil hne)]

/-- Cutting off both ends leaves a core exactly if the core stands between characters of the sort. -/
theorem strip_eq_iff {p : Char → Bool} {cs core : List Char} (hhead : ∀ c ∈ core.head?, p c = false)
    (hlast : ∀ c ∈ core.getLast?, p c = false) :
    strip p cs = core ↔
      ∃ u v, cs = u ++ core ++ v ∧ (∀ c ∈ u, p c = true) ∧ ∀ c ∈ v, p c = true := by
  constructor
  · rintro rfl
    exact exists_eq_append_strip p cs
  · rintro ⟨u, v, rfl, hu, hv⟩
    exact strip_append hu hv hhead hlast

end Text

namespace Json.Document

open KeywordRules.Text

theorem exists_of_readWord {word : String} {value d : Document} {cs rest : List Char}
    (h : readWord word value cs = (d, some rest)) : cs = word.toList ++ rest ∧ d = value := by
  unfold readWord at h
  split at h
  · rename_i rest' hrest
    obtain ⟨rfl, hsome⟩ := Prod.mk.inj h
    obtain rfl := Option.some.inj hsome
    exact ⟨(List.isPrefixOf?_eq_some_iff_append_eq.1 hrest).symm, rfl⟩
  · cases h

/-- What can have been read of a text, from its first character on and up to a rest: one case for each
branch of the reader. -/
inductive Begins (rest : List Char) : List Char → Document → Prop where
  | string {r : List Char} {text? : Option String} (h : Lexeme.read r = some (text?, rest)) :
    Begins rest ('"' :: r) (.string text?)
  | array (r : List Char) (items : List Document) (closed : Bool) :
    Begins rest ('[' :: r) (.array items closed)
  | object (r : List Char) (pairs : List (Document × Document)) (closed : Bool) :
    Begins rest ('\x7b' :: r) (.object pairs closed)
  | null : Begins rest ('n' :: 'u' :: 'l' :: 'l' :: rest) .null
  | boolTrue : Begins rest ('t' :: 'r' :: 'u' :: 'e' :: rest) (.bool true)
  | boolFalse : Begins rest ('f' :: 'a' :: 'l' :: 's' :: 'e' :: rest) (.bool false)
  | number {cs : List Char} {l : Numeral} (h : Numeral.read cs = some (l, rest)) :
    Begins rest cs (.number l)

/-- A text begins with the document that is read of it, behind the space at its start. -/
theorem begins_of_readValue {fuel : Nat} {cs rest : List Char} {d : Document}
    (h : readValue (fuel + 1) cs = (d, some rest)) : Begins rest (skipSpace cs) d := by
  rw [readValue] at h
  cases hcs : skipSpace cs with
  | nil => simp [hcs] at h
  | cons c r =>
    simp only [hcs] at h
    -- a quote: the literal has an end, whether it is a text or not
    split at h
    · rename_i hc
      subst hc
      split at h
      · rename_i text? rest' hread
        obtain ⟨rfl, hrest⟩ := Prod.mk.inj h
        obtain rfl := Option.some.inj hrest
        exact .string hread
      · cases h
    -- a bracket or a brace, which is closed at once or behind what stands in it
    split at h
    · rename_i hc
      subst hc
      split at h <;>
      · obtain ⟨rfl, -⟩ := Prod.mk.inj h
        exact .array _ _ _
    split at h
    · rename_i hc
      subst hc
      split at h <;>
      · obtain ⟨rfl, -⟩ := Prod.mk.inj h
        exact .object _ _ _
    -- the first letter of one of the three words
    split at h
    · rename_i hc
      subst hc
      obtain ⟨rfl, rfl⟩ := exists_of_readWord h
      exact .null
    split at h
    · rename_i hc
      subst hc
      obtain ⟨rfl, rfl⟩ := exists_of_readWord h
      exact .boolTrue
    split at h
    · rename_i hc
      subst hc
      obtain ⟨rfl, rfl⟩ := exists_of_readWord h
      exact .boolFalse
    -- anything else is a number or nothing
    split at h
    · rename_i l rest' hread
      obtain ⟨rfl, hrest⟩ := Prod.mk.inj h
      obtain rfl := Option.some.inj hrest
      exact .number hread
    · cases h

/-- A leaf that is read is spelled at the start of the text. -/
theorem exists_spells_of_readValue {fuel : Nat} {cs rest : List Char} {d : Document} (hd : d.IsLeaf)
    (h : readValue (fuel + 1) cs = (d, some rest)) :
    ∃ token, skipSpace cs = token ++ rest ∧ Spells token d := by
  have hbegins := begins_of_readValue h
  generalize skipSpace cs = start at hbegins
  cases hbegins with
  | string hread =>
    -- the literal is a text, since the document is a leaf
    obtain ⟨s, rfl⟩ := Option.isSome_iff_exists.1 hd
    obtain ⟨body, rfl, hbody⟩ := Lexeme.read_eq_some_iff.1 hread
    exact ⟨_, by simp, .string hbody⟩
  | array => exact hd.elim
  | object => exact hd.elim
  | null => exact ⟨_, rfl, .null⟩
  | boolTrue => exact ⟨_, rfl, .boolTrue⟩
  | boolFalse => exact ⟨_, rfl, .boolFalse⟩
  | number hread =>
    obtain ⟨token, htoken, hspells⟩ := Numeral.exists_spells_of_read hread
    exact ⟨token, htoken, .number hspells⟩

/-! ## Whole texts -/

/-- Reading goes on behind the space at the start. -/
theorem readValue_append_of_isSpace {u : List Char} (hu : ∀ c ∈ u, isSpace c = true) (fuel : Nat)
    (cs : List Char) : readValue fuel (u ++ cs) = readValue fuel cs := by
  cases fuel with
  | zero => rw [readValue, readValue]
  | succ fuel => rw [readValue, readValue, skipSpace, List.dropWhile_append_of_pos hu, ← skipSpace]

theorem skipSpace_eq_nil_iff {cs : List Char} :
    skipSpace cs = [] ↔ ∀ c ∈ cs, isSpace c = true :=
  List.dropWhile_eq_nil_iff

/-- A number ends in front of space. -/
theorem endsNumber_of_isSpace {cs : List Char} (h : ∀ c ∈ cs, isSpace c = true) :
    Numeral.EndsNumber cs := by
  intro c hc
  have hspace := h c (List.mem_of_mem_head? hc)
  simp only [isSpace, Bool.or_eq_true, decide_eq_true_eq] at hspace
  obtain ((rfl | rfl) | rfl) | rfl := hspace <;> decide

/-- A text is read completely exactly if space is all that follows the document. -/
theorem read_eq_complete_iff {text : String} {d : Document} :
    read text = ⟨d, true⟩ ↔
      ∃ rest, readValue (2 * text.toList.length + 2) text.toList = (d, some rest) ∧
        ∀ c ∈ rest, isSpace c = true := by
  rw [read]
  split
  · rename_i hread
    simp [hread]
  · rename_i d' rest hread
    simp [hread, ← skipSpace_eq_nil_iff]

/-- Number literals are made of digits, signs, points and marks of an exponent. -/
def IsNumeric (c : Char) : Prop :=
  c.isDigit = true ∨ c = '-' ∨ c = '+' ∨ c = '.' ∨ c = 'e' ∨ c = 'E'

theorem isNumeric_of_mem {token : List Char} {l : Numeral} (h : Numeral.Spells token l) :
    ∀ c ∈ token, IsNumeric c := by
  have digits : ∀ {ds}, Numeral.AreDigits ds → ∀ c ∈ ds, IsNumeric c :=
    fun hds c hc => .inl (hds.isDigit c hc)
  obtain @⟨whole, f, e, fraction, exponent, negative, hwhole, hfraction, hexponent⟩ := h
  -- sign, digits, fraction and exponent one by one
  have hsign : ∀ c ∈ Numeral.sign negative, IsNumeric c := by
    cases negative <;> simp [Numeral.sign, IsNumeric]
  have hf : ∀ c ∈ f, IsNumeric c := by
    cases hfraction with
    | absent => simp
    | given hds => exact List.forall_mem_cons.2 ⟨by simp [IsNumeric], digits hds⟩
  have he : ∀ c ∈ e, IsNumeric c := by
    cases hexponent with
    | absent => simp
    | given hmark h =>
      refine List.forall_mem_cons.2 ⟨by rcases hmark with rfl | rfl <;> simp [IsNumeric], ?_⟩
      cases h with
      | plain hds => exact digits hds
      | plus hds => exact List.forall_mem_cons.2 ⟨by simp [IsNumeric], digits hds⟩
      | minus hds => exact List.forall_mem_cons.2 ⟨by simp [IsNumeric], digits hds⟩
  simp only [List.forall_mem_append]
  exact ⟨hsign, digits hwhole.toAreDigits, hf, he⟩

theorem IsNumeric.not_isSpace {c : Char} (h : IsNumeric c) : isSpace c = false := by
  rcases h with h | rfl | rfl | rfl | rfl | rfl
  · exact (numberStart (.inr h)).1
  all_goals decide

/-- A spelling of a leaf neither starts nor ends with space. -/
theorem Spells.ends_not_isSpace {token : List Char} {d : Document} (h : Spells token d) :
    (∀ c ∈ token.head?, isSpace c = false) ∧ ∀ c ∈ token.getLast?, isSpace c = false := by
  cases h with
  | null => exact ⟨by simp [isSpace], by simp [isSpace]⟩
  | boolTrue => exact ⟨by simp [isSpace], by simp [isSpace]⟩
  | boolFalse => exact ⟨by simp [isSpace], by simp [isSpace]⟩
  | number h =>
    have hmem c hc := (isNumeric_of_mem h c hc).not_isSpace
    exact ⟨fun c hc => hmem c (List.mem_of_mem_head? hc),
      fun c hc => hmem c (List.mem_of_mem_getLast? hc)⟩
  | string h =>
    rw [← List.cons_append, List.getLast?_concat]
    exact ⟨by simp [isSpace], by simp [isSpace]⟩

/-- **A whole text reads as a leaf exactly if what stands between its space spells the leaf.** -/
theorem read_eq_iff_spells {text : String} {d : Document} (hd : d.IsLeaf) :
    read text = ⟨d, true⟩ ↔ Spells (strip isSpace text.toList) d := by
  rw [read_eq_complete_iff]
  constructor
  · rintro ⟨rest, hread, hrest⟩
    obtain ⟨token, htoken, hspells⟩ := exists_spells_of_readValue hd hread
    -- no space at the ends of the token, so cutting off space leaves the token
    obtain ⟨hhead, hlast⟩ := hspells.ends_not_isSpace
    have hstrip : strip isSpace text.toList = token := by
      refine (strip_eq_iff hhead hlast).2 ⟨text.toList.takeWhile isSpace, rest, ?_,
        fun c => List.mem_takeWhile_imp, hrest⟩
      rw [List.append_assoc, ← htoken, skipSpace, List.takeWhile_append_dropWhile]
    rwa [hstrip]
  · intro h
    obtain ⟨u, v, htext, hu, hv⟩ := exists_eq_append_strip isSpace text.toList
    refine ⟨v, ?_, hv⟩
    rw [htext, List.append_assoc, readValue_append_of_isSpace hu]
    exact h.readValue_append (endsNumber_of_isSpace hv) _

end Json.Document

end KeywordRules
