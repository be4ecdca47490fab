import KeywordRules.Json.Reader
import KeywordRules.Json.Writer

/-!
# Reading back what was written

A plain document has no fault, and its numbers are integers. Its compact text reads back as the
document, with nothing left over (`read_compact`); inside a longer text this holds in front of
everything that does not continue a number (`readValue_render`). Documents with fractions or exponents
are not covered.
-/

namespace KeywordRules.Json.Document

/-! ## Plain documents -/

mutual

/-- A document without faults whose numbers are integers. -/
def IsPlain : Document → Prop
  | .null | .bool _ => True
  | .number literal => ∃ n : Int, literal = Numeral.ofInt n
  | .string text? => text?.isSome
  | .array items closed => closed = true ∧ ArePlain items
  | .object pairs closed => closed = true ∧ PairsPlain pairs
  | .broken => False

/-- All items of a list are plain. -/
def ArePlain : List Document → Prop
  | [] => True
  | item :: rest => item.IsPlain ∧ ArePlain rest

/-- All keys of a list of pairs are texts, and all values are plain. -/
def PairsPlain : List (Document × Document) → Prop
  | [] => True
  | (key, value) :: rest => (∃ s, key = .text s) ∧ value.IsPlain ∧ PairsPlain rest

end

/-! ## How much fuel a document needs -/

mutual

/-- The fuel with which a document is read. -/
def weight : Document → Nat
  | .array items _ => 1 + itemsWeight items
  | .object pairs _ => 1 + pairsWeight pairs
  | _ => 1

/-- The fuel with which the items of an array are read. -/
def itemsWeight : List Document → Nat
  | [] => 0
  | item :: rest => 1 + item.weight + itemsWeight rest

/-- The fuel with which the pairs of an object are read. -/
def pairsWeight : List (Document × Document) → Nat
  | [] => 0
  | (_, value) :: rest => 2 + value.weight + pairsWeight rest

end

/-! ## First characters -/

theorem skipSpace_cons {c : Char} (h : isSpace c = false) (r : List Char) :
    skipSpace (c :: r) = c :: r := by
  simp [skipSpace, h]

/-- A character that a number literal can start with starts nothing else. -/
theorem numberStart {c : Char} (h : c = '-' ∨ c.isDigit = true) :
    isSpace c = false ∧ c ≠ '"' ∧ c ≠ '[' ∧ c ≠ ']' ∧ c ≠ '\x7b' ∧ c ≠ '\x7d' ∧ c ≠ 'n' ∧ c ≠ 't' ∧
      c ≠ 'f' := by
  rcases h with rfl | h
  · decide
  · have space : c ≠ ' ' ∧ c ≠ '\t' ∧ c ≠ '\n' ∧ c ≠ '\r' := by
      refine ⟨?_, ?_, ?_, ?_⟩ <;> (rintro rfl; revert h; decide)
    refine ⟨by simp [isSpace, space], ?_, ?_, ?_, ?_, ?_, ?_, ?_, ?_⟩ <;>
      (rintro rfl; revert h; decide)

/-- A plain document is written with a first character that is no space and closes nothing. -/
theorem exists_render_cons {d : Document} (h : d.IsPlain) :
    ∃ c r, d.render = c :: r ∧ isSpace c = false ∧ c ≠ ']' := by
  cases d with
  | null => exact ⟨'n', _, rfl, by decide, by decide⟩
  | bool b => cases b <;> exact ⟨_, _, rfl, by decide, by decide⟩
  | number literal =>
    obtain ⟨n, rfl⟩ := h
    obtain ⟨c, r, hr, hc⟩ := (Numeral.spells_render_ofInt n).exists_cons
    exact ⟨c, r, hr, (numberStart hc).1, (numberStart hc).2.2.2.1⟩
  | string text? =>
    cases text? with
    | none => simp [IsPlain] at h
    | some s => exact ⟨'"', _, rfl, by decide, by decide⟩
  | array items closed => exact ⟨'[', _, rfl, by decide, by decide⟩
  | object pairs closed => exact ⟨'\x7b', _, rfl, by decide, by decide⟩
  | broken => exact absurd h (by simp [IsPlain])

/-- Items are written with a first character that is no space and closes nothing. -/
theorem exists_renderItems_cons {item : Document} (h : item.IsPlain) (items : List Document) :
    ∃ c r, renderItems (item :: items) = c :: r ∧ isSpace c = false ∧ c ≠ ']' := by
  obtain ⟨c, r, hr, hc⟩ := exists_render_cons h
  cases items with
  | nil => exact ⟨c, r, by simp [renderItems, hr], hc⟩
  | cons next rest => exact ⟨c, r ++ ',' :: renderItems (next :: rest), by simp [renderItems, hr], hc⟩

/-- Pairs are written with a quote as their first character. -/
theorem exists_renderPairs_cons (s : String) (value : Document) (pairs : List (Document × Document)) :
    ∃ r, renderPairs ((text s, value) :: pairs) = '"' :: r := by
  cases pairs with
  | nil => exact ⟨_, by simp [renderPairs, text, render, Lexeme.render]; rfl⟩
  | cons next rest => exact ⟨_, by simp [renderPairs, text, render, Lexeme.render]; rfl⟩

/-! ## Spellings of a leaf -/

/-- A text from its first character to its last one spells a leaf. -/
inductive Spells : List Char → Document → Prop where
  | null : Spells ['n', 'u', 'l', 'l'] .null
  | boolTrue : Spells ['t', 'r', 'u', 'e'] (.bool true)
  | boolFalse : Spells ['f', 'a', 'l', 's', 'e'] (.bool false)
  | number {token : List Char} {l : Numeral} (h : Numeral.Spells token l) : Spells token (.number l)
  | string {body : List Char} {s : String} (h : Lexeme.Spells body s.toList) :
    Spells ('"' :: (body ++ ['"'])) (text s)

/-- A document without further documents in it, and without a fault. -/
def IsLeaf : Document → Prop
  | .null | .bool _ | .number _ => True
  | .string text? => text?.isSome
  | .array _ _ | .object _ _ | .broken => False

/-- Reading a word takes it from the start of a text. -/
theorem readWord_append (word : String) (value : Document) (rest : List Char) :
    readWord word value (word.toList ++ rest) = (value, some rest) := by
  have general (cs : List Char) : cs.isPrefixOf? (cs ++ rest) = some rest := by
    induction cs with
    | nil => rfl
    | cons c cs ih =>
      change (if c == c then cs.isPrefixOf? (cs ++ rest) else none) = some rest
      rw [ih, beq_self_eq_true, if_pos rfl]
  rw [readWord, general]

/-- A string literal is read in front of any text. -/
theorem readValue_string {body : List Char} {s : String} (h : Lexeme.Spells body s.toList)
    (fuel : Nat) (rest : List Char) :
    readValue (fuel + 1) ('"' :: (body ++ '"' :: rest)) = (text s, some rest) := by
  have hread : Lexeme.read (body ++ '"' :: rest) = some (some s, rest) :=
    Lexeme.read_eq_some_iff.2 ⟨body, rfl, h⟩
  simp [readValue, skipSpace_cons (c := '"') (by decide), hread, text]

/-- A leaf is read in front of a text that does not go on with a number. -/
theorem Spells.readValue_append {token rest : List Char} {d : Document} (h : Spells token d)
    (hrest : Numeral.EndsNumber rest) (fuel : Nat) :
    readValue (fuel + 1) (token ++ rest) = (d, some rest) := by
  cases h with
  | null => simpa [readValue, skipSpace, isSpace] using readWord_append "ull" .null rest
  | boolTrue => simpa [readValue, skipSpace, isSpace] using readWord_append "rue" (.bool true) rest
  | boolFalse => simpa [readValue, skipSpace, isSpace] using readWord_append "alse" (.bool false) rest
  | number h =>
    obtain ⟨c, r, rfl, hstart⟩ := h.exists_cons
    have hread := h.read_append hrest
    have hne := numberStart hstart
    rw [readValue, List.cons_append, skipSpace_cons hne.1]
    simp only [hne, if_false]
    rw [← List.cons_append, hread]
  | string h => simpa using readValue_string h fuel rest

/-- A written leaf is a spelling of it. -/
theorem spells_render {d : Document} (h : d.IsPlain) (hd : d.IsLeaf) : Spells d.render d := by
  cases d with
  | null => exact .null
  | bool b =>
    cases b with
    | false => exact .boolFalse
    | true => exact .boolTrue
  | number literal =>
    obtain ⟨n, rfl⟩ := h
    exact .number (Numeral.spells_render_ofInt n)
  | string text? =>
    obtain ⟨s, rfl⟩ := Option.isSome_iff_exists.1 hd
    exact .string (Lexeme.spells_flatMap_escape s.toList)
  | array => exact hd.elim
  | object => exact hd.elim
  | broken => exact hd.elim

/-! ## Reading inside a longer text -/

/-- A written string is read back in front of any text. -/
theorem readValue_render_text (fuel : Nat) (s : String) (r : List Char) :
    readValue (fuel + 1) ((text s).render ++ r) = (.string (some s), some r) := by
  simpa [text, render, Lexeme.render] using
    readValue_string (Lexeme.spells_flatMap_escape s.toList) fuel r

theorem exists_fuel {d : Document} {fuel : Nat} (h : d.weight ≤ fuel) : ∃ f, fuel = f + 1 :=
  ⟨fuel - 1, by cases d <;> simp [weight] at h <;> omega⟩

mutual

/-- A plain document is read back in front of a text that does not continue a number. -/
theorem readValue_render (d : Document) (h : d.IsPlain) (fuel : Nat) (hf : d.weight ≤ fuel)
    (r : List Char) (hr : Numeral.EndsNumber r) :
    readValue fuel (d.render ++ r) = (d, some r) := by
  obtain ⟨fuel, rfl⟩ := exists_fuel hf
  cases d with
  | null => exact (spells_render h trivial).readValue_append hr fuel
  | bool b => exact (spells_render h trivial).readValue_append hr fuel
  | number literal => exact (spells_render h trivial).readValue_append hr fuel
  | string text? => exact (spells_render h h).readValue_append hr fuel
  | array items closed =>
    obtain ⟨rfl, hi⟩ := h
    simp only [weight] at hf
    cases items with
    | nil => simp [readValue, render, renderItems, skipSpace, isSpace]
    | cons item items =>
      have hitems := readItems_render (item :: items) (by simp) hi fuel (by omega) r
      -- what follows the bracket is no bracket that closes it, so items are read
      obtain ⟨c, rest, hrest, hspace, hclose⟩ := exists_renderItems_cons hi.1 items
      rw [render, List.cons_append, readValue, skipSpace_cons (by decide)]
      simp only [hrest, List.cons_append, List.append_assoc] at hitems ⊢
      simp only [Char.reduceEq, if_false, if_true]
      rw [skipSpace_cons hspace]
      split
      · rename_i heq
        exact absurd (List.cons.inj heq).1 hclose
      · simp [hitems]
  | object pairs closed =>
    obtain ⟨rfl, hp⟩ := h
    simp only [weight] at hf
    cases pairs with
    | nil => simp [readValue, render, renderPairs, skipSpace, isSpace]
    | cons pair pairs =>
      have hpairs := readPairs_render (pair :: pairs) (by simp) hp fuel (by omega) r
      obtain ⟨key, value⟩ := pair
      obtain ⟨⟨s, rfl⟩, _⟩ := hp
      -- after the brace stands the quote of a key, so pairs are read
      obtain ⟨rest, hrest⟩ := exists_renderPairs_cons s value pairs
      rw [render, List.cons_append, readValue, skipSpace_cons (by decide)]
      simp only [hrest, List.cons_append, List.append_assoc] at hpairs ⊢
      simp only [Char.reduceEq, if_false, if_true]
      rw [skipSpace_cons (by decide)]
      simp [hpairs]
  | broken => exact absurd h (by simp [IsPlain])

/-- The items of an array are read back up to the closing bracket. -/
theorem readItems_render (items : List Document) (hne : items ≠ []) (h : ArePlain items)
    (fuel : Nat) (hf : itemsWeight items ≤ fuel) (r : List Char) :
    readItems fuel (renderItems items ++ (']' :: r)) = (items, some r) := by
  match items, hne, h with
  -- the last item stands in front of the bracket, every other one in front of a comma
  | [item], _, h =>
    simp only [itemsWeight] at hf
    obtain ⟨fuel, rfl⟩ : ∃ f, fuel = f + 1 := ⟨fuel - 1, by omega⟩
    have hitem := readValue_render item h.1 fuel (by omega) (']' :: r)
      (by simp [Numeral.EndsNumber])
    simp [readItems, renderItems, hitem, skipSpace_cons (c := ']') (by decide)]
  | item :: next :: rest, _, h =>
    rw [itemsWeight] at hf
    obtain ⟨fuel, rfl⟩ : ∃ f, fuel = f + 1 := ⟨fuel - 1, by omega⟩
    have hitem := readValue_render item h.1 fuel (by omega)
      (',' :: (renderItems (next :: rest) ++ (']' :: r))) (by simp [Numeral.EndsNumber])
    have hrest := readItems_render (next :: rest) (by simp) h.2 fuel (by omega) r
    simp [readItems, renderItems, hitem, skipSpace_cons (c := ',') (by decide), hrest]

/-- The pairs of an object are read back up to the closing brace. -/
theorem readPairs_render (pairs : List (Document × Document)) (hne : pairs ≠ [])
    (h : PairsPlain pairs) (fuel : Nat) (hf : pairsWeight pairs ≤ fuel) (r : List Char) :
    readPairs fuel (renderPairs pairs ++ ('\x7d' :: r)) = (pairs, some r) := by
  match pairs, hne, h with
  -- one unit of fuel for the pair, and one for its key
  | [(key, value)], _, h =>
    obtain ⟨⟨s, rfl⟩, hv, _⟩ := h
    simp only [pairsWeight] at hf
    obtain ⟨fuel, rfl⟩ : ∃ f, fuel = f + 2 := ⟨fuel - 2, by omega⟩
    have hkey := readValue_render_text fuel s (':' :: (value.render ++ '\x7d' :: r))
    have hvalue := readValue_render value hv (fuel + 1) (by omega) ('\x7d' :: r)
      (by simp [Numeral.EndsNumber])
    simp only [List.cons_append, List.append_assoc, renderPairs] at hkey hvalue ⊢
    rw [readPairs, hkey]
    simp [skipSpace_cons (c := ':') (by decide), hvalue, skipSpace_cons (c := '\x7d') (by decide),
      text]
  | (key, value) :: next :: rest, _, h =>
    obtain ⟨⟨s, rfl⟩, hv, hp⟩ := h
    rw [pairsWeight] at hf
    obtain ⟨fuel, rfl⟩ : ∃ f, fuel = f + 2 := ⟨fuel - 2, by omega⟩
    have hkey := readValue_render_text fuel s
      (':' :: (value.render ++ ',' :: (renderPairs (next :: rest) ++ '\x7d' :: r)))
    have hvalue := readValue_render value hv (fuel + 1) (by omega)
      (',' :: (renderPairs (next :: rest) ++ '\x7d' :: r)) (by simp [Numeral.EndsNumber])
    have hrest := readPairs_render (next :: rest) (by simp) hp (fuel + 1) (by omega) r
    simp only [List.cons_append, List.append_assoc, renderPairs] at hkey hvalue hrest ⊢
    rw [readPairs, hkey]
    simp [skipSpace_cons (c := ':') (by decide), hvalue, skipSpace_cons (c := ',') (by decide),
      hrest, text]

end

/-! ## Reading a whole text -/

mutual

/-- The text of a plain document is long enough for its fuel. -/
theorem weight_lt (d : Document) (h : d.IsPlain) : d.weight + 1 ≤ 2 * d.render.length := by
  cases d with
  | null => simp [weight, render]
  | bool b => cases b <;> simp [weight, render]
  | number literal =>
    obtain ⟨n, rfl⟩ := h
    obtain ⟨c, r, hr, -⟩ := (Numeral.spells_render_ofInt n).exists_cons
    simp only [weight, render, hr, List.length_cons]
    omega
  | string text? =>
    cases text? with
    | none => simp [IsPlain] at h
    | some s =>
      simp only [weight, render, Lexeme.render, List.length_cons, List.length_append]
      omega
  | array items closed =>
    have hi := itemsWeight_le items h.2
    simp [weight, render, h.1]
    omega
  | object pairs closed =>
    have hp := pairsWeight_le pairs h.2
    simp [weight, render, h.1]
    omega
  | broken => exact absurd h (by simp [IsPlain])

theorem itemsWeight_le (items : List Document) (h : ArePlain items) :
    itemsWeight items ≤ 2 * (renderItems items).length := by
  match items, h with
  | [], _ => simp [itemsWeight]
  | [item], h =>
    have hitem := weight_lt item h.1
    simp [itemsWeight, renderItems]
    omega
  | item :: next :: rest, h =>
    have hitem := weight_lt item h.1
    have hrest := itemsWeight_le (next :: rest) h.2
    rw [itemsWeight, renderItems]
    simp
    omega

theorem pairsWeight_le (pairs : List (Document × Document)) (h : PairsPlain pairs) :
    pairsWeight pairs ≤ 2 * (renderPairs pairs).length := by
  match pairs, h with
  | [], _ => simp [pairsWeight]
  | [(key, value)], h =>
    have hvalue := weight_lt value h.2.1
    simp [pairsWeight, renderPairs]
    omega
  | (key, value) :: next :: rest, h =>
    have hvalue := weight_lt value h.2.1
    have hrest := pairsWeight_le (next :: rest) h.2.2
    rw [pairsWeight, renderPairs]
    simp
    omega

end

/-- The compact text of a plain document reads back as the document. -/
theorem read_compact {d : Document} (h : d.IsPlain) : read d.compact = ⟨d, true⟩ := by
  have hread := readValue_render d h (2 * d.render.length + 2) (by have := weight_lt d h; omega) []
    (by simp [Numeral.EndsNumber])
  rw [List.append_nil] at hread
  simp [read, compact, hread, skipSpace]

end KeywordRules.Json.Document
