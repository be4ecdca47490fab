import KeywordRules.Proofs.Denotation
import KeywordRules.Proofs.Leaves

/-!
# The grammar of documents

`Document.Means` is the grammar: which document a text from its first character to its last one means. A
leaf is meant by a spelling of it; an array by a pair of brackets around its items with commas between
them; and an object by a pair of braces around its pairs, each a string literal, a colon and the text of
the value. Space may stand around every item, key and value.

A whole text reads as a document with a value exactly if between the space at its two ends stands a text
that means the document (`read_eq_iff_means`), and no text means two documents (`Means.unique`).
-/

namespace KeywordRules.Json

open KeywordRules.Text

namespace Document

/-! ## The grammar -/

/-- Nothing but space. -/
def AreSpace (cs : List Char) : Prop :=
  ∀ c ∈ cs, isSpace c = true

/-- A token with space around it. -/
inductive Padded : List Char → List Char → Prop where
  | mk {u v : List Char} (token : List Char) (hu : AreSpace u) (hv : AreSpace v) :
    Padded (u ++ (token ++ v)) token

/-- A pair of an object: its key, the text of its value, and the document that this text means. -/
structure Entry where
  key : String
  token : List Char
  document : Document

namespace Entry

/-- Key and document of an entry. -/
def pair (entry : Entry) : String × Document :=
  (entry.key, entry.document)

/-- The text of an entry: a string literal that spells the key, a colon, and the text of the value. -/
inductive IsWritten : List Char → Entry → Prop where
  | mk {u body v part : List Char} {entry : Entry} (hu : AreSpace u)
    (hkey : Lexeme.Spells body entry.key.toList) (hv : AreSpace v) (hpart : Padded part entry.token) :
    IsWritten (u ++ '"' :: (body ++ '"' :: (v ++ ':' :: part))) entry

end Entry

/-- One or more parts with commas between them. -/
inductive Separated {α : Type} (IsPart : List Char → α → Prop) : List Char → List α → Prop where
  | last {part : List Char} {a : α} (h : IsPart part a) : Separated IsPart part [a]
  | cons {part body : List Char} {a : α} {as : List α} (h : IsPart part a)
    (hrest : Separated IsPart body as) : Separated IsPart (part ++ ',' :: body) (a :: as)

/-- What stands between two brackets: parts with commas between them, or space. -/
inductive Enclosed {α : Type} (IsPart : List Char → α → Prop) : List Char → List α → Prop where
  | empty {body : List Char} (h : AreSpace body) : Enclosed IsPart body []
  | parts {body : List Char} {as : List α} (h : Separated IsPart body as) : Enclosed IsPart body as

/-- A text from its first character to its last one means a document. -/
inductive Means : List Char → Document → Prop where
  | leaf {token : List Char} {d : Document} (h : Spells token d) : Means token d
  | array {body : List Char} {items : List (List Char × Document)}
    (hbody : Enclosed (fun part item => Padded part item.1) body items)
    (hitems : ∀ item ∈ items, Means item.1 item.2) :
    Means ('[' :: (body ++ [']'])) (list (items.map Prod.snd))
  | object {body : List Char} {entries : List Entry} (hbody : Enclosed Entry.IsWritten body entries)
    (hentries : ∀ entry ∈ entries, Means entry.token entry.document) :
    Means ('\x7b' :: (body ++ ['\x7d'])) (record (entries.map Entry.pair))

/-! ## Ends of a text -/

variable {token body cs rest : List Char} {d : Document}

/-- The first character of what means a document is no space and closes no array. -/
theorem Means.exists_cons (h : Means token d) :
    ∃ c r, token = c :: r ∧ isSpace c = false ∧ c ≠ ']' := by
  cases h with
  | leaf h =>
    cases h with
    | number h =>
      obtain ⟨c, r, rfl, hstart⟩ := h.exists_cons
      obtain ⟨hspace, -, -, hbracket, -⟩ := numberStart hstart
      exact ⟨c, r, rfl, hspace, hbracket⟩
    | _ => exact ⟨_, _, rfl, by decide, by decide⟩
  | array => exact ⟨_, _, rfl, by decide, by decide⟩
  | object => exact ⟨_, _, rfl, by decide, by decide⟩

/-- What means a document neither starts nor ends with space. -/
theorem Means.ends_not_isSpace (h : Means token d) :
    (∀ c ∈ token.head?, isSpace c = false) ∧ ∀ c ∈ token.getLast?, isSpace c = false := by
  cases h with
  | leaf h => exact h.ends_not_isSpace
  | array =>
    rw [← List.cons_append, List.getLast?_concat]
    exact ⟨by simp [isSpace], by simp [isSpace]⟩
  | object =>
    rw [← List.cons_append, List.getLast?_concat]
    exact ⟨by simp [isSpace], by simp [isSpace]⟩

theorem Means.length_pos (h : Means token d) : 0 < token.length := by
  obtain ⟨c, r, rfl, -⟩ := h.exists_cons
  exact Nat.succ_pos _

theorem Means.strip_eq (h : Means token d) : strip isSpace token = token := by
  obtain ⟨hhead, hlast⟩ := h.ends_not_isSpace
  exact (strip_eq_iff hhead hlast).2 ⟨[], [], by simp, nofun, nofun⟩

theorem skipSpace_append_of_areSpace {u : List Char} (hu : AreSpace u) (cs : List Char) :
    skipSpace (u ++ cs) = skipSpace cs :=
  List.dropWhile_append_of_pos hu

theorem exists_eq_append_skipSpace (cs : List Char) : ∃ u, AreSpace u ∧ cs = u ++ skipSpace cs :=
  ⟨cs.takeWhile isSpace, fun _ => List.mem_takeWhile_imp, List.takeWhile_append_dropWhile.symm⟩

/-! ## Steps of the reader -/

variable {fuel : Nat} {r : List Char}

theorem readValue_skipSpace (fuel : Nat) (cs : List Char) :
    readValue fuel (skipSpace cs) = readValue fuel cs := by
  obtain ⟨u, hu, hcs⟩ := exists_eq_append_skipSpace cs
  rw [hcs, readValue_append_of_isSpace hu, ← hcs]

theorem readItems_skipSpace (fuel : Nat) (cs : List Char) :
    readItems fuel (skipSpace cs) = readItems fuel cs := by
  cases fuel with
  | zero => rw [readItems, readItems]
  | succ fuel => rw [readItems, readItems, readValue_skipSpace]

theorem readPairs_skipSpace (fuel : Nat) (cs : List Char) :
    readPairs fuel (skipSpace cs) = readPairs fuel cs := by
  cases fuel with
  | zero => rw [readPairs, readPairs]
  | succ fuel => rw [readPairs, readPairs, readValue_skipSpace]

/-- An array is read from a bracket. -/
theorem exists_skipSpace_of_readValue_array {items : List Document} {closed : Bool}
    (h : readValue (fuel + 1) cs = (array items closed, some rest)) : ∃ r, skipSpace cs = '[' :: r := by
  have hbegins := begins_of_readValue h
  generalize skipSpace cs = start at hbegins
  cases hbegins with
  | array r => exact ⟨r, rfl⟩

/-- An object is read from a brace. -/
theorem exists_skipSpace_of_readValue_object {pairs : List (Document × Document)} {closed : Bool}
    (h : readValue (fuel + 1) cs = (object pairs closed, some rest)) :
    ∃ r, skipSpace cs = '\x7b' :: r := by
  have hbegins := begins_of_readValue h
  generalize skipSpace cs = start at hbegins
  cases hbegins with
  | object r => exact ⟨r, rfl⟩

/-- An array is read from its bracket on: nothing up to the other bracket, or items. -/
theorem readValue_eq_array_iff {items : List Document} {closed : Bool} (hcs : skipSpace cs = '[' :: r) :
    readValue (fuel + 1) cs = (array items closed, some rest) ↔ closed = true ∧
      (items = [] ∧ skipSpace r = ']' :: rest ∨
        (∀ r', skipSpace r ≠ ']' :: r') ∧ readItems fuel r = (items, some rest)) := by
  rw [readValue]
  simp only [hcs, Char.reduceEq, if_false, if_true]
  split
  · rename_i rest' hr
    simp [hr, and_comm, and_left_comm, eq_comm]
  · rename_i hr
    rw [readItems_skipSpace]
    obtain ⟨items', rest'⟩ := readItems fuel r
    simp only [Prod.mk.injEq, array.injEq]
    constructor
    · rintro ⟨⟨rfl, rfl⟩, rfl⟩
      exact ⟨rfl, .inr ⟨hr, rfl, rfl⟩⟩
    · rintro ⟨rfl, ⟨-, hempty⟩ | ⟨-, rfl, rfl⟩⟩
      · exact (hr _ hempty).elim
      · exact ⟨⟨rfl, rfl⟩, rfl⟩

/-- An object is read from its brace on: nothing up to the other brace, or pairs. -/
theorem readValue_eq_object_iff {pairs : List (Document × Document)} {closed : Bool}
    (hcs : skipSpace cs = '\x7b' :: r) :
    readValue (fuel + 1) cs = (object pairs closed, some rest) ↔ closed = true ∧
      (pairs = [] ∧ skipSpace r = '\x7d' :: rest ∨
        (∀ r', skipSpace r ≠ '\x7d' :: r') ∧ readPairs fuel r = (pairs, some rest)) := by
  rw [readValue]
  simp only [hcs, Char.reduceEq, if_false, if_true]
  split
  · rename_i rest' hr
    simp [hr, and_comm, and_left_comm, eq_comm]
  · rename_i hr
    rw [readPairs_skipSpace]
    obtain ⟨pairs', rest'⟩ := readPairs fuel r
    simp only [Prod.mk.injEq, object.injEq]
    constructor
    · rintro ⟨⟨rfl, rfl⟩, rfl⟩
      exact ⟨rfl, .inr ⟨hr, rfl, rfl⟩⟩
    · rintro ⟨rfl, ⟨-, hempty⟩ | ⟨-, rfl, rfl⟩⟩
      · exact (hr _ hempty).elim
      · exact ⟨⟨rfl, rfl⟩, rfl⟩

/-! ## Parts between brackets -/

/-- Parts are read one after another, each up to a comma or up to the character that closes the list. -/
structure ReadsParts {α : Type} (ReadsPart : Nat → List Char → α → List Char → Prop) (close : Char)
    (read : Nat → List Char → List α × Option (List Char)) : Prop where
  /-- Without fuel nothing is read. -/
  zero : ∀ cs, (read 0 cs).2 = none
  /-- A part is read, and then the end or a comma and the other parts. -/
  succ : ∀ fuel cs as rest, read (fuel + 1) cs = (as, some rest) ↔
    ∃ a r, ReadsPart fuel cs a r ∧
      (as = [a] ∧ skipSpace r = close :: rest ∨
        ∃ more r', as = a :: more ∧ skipSpace r = ',' :: r' ∧ read fuel r' = (more, some rest))

/-- An item is read as a value. -/
def ReadsItem (fuel : Nat) (cs : List Char) (item : Document) (r : List Char) : Prop :=
  readValue fuel cs = (item, some r)

/-- A pair is read as a literal, a colon, and a value. -/
def ReadsPair (fuel : Nat) (cs : List Char) (pair : Document × Document) (r'' : List Char) : Prop :=
  ∃ text? r r', readValue fuel cs = (string text?, some r) ∧ skipSpace r = ':' :: r' ∧
    readValue fuel r' = (pair.2, some r'') ∧ pair.1 = string text?

theorem readsParts_readItems : ReadsParts ReadsItem ']' readItems where
  zero cs := by rw [readItems]
  succ fuel cs items rest := by
    rw [readItems]
    simp only [ReadsItem]
    obtain ⟨item, none | r⟩ := readValue fuel cs
    · simp
    · simp only [Prod.mk.injEq, Option.some.injEq]
      constructor
      · intro h
        refine ⟨item, r, ⟨rfl, rfl⟩, ?_⟩
        -- a comma, a bracket, or neither of them
        split at h
        · rename_i r' hr
          obtain ⟨rfl, hrest⟩ := Prod.mk.inj h
          exact .inr ⟨_, r', rfl, hr, Prod.ext rfl hrest⟩
        · rename_i rest' hr
          obtain ⟨rfl, hrest⟩ := Prod.mk.inj h
          obtain rfl := Option.some.inj hrest
          exact .inl ⟨rfl, hr⟩
        · cases h
      · rintro ⟨_, _, ⟨rfl, rfl⟩, ⟨rfl, hr⟩ | ⟨more, r', rfl, hr, hmore⟩⟩
        · simp only [hr]
        · simp only [hr, hmore]

theorem readsParts_readPairs : ReadsParts ReadsPair '\x7d' readPairs where
  zero cs := by rw [readPairs]
  succ fuel cs pairs rest := by
    rw [readPairs]
    split
    -- a key is read
    · rename_i text? r hkey
      constructor
      · intro h
        -- then the colon, then the value
        split at h
        · rename_i r' hr
          split at h
          · cases h
          · rename_i value r'' hvalue
            refine ⟨(string text?, value), r'', ⟨text?, r, r', hkey, hr, hvalue, rfl⟩, ?_⟩
            -- a comma, a brace, or neither of them
            split at h
            · rename_i s hs
              obtain ⟨rfl, hrest⟩ := Prod.mk.inj h
              exact .inr ⟨_, s, rfl, hs, Prod.ext rfl hrest⟩
            · rename_i rest' hrest'
              obtain ⟨rfl, hrest⟩ := Prod.mk.inj h
              obtain rfl := Option.some.inj hrest
              exact .inl ⟨rfl, hrest'⟩
            · cases h
        · cases h
      · rintro ⟨⟨key, value⟩, r'', ⟨_, _, r', hsame, hr, hvalue, rfl⟩, hmore⟩
        cases hkey.symm.trans hsame
        simp only [hr, hvalue]
        obtain ⟨rfl, hr''⟩ | ⟨more, s, rfl, hr'', hmore⟩ := hmore
        · simp only [hr'']
        · simp only [hr'', hmore]
    -- what is read in place of a key is no text
    · rename_i hno hkey
      constructor
      · intro h
        cases h
      · rintro ⟨_, _, ⟨text?, r, _, hsame, -⟩, -⟩
        cases hkey.symm.trans hsame
        exact (hno _ _ rfl rfl).elim

section

variable {α β : Type} {ReadsPart : Nat → List Char → α → List Char → Prop} {close : Char}
  {read : Nat → List Char → List α × Option (List Char)} {IsPart : List Char → β → Prop} {f : β → α}

/-- A part is read in front of whatever does not go on with a number, and the space behind it may be
taken along. -/
def IsReadPart (ReadsPart : Nat → List Char → α → List Char → Prop) (part : List Char) (a : α) : Prop :=
  ∀ fuel rest, 2 * part.length ≤ fuel → Numeral.EndsNumber rest →
    ∃ r, ReadsPart fuel (part ++ rest) a r ∧ skipSpace r = skipSpace rest

/-- Parts with commas between them are read up to the character that closes the list. -/
theorem ReadsParts.read_separated (h : ReadsParts ReadsPart close read) (hspace : isSpace close = false)
    (hclose : Numeral.EndsNumber [close]) {bs : List β} (hbody : Separated IsPart body bs)
    (hparts : ∀ b ∈ bs, ∀ part, IsPart part b → IsReadPart ReadsPart part (f b))
    (hfuel : 2 * body.length < fuel) (rest : List Char) :
    read fuel (body ++ close :: rest) = (bs.map f, some rest) := by
  induction hbody generalizing fuel with
  -- the last part stands in front of the character that closes the list
  | @last part b hpart =>
    obtain ⟨fuel, rfl⟩ : ∃ f, fuel = f + 1 := ⟨fuel - 1, by omega⟩
    have hends : Numeral.EndsNumber (close :: rest) := hclose
    obtain ⟨r, hread, hr⟩ := hparts b List.mem_cons_self part hpart fuel _ (by omega) hends
    rw [skipSpace_cons hspace] at hr
    exact (h.succ _ _ _ _).2 ⟨_, r, hread, .inl ⟨rfl, hr⟩⟩
  -- another part stands in front of a comma
  | @cons part body b bs hpart _ ih =>
    simp only [List.length_append, List.length_cons] at hfuel
    obtain ⟨fuel, rfl⟩ : ∃ f, fuel = f + 1 := ⟨fuel - 1, by omega⟩
    have hends : Numeral.EndsNumber (',' :: (body ++ close :: rest)) := by simp [Numeral.EndsNumber]
    obtain ⟨hfirst, hparts⟩ := List.forall_mem_cons.1 hparts
    obtain ⟨r, hread, hr⟩ := hfirst part hpart fuel _ (by omega) hends
    rw [skipSpace_cons (by decide)] at hr
    rw [List.append_assoc, List.cons_append]
    exact (h.succ _ _ _ _).2 ⟨_, r, hread, .inr ⟨_, _, rfl, hr, ih hparts (by omega)⟩⟩

/-- Parts that are read stand with commas between them. -/
theorem ReadsParts.exists_separated (h : ReadsParts ReadsPart close read) {IsGood : α → Prop}
    {IsMeant : β → Prop}
    (hpart : ∀ f' < fuel, ∀ cs a r, ReadsPart f' cs a r → IsGood a →
      ∃ part b, cs = part ++ skipSpace r ∧ IsPart part b ∧ f b = a ∧ IsMeant b)
    {as : List α} (hread : read fuel cs = (as, some rest)) (has : ∀ a ∈ as, IsGood a) :
    ∃ body bs, cs = body ++ close :: rest ∧ Separated IsPart body bs ∧ bs.map f = as ∧
      ∀ b ∈ bs, IsMeant b := by
  induction fuel generalizing cs as with
  | zero =>
    have hnone := h.zero cs
    rw [hread] at hnone
    cases hnone
  | succ fuel ih =>
    obtain ⟨a, r, ha, hmore⟩ := (h.succ _ _ _ _).1 hread
    -- the part read first is the first of all parts, whatever comes behind it
    have hgood : IsGood a := by
      obtain ⟨rfl, -⟩ | ⟨_, _, rfl, -⟩ := hmore <;> exact has a List.mem_cons_self
    obtain ⟨part, b, rfl, hisPart, rfl, hmeant⟩ := hpart fuel (Nat.lt_succ_self _) cs a r ha hgood
    obtain ⟨rfl, hr⟩ | ⟨more, r', rfl, hr, hmore⟩ := hmore
    · exact ⟨part, [b], by rw [hr], .last hisPart, rfl, by simpa using hmeant⟩
    · obtain ⟨body, bs, rfl, hbody, rfl, hbs⟩ :=
        ih (fun f' hf' => hpart f' (Nat.lt_succ_of_lt hf')) hmore (List.forall_mem_cons.1 has).2
      refine ⟨part ++ ',' :: body, b :: bs, by simp [hr], .cons hisPart hbody, rfl, ?_⟩
      exact List.forall_mem_cons.2 ⟨hmeant, hbs⟩

end

/-! ## What means a document is read as the document -/

/-- A token is read as a document, in front of whatever does not go on with a number. -/
def IsRead (token : List Char) (d : Document) : Prop :=
  ∀ fuel rest, 2 * token.length ≤ fuel → Numeral.EndsNumber rest →
    readValue fuel (token ++ rest) = (d, some rest)

theorem endsNumber_append {v : List Char} (hv : AreSpace v) (hrest : Numeral.EndsNumber rest) :
    Numeral.EndsNumber (v ++ rest) := by
  cases v with
  | nil => exact hrest
  | cons c v => exact fun c' hc' => endsNumber_of_isSpace hv c' hc'

/-- A token that is read is also read with space around it. -/
theorem IsRead.padded {part : List Char} (h : IsRead token d) (hpart : Padded part token) :
    IsReadPart ReadsItem part d := by
  obtain @⟨u, v, token, hu, hv⟩ := hpart
  intro fuel rest hfuel hrest
  simp only [List.length_append] at hfuel
  refine ⟨v ++ rest, ?_, skipSpace_append_of_areSpace hv rest⟩
  rw [ReadsItem, List.append_assoc, List.append_assoc, readValue_append_of_isSpace hu]
  exact h fuel (v ++ rest) (by omega) (endsNumber_append hv hrest)

/-- The key of an entry is read up to the colon, and its value up to what follows the entry. -/
theorem Entry.IsWritten.isReadPart {part : List Char} {entry : Entry} (h : entry.IsWritten part)
    (hentry : IsRead entry.token entry.document) :
    IsReadPart ReadsPair part (text entry.key, entry.document) := by
  obtain @⟨u, body, v, part, entry, hu, hkey, hv, hpart⟩ := h
  intro fuel rest hfuel hrest
  simp only [List.length_append, List.length_cons] at hfuel
  obtain ⟨r, hread, hr⟩ := hentry.padded hpart fuel rest (by omega) hrest
  refine ⟨r, ⟨some entry.key, v ++ ':' :: (part ++ rest), part ++ rest, ?_, ?_, hread, rfl⟩, hr⟩
  · obtain ⟨fuel, rfl⟩ : ∃ f, fuel = f + 1 := ⟨fuel - 1, by omega⟩
    simp only [List.append_assoc, List.cons_append]
    rw [readValue_append_of_isSpace hu]
    exact readValue_string hkey fuel _
  · rw [skipSpace_append_of_areSpace hv, skipSpace_cons (by decide)]

/-- Items start with something else than a bracket that closes them. -/
theorem Separated.skipSpace_items_ne {items : List (List Char × Document)}
    (h : Separated (fun part item => Padded part item.1) body items)
    (hitems : ∀ item ∈ items, Means item.1 item.2) (rest r : List Char) :
    skipSpace (body ++ rest) ≠ ']' :: r := by
  -- it is the first item that decides, also where more of them follow
  have hpart : ∀ {part : List Char} {item : List Char × Document}, Padded part item.1 →
      Means item.1 item.2 → ∀ rest, skipSpace (part ++ rest) ≠ ']' :: r := by
    rintro part ⟨token, d⟩ ⟨_, hu, -⟩ hitem rest
    obtain ⟨c, r', rfl, hspace, hbracket⟩ := hitem.exists_cons
    rw [List.append_assoc, skipSpace_append_of_areSpace hu, List.append_assoc, List.cons_append,
      skipSpace_cons hspace]
    exact fun heq => hbracket (List.cons.inj heq).1
  cases h with
  | last h => exact hpart h (hitems _ List.mem_cons_self) rest
  | cons h _ =>
    rw [List.append_assoc]
    exact hpart h (hitems _ List.mem_cons_self) _

/-- Entries start with the quote of a key. -/
theorem Separated.skipSpace_entries_ne {entries : List Entry}
    (h : Separated Entry.IsWritten body entries) (rest r : List Char) :
    skipSpace (body ++ rest) ≠ '\x7d' :: r := by
  have hpart : ∀ {part : List Char} {entry : Entry}, entry.IsWritten part →
      ∀ rest, skipSpace (part ++ rest) ≠ '\x7d' :: r := by
    rintro part entry ⟨hu, -, -, -⟩ rest
    rw [List.append_assoc, skipSpace_append_of_areSpace hu, List.cons_append,
      skipSpace_cons (by decide)]
    exact fun heq => absurd (List.cons.inj heq).1 (by decide)
  cases h with
  | last h => exact hpart h rest
  | cons h _ =>
    rw [List.append_assoc]
    exact hpart h _

/-- Keys and documents of entries, as the reader of pairs gives them. -/
theorem record_map_pair (entries : List Entry) :
    record (entries.map Entry.pair) =
      object (entries.map fun entry => (text entry.key, entry.document)) true := by
  rw [record, List.map_map]
  rfl

/-- An array is read if its items are. -/
theorem IsRead.array {items : List (List Char × Document)}
    (hbody : Enclosed (fun part item => Padded part item.1) body items)
    (hitems : ∀ item ∈ items, Means item.1 item.2) (hread : ∀ item ∈ items, IsRead item.1 item.2) :
    IsRead ('[' :: (body ++ [']'])) (list (items.map Prod.snd)) := by
  intro fuel rest hfuel _
  simp only [List.length_cons, List.length_append, List.length_nil] at hfuel
  obtain ⟨fuel, rfl⟩ : ∃ f, fuel = f + 1 := ⟨fuel - 1, by omega⟩
  rw [List.cons_append, List.append_assoc, List.singleton_append, list,
    readValue_eq_array_iff (skipSpace_cons (by decide) _)]
  refine ⟨rfl, ?_⟩
  cases hbody with
  | empty hspace =>
    left
    rw [skipSpace_append_of_areSpace hspace, skipSpace_cons (by decide)]
    exact ⟨rfl, rfl⟩
  | parts h =>
    refine .inr ⟨h.skipSpace_items_ne hitems _, ?_⟩
    exact readsParts_readItems.read_separated (by decide) (by simp [Numeral.EndsNumber]) h
      (fun item hitem _ => (hread item hitem).padded) (by omega) rest

/-- An object is read if the values of its entries are. -/
theorem IsRead.object {entries : List Entry} (hbody : Enclosed Entry.IsWritten body entries)
    (hread : ∀ entry ∈ entries, IsRead entry.token entry.document) :
    IsRead ('\x7b' :: (body ++ ['\x7d'])) (record (entries.map Entry.pair)) := by
  intro fuel rest hfuel _
  simp only [List.length_cons, List.length_append, List.length_nil] at hfuel
  obtain ⟨fuel, rfl⟩ : ∃ f, fuel = f + 1 := ⟨fuel - 1, by omega⟩
  rw [List.cons_append, List.append_assoc, List.singleton_append, record_map_pair,
    readValue_eq_object_iff (skipSpace_cons (by decide) _)]
  refine ⟨rfl, ?_⟩
  cases hbody with
  | empty hspace =>
    left
    rw [skipSpace_append_of_areSpace hspace, skipSpace_cons (by decide)]
    exact ⟨rfl, rfl⟩
  | parts h =>
    refine .inr ⟨h.skipSpace_entries_ne _, ?_⟩
    exact readsParts_readPairs.read_separated (by decide) (by simp [Numeral.EndsNumber]) h
      (fun entry hentry _ hpart => hpart.isReadPart (hread entry hentry)) (by omega) rest

/-- **What means a document is read as the document.** -/
theorem Means.isRead (h : Means token d) : IsRead token d := by
  induction h with
  | leaf h =>
    intro fuel rest hfuel hrest
    have hlength := (Means.leaf h).length_pos
    obtain ⟨fuel, rfl⟩ : ∃ f, fuel = f + 1 := ⟨fuel - 1, by omega⟩
    exact h.readValue_append hrest fuel
  | array hbody hitems ih => exact .array hbody hitems ih
  | object hbody _ ih => exact .object hbody ih

/-- No text means two documents. -/
theorem Means.unique {d' : Document} (h : Means token d) (h' : Means token d') : d = d' := by
  have hends : Numeral.EndsNumber [] := by simp [Numeral.EndsNumber]
  have hread := h.isRead _ [] (Nat.le_refl _) hends
  rw [h'.isRead _ [] (Nat.le_refl _) hends] at hread
  exact (Prod.mk.inj hread).1.symm

/-! ## What is read means what was read -/

theorem Means.spells (h : Means token d) (hd : d.IsLeaf) : Spells token d := by
  cases h with
  | leaf h => exact h
  | array => exact hd.elim
  | object => exact hd.elim

/-- Only a literal means a text. -/
theorem Means.exists_literal {s : String} (h : Means token (text s)) :
    ∃ body, token = '"' :: (body ++ ['"']) ∧ Lexeme.Spells body s.toList := by
  have hspells : Spells token (.string (some s)) := h.spells rfl
  cases hspells with
  | string hbody => exact ⟨_, rfl, hbody⟩

/-- With so much fuel, a document is read only from a text that means it. -/
def ReadsMeant (fuel : Nat) : Prop :=
  ∀ ⦃cs d rest⦄, readValue fuel cs = (d, some rest) → d.HasValue →
    ∃ token, skipSpace cs = token ++ rest ∧ Means token d

/-- The text that an item is read from is a text that means it, with the space around it. -/
theorem ReadsMeant.exists_padded (hfuel : ReadsMeant fuel) (h : ReadsItem fuel cs d r)
    (hd : d.HasValue) :
    ∃ (part : List Char) (item : List Char × Document), cs = part ++ skipSpace r ∧
      Padded part item.1 ∧ item.2 = d ∧ Means item.1 item.2 := by
  obtain ⟨token, htoken, hmeans⟩ := hfuel h hd
  obtain ⟨u, hu, hcs⟩ := exists_eq_append_skipSpace cs
  obtain ⟨v, hv, hr⟩ := exists_eq_append_skipSpace r
  refine ⟨u ++ (token ++ v), (token, d), ?_, .mk token hu hv, rfl, hmeans⟩
  rw [List.append_assoc, List.append_assoc, ← hr, ← htoken, ← hcs]

/-- The text that a pair is read from is written as an entry. -/
theorem ReadsMeant.exists_isWritten (hfuel : ReadsMeant fuel) {pair : Document × Document}
    (h : ReadsPair fuel cs pair r) (hpair : (∃ key, pair.1 = text key) ∧ pair.2.HasValue) :
    ∃ (part : List Char) (entry : Entry), cs = part ++ skipSpace r ∧ entry.IsWritten part ∧
      (text entry.key, entry.document) = pair ∧ Means entry.token entry.document := by
  obtain ⟨key, value⟩ := pair
  obtain ⟨⟨key, rfl⟩, hvalue⟩ := hpair
  obtain ⟨text?, r, r', hkey, hcolon, hread, hsame⟩ := h
  rw [← hsame] at hkey
  -- the key is read as a value as well, but only a literal means a text
  obtain ⟨_, ⟨literal, _⟩, rfl, hpart, rfl, hliteral⟩ := hfuel.exists_padded hkey ⟨0, rfl⟩
  obtain ⟨body, rfl, hbody⟩ := hliteral.exists_literal
  obtain ⟨part, ⟨token, _⟩, rfl, hpadded, rfl, hmeans⟩ := hfuel.exists_padded hread hvalue
  obtain @⟨u, v, _, hu, hv⟩ := hpart
  refine ⟨u ++ '"' :: (body ++ '"' :: (v ++ ':' :: part)), ⟨key, token, _⟩, ?_,
    .mk hu hbody hv hpadded, rfl, hmeans⟩
  rw [hcolon]
  simp

/-- An array is read only from a text that means it, if its items are. -/
theorem exists_means_of_array (hsound : ∀ f < fuel, ReadsMeant f) {items : List Document} {closed : Bool}
    (h : readValue (fuel + 1) cs = (array items closed, some rest)) (hd : (array items closed).HasValue) :
    ∃ token, skipSpace cs = token ++ rest ∧ Means token (array items closed) := by
  obtain ⟨r, hcs⟩ := exists_skipSpace_of_readValue_array h
  obtain ⟨rfl, ⟨rfl, hr⟩ | ⟨-, hitems⟩⟩ := (readValue_eq_array_iff hcs).1 h
  · obtain ⟨u, hu, hru⟩ := exists_eq_append_skipSpace r
    exact ⟨'[' :: (u ++ [']']), by rw [hcs, hru, hr]; simp, @Means.array u [] (.empty hu) nofun⟩
  · obtain ⟨body, meant, rfl, hbody, rfl, hmeant⟩ :=
      readsParts_readItems.exists_separated
        (fun f hf _ _ _ hitem hvalue => (hsound f hf).exists_padded hitem hvalue) hitems hd.of_array.2
    exact ⟨'[' :: (body ++ [']']), by rw [hcs]; simp, .array (.parts hbody) hmeant⟩

/-- An object is read only from a text that means it, if its values are. -/
theorem exists_means_of_record (hsound : ∀ f < fuel, ReadsMeant f) {pairs : List (String × Document)}
    (h : readValue (fuel + 1) cs = (record pairs, some rest)) (hd : (record pairs).HasValue) :
    ∃ token, skipSpace cs = token ++ rest ∧ Means token (record pairs) := by
  obtain ⟨r, hcs⟩ := exists_skipSpace_of_readValue_object h
  obtain ⟨-, ⟨hnil, hr⟩ | ⟨-, hpairs⟩⟩ := (readValue_eq_object_iff hcs).1 h
  · obtain ⟨u, hu, hru⟩ := exists_eq_append_skipSpace r
    obtain rfl := List.map_eq_nil_iff.1 hnil
    exact ⟨'\x7b' :: (u ++ ['\x7d']), by rw [hcs, hru, hr]; simp,
      @Means.object u [] (.empty hu) nofun⟩
  · have hnames : ∀ pair ∈ pairs.map fun pair => (text pair.1, pair.2),
        (∃ key, pair.1 = text key) ∧ pair.2.HasValue :=
      List.forall_mem_map.2 fun pair hpair => ⟨⟨pair.1, rfl⟩, hd.of_record pair hpair⟩
    obtain ⟨body, entries, rfl, hbody, hentries, hmeant⟩ :=
      readsParts_readPairs.exists_separated
        (fun f hf _ _ _ hpair hgood => (hsound f hf).exists_isWritten hpair hgood) hpairs hnames
    refine ⟨'\x7b' :: (body ++ ['\x7d']), by rw [hcs]; simp, ?_⟩
    rw [record, ← hentries, ← record_map_pair]
    exact .object (.parts hbody) hmeant

/-- **A document with a value is read only from a text that means it.** -/
theorem readsMeant (fuel : Nat) : ReadsMeant fuel := by
  induction fuel using Nat.strongRecOn with
  | _ fuel ih =>
    intro cs d rest h hd
    -- without fuel nothing is read
    obtain _ | fuel := fuel
    · rw [readValue] at h
      cases h
    have hsound : ∀ f < fuel, ReadsMeant f := fun f hf => ih f (Nat.lt_succ_of_lt hf)
    -- a leaf is spelled; of what is no leaf, only arrays and objects have a value
    by_cases hleaf : d.IsLeaf
    · exact (exists_spells_of_readValue hleaf h).imp fun _ h => ⟨h.1, .leaf h.2⟩
    cases d with
    | array items closed => exact exists_means_of_array hsound h hd
    | object pairs closed =>
      obtain ⟨named, hnamed⟩ := hd.exists_eq_record
      rw [hnamed] at h hd ⊢
      exact exists_means_of_record hsound h hd
    | string text? =>
      obtain ⟨depth, hd⟩ := hd
      cases text? with
      | some s => exact (hleaf rfl).elim
      | none => cases hd
    | broken =>
      obtain ⟨depth, hd⟩ := hd
      cases hd
    | _ => exact (hleaf trivial).elim

/-! ## Whole texts -/

/-- **A whole text reads as a document with a value exactly if what stands between its space means the
document.** -/
theorem read_eq_iff_means {text : String} (hd : d.HasValue) :
    read text = ⟨d, true⟩ ↔ Means (strip isSpace text.toList) d := by
  rw [read_eq_complete_iff]
  constructor
  · rintro ⟨rest, hread, hrest⟩
    obtain ⟨token, htoken, hmeans⟩ := readsMeant _ hread hd
    -- no space at the ends of the token, so cutting off space leaves the token
    obtain ⟨hhead, hlast⟩ := hmeans.ends_not_isSpace
    obtain ⟨u, hu, htext⟩ := exists_eq_append_skipSpace text.toList
    have hstrip : strip isSpace text.toList = token := by
      refine (strip_eq_iff hhead hlast).2 ⟨u, rest, ?_, hu, hrest⟩
      rw [List.append_assoc, ← htoken, ← htext]
    rwa [hstrip]
  · intro h
    obtain ⟨u, v, htext, hu, hv⟩ := exists_eq_append_strip isSpace text.toList
    -- the fuel of a whole text is enough for the part between its space
    have hlength := congrArg List.length htext
    simp only [List.length_append] at hlength
    refine ⟨v, ?_, hv⟩
    rw [htext, List.append_assoc, readValue_append_of_isSpace hu, ← List.append_assoc, ← htext]
    exact h.isRead _ v (by omega) (endsNumber_of_isSpace hv)

end Document

/-- A text reads as a node exactly if what stands between its space means a document that denotes the
node. -/
theorem Value.parse_eq_ok_iff_means {text : String} {node : Value} :
    parse text = .ok node ↔
      ∃ d, Document.Means (strip isSpace text.toList) d ∧ d.value? = some node := by
  rw [parse_eq_ok_iff]
  constructor
  · rintro ⟨hvalue, hcomplete⟩
    refine ⟨_, (Document.read_eq_iff_means (.of_eq_some hvalue)).1 ?_, hvalue⟩
    rw [← hcomplete]
  · rintro ⟨d, hmeans, hvalue⟩
    rw [(Document.read_eq_iff_means (.of_eq_some hvalue)).2 hmeans]
    exact ⟨hvalue, rfl⟩

end KeywordRules.Json
