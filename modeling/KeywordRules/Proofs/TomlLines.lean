import KeywordRules.Toml.Statement
import Mathlib.Data.List.Forall2
import Mathlib.Data.List.TakeWhile

/-!
# Lines that read back

What is written on a line of its own is read as the statement it stands for, whatever line follows
(`Toml.IsLine`): a bare key with a plain value (`Toml.isLine_assign`), or a table header with a bare key
(`Toml.isLine_header`). A text of such lines is read as their statements, with or without a line feed at
its end (`Toml.statements?_lines`).
-/

namespace KeywordRules.Toml

open KeywordRules.Text

/-- What may follow the content of a line: the end of the text, or the next line. -/
def EndsLine (rest : List Char) : Prop :=
  ∀ c ∈ rest.head?, c = '\n'

theorem endsLine_cons (rest : List Char) : EndsLine ('\n' :: rest) :=
  fun _ hc => (Option.some.inj hc).symm

/-- Characters differ if one is of a class and the other is not. -/
theorem ne_of_class {isIn : Char → Bool} {c d : Char} (hc : isIn c = true) (hd : isIn d = false) :
    c ≠ d := by
  rintro rfl
  rw [hc] at hd
  cases hd

/-! ## Plain values -/

/-- A printable ASCII character other than a quote and a backslash. -/
def IsPlainChar (c : Char) : Prop :=
  0x20 ≤ c.toNat ∧ c.toNat ≤ 0x7E ∧ c ≠ '"' ∧ c ≠ '\\'

/-- A text of such characters. -/
def IsPlainText (s : String) : Prop :=
  ∀ c ∈ s.toList, IsPlainChar c

instance : DecidablePred IsPlainChar :=
  fun c => inferInstanceAs (Decidable (0x20 ≤ c.toNat ∧ c.toNat ≤ 0x7E ∧ c ≠ '"' ∧ c ≠ '\\'))

instance : DecidablePred IsPlainText :=
  fun s => decidable_of_iff (s.toList.all fun c => decide (IsPlainChar c)) (by simp [IsPlainText])

/-- A boolean, an integer of 64 bits with a sign, or a string of plain characters. -/
inductive Plain where
  | bool (b : Bool)
  | integer (n : Int) (hlow : -(UInt64.size / 2 : Nat) ≤ n) (hhigh : n < (UInt64.size / 2 : Nat))
  | string (s : String) (hplain : IsPlainText s)

namespace Plain

/-- How a plain value is written. -/
def text : Plain → List Char
  | .bool b => if b then ['t', 'r', 'u', 'e'] else ['f', 'a', 'l', 's', 'e']
  | .integer n _ _ => signedDigits n
  | .string s _ => '"' :: (s.toList ++ ['"'])

/-- The scalar that a plain value is. -/
def scalar : Plain → Scalar
  | .bool b => .bool b
  | .integer n _ _ => .integer n
  | .string s _ => .string s

end Plain

/-! ## Tokens -/

namespace Scalar

/-- A token without blanks is found again in front of a line end. -/
theorem spanToken_append {token rest : List Char} (htoken : ∀ c ∈ token, isTokenChar c = true)
    (hrest : EndsLine rest) : spanToken [] (token ++ rest) = (token, rest) := by
  induction token with
  | nil =>
    cases rest with
    | nil => rfl
    | cons c rest =>
      obtain rfl := hrest c (by simp)
      rfl
  | cons c token ih =>
    have hc := htoken c List.mem_cons_self
    have hblank : isBlank c = false := by
      by_contra h
      simp [isTokenChar, h] at hc
    rw [List.cons_append, spanToken, hblank, hc, ih fun d hd => htoken d (List.mem_cons_of_mem c hd)]
    rfl

theorem read?_append {token rest : List Char} (htoken : ∀ c ∈ token, isTokenChar c = true)
    (hrest : EndsLine rest) :
    read? (token ++ rest) = (ofToken? token).map fun scalar => (scalar, rest) := by
  rw [read?, spanToken_append htoken hrest]

/-! ## Integers -/

theorem splitSign_digits (k : Nat) : splitSign (digits k) = (none, digits k) := by
  unfold splitSign
  split
  · rename_i r hdigits
    have hdigit : ('-' : Char).isDigit = true := isDigit_of_mem_digits (n := k) (by rw [hdigits]; simp)
    cases hdigit
  · rename_i r hdigits
    have hdigit : ('+' : Char).isDigit = true := isDigit_of_mem_digits (n := k) (by rw [hdigits]; simp)
    cases hdigit
  · rfl

/-- Digits behind a sign or none are an integer in base ten. -/
theorem decimal?_of_splitSign {cs : List Char} {sign : Option Sign} {k : Nat}
    (h : splitSign cs = (sign, digits k)) : decimal? cs = some (.integer (Sign.apply sign k)) := by
  have hleading : (digits k).takeWhile Char.isDigit = digits k :=
    List.takeWhile_eq_self_iff.2 fun _ hc => isDigit_of_mem_digits hc
  -- digits that are written have no leading zero
  have hzero : ¬ (digits k = [] ∨ (digits k).head? = some '0' ∧ digits k ≠ ['0']) := by
    rintro (hnil | ⟨hhead, hlong⟩)
    · exact digits_ne_nil k hnil
    · cases hdigits : digits k with
      | nil => exact digits_ne_nil k hdigits
      | cons c r =>
        rw [hdigits] at hhead hlong
        obtain rfl := Option.some.inj hhead
        cases r with
        | nil => exact hlong rfl
        | cons d r => exact digits_eq_cons_cons hdigits rfl
  simp only [decimal?, h, hleading, if_true, if_neg hzero, ofDigits_digits]

theorem decimal?_signedDigits (n : Int) : decimal? (signedDigits n) = some (.integer n) := by
  rw [signedDigits]
  split
  · rename_i hn
    rw [decimal?_of_splitSign (show _ = (some .minus, digits n.natAbs) from rfl)]
    simp only [Sign.apply, Option.some.injEq, Scalar.integer.injEq]
    omega
  · rename_i hn
    rw [decimal?_of_splitSign (splitSign_digits n.natAbs)]
    simp only [Sign.apply, Option.some.injEq, Scalar.integer.injEq]
    omega

theorem signedDigits_ne_nil (n : Int) : signedDigits n ≠ [] := by
  rw [signedDigits]
  split
  · nofun
  · exact digits_ne_nil n.natAbs

theorem eq_or_isDigit_of_mem_signedDigits {n : Int} {c : Char} (h : c ∈ signedDigits n) :
    c = '-' ∨ c.isDigit = true := by
  rw [signedDigits] at h
  split at h
  · obtain rfl | h := List.mem_cons.1 h
    · exact .inl rfl
    · exact .inr (isDigit_of_mem_digits h)
  · exact .inr (isDigit_of_mem_digits h)

/-- Where another character than a digit or a minus stands, there is no decimal integer. -/
theorem ne_signedDigits_of_mem {n : Int} {c : Char} {cs : List Char} (hc : c ∈ cs)
    (hdigit : c.isDigit = false) (hminus : c ≠ '-') : signedDigits n ≠ cs := by
  rintro rfl
  obtain hc | hc := eq_or_isDigit_of_mem_signedDigits hc
  · exact hminus hc
  · exact ne_of_class hc hdigit rfl

theorem integer?_signedDigits (n : Int) : integer? (signedDigits n) = some (.integer n) := by
  -- the marks of the other bases are letters
  unfold integer?
  split
  · rename_i r hdigits
    exact (ne_signedDigits_of_mem (c := 'x') (by simp) rfl (by decide) hdigits).elim
  · rename_i r hdigits
    exact (ne_signedDigits_of_mem (c := 'o') (by simp) rfl (by decide) hdigits).elim
  · rename_i r hdigits
    exact (ne_signedDigits_of_mem (c := 'b') (by simp) rfl (by decide) hdigits).elim
  · exact decimal?_signedDigits n

theorem ofToken?_signedDigits (n : Int) : ofToken? (signedDigits n) = some (.integer n) := by
  have htrue : signedDigits n ≠ ['t', 'r', 'u', 'e'] :=
    ne_signedDigits_of_mem (c := 't') (by simp) rfl (by decide)
  have hfalse : signedDigits n ≠ ['f', 'a', 'l', 's', 'e'] :=
    ne_signedDigits_of_mem (c := 'f') (by simp) rfl (by decide)
  rw [ofToken?, if_neg htrue, if_neg hfalse, integer?_signedDigits]

theorem isTokenChar_of_mem_signedDigits {n : Int} {c : Char} (h : c ∈ signedDigits n) :
    isTokenChar c = true := by
  obtain rfl | hdigit := eq_or_isDigit_of_mem_signedDigits h
  · decide
  · have hne : ∀ d : Char, d.isDigit = false → c ≠ d := fun _ => ne_of_class hdigit
    simp [isTokenChar, isBlank, hne]

end Scalar

/-! ## Strings -/

theorem isControl_of_isPlainChar {c : Char} (h : IsPlainChar c) : isControl c = false := by
  obtain ⟨hlow, hhigh, -, -⟩ := h
  have hspace : ¬ c.toNat < 0x20 := by omega
  have hdelete : ¬ c.toNat = 0x7F := by omega
  simp [isControl, hspace, hdelete]

/-- Plain characters are read up to the quote behind them. -/
theorem readBasic_append {before cs rest : List Char} (hplain : ∀ c ∈ cs, IsPlainChar c) {fuel : Nat}
    (hfuel : cs.length < fuel) :
    readBasic before fuel (cs ++ '"' :: rest) = some (before.reverse ++ cs, rest) := by
  induction cs generalizing before fuel with
  | nil =>
    obtain ⟨fuel, rfl⟩ := Nat.exists_eq_add_one.2 hfuel
    simp [readBasic]
  | cons c cs ih =>
    obtain ⟨fuel, rfl⟩ := Nat.exists_eq_add_one.2 (Nat.zero_lt_of_lt hfuel)
    have hc := hplain c List.mem_cons_self
    rw [List.cons_append, readBasic, if_neg hc.2.2.1, if_neg hc.2.2.2,
      isControl_of_isPlainChar hc, if_neg Bool.false_ne_true,
      ih (fun d hd => hplain d (List.mem_cons_of_mem c hd)) (by simpa using hfuel)]
    simp

/-- A string in quotes is read, the empty one too: no third quote follows it. -/
theorem readAnyString_append {cs rest : List Char} (hplain : ∀ c ∈ cs, IsPlainChar c)
    (hrest : EndsLine rest) :
    readAnyString ('"' :: (cs ++ '"' :: rest)) = some (cs, rest) := by
  have hstring : readString ('"' :: (cs ++ '"' :: rest)) = some (cs, rest) := by
    have hfuel : cs.length < (cs ++ '"' :: rest).length := by
      rw [List.length_append, List.length_cons]
      omega
    rw [readString, readBasic_append hplain hfuel]
    rfl
  unfold readAnyString
  split
  -- three quotes: behind an empty string stands a line end, and no other one starts with a quote
  · rename_i r hquotes
    cases cs with
    | nil =>
      rw [List.nil_append, List.cons.injEq, List.cons.injEq] at hquotes
      have hfeed := hrest '"' (by rw [hquotes.2.2]; rfl)
      cases hfeed
    | cons c cs =>
      rw [List.cons_append, List.cons.injEq, List.cons.injEq] at hquotes
      exact ((hplain c List.mem_cons_self).2.2.1 hquotes.2.1).elim
  · rename_i r hquotes
    cases hquotes
  · exact hstring

/-! ## Values -/

/-- A token that is no string is read as the scalar it is. -/
theorem readValue_token {token rest : List Char} {scalar : Scalar} (hne : token ≠ [])
    (htoken : ∀ c ∈ token, Scalar.isTokenChar c = true ∧ c ≠ '"' ∧ c ≠ '\'')
    (hscalar : Scalar.ofToken? token = some scalar) (hrest : EndsLine rest) (fuel depth : Nat) :
    readValue (fuel + 1) depth (token ++ rest) = some (.scalar scalar, rest) := by
  have hread : Scalar.read? (token ++ rest) = some (scalar, rest) := by
    rw [Scalar.read?_append (fun c hc => (htoken c hc).1) hrest, hscalar, Option.map_some]
  cases token with
  | nil => exact absurd rfl hne
  | cons c token =>
    obtain ⟨hc, hdouble, hsingle⟩ := htoken c List.mem_cons_self
    have hbracket : c ≠ '[' := ne_of_class hc rfl
    have hbrace : c ≠ '\x7b' := ne_of_class hc rfl
    rw [List.cons_append] at hread ⊢
    simp only [readValue, if_neg hbracket, if_neg hbrace, if_neg (not_or.2 ⟨hdouble, hsingle⟩), hread,
      Option.map_some]

/-- A plain value is read in front of a line end. -/
theorem readValue_append (value : Plain) {rest : List Char} (hrest : EndsLine rest)
    (fuel depth : Nat) :
    readValue (fuel + 1) depth (value.text ++ rest) = some (.scalar value.scalar, rest) := by
  cases value with
  -- Booleans and integers are tokens, and a string is read by its quotes
  | bool b =>
    have htoken : ∀ c ∈ (Plain.bool b).text,
        Scalar.isTokenChar c = true ∧ c ≠ '"' ∧ c ≠ '\'' := by
      cases b <;> simp [Plain.text, Scalar.isTokenChar, isBlank]
    have hscalar : Scalar.ofToken? (Plain.bool b).text = some (.bool b) := by cases b <;> rfl
    have hne : (Plain.bool b).text ≠ [] := by cases b <;> nofun
    exact readValue_token hne htoken hscalar hrest fuel depth
  | integer n hlow hhigh =>
    have htoken : ∀ c ∈ signedDigits n, Scalar.isTokenChar c = true ∧ c ≠ '"' ∧ c ≠ '\'' := by
      refine fun c hc => ⟨Scalar.isTokenChar_of_mem_signedDigits hc, ?_, ?_⟩
      · rintro rfl
        exact Scalar.ne_signedDigits_of_mem hc rfl (by decide) rfl
      · rintro rfl
        exact Scalar.ne_signedDigits_of_mem hc rfl (by decide) rfl
    exact readValue_token (Scalar.signedDigits_ne_nil n) htoken (Scalar.ofToken?_signedDigits n) hrest
      fuel depth
  | string s hplain =>
    have hstring := readAnyString_append hplain hrest
    have htext : (Plain.string s hplain).text ++ rest = '"' :: (s.toList ++ '"' :: rest) := by
      simp [Plain.text]
    rw [htext]
    simp [readValue, hstring, Plain.scalar]

/-! ## Keys -/

/-- A name that needs no quotes: letters and digits of ASCII, underscores and hyphens. -/
def IsBare (name : String) : Prop :=
  name ≠ "" ∧ ∀ c ∈ name.toList, c.isAlphanum = true ∨ c = '_' ∨ c = '-'

instance : DecidablePred IsBare :=
  fun name => decidable_of_iff
    (name ≠ "" ∧ name.toList.all (fun c => c.isAlphanum || c == '_' || c == '-') = true)
    (by simp [IsBare, or_assoc])

theorem IsBare.isNameChar {name : String} (h : IsBare name) {c : Char} (hc : c ∈ name.toList) :
    isNameChar c = true := by
  obtain hc | rfl | rfl := h.2 c hc
  · simp [Toml.isNameChar, hc]
  · rfl
  · rfl

theorem IsBare.exists_cons {name : String} (h : IsBare name) :
    ∃ c cs, name.toList = c :: cs ∧ Toml.isNameChar c = true := by
  cases hcs : name.toList with
  | nil => exact absurd (String.toList_eq_nil_iff.1 hcs) h.1
  | cons c cs => exact ⟨c, cs, rfl, h.isNameChar (by rw [hcs]; exact List.mem_cons_self)⟩

theorem isBlank_of_isNameChar {c : Char} (hc : isNameChar c = true) : isBlank c = false := by
  rw [isBlank, beq_false_of_ne (ne_of_class hc rfl), beq_false_of_ne (ne_of_class hc rfl)]
  rfl

/-- A bare name is read in front of what is no part of it. -/
theorem readName_append {name : String} (hname : IsBare name) {rest : List Char}
    (hrest : ∀ c ∈ rest.head?, isNameChar c = false) :
    readName (name.toList ++ rest) = some (name, rest) := by
  have htake : rest.takeWhile isNameChar = [] := by
    cases rest with
    | nil => rfl
    | cons c rest => exact List.takeWhile_cons_of_neg (ne_true_of_eq_false (hrest c rfl))
  have hdrop : rest.dropWhile isNameChar = rest := by
    cases rest with
    | nil => rfl
    | cons c rest => exact List.dropWhile_cons_of_neg (ne_true_of_eq_false (hrest c rfl))
  -- the name is the longest start of the text that is made of its characters
  have hsplit : (name.toList ++ rest).takeWhile isNameChar = name.toList ∧
      (name.toList ++ rest).dropWhile isNameChar = rest := by
    rw [List.takeWhile_append_of_pos fun c hc => hname.isNameChar hc,
      List.dropWhile_append_of_pos fun c hc => hname.isNameChar hc, htake, hdrop, List.append_nil]
    exact ⟨rfl, rfl⟩
  obtain ⟨c, cs, hcs, hc⟩ := hname.exists_cons
  have hquote : ¬ (c = '"' ∨ c = '\'') :=
    not_or.2 ⟨ne_of_class hc rfl, ne_of_class hc rfl⟩
  rw [hcs, List.cons_append] at hsplit ⊢
  simp only [readName, if_neg hquote, hc, if_true, hsplit, ← hcs, String.ofList_toList]

/-- A bare key of one name is read, and the blanks behind it with it, if no point follows. -/
theorem readKey_append {name : String} (hname : IsBare name) {rest : List Char}
    (hrest : ∀ c ∈ rest.head?, isNameChar c = false) (hpoint : ∀ c ∈ (skipBlank rest).head?, c ≠ '.') :
    readKey keyLimit (name.toList ++ rest) = some ([name], skipBlank rest) := by
  have hstart : skipBlank (name.toList ++ rest) = name.toList ++ rest := by
    obtain ⟨c, cs, hcs, hc⟩ := hname.exists_cons
    rw [hcs, List.cons_append, skipBlank,
      List.dropWhile_cons_of_neg (by rw [isBlank_of_isNameChar hc]; exact Bool.false_ne_true)]
  rw [keyLimit, readKey, hstart, readName_append hname hrest]
  simp only [Option.bind_eq_bind, Option.bind_some]
  split
  · rename_i r hr
    exact absurd rfl (hpoint '.' (by rw [hr]; rfl))
  · rfl

/-! ## Statements -/

/-- What is written on a line of its own is read as a statement, whatever line follows. -/
structure IsLine (line : List Char) (statement : Statement) : Prop where
  /-- The line does not start with what stands in front of a statement. -/
  starts : ∃ c cs, line = c :: cs ∧
    isBlank c = false ∧ c ≠ '\n' ∧ c ≠ '\r' ∧ c ≠ '#' ∧ c ≠ '\uFEFF'
  /-- The line is read and no more. -/
  reads : ∀ rest, EndsLine rest → readStatement (line ++ rest) = some (statement, rest)

/-- A line that assigns a plain value to a bare key. -/
def assignLine (pair : String × Plain) : List Char :=
  pair.1.toList ++ ' ' :: '=' :: ' ' :: pair.2.text

/-- The statement of such a line. -/
def Plain.statement (pair : String × Plain) : Statement :=
  .assign [pair.1] (.scalar pair.2.scalar)

/-- A line that heads a table with a bare name. -/
def headerLine (name : String) : List Char :=
  '[' :: (name.toList ++ [']'])

theorem Plain.skipBlank_text (value : Plain) (rest : List Char) :
    skipBlank (value.text ++ rest) = value.text ++ rest := by
  have hstart : ∃ c cs, value.text = c :: cs ∧ ¬ isBlank c = true := by
    cases value with
    | bool b => cases b <;> exact ⟨_, _, rfl, by decide⟩
    | integer n hlow hhigh =>
      cases hcs : signedDigits n with
      | nil => exact absurd hcs (Scalar.signedDigits_ne_nil n)
      | cons c cs =>
        refine ⟨c, cs, hcs, fun hblank => ?_⟩
        have hmem : c ∈ signedDigits n := by
          rw [hcs]
          exact List.mem_cons_self
        have htoken := Scalar.isTokenChar_of_mem_signedDigits hmem
        simp [Scalar.isTokenChar, hblank] at htoken
    | string s hplain => exact ⟨_, _, rfl, by decide⟩
  obtain ⟨c, cs, hcs, hblank⟩ := hstart
  rw [hcs, List.cons_append, skipBlank, List.dropWhile_cons_of_neg hblank]

theorem isLine_assign {pair : String × Plain} (hname : IsBare pair.1) :
    IsLine (assignLine pair) (Plain.statement pair) := by
  obtain ⟨c, cs, hcs, hc⟩ := hname.exists_cons
  constructor
  · refine ⟨c, cs ++ ' ' :: '=' :: ' ' :: pair.2.text, ?_, isBlank_of_isNameChar hc, ?_, ?_, ?_, ?_⟩
    · rw [assignLine, hcs, List.cons_append]
    all_goals exact ne_of_class hc rfl
  · intro rest hrest
    have hline : assignLine pair ++ rest =
        pair.1.toList ++ ' ' :: '=' :: ' ' :: (pair.2.text ++ rest) := by
      rw [assignLine, List.append_assoc]
      rfl
    have hkey : readKey keyLimit (assignLine pair ++ rest) =
        some ([pair.1], '=' :: ' ' :: (pair.2.text ++ rest)) := by
      rw [hline]
      exact readKey_append hname (by simp [isNameChar]) (by simp [skipBlank, isBlank])
    -- a bare name starts no header of either sort
    have hbracket : c ≠ '[' := ne_of_class hc rfl
    have hvalue : skipBlank (' ' :: (pair.2.text ++ rest)) = pair.2.text ++ rest :=
      pair.2.skipBlank_text rest
    rw [hline, hcs, List.cons_append] at hkey ⊢
    unfold readStatement
    split
    · rename_i r hr
      exact absurd (List.cons.inj hr).1 hbracket
    · rename_i r hr
      exact absurd (List.cons.inj hr).1 hbracket
    · simp only [hkey, Option.bind_eq_bind, Option.bind_some, hvalue, readValue_append pair.2 hrest,
        Option.pure_def, Plain.statement]

theorem isLine_header {name : String} (hname : IsBare name) :
    IsLine (headerLine name) (.header (.table [name])) := by
  constructor
  · exact ⟨'[', _, rfl, by decide⟩
  · intro rest _
    have hline : headerLine name ++ rest = '[' :: (name.toList ++ ']' :: rest) := by
      simp [headerLine]
    have hkey : readKey keyLimit (name.toList ++ ']' :: rest) = some ([name], ']' :: rest) :=
      readKey_append hname (by simp [isNameChar]) (by simp [skipBlank, isBlank])
    obtain ⟨c, cs, hcs, hc⟩ := hname.exists_cons
    -- the name starts with no second bracket, so the header is one of a table
    have hbracket : c ≠ '[' := ne_of_class hc rfl
    rw [hline]
    unfold readStatement
    split
    · rename_i r hr
      rw [hcs, List.cons_append, List.cons.injEq, List.cons.injEq] at hr
      exact absurd hr.2.1 hbracket
    · rename_i r hr
      rw [← (List.cons.inj hr).2]
      simp only [hkey, Option.bind_eq_bind, Option.bind_some, Option.pure_def]
    · rename_i hno
      exact absurd rfl (hno _)

/-! ## Texts of lines -/

theorem IsLine.skipLines_append {line : List Char} {statement : Statement} (h : IsLine line statement)
    (rest : List Char) : skipLines false (line ++ rest) = some (line ++ rest) := by
  obtain ⟨c, cs, rfl, hblank, hfeed, hreturn, hcomment, -⟩ := h.starts
  simp [skipLines, hfeed, hreturn, hblank, hcomment]

/-- A line is read as its statement, and then what follows its end. -/
theorem IsLine.readStatements_append {line : List Char} {statement : Statement}
    (h : IsLine line statement) {rest next : List Char} (hrest : EndsLine rest)
    (hnext : endLine false rest = some next) (fuel : Nat) :
    readStatements (fuel + 1) (line ++ rest) = (readStatements fuel next).map (statement :: ·) := by
  -- the text goes on, so there is a statement to read
  have hne : line ++ rest ≠ [] := by
    obtain ⟨c, cs, rfl, -⟩ := h.starts
    exact nofun
  simp only [readStatements, h.skipLines_append, Option.bind_eq_bind, Option.bind_some]
  rw [h.reads rest hrest]
  simp only [Option.bind_some, hnext]
  cases readStatements fuel next <;> rfl

/-- Lines are read as their statements, with or without a line feed at the end. -/
theorem readStatements_lines {lines : List (List Char)} {statements : List Statement}
    (h : List.Forall₂ IsLine lines statements) {ending : List Char}
    (hending : ending = [] ∨ ending = ['\n']) {fuel : Nat}
    (hfuel : (List.intercalate ['\n'] lines ++ ending).length < fuel) :
    readStatements fuel (List.intercalate ['\n'] lines ++ ending) = some statements := by
  induction h generalizing fuel with
  | nil =>
    obtain ⟨fuel, rfl⟩ := Nat.exists_eq_add_one.2 (Nat.zero_lt_of_lt hfuel)
    obtain rfl | rfl := hending <;> rfl
  | @cons line statement lines statements hline hlines ih =>
    obtain ⟨fuel, rfl⟩ := Nat.exists_eq_add_one.2 (Nat.zero_lt_of_lt hfuel)
    have hlength : 0 < line.length := by
      obtain ⟨c, cs, rfl, -⟩ := hline.starts
      exact Nat.zero_lt_succ _
    -- the last line ends with the text, every other one with a line feed
    cases hlines with
    | nil =>
      have hrest : EndsLine ending ∧ endLine false ending = some [] := by
        obtain rfl | rfl := hending
        · exact ⟨nofun, rfl⟩
        · exact ⟨endsLine_cons [], rfl⟩
      rw [List.intercalate_singleton] at hfuel ⊢
      rw [hline.readStatements_append hrest.1 hrest.2]
      obtain ⟨fuel, rfl⟩ := Nat.exists_eq_add_one.2 (show 0 < fuel by
        rw [List.length_append] at hfuel
        omega)
      rfl
    | @cons line' statement' lines statements hline' hlines =>
      have hsplit : List.intercalate ['\n'] (line :: line' :: lines) ++ ending =
          line ++ '\n' :: (List.intercalate ['\n'] (line' :: lines) ++ ending) := by
        rw [List.intercalate_cons_cons, List.append_assoc, List.append_assoc]
        rfl
      rw [hsplit] at hfuel ⊢
      rw [hline.readStatements_append (endsLine_cons _) rfl, ih, Option.map_some]
      rw [List.length_append, List.length_cons] at hfuel
      omega

/-- Lines start with no byte order mark. -/
theorem skipMark_lines {lines : List (List Char)} {statements : List Statement}
    (h : List.Forall₂ IsLine lines statements) {ending : List Char}
    (hending : ending = [] ∨ ending = ['\n']) :
    skipMark (List.intercalate ['\n'] lines ++ ending) = List.intercalate ['\n'] lines ++ ending := by
  cases h with
  | nil => obtain rfl | rfl := hending <;> rfl
  | @cons line _ lines _ hline _ =>
    obtain ⟨c, cs, rfl, -, -, -, -, hmark⟩ := hline.starts
    obtain ⟨more, hmore⟩ : ∃ more, List.intercalate ['\n'] ((c :: cs) :: lines) = c :: more := by
      cases lines with
      | nil => exact ⟨cs, List.intercalate_singleton⟩
      | cons line' lines => exact ⟨_, List.intercalate_cons_cons⟩
    rw [hmore, List.cons_append]
    unfold skipMark
    split
    · rename_i r hr
      exact absurd (List.cons.inj hr).1 hmark
    · rfl

/-- A text of lines is read as their statements, with or without a line feed at the end. -/
theorem statements?_lines {lines : List (List Char)} {statements : List Statement}
    (h : List.Forall₂ IsLine lines statements) {ending : List Char}
    (hending : ending = [] ∨ ending = ['\n']) :
    statements? (String.ofList (List.intercalate ['\n'] lines ++ ending)) = some statements := by
  rw [statements?, String.toList_ofList, skipMark_lines h hending]
  exact readStatements_lines h hending (Nat.lt_succ_self _)

end KeywordRules.Toml
