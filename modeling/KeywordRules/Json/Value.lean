import KeywordRules.Number.Binary64

/-!
# Values

A value is what a complete document denotes once spelling no longer matters: numbers instead of
literals, and objects as lists of fields in increasing order of their keys, by code point, where the
last of several pairs with one key has won.

Values are the same (`=`) if they are built alike, and equal (`==`) if they also are but for the signs
of zeros among their doubles. Integers never equal doubles.
-/

namespace KeywordRules.Json

/-- A value. -/
inductive Value where
  | null
  | bool (b : Bool)
  | int (n : Int)
  | float (x : Binary64)
  | string (s : String)
  | array (items : List Value)
  | object (fields : List (String × Value))
  deriving Repr, Inhabited

namespace Value

/-! ## Equality -/

mutual

/-- Whether two values are equal. -/
def beq : Value → Value → Bool
  | .null, .null => true
  | .bool a, .bool b => a = b
  | .int m, .int n => m = n
  | .float x, .float y => x.equals y
  | .string s, .string t => s = t
  | .array items, .array items' => beqItems items items'
  | .object fields, .object fields' => beqFields fields fields'
  | _, _ => false

/-- Whether two lists of values are equal, item by item. -/
def beqItems : List Value → List Value → Bool
  | [], [] => true
  | a :: as, b :: bs => beq a b && beqItems as bs
  | _, _ => false

/-- Whether two lists of fields are equal, field by field. -/
def beqFields : List (String × Value) → List (String × Value) → Bool
  | [], [] => true
  | (key, a) :: fields, (key', b) :: fields' => key = key' && (beq a b && beqFields fields fields')
  | _, _ => false

end

/-! ## Sameness -/

mutual

/-- Decides whether two values are the same. -/
def decEq : (a b : Value) → Decidable (a = b)
  | .null, .null => isTrue rfl
  | .bool a, .bool b => if h : a = b then isTrue (by rw [h]) else isFalse (by simp [h])
  | .int a, .int b => if h : a = b then isTrue (by rw [h]) else isFalse (by simp [h])
  | .float a, .float b => if h : a = b then isTrue (by rw [h]) else isFalse (by simp [h])
  | .string a, .string b => if h : a = b then isTrue (by rw [h]) else isFalse (by simp [h])
  | .array a, .array b =>
    match decEqItems a b with
    | isTrue h => isTrue (by rw [h])
    | isFalse h => isFalse (by simp [h])
  | .object a, .object b =>
    match decEqFields a b with
    | isTrue h => isTrue (by rw [h])
    | isFalse h => isFalse (by simp [h])
  | .null, .bool _ | .null, .int _ | .null, .float _ | .null, .string _ | .null, .array _
  | .null, .object _ | .bool _, .null | .bool _, .int _ | .bool _, .float _ | .bool _, .string _
  | .bool _, .array _ | .bool _, .object _ | .int _, .null | .int _, .bool _ | .int _, .float _
  | .int _, .string _ | .int _, .array _ | .int _, .object _ | .float _, .null | .float _, .bool _
  | .float _, .int _ | .float _, .string _ | .float _, .array _ | .float _, .object _
  | .string _, .null | .string _, .bool _ | .string _, .int _ | .string _, .float _
  | .string _, .array _ | .string _, .object _ | .array _, .null | .array _, .bool _
  | .array _, .int _ | .array _, .float _ | .array _, .string _ | .array _, .object _
  | .object _, .null | .object _, .bool _ | .object _, .int _ | .object _, .float _
  | .object _, .string _ | .object _, .array _ => isFalse (by simp)

/-- Decides whether two lists of values are the same. -/
def decEqItems : (a b : List Value) → Decidable (a = b)
  | [], [] => isTrue rfl
  | [], _ :: _ => isFalse (by simp)
  | _ :: _, [] => isFalse (by simp)
  | x :: xs, y :: ys =>
    match decEq x y, decEqItems xs ys with
    | isTrue h, isTrue h' => isTrue (by rw [h, h'])
    | isFalse h, _ => isFalse (by simp [h])
    | _, isFalse h => isFalse (by simp [h])

/-- Decides whether two lists of fields are the same. -/
def decEqFields : (a b : List (String × Value)) → Decidable (a = b)
  | [], [] => isTrue rfl
  | [], _ :: _ => isFalse (by simp)
  | _ :: _, [] => isFalse (by simp)
  | (k, x) :: xs, (l, y) :: ys =>
    match decEq x y, decEqFields xs ys with
    | isTrue h, isTrue h' =>
      if hk : k = l then isTrue (by rw [h, h', hk]) else isFalse (by simp [hk])
    | isFalse h, _ => isFalse (by simp [h])
    | _, isFalse h => isFalse (by simp [h])

end

instance : DecidableEq Value := decEq

/-- Equality stands in for the test for sameness that goes with `DecidableEq`. -/
instance : BEq Value := ⟨beq⟩

/-! ## Fields in key order -/

/-- Sets a field in a list whose keys increase. -/
def putField (key : String) (value : Value) : List (String × Value) → List (String × Value)
  | [] => [(key, value)]
  | (k, v) :: rest =>
    if key < k then (key, value) :: (k, v) :: rest
    else if key = k then (key, value) :: rest
    else (k, v) :: putField key value rest

/-- The fields of a list of pairs: keys in increasing order, the last pair of each key. -/
def ofPairs (pairs : List (String × Value)) : List (String × Value) :=
  pairs.foldl (fun fields pair => putField pair.1 pair.2 fields) []

/-! ## Looking up fields -/

theorem lookup_cons (k key : String) (value : Value) (fields : List (String × Value)) :
    ((key, value) :: fields).lookup k = if k = key then some value else fields.lookup k := by
  by_cases h : k = key
  · rw [h, List.lookup_cons_self, if_pos rfl]
  · rw [List.lookup_cons, beq_false_of_ne h, if_neg h]

/-- A field that was set is found, and every other one as before. -/
theorem lookup_putField (k key : String) (value : Value) (fields : List (String × Value)) :
    (putField key value fields).lookup k = if k = key then some value else fields.lookup k := by
  induction fields with
  | nil => rw [putField, lookup_cons]
  | cons field rest ih =>
    obtain ⟨l, v⟩ := field
    simp only [putField]
    split
    · rw [lookup_cons]
    · split
      · rename_i h
        subst h
        simp only [lookup_cons]
        split <;> rfl
      · rename_i hne
        simp only [lookup_cons, ih]
        by_cases hl : k = l
        · have hk : k ≠ key := fun e => hne (e ▸ hl)
          simp [hl, Ne.symm hne]
        · simp [hl]

/-- The last pair of a key is the one that is found. -/
theorem lookup_ofPairs (k : String) (pairs : List (String × Value)) :
    (ofPairs pairs).lookup k = pairs.reverse.lookup k := by
  have general : ∀ fields : List (String × Value),
      (pairs.foldl (fun fields pair => putField pair.1 pair.2 fields) fields).lookup k =
        (pairs.reverse ++ fields).lookup k := by
    induction pairs with
    | nil => intro fields; rfl
    | cons pair rest ih =>
      obtain ⟨l, v⟩ := pair
      intro fields
      rw [List.foldl_cons, ih, List.reverse_cons, List.append_assoc, List.singleton_append]
      simp only [List.lookup_append, lookup_putField, lookup_cons]
  simpa [ofPairs] using general []

end Value

end KeywordRules.Json
