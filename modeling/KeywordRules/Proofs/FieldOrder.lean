import KeywordRules.Json.Value
import Mathlib.Data.List.Induction

/-!
# Fields in key order

The fields of an object value stand in strictly increasing order of their keys, so no key stands twice.
Setting a field keeps that order (`keysIncrease_putField`); hence `ofPairs` gives an ordered list whatever
the pairs (`keysIncrease_ofPairs`), and gives a list back that is ordered already
(`ofPairs_of_keysIncrease`). The order of texts is the one of their code points
(`codePoints_lt_of_lt`).
-/

namespace KeywordRules.Json.Value

/-- The code points of a text. -/
def codePoints (s : String) : List Nat :=
  s.toList.map Char.toNat

/-- Texts are ordered by their code points, the first difference deciding. -/
theorem codePoints_lt_of_lt {s t : String} (h : s < t) : codePoints s < codePoints t :=
  List.map_lt (fun _ _ hchar => hchar) h

/-- The keys of a list of fields increase. -/
def KeysIncrease (fields : List (String × Value)) : Prop :=
  fields.Pairwise fun field field' => field.1 < field'.1

/-- Setting a field brings in that field only. -/
theorem mem_of_mem_putField {key : String} {value : Value} {fields : List (String × Value)}
    {field : String × Value} (h : field ∈ putField key value fields) :
    field = (key, value) ∨ field ∈ fields := by
  induction fields with
  | nil => exact .inl (List.mem_singleton.1 h)
  | cons first rest ih =>
    simp only [putField] at h
    split at h
    · exact (List.mem_cons.1 h)
    · split at h
      · exact (List.mem_cons.1 h).imp_right (List.mem_cons_of_mem _)
      · obtain rfl | h := List.mem_cons.1 h
        · exact .inr List.mem_cons_self
        · exact (ih h).imp_right (List.mem_cons_of_mem _)

/-- Setting a field keeps the keys in order. -/
theorem keysIncrease_putField (key : String) (value : Value) {fields : List (String × Value)}
    (h : KeysIncrease fields) : KeysIncrease (putField key value fields) := by
  induction fields with
  | nil => exact List.pairwise_singleton _ _
  | cons first rest ih =>
    obtain ⟨hfirst, hrest⟩ := List.pairwise_cons.1 h
    simp only [putField]
    split
    · rename_i hlt
      refine List.pairwise_cons.2 ⟨fun field hfield => ?_, h⟩
      obtain rfl | hfield := List.mem_cons.1 hfield
      · exact hlt
      · exact String.lt_trans hlt (hfirst field hfield)
    · split
      · rename_i heq
        exact List.pairwise_cons.2 ⟨fun field hfield => heq ▸ hfirst field hfield, hrest⟩
      · rename_i hnot hne
        -- what is set behind the first field has a greater key
        have hgreater : first.1 < key := Decidable.byContradiction fun hle =>
          hne (String.le_antisymm (String.not_lt.1 hle) (String.not_lt.1 hnot))
        refine List.pairwise_cons.2 ⟨fun field hfield => ?_, ih hrest⟩
        obtain rfl | hfield := mem_of_mem_putField hfield
        · exact hgreater
        · exact hfirst field hfield

/-- A field with a key greater than all others goes to the end. -/
theorem putField_eq_append {key : String} {fields : List (String × Value)}
    (h : ∀ field ∈ fields, field.1 < key) (value : Value) :
    putField key value fields = fields ++ [(key, value)] := by
  induction fields with
  | nil => rfl
  | cons first rest ih =>
    obtain ⟨hfirst, hrest⟩ := List.forall_mem_cons.1 h
    have hne : key ≠ first.1 := fun heq => String.lt_irrefl key (heq ▸ hfirst)
    rw [putField, if_neg (String.lt_asymm hfirst), if_neg hne, ih hrest, List.cons_append]

/-! ## Lists of pairs -/

theorem ofPairs_concat (pairs : List (String × Value)) (pair : String × Value) :
    ofPairs (pairs ++ [pair]) = putField pair.1 pair.2 (ofPairs pairs) := by
  rw [ofPairs, List.foldl_append, List.foldl_cons, List.foldl_nil, ofPairs]

/-- Whatever the pairs, the keys of the fields increase. -/
theorem keysIncrease_ofPairs (pairs : List (String × Value)) : KeysIncrease (ofPairs pairs) := by
  induction pairs using List.reverseRecOn with
  | nil => exact List.Pairwise.nil
  | append_singleton pairs pair ih =>
    rw [ofPairs_concat]
    exact keysIncrease_putField _ _ ih

/-- Every field comes from a pair. -/
theorem mem_of_mem_ofPairs {pairs : List (String × Value)} {field : String × Value}
    (h : field ∈ ofPairs pairs) : field ∈ pairs := by
  induction pairs using List.reverseRecOn with
  | nil => cases h
  | append_singleton pairs pair ih =>
    rw [ofPairs_concat] at h
    obtain rfl | h := mem_of_mem_putField h
    · exact List.mem_append_right _ (List.mem_singleton_self _)
    · exact List.mem_append_left _ (ih h)

/-- Pairs whose keys increase are the fields that they give. -/
theorem ofPairs_of_keysIncrease {fields : List (String × Value)} (h : KeysIncrease fields) :
    ofPairs fields = fields := by
  induction fields using List.reverseRecOn with
  | nil => rfl
  | append_singleton fields field ih =>
    obtain ⟨hfields, -, hlast⟩ := List.pairwise_append.1 h
    rw [ofPairs_concat, ih hfields]
    exact putField_eq_append (fun other hother => hlast other hother field (by simp)) field.2

end KeywordRules.Json.Value
