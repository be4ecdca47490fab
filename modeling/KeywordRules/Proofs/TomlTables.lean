import KeywordRules.Proofs.TomlLines
import KeywordRules.Toml.Table
import Mathlib.Data.List.Nodup

/-!
# Tables from lines

What assignments of plain values to bare keys build. Where no key stands twice they make a table with one
entry each, in their order (`Plain.entries?_assignments`). Those before a header of a table stay at the
top, those below it make its table, which comes last (`Plain.build?_statements`).
-/

namespace KeywordRules.Toml

/-- A new entry goes to the end of a table. -/
theorem Entries.alter_of_notMem {name : String} {change : Option Item → Option Item} {entries : Entries}
    (h : name ∉ entries.map Prod.fst) :
    entries.alter name change = (change none).map fun item => entries ++ [(name, item)] := by
  induction entries with
  | nil => rfl
  | cons entry entries ih =>
    rw [List.map_cons, List.mem_cons, not_or] at h
    rw [alter, if_neg (Ne.symm h.1), ih h.2]
    cases change none <;> rfl

namespace Plain

/-- The assignment of a plain value to a bare key. -/
def assignment (pair : String × Plain) : List String × Literal :=
  ([pair.1], .scalar pair.2.scalar)

/-- The entry of a bare key with a plain value. -/
def entry (pair : String × Plain) : String × Item :=
  (pair.1, .scalar pair.2.scalar)

theorem map_fst_entry (pairs : List (String × Plain)) :
    (pairs.map entry).map Prod.fst = pairs.map Prod.fst := by
  rw [List.map_map]
  rfl

/-- Assignments to new keys that differ are added to a table in their order. -/
theorem entries?_append {pairs : List (String × Plain)} {entries : Entries}
    (h : (entries.map Prod.fst ++ pairs.map Prod.fst).Nodup) :
    Literal.entries? entries (pairs.map assignment) = some (entries ++ pairs.map entry) := by
  induction pairs generalizing entries with
  | nil => simp [Literal.entries?]
  | cons pair pairs ih =>
    have hnew : pair.1 ∉ entries.map Prod.fst := by
      intro hmem
      exact (List.nodup_append.1 h).2.2 pair.1 hmem pair.1 List.mem_cons_self rfl
    have hrest : ((entries ++ [entry pair]).map Prod.fst ++ pairs.map Prod.fst).Nodup := by
      simpa [entry] using h
    have hassign : entries.assign true [pair.1] (.scalar pair.2.scalar) =
        some (entries ++ [entry pair]) := by
      rw [Entries.assign, Entries.alter_of_notMem hnew]
      rfl
    rw [List.map_cons, List.map_cons, assignment, Literal.entries?, Literal.item?]
    simp only [Option.bind_eq_bind, Option.bind_some, hassign]
    rw [ih hrest, List.append_assoc, List.singleton_append]

/-- Assignments to keys that differ make a table. -/
theorem entries?_assignments {pairs : List (String × Plain)} (h : (pairs.map Prod.fst).Nodup) :
    Literal.entries? [] (pairs.map assignment) = some (pairs.map entry) :=
  entries?_append (show (([] : Entries).map Prod.fst ++ pairs.map Prod.fst).Nodup from h)

/-! ## Statements -/

theorem leading_append (pairs : List (String × Plain)) (rest : List Statement) :
    leading (pairs.map statement ++ rest) = pairs.map assignment ++ leading rest := by
  induction pairs with
  | nil => rfl
  | cons pair pairs ih =>
    rw [List.map_cons, List.map_cons, List.cons_append, List.cons_append, ← ih]
    rfl

theorem sections_append (pairs : List (String × Plain)) (rest : List Statement) :
    sections (pairs.map statement ++ rest) = sections rest := by
  induction pairs with
  | nil => rfl
  | cons pair pairs ih =>
    rw [List.map_cons, List.cons_append, ← ih]
    rfl

/-- The header of a new table sends the assignments below it there. -/
theorem openSection_assignments {entries : Entries} {name : String} (hname : name ∉ entries.map Prod.fst)
    {pairs : List (String × Plain)} (hpairs : (pairs.map Prod.fst).Nodup) :
    entries.openSection (.table [name], pairs.map assignment) =
      some (entries ++ [(name, .table .header (pairs.map entry))]) := by
  rw [Entries.openSection, Entries.underHeader, Entries.alter_of_notMem hname,
    entries?_assignments hpairs]
  rfl

/-- Assignments before and below one header build the entries of the ones and the table of the others. -/
theorem build?_statements {name : String} {top below : List (String × Plain)}
    (htop : (name :: top.map Prod.fst).Nodup) (hbelow : (below.map Prod.fst).Nodup) :
    build? (top.map statement ++ .header (.table [name]) :: below.map statement) =
      some (top.map entry ++ [(name, .table .header (below.map entry))]) := by
  obtain ⟨hname, htop⟩ := List.nodup_cons.1 htop
  rw [← map_fst_entry] at hname
  -- the statements before the header are leading, and those below it are its one section
  have hleading : leading (top.map statement ++ .header (.table [name]) :: below.map statement) =
      top.map assignment := by
    rw [leading_append]
    exact List.append_nil _
  have hsections : sections (top.map statement ++ .header (.table [name]) :: below.map statement) =
      [(.table [name], below.map assignment)] := by
    have hlast := leading_append below []
    have hnone := sections_append below []
    rw [List.append_nil] at hlast hnone
    rw [sections_append, sections, hlast, hnone, leading, List.append_nil]
    · rfl
    · nofun
  rw [build?, hleading, hsections, entries?_assignments htop]
  simp only [Option.bind_eq_bind, Option.bind_some, List.foldlM_cons, List.foldlM_nil,
    openSection_assignments hname hbelow]
  rfl

end Plain

end KeywordRules.Toml
