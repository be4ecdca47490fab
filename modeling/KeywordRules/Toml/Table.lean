import KeywordRules.Toml.Statement

/-!
# TOML tables

What the statements of a text build. No key is defined twice, and a table is defined in one place: by
its header, by dotted keys within one table, or in braces. A table that exists only because a longer
header went through it may still get a header of its own. The headers `[[key]]` build an array of
tables, and headers below it go to its last table.
-/

namespace KeywordRules.Toml

/-- How a table came to be. -/
inductive Origin where
  /-- By its own header. -/
  | header
  /-- By a longer header. -/
  | passage
  /-- By a dotted key. -/
  | dotted
  /-- In braces. -/
  | braced
  deriving DecidableEq, Repr

/-- What a key stands for. -/
inductive Item where
  | scalar (s : Scalar)
  | array (items : List Item)
  | table (origin : Origin) (entries : List (String × Item))
  /-- The tables of the headers `[[key]]`. -/
  | tables (elements : List (List (String × Item)))
  deriving Repr, Inhabited

/-- The entries of a table, in the order of their first mention. -/
abbrev Entries := List (String × Item)

namespace Entries

/-- Gives an entry a new item in view of the one it has, if any; a new entry goes to the end. -/
def alter (name : String) (change : Option Item → Option Item) : Entries → Option Entries
  | [] => (change none).map fun item => [(name, item)]
  | (n, item) :: rest =>
    if n = name then (change (some item)).map fun item => (name, item) :: rest
    else (alter name change rest).map ((n, item) :: ·)

/-- Changes the last of several tables. -/
def changeLast (change : Entries → Option Entries) : List Entries → Option (List Entries)
  | [] => none
  | [last] => (change last).map ([·])
  | first :: rest => (changeLast change rest).map (first :: ·)

/-- Assigns an item to a key. `here` says whether the entry may be added to this very table: to the
table in which the assignment stands, and to tables that dotted keys have made. -/
def assign (here : Bool) : List String → Item → Entries → Option Entries
  | [], _, _ => none
  | [name], item, entries =>
    entries.alter name fun
      | none => if here then some item else none
      | some _ => none
  | name :: rest, item, entries =>
    entries.alter name fun
      | none => (assign true rest item []).map (.table .dotted)
      | some (.table .dotted sub) => (assign true rest item sub).map (.table .dotted)
      | some (.table .passage sub) => (assign false rest item sub).map (.table .passage)
      | some (.tables elements) => (changeLast (assign false rest item) elements).map .tables
      | some _ => none

/-- Changes what a header names. -/
def underHeader (change : Option Item → Option Item) : List String → Entries → Option Entries
  | [], _ => none
  | [name], entries => entries.alter name change
  | name :: rest, entries =>
    entries.alter name fun
      | none => (underHeader change rest []).map (.table .passage)
      | some (.table .braced _) => none
      | some (.table origin sub) => (underHeader change rest sub).map (.table origin)
      | some (.tables elements) => (changeLast (underHeader change rest) elements).map .tables
      | some _ => none

end Entries

/-! ## From literals to items -/

mutual

/-- The item of a literal, unless a table in braces defines a key twice. -/
def Literal.item? : Literal → Option Item
  | .scalar s => some (.scalar s)
  | .array items => (Literal.items? items).map .array
  | .braced pairs => (Literal.entries? [] pairs).map (.table .braced)

/-- The items of a list of literals. -/
def Literal.items? : List Literal → Option (List Item)
  | [] => some []
  | literal :: rest => do
    let item ← literal.item?
    let items ← Literal.items? rest
    return item :: items

/-- The entries after a list of assignments. -/
def Literal.entries? (entries : Entries) : List (List String × Literal) → Option Entries
  | [] => some entries
  | (key, literal) :: rest => do
    let item ← literal.item?
    let entries ← entries.assign true key item
    Literal.entries? entries rest

end

/-! ## From statements to entries -/

/-- The assignments that stand before the first header of a list of statements. -/
def leading : List Statement → List (List String × Literal)
  | .assign key value :: rest => (key, value) :: leading rest
  | _ => []

/-- Each header of a list of statements with the assignments below it. -/
def sections : List Statement → List (Header × List (List String × Literal))
  | [] => []
  | .assign _ _ :: rest => sections rest
  | .header h :: rest => (h, leading rest) :: sections rest

/-- Makes the table of a header with the assignments below it. -/
def Entries.openSection (entries : Entries) :
    Header × List (List String × Literal) → Option Entries
  | (.table key, pairs) =>
    entries.underHeader
      (fun
        | none => (Literal.entries? [] pairs).map (.table .header)
        | some (.table .passage sub) => (Literal.entries? sub pairs).map (.table .header)
        | some _ => none)
      key
  | (.element key, pairs) =>
    entries.underHeader
      (fun
        | none => (Literal.entries? [] pairs).map fun element => .tables [element]
        | some (.tables elements) =>
          (Literal.entries? [] pairs).map fun element => .tables (elements ++ [element])
        | some _ => none)
      key

/-- The entries that a list of statements builds. -/
def build? (statements : List Statement) : Option Entries := do
  let entries ← Literal.entries? [] (leading statements)
  (sections statements).foldlM Entries.openSection entries

/-- Why a text is no TOML document. -/
inductive Refusal where
  /-- A line does not follow the grammar. -/
  | grammar
  /-- A key or a table is defined twice. -/
  | redefinition
  /-- The document does not fit what it is read for. -/
  | content
  deriving DecidableEq, Repr

/-- Reads a text as a document. -/
def read (text : String) : Except Refusal Entries :=
  match statements? text with
  | none => .error .grammar
  | some statements =>
    match build? statements with
    | none => .error .redefinition
    | some entries => .ok entries

end KeywordRules.Toml
