import KeywordRules.Options.Basic
import KeywordRules.Toml.Table

/-!
# Configurations in TOML

A configuration is a document whose table `generation` holds the flags. An array of booleans stands for
the table, in the order of the flags and with whatever follows them; a date or time stands for an empty
table. Keys that nothing wants are passed over, but their numbers have to be legible and in range.
-/

namespace KeywordRules.Toml

namespace Item

mutual

/-- Whether all numbers of an item are legible and in range: integers within 128 bits, signed or not,
and floats within the doubles. -/
def isInRange : Item → Bool
  | .scalar (.integer n) => decide (-((Nat.pow 2 127 : Nat) : Int) ≤ n) && decide (n < (Nat.pow 2 128 : Nat))
  | .scalar (.float tooLarge) => !tooLarge
  | .scalar .illegible => false
  | .scalar _ => true
  | .array items => areInRange items
  | .table _ entries => entriesInRange entries
  | .tables elements => elementsInRange elements

/-- Whether all numbers of a list of items are in range. -/
def areInRange : List Item → Bool
  | [] => true
  | item :: rest => item.isInRange && areInRange rest

/-- Whether all numbers of a table are in range. -/
def entriesInRange : List (String × Item) → Bool
  | [] => true
  | (_, item) :: rest => item.isInRange && entriesInRange rest

/-- Whether all numbers of an array of tables are in range. -/
def elementsInRange : List (List (String × Item)) → Bool
  | [] => true
  | entries :: rest => entriesInRange entries && elementsInRange rest

end

/-- A boolean. -/
def asBool : Item → Except Refusal Bool
  | .scalar (.bool b) => .ok b
  | _ => .error .content

/-- Lets an item pass that nothing wants. -/
def passOver (item : Item) : Except Refusal Unit :=
  if item.isInRange then .ok () else .error .content

end Item

end KeywordRules.Toml

namespace KeywordRules

open KeywordRules.Toml

namespace Options

/-- Takes an entry of a table. -/
def takeEntry (settings : Settings) (entry : String × Item) : Except Refusal Settings :=
  settings.take (fun _ => .content) entry.1 entry.2.asBool entry.2.passOver

/-- The options of an item. -/
def ofItem : Item → Except Refusal Options
  | .table _ entries => (entries.foldlM takeEntry Settings.blank).map Settings.toOptions
  | .array items => (Settings.takeInOrder (items.map Item.asBool)).map Settings.toOptions
  | .scalar .moment => .ok .off
  | _ => .error .content

end Options

namespace Config

/-- Takes an entry of a document, given the code generation options found so far. -/
def takeEntry (found : Option Options) (entry : String × Item) :
    Except Refusal (Option Options) :=
  if entry.1 = generationKey then (Options.ofItem entry.2).map some
  else entry.2.passOver.map fun _ => found

/-- The configuration of a document. -/
def ofEntries (entries : Entries) : Except Refusal Config :=
  (entries.foldlM takeEntry none).map fun found => ⟨found.getD .off⟩

/-- Reads a configuration from a TOML text. -/
def parseToml (text : String) : Except Refusal Config := do
  ofEntries (← Toml.read text)

end Config

end KeywordRules
