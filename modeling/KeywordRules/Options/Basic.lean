/-!
# Options

The two flags that rules consult, and how a configuration names them. Each flag has a key and an older
alias. Whatever the language of the configuration, its pairs are taken one after another: a flag that
is named twice is refused, by key or by alias, and a flag that is not named is off.
-/

namespace KeywordRules

/-- The options of a generation run. -/
structure Options where
  /-- Whether required fields get the validation constraint. -/
  notNull : Bool
  /-- Whether fields get nullness hints. -/
  nullability : Bool
  deriving DecidableEq, Repr, Inhabited

namespace Options

/-- The options with every flag off. -/
def off : Options := ⟨false, false⟩

/-- The options with the constraint flag set as given. -/
def withNotNull (options : Options) (on : Bool) : Options :=
  { options with notNull := on }

/-- The options with the hint flag set as given. -/
def withNullability (options : Options) (on : Bool) : Options :=
  { options with nullability := on }

end Options

/-- A configuration. -/
structure Config where
  /-- The options for code generation. -/
  generation : Options
  deriving DecidableEq, Repr, Inhabited

namespace Config

/-- The configuration with every flag off. -/
def default : Config := ⟨.off⟩

/-- The key of the code generation options. -/
def generationKey : String := "generation"

end Config

/-! ## Flags and their names -/

/-- One of the flags of `Options`. -/
inductive Flag where
  | notNull
  | nullability
  deriving DecidableEq, Repr

namespace Flag

/-- Every flag, in the order of the positional form. -/
def all : List Flag :=
  [.notNull, .nullability]

/-- The key of a flag. -/
def key : Flag → String
  | .notNull => "include_not_null_annotations"
  | .nullability => "include_nullability_annotations"

/-- The older key of a flag, which names it too. -/
def olderKey : Flag → String
  | .notNull => "include_jsr303_annotations"
  | .nullability => "include_jsr305_annotations"

/-- The flag that a key names. -/
def ofKey? (key : String) : Option Flag :=
  all.find? fun flag => flag.key == key || flag.olderKey == key

end Flag

/-! ## Taking pairs -/

/-- The flags that a configuration has set so far. -/
structure Settings where
  notNull : Option Bool
  nullability : Option Bool
  deriving DecidableEq, Repr

namespace Settings

/-- No flag is set. -/
def blank : Settings := ⟨none, none⟩

/-- The setting of a flag. -/
def get? (settings : Settings) : Flag → Option Bool
  | .notNull => settings.notNull
  | .nullability => settings.nullability

/-- Sets a flag. -/
def set (settings : Settings) (on : Bool) : Flag → Settings
  | .notNull => { settings with notNull := some on }
  | .nullability => { settings with nullability := some on }

/-- Setting a flag leaves the other one alone. -/
theorem get?_set (settings : Settings) (on : Bool) (flag other : Flag) :
    (settings.set on flag).get? other =
      if flag = other then some on else settings.get? other := by
  cases flag <;> cases other <;> simp [set, get?]

/-- Takes a pair whose value reads as `value`. A flag that is already set is refused before its value
is looked at; a key that names no flag is passed over if `other` allows it. -/
def take {ε : Type} (repeated : Flag → ε) (settings : Settings) (key : String)
    (value : Except ε Bool) (other : Except ε Unit) : Except ε Settings :=
  match Flag.ofKey? key with
  | none => other.map fun _ => settings
  | some flag =>
    match settings.get? flag with
    | some _ => .error (repeated flag)
    | none => value.map fun on => settings.set on flag

/-- Sets the flags in their order from a list of readings, as far as it goes. -/
def takeInOrder {ε : Type} (values : List (Except ε Bool)) : Except ε Settings :=
  (Flag.all.zip values).foldlM (fun settings (flag, value) => value.map fun on => settings.set on flag)
    blank

/-- The options of the settings: what is not set is off. -/
def toOptions (settings : Settings) : Options :=
  ⟨settings.notNull.getD false, settings.nullability.getD false⟩

end Settings

end KeywordRules
