import KeywordRules.Event
import KeywordRules.FileTree
import KeywordRules.Toml.Config

/-!
# Loading a configuration

A configuration is loaded from a path that is given, and then the file must exist, or from the default
file of the working directory, and then its absence gives the default configuration. Every success is
one event and every failure none.
-/

namespace KeywordRules

/-- Why a configuration cannot be loaded. -/
inductive ConfigError where
  | notFound (path : String)
  | invalidToml (path detail : String)
  | unreadable (path detail : String)
  deriving DecidableEq, Repr

namespace ConfigError

/-- The part of the message that does not depend on the detail. -/
def heading : ConfigError → String
  | .notFound path => "Configuration file not found: " ++ path
  | .invalidToml path _ => "Invalid TOML in " ++ path ++ ": "
  | .unreadable path _ => "Failed to read config " ++ path ++ ": "

/-- The message of an error. -/
def message (e : ConfigError) : String :=
  match e with
  | .notFound _ => e.heading
  | .invalidToml _ detail | .unreadable _ detail => e.heading ++ detail

end ConfigError

/-- The detail of the message about a refusal. The message is fixed up to its detail
(`ConfigError.heading`), which is left to whoever reads TOML; these words name the kind of refusal and
nothing depends on them. -/
def Toml.Refusal.message : Toml.Refusal → String
  | .grammar => "a line does not follow the grammar"
  | .redefinition => "a key is defined twice"
  | .content => "the content does not fit a configuration"

namespace Config

/-- The name of the default file. -/
def filename : String := "jsonschema-rules.toml"

/-- What a default file holds at first: every flag off, with an explanation. -/
def defaultContent : String :=
  "# jsonschema-rules configuration file\n" ++
  "\n" ++
  "[generation]\n" ++
  "# Add @javax.validation.constraints.NotNull to fields of required properties\n" ++
  "include_not_null_annotations = false\n" ++
  "\n" ++
  "# Add @javax.annotation.Nonnull to required fields and\n" ++
  "# @javax.annotation.Nullable to the others\n" ++
  "include_nullability_annotations = false\n"

/-- Parses a configuration; the path is for the error only. -/
def parse (path text : String) : Except ConfigError Config :=
  match parseToml text with
  | .ok config => .ok config
  | .error refusal => .error (.invalidToml path refusal.message)

/-- The text of what a path leads to. The detail of an error is left to the file system; the words here
name the cause and nothing depends on them. -/
def readText (path : String) : FileTree → Except ConfigError String
  | .directory _ => .error (.unreadable path "it is a directory")
  | .file bytes =>
    match String.fromUTF8? bytes with
    | some text => .ok text
    | none => .error (.unreadable path "it is not UTF-8")

/-- Loads the configuration from what a path leads to. -/
def loadFrom (path : String) (node : FileTree) : Except ConfigError Config × List Event :=
  match readText path node with
  | .error e => (.error e, [])
  | .ok text =>
    match parse path text with
    | .error e => (.error e, [])
    | .ok config =>
      (.ok config, [.loaded path config.generation.notNull config.generation.nullability])

/-- Loads the configuration of a process, from a given path or from the default file of its working
directory. -/
def load (system : FileSystem) : Option String → Except ConfigError Config × List Event
  | some path =>
    match system.resolve? path with
    | some node => loadFrom path node
    | none => (.error (.notFound path), [])
  | none =>
    match system.resolve? filename with
    | some node => loadFrom filename node
    | none => (.ok .default, [.noConfiguration filename])

end Config

end KeywordRules
