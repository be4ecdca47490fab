import KeywordRules.Json.Value

/-!
# Log events

What a run reports to a log. A list of events stands in the order in which they happened.
-/

namespace KeywordRules

/-- An event of the log. -/
inductive Event where
  /-- The rule is about to be applied to a node: its name, its parent if one was given, whether the node
  counts as true, and whether the target is a field. -/
  | applying (node : String) (parent : Option Json.Value) (required field : Bool)
  /-- The rule added an annotation, given by its qualified name, to a field. -/
  | annotated (field annotation : String)
  /-- There was no default configuration file. -/
  | noConfiguration (filename : String)
  /-- A configuration was loaded. -/
  | loaded (path : String) (notNull nullability : Bool)
  deriving DecidableEq, Repr

namespace Event

/-- How important an event is. -/
inductive Level where
  | debug
  | trace
  deriving DecidableEq, Repr

/-- The word for a level. -/
def Level.word : Level → String
  | .debug => "debug"
  | .trace => "trace"

/-- The level of an event: added annotations are details. -/
def level : Event → Level
  | .annotated _ _ => .trace
  | _ => .debug

/-- The message of an event. -/
def message : Event → String
  | .applying _ _ _ _ => "applying required rule"
  | .annotated _ _ => "annotated field"
  | .noConfiguration filename => "no " ++ filename ++ " found, using defaults"
  | .loaded _ _ _ => "loaded configuration"

end Event

end KeywordRules
