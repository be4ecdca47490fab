import KeywordRules.Event
import KeywordRules.Member.Basic
import KeywordRules.Options.Basic
import KeywordRules.Rule.Branch
import KeywordRules.Schema

/-!
# The rule for the keyword `required`

A required member gets a note in its comment. A field also gets annotations, as the options say:

| required | constraint flag | hint flag | annotation |
|----------|-----------------|-----------|------------|
| yes      | on              |           | `NotNull`  |
| yes      |                 | on        | `Nonnull`  |
| no       |                 | on        | `Nullable` |

The rule never fails. What it decides on the way is part of its result: the branches for an observer
and the events for the log. An annotation that the field carries already is a branch, but no event.
-/

namespace KeywordRules

/-- What an application of the rule leads to. -/
structure Outcome where
  /-- The decorated member. -/
  member : Member
  /-- The decisions taken, in their order. -/
  branches : List Branch
  /-- The events for the log, in their order. -/
  events : List Event
  deriving DecidableEq, Repr

/-- What the rule is told besides the node and the target. -/
structure Context where
  /-- The name of the schema property. -/
  nodeName : String
  /-- The schema object that contains the keyword. -/
  parent : Option Json.Value
  /-- The options of the run. -/
  options : Options

namespace Required

/-- The keyword that the rule is for. -/
def keyword : String := "required"

/-- The part that is appended to the comment of a required member. -/
def note : String := "\n(Required)"

/-- How the rule shows itself to a programmer. -/
def display : String := "RequiredRule \x7b .. \x7d"

/-- The annotations that are called for, in their order. -/
def calledFor (required : Bool) (options : Options) : List Annotation :=
  if required then
    (if options.notNull then [.notNull] else []) ++ (if options.nullability then [.nonnull] else [])
  else if options.nullability then [.nullable] else []

/-- The outcome after one more annotation was called for. -/
def attach (outcome : Outcome) (a : Annotation) : Outcome :=
  { member := outcome.member.attach a
    branches := outcome.branches ++ [a.branch]
    events := outcome.events ++
      if outcome.member.carries a then []
      else [.annotated outcome.member.name a.qualifiedName] }

/-- Decorates a member that is required or not. -/
def annotate (required : Bool) (options : Options) (target : Member) : Outcome :=
  let start : Outcome :=
    { member := if required then target.document note else target
      branches := [if required then .required else .notRequired]
      events := [] }
  if target.isField then (calledFor required options).foldl attach start else start

/-- Decorates a member as the node of the keyword says. -/
def apply (node : Json.Value) (context : Context) (target : Member) : Outcome :=
  let required := node.asBoolean
  let outcome := annotate required context.options target
  { outcome with
    events :=
      .applying context.nodeName context.parent required target.isField :: outcome.events }

/-- Decorates a member as the keyword in a parent node says, if the parent has the keyword. -/
def dispatch (parent : Json.Value) (nodeName : String) (options : Options) (target : Member) :
    Option Outcome :=
  (parent.get? keyword).map fun node => apply node ⟨nodeName, some parent, options⟩ target

end Required

end KeywordRules
