import KeywordRules.Form.Member
import KeywordRules.Form.Node
import KeywordRules.Options.Load
import KeywordRules.Rule.Coverage
import KeywordRules.Rule.Required

/-!
# Sessions

A session works on members by name, with one set of options and one coverage. A step that fails says
why and leaves the session as it was. Applications report to the coverage unless they are made by a
rule that reports to nobody.
-/

namespace KeywordRules

open KeywordRules.Json

/-- The state of a session. -/
structure Session where
  /-- The members by their names in the session; the first entry of a name counts. -/
  members : List (String × Member)
  /-- The current options. -/
  options : Options
  /-- The counters that the rule of the session reports to. -/
  coverage : Coverage
  deriving DecidableEq, Repr

/-- A step of a session. Nodes, parents and members to be read are given by their JSON texts, and
`reports` says whether the rule that is used reports to the coverage. -/
inductive Step where
  | create (id : String) (member : Member)
  | parse (id text : String)
  | copy (source id : String)
  | annotate (id : String) (required reports : Bool)
  | apply (id node nodeName : String) (parent : Option String) (reports : Bool)
  | dispatch (id parent nodeName : String) (reports : Bool)
  | append (id : String) (texts : List String)
  | clearJavadoc (id : String)
  | attach (id annotation : String)
  | inspect (id : String)
  | carries (id annotation : String)
  | compare (first second : String)
  | observe (branch : Branch) (times : Nat)
  | report
  | reset
  | parallel (id : String) (threads : Nat)
  | setOptions (notNull nullability : Option Bool)
  | readOptions (text : String)
  deriving DecidableEq, Repr

/-- The answer to a step. -/
inductive Answer where
  /-- A member was stored; its branches were reported on the way. -/
  | stored (member : Member) (branches : List Branch)
  /-- An annotation was attached to a stored member, if it is a field that did not carry it. -/
  | attached (member : Member) (added : Option Bool)
  | inspected (member : Member)
  /-- The parent does not have the keyword. -/
  | skipped
  /-- Whether a field carries an annotation. -/
  | carried (found : Option Bool)
  | compared (equal : Bool)
  | observed (count : UInt64)
  | reported (report : Report)
  /-- The members that copies became, and the report after that. -/
  | ran (members : List Member) (report : Report)
  | options (options : Options)
  | config (config : Config)
  | noSuchMember
  | refused (fault : Fault)
  | invalidConfig (error : ConfigError)
  deriving DecidableEq, Repr

/-- The answer to a step with the events on the way. -/
structure Reply where
  answer : Answer
  events : List Event
  deriving DecidableEq, Repr

namespace Session

/-- A session that starts with the given options. -/
def start (options : Options) : Session := ⟨[], options, .zero⟩

/-- The member with a name. -/
def member? (s : Session) (id : String) : Option Member :=
  s.members.lookup id

/-- The session with a member under a name. -/
def store (s : Session) (id : String) (member : Member) : Session :=
  { s with members := (id, member) :: s.members }

/-- The session and the reply after a member was stored without any report. -/
def keep (s : Session) (id : String) (member : Member) : Session × Reply :=
  (s.store id member, ⟨.stored member [], []⟩)

/-- The session and the reply after the rule was applied. -/
def accept (s : Session) (id : String) (outcome : Outcome) (reports : Bool) : Session × Reply :=
  let branches := if reports then outcome.branches else []
  ({ s.store id outcome.member with coverage := s.coverage.observeAll branches },
    ⟨.stored outcome.member branches, outcome.events⟩)

/-- A reply that leaves the session as it was. -/
def answer (s : Session) (a : Answer) : Session × Reply :=
  (s, ⟨a, []⟩)

/-- Goes on with the member of a name, if there is one. -/
def withMember (s : Session) (id : String) (go : Member → Session × Reply) : Session × Reply :=
  match s.member? id with
  | some member => go member
  | none => s.answer .noSuchMember

/-- Goes on with what a text was read as, unless it was refused. -/
def withRead {α : Type} (s : Session) (read : Except Fault α) (go : α → Session × Reply) :
    Session × Reply :=
  match read with
  | .ok a => go a
  | .error fault => s.answer (.refused fault)

/-- Reads a node that may be absent. -/
def parseOptional : Option String → Except Fault (Option Value)
  | none => .ok none
  | some text => (Value.parse text).map some

/-- The outcomes of annotating copies of a member, required and not required by turns. -/
def alternate (options : Options) (member : Member) (threads : Nat) : List Outcome :=
  (List.range threads).map fun i => Required.annotate (i % 2 == 0) options member

/-- Makes a step. -/
def step (s : Session) : Step → Session × Reply
  | .create id member => s.keep id member
  | .parse id text => s.withRead (Member.parse text) fun member => s.keep id member
  | .copy source id => s.withMember source fun member => s.keep id member
  | .annotate id required reports =>
    s.withMember id fun member => s.accept id (Required.annotate required s.options member) reports
  | .apply id node nodeName parent reports =>
    s.withMember id fun member =>
      s.withRead (Value.parse node) fun node =>
        s.withRead (parseOptional parent) fun parent =>
          s.accept id (Required.apply node ⟨nodeName, parent, s.options⟩ member) reports
  | .dispatch id parent nodeName reports =>
    s.withMember id fun member =>
      s.withRead (Value.parse parent) fun parent =>
        match Required.dispatch parent nodeName s.options member with
        | some outcome => s.accept id outcome reports
        | none => s.answer .skipped
  | .append id texts =>
    s.withMember id fun member => s.keep id (texts.foldl (fun m text => m.document text) member)
  | .clearJavadoc id =>
    s.withMember id fun member => s.keep id { member with javadoc := .empty }
  | .attach id annotation =>
    let named := Annotation.named annotation
    s.withRead named fun a =>
      s.withMember id fun member =>
        let added := if member.isField then some (!member.carries a) else none
        (s.store id (member.attach a), ⟨.attached (member.attach a) added, []⟩)
  | .inspect id => s.withMember id fun member => s.answer (.inspected member)
  | .carries id annotation =>
    let named := Annotation.named annotation
    s.withRead named fun a =>
      s.withMember id fun member =>
        s.answer (.carried (if member.isField then some (member.carries a) else none))
  | .compare first second =>
    s.withMember first fun a => s.withMember second fun b => s.answer (.compared (decide (a = b)))
  | .observe branch times =>
    let coverage := s.coverage.add (UInt64.ofNat times) branch
    ({ s with coverage }, ⟨.observed (coverage.count branch), []⟩)
  | .report => s.answer (.reported s.coverage.report)
  | .reset => ({ s with coverage := s.coverage.reset }, ⟨.reported s.coverage.reset.report, []⟩)
  | .parallel id threads =>
    s.withMember id fun member =>
      let outcomes := alternate s.options member threads
      let coverage := outcomes.foldl (fun c outcome => c.observeAll outcome.branches) s.coverage
      ({ s with coverage }, ⟨.ran (outcomes.map Outcome.member) coverage.report, []⟩)
  | .setOptions notNull nullability =>
    let options := notNull.elim s.options s.options.withNotNull
    let options := nullability.elim options options.withNullability
    ({ s with options }, ⟨.options options, []⟩)
  | .readOptions text =>
    match Config.parse Config.filename text with
    | .ok config => ({ s with options := config.generation }, ⟨.config config, []⟩)
    | .error e => s.answer (.invalidConfig e)

/-- Makes steps one after another. -/
def run (s : Session) : List Step → Session × List Reply
  | [] => (s, [])
  | step :: steps =>
    let (s, reply) := s.step step
    let (s, replies) := s.run steps
    (s, reply :: replies)

end Session

end KeywordRules
