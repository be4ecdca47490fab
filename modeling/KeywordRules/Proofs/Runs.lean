import KeywordRules.Proofs.Edits

/-!
# Runs of the rule

The rule applied to one member again and again, each time for a flag or for a node. `outcomes` lists
what the applications lead to, one after the other, and `runAll` is the member that is left at the end.

An application adds to a field what it gains (`gains`): the annotations that it calls for and that the
field lacks. The same list is what it logs (`events_run`), whereas its branches name everything that it
calls for (`branches_run`). A run is a list of edits, so its closed form is that of `Edit.runAll`.
-/

namespace KeywordRules

/-- An application of the rule. -/
inductive Application where
  /-- The rule is applied for a flag. -/
  | annotate (required : Bool) (options : Options)
  /-- The rule is applied for a node. -/
  | apply (node : Json.Value) (context : Context)

namespace Application

/-- Whether the member is required. -/
def required : Application → Bool
  | .annotate required _ => required
  | .apply node _ => node.asBoolean

/-- The options of an application. -/
def options : Application → Options
  | .annotate _ options => options
  | .apply _ context => context.options

/-- What an application to a member leads to. -/
def run : Application → Member → Outcome
  | .annotate required options, m => Required.annotate required options m
  | .apply node context, m => Required.apply node context m

/-- The outcomes of applications, each to the member that the one before it has left. -/
def outcomes : List Application → Member → List Outcome
  | [], _ => []
  | application :: applications, m =>
    application.run m :: outcomes applications (application.run m).member

/-- The member after a list of applications, made in its order. -/
def runAll (applications : List Application) (m : Member) : Member :=
  applications.foldl (fun m application => (application.run m).member) m

/-- The branches of a run, in the order in which the observer is told of them. -/
def branches (applications : List Application) (m : Member) : List Branch :=
  (outcomes applications m).flatMap Outcome.branches

/-- The log of a run. -/
def log (applications : List Application) (m : Member) : List Event :=
  (outcomes applications m).flatMap Outcome.events

/-! ## One application -/

/-- The branch that says whether the member is required. -/
def flag (application : Application) : Branch :=
  if application.required then .required else .notRequired

/-- The annotations that an application calls for. -/
def calls (application : Application) : List Annotation :=
  Required.calledFor application.required application.options

/-- What the log says before the rule decorates a member: for a node, what the application is about. -/
def opening (m : Member) : Application → List Event
  | .annotate _ _ => []
  | .apply node context =>
    [.applying context.nodeName context.parent node.asBoolean m.isField]

/-- The annotations that a member gains: of those called for, the ones that a field lacks. -/
def gains (application : Application) (m : Member) : List Annotation :=
  if m.isField = true then fresh m.annotations application.calls else []

/-- The edit that an application makes. -/
def edit : Application → Edit
  | .annotate required options => .annotate required options
  | .apply node context => .apply node context

theorem member_run (application : Application) (m : Member) :
    (application.run m).member = application.edit.run m := by
  cases application <;> rfl

theorem calls_edit (application : Application) : application.edit.calls = application.calls := by
  rw [calls, Required.calledFor_eq_filter]
  cases application <;> rfl

theorem parts_edit (application : Application) :
    application.edit.parts = if application.required then ["\n(Required)"] else [] := by
  cases application <;> rfl

/-- A field gains its annotations behind those that it has. -/
theorem annotations_run (application : Application) (m : Member) :
    (application.run m).member.annotations = m.annotations ++ application.gains m := by
  rw [member_run, Edit.annotations_run, calls_edit, gains]

/-- The branches name the flag and, for a field, all that is called for. -/
theorem branches_run (application : Application) (m : Member) :
    (application.run m).branches =
      application.flag ::
        if m.isField = true then application.calls.map Annotation.branch else [] := by
  cases application with
  | annotate required options => exact Required.branches_annotate required options m
  | apply node context => exact Required.branches_annotate node.asBoolean context.options m

/-- The log names what is gained, after what the application is about. -/
theorem events_run (application : Application) (m : Member) :
    (application.run m).events =
      application.opening m ++ (application.gains m).map fun a => .annotated m.name a.qualifiedName := by
  have hannotate : (Required.annotate application.required application.options m).events =
      (application.gains m).map fun a => .annotated m.name a.qualifiedName := by
    rw [Required.events_annotate, gains, calls]
    split
    · rfl
    · rfl
  rw [← hannotate]
  cases application <;> rfl

theorem name_run (application : Application) (m : Member) :
    (application.run m).member.name = m.name := by
  rw [member_run]
  exact Edit.view_run (fun m => m.name) (fun _ _ => rfl) Member.name_attach _ m

theorem isField_run (application : Application) (m : Member) :
    (application.run m).member.isField = m.isField := by
  rw [member_run, Member.isField_eq, Member.isField_eq]
  rw [Edit.view_run (fun m => m.role.kind) (fun _ _ => rfl) Member.kind_attach]

/-! ## A run -/

theorem runAll_cons (application : Application) (applications : List Application) (m : Member) :
    runAll (application :: applications) m = runAll applications (application.run m).member := rfl

theorem log_cons (application : Application) (applications : List Application) (m : Member) :
    log (application :: applications) m =
      (application.run m).events ++ log applications (application.run m).member := rfl

/-- A run is a list of edits. -/
theorem runAll_eq (applications : List Application) (m : Member) :
    runAll applications m = Edit.runAll (applications.map edit) m := by
  induction applications generalizing m with
  | nil => rfl
  | cons application applications ih =>
    rw [runAll_cons, ih, member_run, List.map_cons, Edit.runAll_cons]

theorem name_runAll (applications : List Application) (m : Member) :
    (runAll applications m).name = m.name := by
  rw [runAll_eq, Edit.name_runAll]

theorem kind_runAll (applications : List Application) (m : Member) :
    (runAll applications m).role.kind = m.role.kind := by
  rw [runAll_eq, Edit.kind_runAll]

theorem typeName?_runAll (applications : List Application) (m : Member) :
    (runAll applications m).typeName? = m.typeName? := by
  rw [runAll_eq, Edit.typeName?_runAll]

theorem isField_runAll (applications : List Application) (m : Member) :
    (runAll applications m).isField = m.isField := by
  rw [Member.isField_eq, kind_runAll, ← Member.isField_eq]

/-- The comment gains a note for each required application. -/
theorem parts_runAll (applications : List Application) (m : Member) :
    (runAll applications m).javadoc.parts =
      m.javadoc.parts ++ List.replicate (applications.countP required) "\n(Required)" := by
  rw [runAll_eq, Edit.parts_runAll]
  congr 1
  induction applications with
  | nil => rfl
  | cons application applications ih =>
    rw [List.map_cons, List.flatMap_cons, ih, parts_edit, List.countP_cons]
    split
    · rw [List.singleton_append, List.replicate_succ]
    · rfl

/-- A field gains what is fresh of all that the applications call for. -/
theorem annotations_runAll (applications : List Application) (m : Member) :
    (runAll applications m).annotations =
      m.annotations ++
        if m.isField = true then fresh m.annotations (applications.flatMap calls) else [] := by
  rw [runAll_eq, Edit.annotations_runAll, List.flatMap_map]
  simp only [calls_edit]

/-- An application of a run finds the member that the ones before it have left, and leaves it to the
next one. -/
theorem outcomes_getElem? (applications : List Application) (m : Member) (i : Nat) :
    (outcomes applications m)[i]? =
      applications[i]?.map fun application => application.run (runAll (applications.take i) m) := by
  induction applications generalizing m i with
  | nil => rfl
  | cons application applications ih =>
    cases i with
    | zero => rfl
    | succ i => exact ih (application.run m).member i

end Application

end KeywordRules
