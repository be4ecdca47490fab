import KeywordRules.Proofs.Runs

/-!
# The log replays the annotations

The annotations of a member after a run of the rule are those it had, followed by those that the log
says were added, in the order of the log (`runAll_replays_log`). The branches tell more than the log: an
annotation that the field carries already is a branch again, but is not logged again. `Tells` says what
branches and log of one application have to do with each other; the observer has no part in it, since it
is told the branches and gives nothing back.
-/

namespace KeywordRules

/-- The annotation that a branch says is called for. -/
def Branch.called? : Branch → Option Annotation
  | .notNullAnnotated => some .notNull
  | .nonnullAnnotated => some .nonnull
  | .nullableAnnotated => some .nullable
  | .required | .notRequired => none

/-- The annotation with a given full name. -/
def Annotation.ofQualifiedName? (name : String) : Option Annotation :=
  all.find? fun a => a.qualifiedName == name

/-- The annotation that an event says was added to a field. -/
def Event.added? : Event → Option Annotation
  | .annotated _ name => Annotation.ofQualifiedName? name
  | _ => none

theorem Branch.called?_branch (a : Annotation) : a.branch.called? = some a := by
  cases a <;> rfl

theorem Annotation.ofQualifiedName?_qualifiedName (a : Annotation) :
    ofQualifiedName? a.qualifiedName = some a := by
  cases a <;> decide

namespace Application

/-! ## One application -/

/-- What the branches and the log of an application tell about its target. -/
structure Tells (application : Application) (target : Member) (outcome : Outcome) : Prop where
  /-- The first branch says whether the member is required. -/
  flag : outcome.branches.head? = some (if application.required then .required else .notRequired)
  /-- Every other branch is that of an annotation. -/
  calls : ∀ branch ∈ outcome.branches.tail, ∃ a : Annotation, branch = a.branch
  /-- The log names annotations of the branches, in their order. -/
  added : (outcome.events.filterMap Event.added?).Sublist (outcome.branches.filterMap Branch.called?)
  /-- What the log leaves out of them is what the target carries. -/
  omitted : ∀ a ∈ outcome.branches.filterMap Branch.called?,
    a ∉ outcome.events.filterMap Event.added? ↔ a ∈ target.annotations
  /-- The one event that is no detail is that of a node, and it comes first. -/
  opening : ∃ traces, outcome.events = application.opening target ++ traces ∧
    (∀ event ∈ application.opening target, event.level = .debug) ∧
      ∀ event ∈ traces, event.level = .trace

/-- The log of an application names what the target gains. -/
theorem filterMap_added?_run (application : Application) (m : Member) :
    (application.run m).events.filterMap Event.added? = application.gains m := by
  have hopening : (application.opening m).filterMap Event.added? = [] := by
    cases application <;> rfl
  rw [events_run, List.filterMap_append, hopening, List.nil_append, List.filterMap_map]
  have hadded : Event.added? ∘ (fun a : Annotation => Event.annotated m.name a.qualifiedName) =
      some := by
    funext a
    exact Annotation.ofQualifiedName?_qualifiedName a
  rw [hadded, List.filterMap_some]

/-- The branches of an application name what is called for, of a field. -/
theorem filterMap_called?_run (application : Application) (m : Member) :
    (application.run m).branches.filterMap Branch.called? =
      if m.isField = true then application.calls else [] := by
  have hflag : application.flag.called? = none := by
    rw [flag]
    split <;> rfl
  rw [branches_run, List.filterMap_cons_none hflag]
  split
  · rw [List.filterMap_map]
    have hcalled : Branch.called? ∘ Annotation.branch = some := funext Branch.called?_branch
    rw [hcalled, List.filterMap_some]
  · rfl

theorem tells_run (application : Application) (m : Member) :
    application.Tells m (application.run m) := by
  refine ⟨?_, ?_, ?_, ?_, ?_⟩
  · rw [branches_run, List.head?_cons, flag]
  · intro branch hbranch
    rw [branches_run, List.tail_cons] at hbranch
    split at hbranch
    · obtain ⟨a, -, rfl⟩ := List.mem_map.1 hbranch
      exact ⟨a, rfl⟩
    · cases hbranch
  -- a field gains what is fresh of the calls; any other member gains nothing, and nothing is called for
  · rw [filterMap_added?_run, filterMap_called?_run, gains]
    split
    · exact fresh_sublist _ _
    · exact .slnil
  · intro a ha
    rw [filterMap_called?_run] at ha
    rw [filterMap_added?_run, gains]
    split at ha
    · rename_i hm
      rw [if_pos hm, mem_fresh]
      simp only [ha, true_and, Decidable.not_not]
    · cases ha
  · refine ⟨_, events_run application m, fun event hevent => ?_, fun event hevent => ?_⟩
    · cases application with
      | annotate required options => cases hevent
      | apply node context =>
        obtain rfl := List.mem_singleton.1 hevent
        rfl
    · obtain ⟨a, -, rfl⟩ := List.mem_map.1 hevent
      rfl

/-! ## A run -/

/-- The annotations that a run adds are those of its log. -/
theorem annotations_runAll_eq_log (applications : List Application) (m : Member) :
    (runAll applications m).annotations =
      m.annotations ++ (log applications m).filterMap Event.added? := by
  induction applications generalizing m with
  | nil => exact (List.append_nil _).symm
  | cons application applications ih =>
    rw [runAll_cons, ih, annotations_run, log_cons, List.filterMap_append, filterMap_added?_run,
      List.append_assoc]

/-- The log of a run names what is fresh of all that the applications call for. -/
theorem filterMap_added?_log (applications : List Application) (m : Member) :
    (log applications m).filterMap Event.added? =
      if m.isField = true then fresh m.annotations (applications.flatMap calls) else [] := by
  have hlog := annotations_runAll_eq_log applications m
  rw [annotations_runAll] at hlog
  exact (List.append_cancel_left hlog).symm

/-- An event about an added annotation carries the name of the member. -/
theorem of_annotated_mem_log {applications : List Application} {m : Member} {field name : String}
    (h : .annotated field name ∈ log applications m) :
    field = m.name ∧ ∃ a : Annotation, name = a.qualifiedName := by
  induction applications generalizing m with
  | nil => cases h
  | cons application applications ih =>
    rw [log_cons, events_run, List.append_assoc] at h
    -- the event opens an application, adds an annotation, or belongs to a later application
    obtain h | h := List.mem_append.1 h
    · cases application with
      | annotate required options => cases h
      | apply node context => cases List.mem_singleton.1 h
    · obtain h | h := List.mem_append.1 h
      · obtain ⟨a, -, ha⟩ := List.mem_map.1 h
        obtain ⟨rfl, rfl⟩ := Event.annotated.inj ha
        exact ⟨rfl, a, rfl⟩
      · obtain ⟨hfield, hname⟩ := ih h
        exact ⟨hfield.trans (name_run application m), hname⟩

/-- **The log replays the annotations.** After any run of the rule the annotations of a member are the
ones it had, followed by those that the log says were added, in the order of the log. Each of these
events carries the name of the member and the full name of an annotation; no annotation is named twice,
and none that the member had. Each application finds the member as the ones before it have left it, and
its branches and its log tell what it did. -/
theorem runAll_replays_log (applications : List Application) (m : Member) :
    (runAll applications m).annotations =
        m.annotations ++ (log applications m).filterMap Event.added? ∧
      (∀ field name, .annotated field name ∈ log applications m →
        field = m.name ∧ ∃ a : Annotation, name = a.qualifiedName) ∧
      ((log applications m).filterMap Event.added?).Nodup ∧
      (∀ a ∈ (log applications m).filterMap Event.added?, a ∉ m.annotations) ∧
      ∀ i application, applications[i]? = some application →
        ∃ outcome, (outcomes applications m)[i]? = some outcome ∧
          outcome.member = runAll (applications.take (i + 1)) m ∧
          application.Tells (runAll (applications.take i) m) outcome := by
  refine ⟨annotations_runAll_eq_log applications m, fun _ _ => of_annotated_mem_log, ?_, ?_, ?_⟩
  · rw [filterMap_added?_log]
    split
    · exact nodup_fresh _ _
    · exact List.nodup_nil
  · intro a ha
    rw [filterMap_added?_log] at ha
    split at ha
    · exact (mem_fresh.1 ha).2
    · cases ha
  · intro i application hi
    refine ⟨application.run (runAll (applications.take i) m), ?_, ?_, tells_run application _⟩
    · rw [outcomes_getElem?, hi, Option.map_some]
    · rw [List.take_add_one, hi, Option.toList_some]
      simp only [runAll, List.foldl_append, List.foldl_cons, List.foldl_nil]

/-- A field that was read with the constraint twice: it is called for again, and only the hints are
logged. -/
theorem runAll_replays_log_repeated :
    let m : Member := ⟨"email", .empty, .field "String" [.notNull, .notNull]⟩
    let parent : Json.Value := .object [("required", .string "true\n")]
    let node : Application := .apply (.string "true\n") ⟨"email", some parent, ⟨true, true⟩⟩
    let applications := [node, .annotate true ⟨true, true⟩, .annotate false ⟨true, true⟩]
    log applications m = [.applying "email" (some parent) true true,
        .annotated "email" "javax.annotation.Nonnull",
        .annotated "email" "javax.annotation.Nullable"] ∧
      (runAll applications m).annotations = [.notNull, .notNull] ++ [.nonnull, .nullable] ∧
      (∃ a : Annotation, "javax.annotation.Nullable" = a.qualifiedName) ∧
      .nullable ∉ m.annotations ∧
      ∃ outcome, (outcomes applications m)[0]? = some outcome ∧ node.Tells m outcome ∧
        outcome.branches = [.required, .notNullAnnotated, .nonnullAnnotated] := by
  intro m parent node applications
  have hlog : log applications m = [.applying "email" (some parent) true true,
      .annotated "email" "javax.annotation.Nonnull",
      .annotated "email" "javax.annotation.Nullable"] := by
    decide +kernel
  have hadded : (log applications m).filterMap Event.added? = [.nonnull, .nullable] := by
    rw [hlog]
    rfl
  obtain ⟨hannotations, hnamed, -, hlacking, houtcomes⟩ := runAll_replays_log applications m
  obtain ⟨outcome, houtcome, -, htells⟩ := houtcomes 0 node rfl
  refine ⟨hlog, ?_, ?_, ?_, outcome, houtcome, htells, ?_⟩
  · rw [hannotations, hadded]
    rfl
  · exact (hnamed "email" "javax.annotation.Nullable" (by simp [hlog])).2
  · exact hlacking .nullable (by simp [hadded])
  · obtain rfl := Option.some.inj houtcome
    decide +kernel

end Application

end KeywordRules
