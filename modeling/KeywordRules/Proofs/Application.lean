import KeywordRules.Proofs.Attachment
import KeywordRules.Rule.Required

/-!
# One application of the rule

What `Required.annotate` and `Required.apply` do to a member, which branches they report and what they
log, each as one equation. The annotations that are called for are those that the table of the rule has
for the flag and the options (`isDue`), in the order of the table; the branches name the flag and then,
for a field, every annotation that is called for, whether the field carries it already or not. The log
names only those that the field did not carry.
-/

namespace KeywordRules

/-- The table of the rule: whether a field is due an annotation. -/
def Annotation.isDue (required : Bool) (options : Options) : Annotation → Bool
  | .notNull => required && options.notNull
  | .nonnull => required && options.nullability
  | .nullable => !required && options.nullability

namespace Required

/-- The rule calls for the annotations that are due, in the order of the table. -/
theorem calledFor_eq_filter (required : Bool) (options : Options) :
    calledFor required options = Annotation.all.filter fun a => a.isDue required options := by
  obtain ⟨notNull, nullability⟩ := options
  cases required <;> cases notNull <;> cases nullability <;> rfl

/-! ## The member -/

theorem member_foldl_attach (as : List Annotation) (outcome : Outcome) :
    (as.foldl attach outcome).member = outcome.member.attachAll as := by
  induction as generalizing outcome with
  | nil => rfl
  | cons a as ih => rw [List.foldl_cons, ih, Member.attachAll_cons, attach]

/-- The member gets the note if it is required, and the annotations that are called for. -/
theorem member_annotate (required : Bool) (options : Options) (target : Member) :
    (annotate required options target).member =
      (if required then target.document note else target).attachAll
        (if target.isField = true then calledFor required options else []) := by
  simp only [annotate]
  split
  · rw [member_foldl_attach]
  · rfl

/-! ## The branches -/

theorem branches_foldl_attach (as : List Annotation) (outcome : Outcome) :
    (as.foldl attach outcome).branches = outcome.branches ++ as.map Annotation.branch := by
  induction as generalizing outcome with
  | nil => simp
  | cons a as ih => simp [ih, attach]

/-- The first branch says whether the member is required; the others are the annotations that a field
is due. -/
theorem branches_annotate (required : Bool) (options : Options) (target : Member) :
    (annotate required options target).branches =
      (if required then .required else .notRequired) ::
        if target.isField = true then (calledFor required options).map Annotation.branch else [] := by
  simp only [annotate]
  split
  · rw [branches_foldl_attach, List.singleton_append]
  · rfl

/-! ## The log -/

/-- Every annotation that a field does not hold yet is logged where it is called for first. -/
theorem events_foldl_attach (as : List Annotation) (outcome : Outcome)
    (hfield : outcome.member.isField = true) :
    (as.foldl attach outcome).events = outcome.events ++
      (fresh outcome.member.annotations as).map fun a =>
        .annotated outcome.member.name a.qualifiedName := by
  induction as generalizing outcome with
  | nil => simp
  | cons a as ih =>
    have hattached : (outcome.member.attach a).isField = true := by
      rw [Member.isField_eq, Member.kind_attach, ← Member.isField_eq, hfield]
    rw [List.foldl_cons, ih (attach outcome a) hattached, attach, Member.annotations_attach,
      Member.name_attach]
    by_cases ha : a ∈ outcome.member.annotations
    · simp [Member.carries, hfield, ha, fresh_cons_of_mem ha]
    · simp [Member.carries, hfield, ha, fresh_cons_of_notMem ha]

/-- A field is logged with the annotations that are called for and that it does not have. -/
theorem events_annotate (required : Bool) (options : Options) (target : Member) :
    (annotate required options target).events =
      if target.isField = true then
        (fresh target.annotations (calledFor required options)).map fun a =>
          .annotated target.name a.qualifiedName
      else [] := by
  have hrole : (if required then target.document note else target).role = target.role := by
    split <;> rfl
  have hname : (if required then target.document note else target).name = target.name := by
    split <;> rfl
  simp only [annotate]
  split
  · rename_i hfield
    rw [events_foldl_attach _ _ ((Member.isField_congr hrole).trans hfield), List.nil_append, hname,
      Member.annotations_congr hrole]
  · rfl

theorem level_of_mem_annotate (required : Bool) (options : Options) (target : Member) :
    ∀ event ∈ (annotate required options target).events, event.level = .trace := by
  intro event hevent
  rw [events_annotate] at hevent
  split at hevent
  · obtain ⟨a, -, rfl⟩ := List.mem_map.1 hevent
    rfl
  · cases hevent

/-! ## Applying for a node -/

@[simp] theorem member_apply (node : Json.Value) (context : Context) (target : Member) :
    (apply node context target).member =
      (annotate node.asBoolean context.options target).member := rfl

@[simp] theorem branches_apply (node : Json.Value) (context : Context) (target : Member) :
    (apply node context target).branches =
      (annotate node.asBoolean context.options target).branches := rfl

/-- The log of an application starts with what it is about; the rest is that of decorating the member. -/
theorem events_apply (node : Json.Value) (context : Context) (target : Member) :
    (apply node context target).events =
      .applying context.nodeName context.parent node.asBoolean target.isField ::
        (annotate node.asBoolean context.options target).events := rfl

end Required

end KeywordRules
