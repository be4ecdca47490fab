import KeywordRules.Proofs.Application

/-!
# Editing one member

An edit is one operation on a member: an application of the rule, an annotation attached by hand, or a
part appended to the comment. The member after any number of edits has a closed form
(`runAll_closed_form`): kind, name and type stay, the comment gains the parts of the edits in their
order, and a field gains every annotation that an edit called for and that it did not have, at its first
call. Each edit is described by what it adds (`parts`, `calls`); the closed form follows by induction on
the edits, with the member generalized, because `fresh` splits along a list of calls.
-/

namespace KeywordRules

/-- An operation on one member. -/
inductive Edit where
  /-- The rule is applied for a flag. -/
  | annotate (required : Bool) (options : Options)
  /-- The rule is applied for a node. -/
  | apply (node : Json.Value) (context : Context)
  /-- An annotation is attached to the member, if it is a field. -/
  | attach (a : Annotation)
  /-- A part is appended to the comment. -/
  | append (part : String)

namespace Edit

/-- The member after an edit. -/
def run : Edit → Member → Member
  | .annotate required options, m => (Required.annotate required options m).member
  | .apply node context, m => (Required.apply node context m).member
  | .attach a, m => m.attach a
  | .append part, m => m.document part

/-- The member after a list of edits, made in its order. -/
def runAll (edits : List Edit) (m : Member) : Member :=
  edits.foldl (fun m edit => edit.run m) m

/-! ## What an edit adds -/

/-- The parts that an edit adds to the comment. -/
def parts : Edit → List String
  | .annotate required _ => if required then ["\n(Required)"] else []
  | .apply node _ => if node.asBoolean then ["\n(Required)"] else []
  | .attach _ => []
  | .append part => [part]

/-- The annotations that an edit calls for. -/
def calls : Edit → List Annotation
  | .annotate required options => Annotation.all.filter fun a => a.isDue required options
  | .apply node context => Annotation.all.filter fun a => a.isDue node.asBoolean context.options
  | .attach a => [a]
  | .append _ => []

/-! ## One edit -/

/-- Whatever neither documenting nor attaching changes, no edit changes. -/
theorem view_run {β : Type} (view : Member → β)
    (hdocument : ∀ part m, view (Member.document part m) = view m)
    (hattach : ∀ a m, view (Member.attach a m) = view m) (edit : Edit) (m : Member) :
    view (edit.run m) = view m := by
  have hannotate : ∀ required options,
      view (Required.annotate required options m).member = view m := by
    intro required options
    rw [Required.member_annotate, Member.attachAll, foldl_view view fun m a => hattach a m]
    split
    · exact hdocument _ m
    · rfl
  cases edit with
  | annotate required options => exact hannotate required options
  | apply node context => exact hannotate node.asBoolean context.options
  | attach a => exact hattach a m
  | append part => exact hdocument part m

theorem parts_run (edit : Edit) (m : Member) :
    (edit.run m).javadoc.parts = m.javadoc.parts ++ edit.parts := by
  have hannotate : ∀ required options,
      (Required.annotate required options m).member.javadoc.parts =
        m.javadoc.parts ++ if required then ["\n(Required)"] else [] := by
    intro required options
    rw [Required.member_annotate, Member.javadoc_attachAll]
    cases required with
    | false => exact (List.append_nil _).symm
    | true => rfl
  cases edit with
  | annotate required options => exact hannotate required options
  | apply node context => exact hannotate node.asBoolean context.options
  | attach a => simp [run, parts]
  | append part => rfl

theorem annotations_run (edit : Edit) (m : Member) :
    (edit.run m).annotations =
      m.annotations ++ if m.isField = true then fresh m.annotations edit.calls else [] := by
  have hannotate : ∀ required options,
      (Required.annotate required options m).member.annotations =
        m.annotations ++ if m.isField = true then
          fresh m.annotations <| Annotation.all.filter fun a => a.isDue required options else [] := by
    intro required options
    -- the note is no part of the role, so the calls find the field as it was
    have hrole : (if required then m.document Required.note else m).role = m.role := by
      split <;> rfl
    rw [Required.member_annotate, Member.annotations_attachAll, Required.calledFor_eq_filter,
      Member.annotations_congr hrole, Member.isField_congr hrole]
    by_cases hm : m.isField = true <;> simp [hm]
  cases edit with
  | annotate required options => exact hannotate required options
  | apply node context => exact hannotate node.asBoolean context.options
  | attach a => exact Member.annotations_attachAll [a] m
  | append part => simp [run, calls, Member.annotations_congr (Member.role_document part m)]

/-! ## A run of edits -/

theorem runAll_cons (edit : Edit) (edits : List Edit) (m : Member) :
    runAll (edit :: edits) m = runAll edits (edit.run m) := rfl

theorem kind_runAll (edits : List Edit) (m : Member) :
    (runAll edits m).role.kind = m.role.kind :=
  foldl_view (fun m => m.role.kind)
    (fun m edit => view_run (fun m => m.role.kind) (fun _ _ => rfl) Member.kind_attach edit m) edits m

theorem name_runAll (edits : List Edit) (m : Member) : (runAll edits m).name = m.name :=
  foldl_view (fun m => m.name)
    (fun m edit => view_run (fun m => m.name) (fun _ _ => rfl) Member.name_attach edit m) edits m

theorem typeName?_runAll (edits : List Edit) (m : Member) :
    (runAll edits m).typeName? = m.typeName? :=
  foldl_view Member.typeName?
    (fun m edit => view_run Member.typeName? (fun _ _ => rfl) Member.typeName?_attach edit m) edits m

/-- The comment gains the parts of the edits in their order. -/
theorem parts_runAll (edits : List Edit) (m : Member) :
    (runAll edits m).javadoc.parts = m.javadoc.parts ++ edits.flatMap parts := by
  induction edits generalizing m with
  | nil => simp [runAll]
  | cons edit edits ih =>
    rw [runAll_cons, ih, parts_run, List.append_assoc, List.flatMap_cons]

/-- A field gains what is fresh of all the calls, one edit after the other. -/
theorem annotations_runAll (edits : List Edit) (m : Member) :
    (runAll edits m).annotations =
      m.annotations ++
        if m.isField = true then fresh m.annotations (edits.flatMap calls) else [] := by
  induction edits generalizing m with
  | nil => simp [runAll]
  | cons edit edits ih =>
    have hfield : (edit.run m).isField = m.isField := by
      rw [Member.isField_eq, Member.isField_eq]
      rw [view_run (fun m => m.role.kind) (fun _ _ => rfl) Member.kind_attach edit m]
    rw [runAll_cons, ih, hfield, annotations_run, List.flatMap_cons]
    by_cases hm : m.isField = true
    · simp [hm, fresh_append]
    · simp [hm]

/-- **Closed form of every run of edits.** Kind, name and type of the member stay. Its comment gains
the note of each required application and the text of each appended part, in the order of the edits. A
field keeps its annotations as they are and gains the ones called for that it did not have, each once
and in the order of their first calls; other members have none. -/
theorem runAll_closed_form (edits : List Edit) (m : Member) :
    (runAll edits m).role.kind = m.role.kind ∧
      (runAll edits m).name = m.name ∧
      (runAll edits m).typeName? = m.typeName? ∧
      (runAll edits m).javadoc.parts = m.javadoc.parts ++ edits.flatMap parts ∧
      (runAll edits m).annotations =
        if m.isField = true then
          m.annotations ++ ((edits.flatMap calls).removeAll m.annotations).eraseDups
        else [] := by
  refine ⟨kind_runAll edits m, name_runAll edits m, typeName?_runAll edits m, parts_runAll edits m, ?_⟩
  rw [annotations_runAll]
  by_cases hm : m.isField = true
  · rw [if_pos hm, if_pos hm, fresh]
  · rw [if_neg hm, if_neg hm, List.append_nil]
    exact Member.annotations_of_not_isField (Bool.eq_false_iff.2 hm)

end Edit

end KeywordRules
