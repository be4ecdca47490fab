import KeywordRules.Proofs.Reordering
import Mathlib.Data.List.Forall2

/-!
# Options switched on

Two runs of the rule on one member that make the same decisions about it being required, where an option
that is on in an application of the first run is also on in that application of the second one
(`Narrows`). The second member differs from the first in nothing but additional annotations, and the
branches of the first run are among those of the second, in their order (`runAll_within_of_narrows`).

The annotations of the first run need not be a sublist of those of the second, since an annotation that
is called for earlier is also attached earlier. What grows is how often each annotation occurs. The
branches, on the other hand, do not depend on what is attached already, so they grow application by
application.
-/

namespace KeywordRules

/-- Whether a branch says if the property is required. -/
def Branch.isFlag : Branch → Bool
  | .required | .notRequired => true
  | .notNullAnnotated | .nonnullAnnotated | .nullableAnnotated => false

theorem Branch.isFlag_branch (a : Annotation) : a.branch.isFlag = false := by
  cases a <;> rfl

/-- A member that the other one differs from in nothing but additional annotations. -/
structure Member.Within (m wider : Member) : Prop where
  kind : m.role.kind = wider.role.kind
  name : m.name = wider.name
  typeName : m.typeName? = wider.typeName?
  javadoc : m.javadoc.parts = wider.javadoc.parts
  annotations : ∀ a, m.annotations.count a ≤ wider.annotations.count a

namespace Application

/-- An application that decides in the same way as the other one and has no option on that the other one
has off. -/
structure Narrows (application wider : Application) : Prop where
  required : application.required = wider.required
  notNull : application.options.notNull ≤ wider.options.notNull
  nullability : application.options.nullability ≤ wider.options.nullability

variable {application wider : Application} {applications widers : List Application}

/-! ## What an application calls for -/

theorem Narrows.flag (h : application.Narrows wider) : application.flag = wider.flag := by
  rw [Application.flag, Application.flag, h.required]

/-- More options call for more annotations, which come in between the others. -/
theorem Narrows.calls_sublist (h : application.Narrows wider) :
    application.calls.Sublist wider.calls := by
  rw [calls, calls, Required.calledFor_eq_filter, Required.calledFor_eq_filter, h.required]
  exact List.monotone_filter_right _ fun a ha => Annotation.isDue_of_le h.notNull h.nullability ha

/-- Nothing is called for when every option is off. -/
theorem calls_of_off (h : application.options = .off) : application.calls = [] := by
  rw [calls, h]
  cases application.required <;> rfl

/-! ## Two runs side by side -/

/-- What does not depend on the options is the same for both runs, application by application. -/
theorem map_eq_of_narrows {β : Type} {f : Application → β} (h : List.Forall₂ Narrows applications widers)
    (hf : ∀ application wider, Narrows application wider → f application = f wider) :
    applications.map f = widers.map f := by
  induction h with
  | nil => rfl
  | cons hnarrows _ ih => rw [List.map_cons, List.map_cons, hf _ _ hnarrows, ih]

/-- What only grows with the options grows application by application. -/
theorem flatMap_sublist_of_narrows {β : Type} {f : Application → List β}
    (h : List.Forall₂ Narrows applications widers)
    (hf : ∀ application wider, Narrows application wider → (f application).Sublist (f wider)) :
    (applications.flatMap f).Sublist (widers.flatMap f) := by
  induction h with
  | nil => exact .slnil
  | cons hnarrows _ ih =>
    rw [List.flatMap_cons, List.flatMap_cons]
    exact (hf _ _ hnarrows).append ih

/-! ## The branches of a run -/

theorem branches_sublist (h : List.Forall₂ Narrows applications widers) (m : Member) :
    (branches applications m).Sublist (branches widers m) := by
  rw [branches_eq_flatMap, branches_eq_flatMap]
  refine flatMap_sublist_of_narrows h fun application wider hnarrows => ?_
  rw [hnarrows.flag]
  refine .cons_cons _ ?_
  split
  · exact hnarrows.calls_sublist.map _
  · exact .slnil

/-- The decisions stand in the branches in their order. -/
theorem filter_isFlag_branches (applications : List Application) (m : Member) :
    (branches applications m).filter Branch.isFlag = applications.map flag := by
  rw [branches_eq_flatMap]
  induction applications with
  | nil => rfl
  | cons application applications ih =>
    -- of one application, the filter keeps the first branch and drops the others
    have hflag : application.flag.isFlag = true := by
      rw [flag]
      split <;> rfl
    have hcalls : (application.calls.map Annotation.branch).filter Branch.isFlag = [] := by
      rw [List.filter_eq_nil_iff]
      intro branch hbranch
      obtain ⟨a, -, rfl⟩ := List.mem_map.1 hbranch
      rw [Branch.isFlag_branch]
      exact Bool.false_ne_true
    rw [List.flatMap_cons, List.filter_append, ih, List.filter_cons_of_pos hflag, List.map_cons]
    split
    · rw [hcalls, List.singleton_append]
    · rfl

/-! ## The member after a run -/

theorem parts_runAll_eq (h : List.Forall₂ Narrows applications widers) (m : Member) :
    (runAll applications m).javadoc.parts = (runAll widers m).javadoc.parts := by
  have hrequired : applications.map required = widers.map required :=
    map_eq_of_narrows h fun _ _ hnarrows => hnarrows.required
  have hcount : applications.countP required = widers.countP required := by
    simpa only [List.countP_map, Function.id_comp] using congrArg (List.countP id) hrequired
  rw [parts_runAll, parts_runAll, hcount]

theorem count_annotations_le (h : List.Forall₂ Narrows applications widers) (m : Member)
    (a : Annotation) :
    (runAll applications m).annotations.count a ≤ (runAll widers m).annotations.count a := by
  have hcalled : a ∈ applications.flatMap calls → a ∈ widers.flatMap calls :=
    fun ha => (flatMap_sublist_of_narrows h fun _ _ hnarrows => hnarrows.calls_sublist).subset ha
  rw [count_annotations_runAll, count_annotations_runAll]
  refine Nat.add_le_add_left ?_ _
  split
  · rename_i hgained
    obtain ⟨hm, ha, hlacks⟩ := hgained
    exact Nat.le_of_eq (if_pos ⟨hm, hcalled ha, hlacks⟩).symm
  · exact Nat.zero_le _

theorem within_runAll (h : List.Forall₂ Narrows applications widers) (m : Member) :
    (runAll applications m).Within (runAll widers m) where
  kind := by rw [kind_runAll, kind_runAll]
  name := by rw [name_runAll, name_runAll]
  typeName := by rw [typeName?_runAll, typeName?_runAll]
  javadoc := parts_runAll_eq h m
  annotations := count_annotations_le h m

/-! ## Options that are off -/

theorem flatMap_calls_of_off (h : ∀ application ∈ applications, application.options = .off) :
    applications.flatMap calls = [] :=
  List.flatMap_eq_nil_iff.2 fun application happlication => calls_of_off (h application happlication)

/-- With every option off, a run leaves the annotations alone and reports its decisions only. -/
theorem runAll_of_off (h : ∀ application ∈ applications, application.options = .off) (m : Member) :
    (runAll applications m).annotations = m.annotations ∧
      branches applications m = applications.map flag := by
  constructor
  · rw [annotations_runAll, flatMap_calls_of_off h, fresh_nil, ite_self, List.append_nil]
  · rw [← filter_isFlag_branches applications m, eq_comm, List.filter_eq_self]
    -- a branch of such a run is the flag of its application, since nothing is called for
    intro branch hbranch
    rw [branches_eq_flatMap] at hbranch
    obtain ⟨application, happlication, hmem⟩ := List.mem_flatMap.1 hbranch
    rw [calls_of_off (h application happlication), List.map_nil, ite_self, List.mem_singleton] at hmem
    rw [hmem, flag]
    split <;> rfl

/-- **Switching options on only adds.** Take two runs on one member that make the same decisions one
after another, the second with every option on that is on in the first. Kind, name, type and comment are
the same after both; each annotation occurs in the first result at most as often as in the second; the
branches of the first run are a sublist of those of the second, with the same decisions in the same
order. With every option off, a run leaves the annotations as they were, and its branches are the
decisions alone. -/
theorem runAll_within_of_narrows (m : Member) :
    (∀ applications widers : List Application, List.Forall₂ Narrows applications widers →
      (runAll applications m).Within (runAll widers m) ∧
        (branches applications m).Sublist (branches widers m) ∧
        (branches applications m).filter Branch.isFlag = (branches widers m).filter Branch.isFlag) ∧
    ∀ applications : List Application,
      (∀ application ∈ applications, application.options = ⟨false, false⟩) →
        (runAll applications m).annotations = m.annotations ∧
          branches applications m = applications.map fun application =>
            if application.required then .required else .notRequired := by
  refine ⟨fun applications widers h => ⟨within_runAll h m, branches_sublist h m, ?_⟩,
    fun applications h => runAll_of_off h m⟩
  rw [filter_isFlag_branches, filter_isFlag_branches]
  exact map_eq_of_narrows h fun _ _ hnarrows => hnarrows.flag

/-- A field that was read with a hint twice. Both runs add the same annotations, but not in the same
order, and without options the field stays as it was. -/
theorem runAll_within_of_narrows_other_order :
    let m : Member := ⟨"id", .empty, .field "Long" [.nullable, .nullable]⟩
    let applications : List Application := [.annotate true ⟨false, true⟩, .annotate true ⟨true, false⟩]
    let widers : List Application := [.annotate true ⟨true, true⟩, .annotate true ⟨true, false⟩]
    let off : List Application := [.apply (.string " true") ⟨"id", none, ⟨false, false⟩⟩]
    (runAll applications m).annotations = [.nullable, .nullable, .nonnull, .notNull] ∧
      (runAll widers m).annotations = [.nullable, .nullable, .notNull, .nonnull] ∧
      (runAll applications m).Within (runAll widers m) ∧
      (branches applications m).Sublist
        [.required, .notNullAnnotated, .nonnullAnnotated, .required, .notNullAnnotated] ∧
      (runAll off m).annotations = m.annotations ∧ branches off m = [.required] := by
  intro m applications widers off
  obtain ⟨hwiden, hoff⟩ := runAll_within_of_narrows m
  have hfirst : (annotate true ⟨false, true⟩).Narrows (annotate true ⟨true, true⟩) :=
    ⟨rfl, by decide, by decide⟩
  have hsecond : (annotate true ⟨true, false⟩).Narrows (annotate true ⟨true, false⟩) :=
    ⟨rfl, by decide, by decide⟩
  obtain ⟨hwithin, hsublist, -⟩ := hwiden applications widers (.cons hfirst (.cons hsecond .nil))
  obtain ⟨hannotations, hbranches⟩ := hoff off (by simp [off, options])
  refine ⟨by decide, by decide, hwithin, hsublist, hannotations, ?_⟩
  rw [hbranches]
  decide +kernel

end Application

end KeywordRules
