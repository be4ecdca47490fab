import KeywordRules.Proofs.Runs
import KeywordRules.Rule.Coverage

/-!
# Order and repetition of applications

Two runs that make the same applications in different orders leave members that differ in nothing but
the order of their annotations, and report each branch equally often. An application that was made
before, at whatever place of a run and perhaps with more flags on, adds nothing but its note when it is
made again (`runAll_reorders_and_absorbs`).

Both follow from what a run adds: how often an annotation occurs afterwards depends on which annotations
are called for, not on when; and a field carries everything that was called for before.
-/

namespace KeywordRules

namespace Member

/-- Two members that differ in nothing but the order of their annotations. -/
structure SameUpToOrder (m m' : Member) : Prop where
  kind : m.role.kind = m'.role.kind
  name : m.name = m'.name
  typeName : m.typeName? = m'.typeName?
  javadoc : m.javadoc.parts = m'.javadoc.parts
  annotations : ∀ a, m.annotations.count a = m'.annotations.count a

/-- Attaching an annotation that a member carries changes nothing. -/
theorem attach_of_mem {a : Annotation} {m : Member} (ha : a ∈ m.annotations) : m.attach a = m := by
  obtain h | ⟨typeName, as, hrole, hlacks, -⟩ := attach_eq a m
  · exact h
  · rw [annotations, hrole] at ha
    exact absurd ha hlacks

theorem attachAll_of_forall_mem {as : List Annotation} {m : Member}
    (h : ∀ a ∈ as, a ∈ m.annotations) : m.attachAll as = m := by
  induction as with
  | nil => rfl
  | cons a as ih =>
    obtain ⟨ha, has⟩ := List.forall_mem_cons.1 h
    rw [attachAll_cons, attach_of_mem ha, ih has]

end Member

/-- What is due stays due when flags are switched on. -/
theorem Annotation.isDue_of_le {required : Bool} {options options' : Options}
    (hnotNull : options.notNull ≤ options'.notNull)
    (hnullability : options.nullability ≤ options'.nullability) {a : Annotation}
    (ha : a.isDue required options = true) : a.isDue required options' = true := by
  cases a <;> simp only [isDue, Bool.and_eq_true] at ha ⊢
  case notNull => exact ha.imp_right hnotNull
  case nonnull => exact ha.imp_right hnullability
  case nullable => exact ha.imp_right hnullability

/-- More flags call for more annotations. -/
theorem Required.mem_calledFor_of_le {required : Bool} {options options' : Options}
    (hnotNull : options.notNull ≤ options'.notNull)
    (hnullability : options.nullability ≤ options'.nullability) {a : Annotation}
    (ha : a ∈ calledFor required options) : a ∈ calledFor required options' := by
  rw [calledFor_eq_filter, List.mem_filter] at ha ⊢
  have hdue := Annotation.isDue_of_le hnotNull hnullability ha.2
  exact ⟨ha.1, hdue⟩

namespace Application

/-! ## Order -/

/-- The branches of a run are those of its applications, which depend on the member only in being a
field or not. -/
theorem branches_eq_flatMap (applications : List Application) (m : Member) :
    branches applications m = applications.flatMap fun application =>
      application.flag ::
        if m.isField = true then application.calls.map Annotation.branch else [] := by
  induction applications generalizing m with
  | nil => rfl
  | cons application applications ih =>
    have hrest := ih (application.run m).member
    rw [isField_run] at hrest
    rw [List.flatMap_cons, ← hrest, ← branches_run]
    rfl

/-- A field has every annotation as often as before, and once if it is called for and was not there. -/
theorem count_annotations_runAll (applications : List Application) (m : Member) (a : Annotation) :
    (runAll applications m).annotations.count a =
      m.annotations.count a +
        if m.isField = true ∧ a ∈ applications.flatMap calls ∧ a ∉ m.annotations then 1 else 0 := by
  rw [annotations_runAll, List.count_append]
  by_cases hm : m.isField = true
  · rw [if_pos hm, (nodup_fresh _ _).count]
    simp only [mem_fresh, hm, true_and]
  · simp [hm]

/-- The order of the applications shows in the order of the annotations only. -/
theorem sameUpToOrder_runAll {applications applications' : List Application}
    (h : applications.Perm applications') (m : Member) :
    (runAll applications m).SameUpToOrder (runAll applications' m) where
  kind := by rw [kind_runAll, kind_runAll]
  name := by rw [name_runAll, name_runAll]
  typeName := by rw [typeName?_runAll, typeName?_runAll]
  javadoc := by rw [parts_runAll, parts_runAll, h.countP_eq]
  annotations := by
    intro a
    simp only [count_annotations_runAll, (h.flatMap_right calls).mem_iff]

/-! ## Repetition -/

/-- A field carries what a run has called for. -/
theorem mem_annotations_runAll {applications : List Application} {application : Application}
    (h : application ∈ applications) {m : Member} (hm : m.isField = true) {a : Annotation}
    (ha : a ∈ application.calls) : a ∈ (runAll applications m).annotations := by
  rw [annotations_runAll, if_pos hm, List.mem_append, mem_fresh]
  by_cases hheld : a ∈ m.annotations
  · exact .inl hheld
  · exact .inr ⟨List.mem_flatMap.2 ⟨application, h, ha⟩, hheld⟩

/-- An application that calls for nothing that a field lacks changes the comment only. -/
theorem member_run_of_forall_mem {application : Application} {m : Member}
    (h : m.isField = true → ∀ a ∈ application.calls, a ∈ m.annotations) :
    (application.run m).member =
      { m with javadoc :=
          ⟨m.javadoc.parts ++ if application.required then ["\n(Required)"] else []⟩ } := by
  have hrun : (application.run m).member =
      (if application.required then m.document Required.note else m).attachAll
        (if m.isField = true then application.calls else []) := by
    cases application with
    | annotate required options => exact Required.member_annotate required options m
    | apply node context => exact Required.member_annotate node.asBoolean context.options m
  have hrole : (if application.required then m.document Required.note else m).role = m.role := by
    split <;> rfl
  rw [hrun, Member.attachAll_of_forall_mem]
  · split
    · rfl
    · rw [List.append_nil]
  · rw [Member.annotations_congr hrole]
    split
    · rename_i hm
      exact h hm
    · exact fun a ha => absurd ha List.not_mem_nil

/-- **Runs of the rule are indifferent to order and absorb repetition.** Two runs on one member that
make the same applications in different orders leave members that differ in nothing but the order of
their annotations, and raise each counter of a coverage by the same amount. After a run, an application
for the same flag as one of the run and with no flag on that was off then changes nothing but the
comment, which gains one more note at its end if the member is required. -/
theorem runAll_reorders_and_absorbs (m : Member) :
    (∀ applications applications' : List Application, applications.Perm applications' →
      (runAll applications m).SameUpToOrder (runAll applications' m) ∧
      ∃ amount : Branch → UInt64, ∀ (coverage : Coverage) (branch : Branch),
        (coverage.observeAll (branches applications m)).count branch =
            coverage.count branch + amount branch ∧
          (coverage.observeAll (branches applications' m)).count branch =
            coverage.count branch + amount branch) ∧
    ∀ (applications : List Application) (earlier later : Application), earlier ∈ applications →
      later.required = earlier.required → later.options.notNull ≤ earlier.options.notNull →
      later.options.nullability ≤ earlier.options.nullability →
      let left := runAll applications m
      (later.run left).member =
        { left with javadoc :=
            ⟨left.javadoc.parts ++ if later.required then ["\n(Required)"] else []⟩ } := by
  refine ⟨fun applications applications' h => ⟨sameUpToOrder_runAll h m, ?_⟩, ?_⟩
  · have hbranches : (branches applications m).Perm (branches applications' m) := by
      rw [branches_eq_flatMap, branches_eq_flatMap]
      exact h.flatMap_right _
    refine ⟨fun branch => UInt64.ofNat ((branches applications m).count branch),
      fun coverage branch => ⟨coverage.count_observeAll _ branch, ?_⟩⟩
    rw [Coverage.count_observeAll, ← hbranches.count_eq]
  · intro applications earlier later hearlier hrequired hnotNull hnullability left
    refine member_run_of_forall_mem fun hfield a ha => ?_
    have hm : m.isField = true := (isField_runAll applications m).symm.trans hfield
    refine mem_annotations_runAll hearlier hm ?_
    rw [calls, hrequired] at ha
    exact Required.mem_calledFor_of_le hnotNull hnullability ha

/-- A field with a hint read twice. The two orders of two applications show in its annotations, and an
application with fewer flags than the first one is absorbed. -/
theorem runAll_reorders_and_absorbs_hint_read_twice :
    let m : Member := ⟨"id", .empty, .field "Long" [.nonnull, .nonnull]⟩
    let first : Application := .annotate true ⟨true, true⟩
    let second : Application := .annotate false ⟨false, true⟩
    (runAll [first, second] m).annotations = [.nonnull, .nonnull, .notNull, .nullable] ∧
      (runAll [second, first] m).annotations = [.nonnull, .nonnull, .nullable, .notNull] ∧
      (runAll [first, second] m).SameUpToOrder (runAll [second, first] m) ∧
      ((annotate true ⟨true, false⟩).run (runAll [first, second] m)).member =
        ⟨"id", ⟨["\n(Required)", "\n(Required)"]⟩,
          .field "Long" [.nonnull, .nonnull, .notNull, .nullable]⟩ := by
  intro m first second
  obtain ⟨hperm, habsorb⟩ := runAll_reorders_and_absorbs m
  refine ⟨by decide, by decide, (hperm _ _ (.swap second first [])).1, ?_⟩
  rw [habsorb [first, second] first (annotate true ⟨true, false⟩) List.mem_cons_self rfl (by decide)
    (by decide)]
  decide

end Application

end KeywordRules
