import KeywordRules.Proofs.Accounting
import KeywordRules.Session

/-!
# The coverage of a session

A session uses its coverage as `Coverage.after` says: `Session.usages` names the usages that a step comes
to in a given session, and the coverage after the step is the one after these usages
(`coverage_step`), hence also over runs (`coverage_run`). What is known of the counters after a list of
usages therefore holds in every session (`count_coverage_run`).
-/

namespace KeywordRules

open KeywordRules.Json

namespace Coverage

theorem after_append (coverage : Coverage) (usages usages' : List Usage) :
    coverage.after (usages ++ usages') = (coverage.after usages).after usages' :=
  List.foldl_append

/-- Usages without a reset observe their branches one after another. -/
theorem after_of_not_isReset (coverage : Coverage) {usages : List Usage}
    (h : ∀ usage ∈ usages, usage.isReset = false) :
    coverage.after usages = coverage.observeAll (usages.flatMap Usage.branches) := by
  induction usages generalizing coverage with
  | nil => rfl
  | cons usage usages ih =>
    obtain ⟨husage, husages⟩ := List.forall_mem_cons.1 h
    have hstep : coverage.step usage = coverage.observeAll usage.branches := by
      rw [step, husage]
      rfl
    rw [after, List.foldl_cons, ← after, ih _ husages, hstep, List.flatMap_cons, observeAll,
      observeAll, observeAll, List.foldl_append]

/-- Observing a branch many times is the same as adding the number of times. -/
theorem after_replicate_observe (coverage : Coverage) (branch : Branch) (times : Nat) :
    coverage.after (List.replicate times (.observe branch)) =
      coverage.add (UInt64.ofNat times) branch := by
  rw [after_of_not_isReset coverage fun usage husage => by rw [List.eq_of_mem_replicate husage]; rfl]
  have hbranches : (List.replicate times (Usage.observe branch)).flatMap Usage.branches =
      List.replicate times branch := by
    induction times with
    | zero => rfl
    | succ times ih =>
      rw [List.replicate_succ, List.flatMap_cons, ih]
      rfl
  -- both sides agree on the counter of the branch, and leave the others alone
  refine ext_count fun other => ?_
  rw [hbranches, count_observeAll, count_add, List.count_replicate]
  by_cases h : branch = other <;> simp [h]

end Coverage

namespace Session

/-- A rule as a step of a session uses it. -/
def handle (reports : Bool) : Handle :=
  if reports then .reporting else .silent

/-- What a step of a session comes to for the coverage. -/
def usages (s : Session) : Step → List Usage
  | .annotate id required reports =>
    (s.member? id).toList.map (.annotate (handle reports) required s.options)
  | .apply id node nodeName parent reports =>
    match s.member? id, Value.parse node, parseOptional parent with
    | some member, .ok node, .ok parent =>
      [.apply (handle reports) node ⟨nodeName, parent, s.options⟩ member]
    | _, _, _ => []
  | .dispatch id parent nodeName reports =>
    match s.member? id, Value.parse parent with
    | some member, .ok parent =>
      (parent.get? Required.keyword).toList.map fun node =>
        .apply (handle reports) node ⟨nodeName, some parent, s.options⟩ member
    | _, _ => []
  | .observe branch times => List.replicate times (.observe branch)
  | .report => [.report]
  | .reset => [.reset]
  | .parallel id threads =>
    (s.member? id).toList.flatMap fun member =>
      (List.range threads).map fun i => .annotate .reporting (i % 2 == 0) s.options member
  | _ => []

/-- What the steps of a run come to for the coverage. -/
def runUsages (s : Session) : List Step → List Usage
  | [] => []
  | step :: steps => s.usages step ++ (s.step step).1.runUsages steps

/-! ## One step -/

/-- An application through a rule of the session is one usage. -/
theorem after_annotate (coverage : Coverage) (reports required : Bool) (options : Options)
    (target : Member) :
    coverage.after [.annotate (handle reports) required options target] =
      coverage.observeAll
        (if reports then (Required.annotate required options target).branches else []) := by
  cases reports <;> rfl

theorem after_apply (coverage : Coverage) (reports : Bool) (node : Value) (context : Context)
    (target : Member) :
    coverage.after [.apply (handle reports) node context target] =
      coverage.observeAll (if reports then (Required.apply node context target).branches else []) := by
  cases reports <;> rfl

/-- Looking a member up leaves the coverage alone where what comes after it does. -/
theorem coverage_withMember {s : Session} {id : String} {go : Member → Session × Reply}
    (h : ∀ member, (go member).1.coverage = s.coverage) :
    (s.withMember id go).1.coverage = s.coverage := by
  rw [withMember]
  split
  · exact h _
  · rfl

/-- So does reading a text. -/
theorem coverage_withRead {α : Type} {s : Session} {read : Except Fault α}
    {go : α → Session × Reply} (h : ∀ a, (go a).1.coverage = s.coverage) :
    (s.withRead read go).1.coverage = s.coverage := by
  cases read with
  | error fault => rfl
  | ok a => exact h a

/-- A step does to the coverage what its usages do. -/
theorem coverage_step (s : Session) (step : Step) :
    (s.step step).1.coverage = s.coverage.after (s.usages step) := by
  cases step with
  | create id member => rfl
  | parse id text => exact coverage_withRead fun member => rfl
  | copy source id => exact coverage_withMember fun member => rfl
  -- a step that applies a rule is one usage, if it finds its member and its texts can be read
  | annotate id required reports =>
    simp only [Session.step, withMember, usages]
    cases s.member? id with
    | none => rfl
    | some member => exact (after_annotate _ _ _ _ _).symm
  | apply id node nodeName parent reports =>
    simp only [Session.step, withMember, withRead, usages]
    cases s.member? id with
    | none => rfl
    | some member =>
      cases Value.parse node with
      | error fault => rfl
      | ok node =>
        cases parseOptional parent with
        | error fault => rfl
        | ok parent => exact (after_apply _ _ _ _ _).symm
  | dispatch id parent nodeName reports =>
    simp only [Session.step, withMember, withRead, usages, Required.dispatch]
    cases s.member? id with
    | none => rfl
    | some member =>
      cases Value.parse parent with
      | error fault => rfl
      | ok parent =>
        dsimp only
        cases parent.get? Required.keyword with
        | none => rfl
        | some node => exact (after_apply _ _ _ _ _).symm
  | append id texts => exact coverage_withMember fun member => rfl
  | clearJavadoc id => exact coverage_withMember fun member => rfl
  | attach id annotation => exact coverage_withRead fun a => coverage_withMember fun member => rfl
  | inspect id => exact coverage_withMember fun member => rfl
  | carries id annotation => exact coverage_withRead fun a => coverage_withMember fun member => rfl
  | compare first second => exact coverage_withMember fun a => coverage_withMember fun b => rfl
  -- the other usages are steps of their own
  | observe branch times => exact (Coverage.after_replicate_observe _ _ _).symm
  | report => rfl
  | reset => rfl
  | parallel id threads =>
    simp only [Session.step, withMember, usages]
    cases s.member? id with
    | none => rfl
    | some member =>
      -- each thread is one more usage, and the threads take turns
      simp only [Option.toList_some, List.flatMap_singleton, Coverage.after, alternate, List.foldl_map]
      rfl
  | setOptions notNull nullability => rfl
  | readOptions text =>
    simp only [Session.step]
    cases Config.parse Config.filename text <;> rfl

/-! ## A run -/

/-- A run does to the coverage what its usages do. -/
theorem coverage_run (s : Session) (steps : List Step) :
    (s.run steps).1.coverage = s.coverage.after (s.runUsages steps) := by
  induction steps generalizing s with
  | nil => rfl
  | cons step steps ih =>
    rw [runUsages, Coverage.after_append, ← coverage_step]
    exact ih (s.step step).1

/-- Each counter of a session is, modulo 2^64, what it starts from and the occurrences of its branch
since the last reset. -/
theorem count_coverage_run (s : Session) (steps : List Step) (branch : Branch) :
    (s.run steps).1.coverage.count branch =
      UInt64.ofNat (s.coverage.base (s.runUsages steps) branch +
        Usage.total branch (Usage.sinceReset (s.runUsages steps))) := by
  rw [coverage_run, Coverage.count_after]

end Session

end KeywordRules
