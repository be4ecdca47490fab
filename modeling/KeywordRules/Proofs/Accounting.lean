import KeywordRules.Proofs.Application
import KeywordRules.Rule.Coverage
import Mathlib.Data.List.DropRight

/-!
# What the counters of a coverage say

A coverage is used by applications of the rule, by branches that are observed directly, by resets and
by reports. `Coverage.after` makes a list of such usages one after another and `Coverage.replies` gives
the reports on the way.

Every counter is, modulo 2^64, the number of times its branch occurred since the last reset, on top of
the starting value where there was no reset (`count_after`). How often a branch occurs in an application
is read off the flag, the options and the kind of the target (`Branch.isTaken`), not off the member: an
annotation that a field carries already occurs again. Where the counters start at zero and cannot wrap,
they balance (`balanced_after`).
-/

namespace KeywordRules

/-- How a rule came to be. -/
inductive Handle where
  /-- A rule that reports to nobody. -/
  | silent
  /-- A rule that was made to report to the coverage. -/
  | reporting
  /-- A copy of a rule; it shares the observer of its original. -/
  | copy (original : Handle)

/-- Whether the applications of a rule are reported to the coverage. -/
def Handle.reports : Handle → Bool
  | .silent => false
  | .reporting => true
  | .copy original => original.reports

/-- A usage of a coverage. -/
inductive Usage where
  /-- A rule is applied to a member for a flag. -/
  | annotate (rule : Handle) (required : Bool) (options : Options) (target : Member)
  /-- A rule is applied to a member for a node. -/
  | apply (rule : Handle) (node : Json.Value) (context : Context) (target : Member)
  /-- A branch is observed without any rule. -/
  | observe (branch : Branch)
  /-- The counters are reset. -/
  | reset
  /-- The counts are asked for. -/
  | report

namespace Usage

/-- The branches that the coverage is told of, in their order. -/
def branches : Usage → List Branch
  | .annotate rule required options target =>
    if rule.reports then (Required.annotate required options target).branches else []
  | .apply rule node context target =>
    if rule.reports then (Required.apply node context target).branches else []
  | .observe branch => [branch]
  | .reset | .report => []

/-- Whether a usage resets the counters. -/
def isReset : Usage → Bool
  | .reset => true
  | _ => false

/-- Whether a usage is a direct observation. -/
def isObservation : Usage → Bool
  | .observe _ => true
  | _ => false

/-- Whether a usage is an application through a rule that reports to the coverage. -/
def isReported : Usage → Bool
  | .annotate rule _ _ _ => rule.reports
  | .apply rule _ _ _ => rule.reports
  | _ => false

/-- Whether a usage is such an application to a field with the hint flag on. -/
def isHinted : Usage → Bool
  | .annotate rule _ options target => rule.reports && target.isField && options.nullability
  | .apply rule _ context target => rule.reports && target.isField && context.options.nullability
  | _ => false

end Usage

/-! ## Running usages -/

namespace Coverage

/-- The counters after a usage. -/
def step (coverage : Coverage) (usage : Usage) : Coverage :=
  if usage.isReset then coverage.reset else coverage.observeAll usage.branches

/-- The counters after a list of usages. -/
def after (coverage : Coverage) (usages : List Usage) : Coverage :=
  usages.foldl step coverage

/-- What a usage is answered with: a report where the counts are asked for. -/
def reply (coverage : Coverage) : Usage → Option Report
  | .report => some coverage.report
  | _ => none

/-- The answers to a list of usages, one for each. -/
def replies (coverage : Coverage) : List Usage → List (Option Report)
  | [] => []
  | usage :: usages => coverage.reply usage :: (coverage.step usage).replies usages

theorem after_concat (coverage : Coverage) (usages : List Usage) (usage : Usage) :
    coverage.after (usages ++ [usage]) = (coverage.after usages).step usage := by
  rw [after, List.foldl_append, List.foldl_cons, List.foldl_nil, after]

/-- A usage is answered by the counters that the usages before it have left. -/
theorem replies_getElem? (coverage : Coverage) (usages : List Usage) (i : Nat) :
    (coverage.replies usages)[i]? = usages[i]?.map (coverage.after (usages.take i)).reply := by
  induction usages generalizing coverage i with
  | nil => rfl
  | cons usage usages ih =>
    cases i with
    | zero => rfl
    | succ i => exact ih (coverage.step usage) i

end Coverage

/-! ## What a usage adds to a counter -/

/-- Whether a branch is taken when the rule is applied for a flag with options to a target. -/
def Branch.isTaken (required : Bool) (options : Options) (target : Member) : Branch → Bool
  | .required => required
  | .notNullAnnotated => required && target.isField && options.notNull
  | .nonnullAnnotated => required && target.isField && options.nullability
  | .notRequired => !required
  | .nullableAnnotated => !required && target.isField && options.nullability

/-- An application reports each branch that is taken once, and no other one. -/
theorem Required.count_branches_annotate (required : Bool) (options : Options) (target : Member)
    (branch : Branch) :
    (annotate required options target).branches.count branch =
      (branch.isTaken required options target).toNat := by
  obtain ⟨notNull, nullability⟩ := options
  rw [branches_annotate]
  cases htarget : target.isField <;> cases branch <;> cases required <;> cases notNull <;>
    cases nullability <;> simp [Branch.isTaken, calledFor, htarget, Annotation.branch]

namespace Usage

/-- How often a branch occurs in a usage. -/
def tally (branch : Branch) : Usage → Nat
  | .annotate rule required options target =>
    if rule.reports then (branch.isTaken required options target).toNat else 0
  | .apply rule node context target =>
    if rule.reports then (branch.isTaken node.asBoolean context.options target).toNat else 0
  | .observe taken => if taken = branch then 1 else 0
  | .reset | .report => 0

theorem count_branches (branch : Branch) (usage : Usage) :
    usage.branches.count branch = usage.tally branch := by
  cases usage with
  | annotate rule required options target =>
    simp only [branches, tally]
    split
    · exact Required.count_branches_annotate required options target branch
    · rfl
  | apply rule node context target =>
    simp only [branches, tally]
    split
    · exact Required.count_branches_annotate node.asBoolean context.options target branch
    · rfl
  | observe taken => simp [branches, tally, List.count_cons]
  | reset => rfl
  | report => rfl

/-- The usages since the last reset. -/
def sinceReset (usages : List Usage) : List Usage :=
  usages.rtakeWhile fun usage => !usage.isReset

/-- A reset at the end leaves nothing, any other usage is one more. -/
theorem sinceReset_concat (usages : List Usage) (usage : Usage) :
    sinceReset (usages ++ [usage]) = if usage.isReset then [] else sinceReset usages ++ [usage] := by
  rw [sinceReset, List.rtakeWhile_concat, ← sinceReset]
  cases usage.isReset <;> rfl

/-- How often a branch occurs in a list of usages. -/
def total (branch : Branch) : List Usage → Nat
  | [] => 0
  | usage :: usages => usage.tally branch + total branch usages

theorem total_concat (branch : Branch) (usages : List Usage) (usage : Usage) :
    total branch (usages ++ [usage]) = total branch usages + usage.tally branch := by
  induction usages with
  | nil => exact Nat.add_comm _ _
  | cons first usages ih => rw [List.cons_append, total, ih, total, Nat.add_assoc]

end Usage

/-! ## The counters after a run -/

namespace Coverage

open Usage

/-- A reset clears every counter; any other usage adds to it what it tallies. -/
theorem count_step (coverage : Coverage) (usage : Usage) (branch : Branch) :
    (coverage.step usage).count branch =
      if usage.isReset then 0 else coverage.count branch + UInt64.ofNat (usage.tally branch) := by
  rw [step]
  split
  · rw [reset_eq_zero, count_zero]
  · rw [count_observeAll, count_branches]

/-- What a counter starts from since the last reset: zero after a reset, else its first value. -/
def base (coverage : Coverage) (usages : List Usage) (branch : Branch) : Nat :=
  if usages.any isReset then 0 else (coverage.count branch).toNat

/-- Each counter is, modulo 2^64, what it starts from and the occurrences since the last reset. -/
theorem count_after (coverage : Coverage) (usages : List Usage) (branch : Branch) :
    (coverage.after usages).count branch =
      UInt64.ofNat (coverage.base usages branch + total branch (sinceReset usages)) := by
  -- from the right, since a reset at the end forgets everything before it
  induction usages using List.reverseRecOn with
  | nil => simp [after, base, sinceReset, total]
  | append_singleton usages usage ih =>
    rw [after_concat, count_step, ih, sinceReset_concat]
    by_cases hreset : usage.isReset = true
    · simp [base, hreset, total]
    · have hbase : coverage.base (usages ++ [usage]) branch = coverage.base usages branch := by
        simp [base, hreset]
      rw [if_neg hreset, if_neg hreset, hbase, total_concat, ← UInt64.ofNat_add, Nat.add_assoc]

end Coverage

/-! ## Balance -/

/-- Counts of branches that belong to a number of applications, of which some were applications to a
field with the hint flag on. -/
structure Balanced (count : Branch → Nat) (applications hinted : Nat) : Prop where
  /-- Each application was required or not. -/
  flags : count .required + count .notRequired = applications
  /-- The constraint is a matter of required applications. -/
  constraints : count .notNullAnnotated ≤ count .required
  /-- So is the hint that a field is never null. -/
  nonnull : count .nonnullAnnotated ≤ count .required
  /-- The other hint is a matter of the other applications. -/
  nullable : count .nullableAnnotated ≤ count .notRequired
  /-- Each application to a field with the hint flag on gives one of the hints. -/
  hints : count .nonnullAnnotated + count .nullableAnnotated = hinted

/-- Counts that balance add up to counts that balance. -/
theorem Balanced.add {count count' : Branch → Nat} {applications applications' hinted hinted' : Nat}
    (h : Balanced count applications hinted) (h' : Balanced count' applications' hinted') :
    Balanced (fun branch => count branch + count' branch) (applications + applications')
      (hinted + hinted') := by
  obtain ⟨hflags, hconstraints, hnonnull, hnullable, hhints⟩ := h
  obtain ⟨hflags', hconstraints', hnonnull', hnullable', hhints'⟩ := h'
  constructor <;> omega

namespace Usage

/-- One application balances, whatever it finds on the member. -/
theorem balanced_annotate (rule : Handle) (required : Bool) (options : Options) (target : Member) :
    Balanced (fun branch => (annotate rule required options target).tally branch)
      rule.reports.toNat (rule.reports && target.isField && options.nullability).toNat := by
  obtain ⟨notNull, nullability⟩ := options
  constructor <;> simp only [tally, Branch.isTaken] <;> cases rule.reports <;> cases required <;>
    cases target.isField <;> cases notNull <;> cases nullability <;> decide

/-- A usage that is no direct observation balances. -/
theorem balanced_tally {usage : Usage} (h : usage.isObservation = false) :
    Balanced (fun branch => usage.tally branch) usage.isReported.toNat usage.isHinted.toNat := by
  cases usage with
  | annotate rule required options target => exact balanced_annotate rule required options target
  | apply rule node context target =>
    exact balanced_annotate rule node.asBoolean context.options target
  | observe branch => cases h
  | reset => constructor <;> decide
  | report => constructor <;> decide

/-- A run without direct observations balances. -/
theorem balanced_total {usages : List Usage} (h : ∀ usage ∈ usages, usage.isObservation = false) :
    Balanced (fun branch => total branch usages) (usages.countP isReported)
      (usages.countP isHinted) := by
  induction usages with
  | nil => constructor <;> decide
  | cons usage usages ih =>
    have hrest := ih fun usage hu => h usage (List.mem_cons_of_mem _ hu)
    have hcountP : ∀ p : Usage → Bool, (usage :: usages).countP p =
        (p usage).toNat + usages.countP p := by
      intro p
      rw [List.countP_cons, Nat.add_comm]
      cases p usage <;> rfl
    simp only [hcountP, total]
    exact (balanced_tally (h usage List.mem_cons_self)).add hrest

end Usage

/-! ## Reports of a run -/

/-- The count of a branch in a report. -/
def Report.count (report : Report) (branch : Branch) : Nat :=
  ((report.entries.lookup branch).getD 0).toNat

namespace Coverage

open Usage

theorem count_report (coverage : Coverage) (branch : Branch) :
    coverage.report.count branch = (coverage.count branch).toNat := by
  cases branch <;> rfl

/-- A report lists every branch once. -/
theorem branches_report (coverage : Coverage) (branch : Branch) :
    (coverage.report.entries.map Prod.fst).count branch = 1 := by
  cases branch <;> rfl

/-- From zero, without direct observations and with fewer than 2^64 applications, the counters
balance. -/
theorem balanced_after (coverage : Coverage) (usages : List Usage)
    (hzero : coverage = .zero ∨ usages.any isReset = true)
    (hobserved : ∀ usage ∈ sinceReset usages, usage.isObservation = false)
    (hfew : (sinceReset usages).countP isReported < UInt64.size) :
    Balanced (coverage.after usages).report.count ((sinceReset usages).countP isReported)
      ((sinceReset usages).countP isHinted) := by
  have htotal := balanced_total hobserved
  -- the counters start from zero, before the run or at the last reset
  have hbase : ∀ branch, coverage.base usages branch = 0 := by
    intro branch
    rw [base]
    split
    · rfl
    · rcases hzero with rfl | hreset
      · simp
      · contradiction
  -- no branch occurs more often than there are applications, so no counter wraps
  have hbound : ∀ branch, total branch (sinceReset usages) < UInt64.size := by
    obtain ⟨hflags, hconstraints, hnonnull, hnullable, -⟩ := htotal
    intro branch
    cases branch <;> omega
  have hcount : (coverage.after usages).report.count =
      fun branch => total branch (sinceReset usages) := by
    funext branch
    rw [count_report, count_after, hbase, Nat.zero_add]
    exact UInt64.toNat_ofNat_of_lt' (hbound branch)
  rw [hcount]
  exact htotal

/-- **Accounting of a coverage over whole runs.** Every report of a run lists each branch once, in the
order of `Branch.all`, with the occurrences since the last reset on top of what the counter started
from, modulo 2^64. Where the counters started at zero, nothing was observed directly and fewer than
2^64 applications were reported since, the counts balance. -/
theorem replies_account (coverage : Coverage) (usages : List Usage) (i : Nat)
    (hi : usages[i]? = some .report) :
    ∃ report : Report,
      (coverage.replies usages)[i]? = some (some report) ∧
      (∀ branch, (report.entries.map Prod.fst).count branch = 1) ∧
      report.entries = Branch.all.map (fun branch =>
        (branch, UInt64.ofNat (coverage.base (usages.take i) branch +
          total branch (sinceReset (usages.take i))))) ∧
      ((coverage = .zero ∨ (usages.take i).any isReset = true) →
        (∀ usage ∈ sinceReset (usages.take i), usage.isObservation = false) →
        (sinceReset (usages.take i)).countP isReported < UInt64.size →
        Balanced report.count ((sinceReset (usages.take i)).countP isReported)
          ((sinceReset (usages.take i)).countP isHinted)) := by
  refine ⟨(coverage.after (usages.take i)).report, ?_, branches_report _, ?_,
    balanced_after coverage (usages.take i)⟩
  · rw [replies_getElem?, hi, Option.map_some, reply]
  · rw [report]
    refine List.map_congr_left fun branch _ => ?_
    rw [count_after]

/-- The counters of a full coverage balance again after a reset: of two applications to a field that
carries the constraint already, the one through a copy of a copy is reported. -/
theorem replies_account_reset :
    let field : Member := ⟨"id", .empty, .field "Long" [.notNull]⟩
    let usages : List Usage :=
      [.observe .required, .reset, .annotate (.copy (.copy .reporting)) true ⟨true, true⟩ field,
        .annotate (.copy .silent) false ⟨true, true⟩ field, .report]
    ∃ report : Report,
      (replies ⟨#v[18446744073709551615, 7, 7, 7, 7]⟩ usages)[4]? = some (some report) ∧
        report.entries = [(.required, 1), (.notNullAnnotated, 1), (.nonnullAnnotated, 1),
          (.notRequired, 0), (.nullableAnnotated, 0)] ∧
        Balanced report.count 1 1 := by
  intro field usages
  obtain ⟨report, hreply, -, hentries, hbalanced⟩ :=
    replies_account ⟨#v[18446744073709551615, 7, 7, 7, 7]⟩ usages 4 rfl
  exact ⟨report, hreply, hentries, hbalanced (.inr rfl) (by decide) (by decide)⟩

end Coverage

end KeywordRules
