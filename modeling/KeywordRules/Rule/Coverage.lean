import KeywordRules.Json.Writer
import KeywordRules.Rule.Branch

/-!
# Branch coverage

How often each branch was taken. There is one counter for each branch, at its index; the counters have 64
bits and wrap around. A report lists the counts in the order of `Branch.all`; it can be shown line by line
or written as JSON.
-/

namespace KeywordRules

open KeywordRules.Json

/-- The counters of the branches, each at the index of its branch. -/
structure Coverage where
  counters : Vector UInt64 5
  deriving DecidableEq, Repr

/-- The counts of all branches at one time. -/
structure Report where
  /-- Each branch with its count. -/
  entries : List (Branch × UInt64)
  deriving DecidableEq, Repr

namespace Coverage

/-- Every counter at zero. -/
def zero : Coverage := ⟨.replicate 5 0⟩

/-- The count of a branch. -/
def count (coverage : Coverage) (branch : Branch) : UInt64 :=
  coverage.counters[branch.index]

/-- The counters after a branch was taken a number of times more. -/
def add (coverage : Coverage) (times : UInt64) (branch : Branch) : Coverage :=
  ⟨coverage.counters.set branch.index (coverage.counters[branch.index] + times)⟩

/-- The counters after a branch was taken once more. -/
def observe (coverage : Coverage) (branch : Branch) : Coverage :=
  coverage.add 1 branch

/-- The counters after a list of branches was taken. -/
def observeAll (coverage : Coverage) (branches : List Branch) : Coverage :=
  branches.foldl observe coverage

/-- The counters after each of them was set back. -/
def reset (coverage : Coverage) : Coverage :=
  ⟨coverage.counters.map fun _ => 0⟩

/-- The counts of all branches. -/
def report (coverage : Coverage) : Report :=
  ⟨Branch.all.map fun branch => (branch, coverage.count branch)⟩

/-- The counters are given by the counts of the branches. -/
theorem ext_count {coverage coverage' : Coverage}
    (h : ∀ branch, coverage.count branch = coverage'.count branch) : coverage = coverage' := by
  obtain ⟨counters⟩ := coverage
  obtain ⟨counters'⟩ := coverage'
  refine congrArg mk (Vector.ext fun i hi => ?_)
  obtain ⟨branch, hbranch⟩ := Branch.exists_index_eq ⟨i, hi⟩
  have hcount := h branch
  simp only [count, hbranch] at hcount
  exact hcount

@[simp] theorem count_zero (branch : Branch) : zero.count branch = 0 :=
  Vector.getElem_replicate branch.index.isLt

/-- Adding to a counter leaves the others alone. -/
theorem count_add (coverage : Coverage) (times : UInt64) (taken branch : Branch) :
    (coverage.add times taken).count branch =
      coverage.count branch + if taken = branch then times else 0 := by
  simp only [count, add, Fin.getElem_fin, Vector.getElem_set]
  by_cases h : taken = branch
  · rw [h, if_pos rfl, if_pos rfl]
  · have hindex : ¬taken.index.val = branch.index.val := fun heq =>
      h (Branch.index_injective (Fin.val_inj.1 heq))
    rw [if_neg h, if_neg hindex, UInt64.add_zero]

/-- After a reset every counter is at zero. -/
theorem reset_eq_zero (coverage : Coverage) : coverage.reset = zero := by
  refine ext_count fun branch => ?_
  rw [count_zero]
  exact Vector.getElem_map _ branch.index.isLt

/-- Each counter grows by the number of times its branch was taken, modulo 2^64. -/
theorem count_observeAll (coverage : Coverage) (branches : List Branch) (branch : Branch) :
    (coverage.observeAll branches).count branch =
      coverage.count branch + UInt64.ofNat (branches.count branch) := by
  induction branches generalizing coverage with
  | nil => simp [observeAll]
  | cons taken rest ih =>
    rw [observeAll, List.foldl_cons, ← observeAll, ih, observe, count_add, List.count_cons]
    by_cases h : taken = branch
    · have one : UInt64.ofNat 1 = 1 := rfl
      simp only [h, if_true, beq_self_eq_true, UInt64.ofNat_add, one]
      ac_rfl
    · simp [h]

end Coverage

namespace Report

/-- The branches that were never taken. -/
def uncovered (report : Report) : List Branch :=
  (report.entries.filter fun entry => entry.2 == 0).map Prod.fst

/-- The line of an entry. -/
def line (entry : Branch × UInt64) : List Char :=
  entry.1.label.toList ++ ':' :: ' ' :: (Text.digits entry.2.toNat ++ ['\n'])

/-- A report line by line. -/
def display (report : Report) : String :=
  String.ofList (report.entries.flatMap line)

/-- The JSON form of an entry. -/
def entryDocument (entry : Branch × UInt64) : Document :=
  .record [("branch", .text entry.1.word), ("count", .int entry.2.toNat)]

/-- The JSON form of a report. -/
def toDocument (report : Report) : Document :=
  .record [("entries", .list (report.entries.map entryDocument))]

/-- The compact text of a report. -/
def compact (report : Report) : String :=
  report.toDocument.compact

end Report

end KeywordRules
