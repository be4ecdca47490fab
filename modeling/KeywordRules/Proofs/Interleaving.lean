import KeywordRules.Proofs.SessionCoverage

/-!
# Threads that share a coverage

A call of the rule is a short program: it reports branches and changes a member that nobody else has.
A `Pool` holds threads, each with calls to make one after another, and the coverage that all of them
report to. One step of a pool is one instruction of one thread, so a branch is reported in one atomic
step; a schedule says which thread moves next, and every schedule is allowed.

However the threads are scheduled, what a thread will have returned (`Thread.results`) never changes,
and neither does the coverage that the pool is heading for (`Pool.heading`): the counters so far with all
branches that are still due. Both are kept by one step and hence by every run. Once all threads are done
nothing is due, so the pool is where it was heading for (`run_account`). The order of the reports does
not matter because the counters only see how often a branch was reported.
-/

namespace KeywordRules

/-! ## A call as a program -/

/-- What a thread does in one step of a call. -/
inductive Instruction where
  /-- A branch is reported to the coverage. -/
  | observe (branch : Branch)
  /-- A part is appended to the comment of the member. -/
  | document (part : String)
  /-- An annotation is attached to the member. -/
  | attach (a : Annotation)
  deriving DecidableEq, Repr

namespace Instruction

/-- The branch that an instruction reports. -/
def branch? : Instruction → Option Branch
  | .observe branch => some branch
  | .document _ | .attach _ => none

/-- The member after an instruction. -/
def change (m : Member) : Instruction → Member
  | .observe _ => m
  | .document part => m.document part
  | .attach a => m.attach a

end Instruction

/-- A call of the rule. -/
structure Call where
  /-- Whether the member is required. -/
  required : Bool
  /-- The options of the call. -/
  options : Options
  /-- The member that is handed in. -/
  target : Member
  deriving DecidableEq, Repr

namespace Call

/-- What a call leads to when it is made alone. -/
def outcome (call : Call) : Outcome :=
  Required.annotate call.required call.options call.target

/-- The instructions of a call, in the order in which the rule comes to them. -/
def program (call : Call) : List Instruction :=
  (if call.required then [.observe .required, .document Required.note] else [.observe .notRequired]) ++
    if call.target.isField then
      (Required.calledFor call.required call.options).flatMap fun a => [.observe a.branch, .attach a]
    else []

theorem filterMap_branch?_attachments (as : List Annotation) :
    (as.flatMap fun a => [Instruction.observe a.branch, .attach a]).filterMap Instruction.branch? =
      as.map Annotation.branch := by
  induction as with
  | nil => rfl
  | cons a as ih => simp [List.filterMap_cons, Instruction.branch?, ih]

theorem foldl_change_attachments (as : List Annotation) (m : Member) :
    (as.flatMap fun a => [Instruction.observe a.branch, .attach a]).foldl Instruction.change m =
      m.attachAll as := by
  induction as generalizing m with
  | nil => rfl
  | cons a as ih => simp [Instruction.change, ih]

/-- The program of a call reports the branches of its outcome. -/
theorem filterMap_branch?_program (call : Call) :
    call.program.filterMap Instruction.branch? = call.outcome.branches := by
  rw [outcome, Required.branches_annotate, program, List.filterMap_append]
  cases call.required <;> cases call.target.isField <;>
    simp [Instruction.branch?, filterMap_branch?_attachments]

/-- The program of a call makes the member of its outcome. -/
theorem foldl_change_program (call : Call) :
    call.program.foldl Instruction.change call.target = call.outcome.member := by
  rw [outcome, Required.member_annotate, program, List.foldl_append]
  cases call.required <;> cases call.target.isField <;>
    simp [Instruction.change, foldl_change_attachments]

end Call

/-! ## One thread -/

/-- A thread on its way through its calls. -/
structure Thread where
  /-- The members that its calls have returned, in the order of the calls. -/
  returned : List Member
  /-- The member of the call under way, with what is left of the call. -/
  current : Option (Member × List Instruction)
  /-- The calls that are still to be made. -/
  waiting : List Call
  deriving DecidableEq, Repr

namespace Thread

/-- A thread that has all its calls in front of it. -/
def ofCalls (calls : List Call) : Thread := ⟨[], none, calls⟩

/-- Whether a thread has returned from its last call. -/
def isDone (t : Thread) : Bool := t.current.isNone && t.waiting.isEmpty

/-- The branch that a thread reports in its next step, if it reports one. -/
def report? (t : Thread) : Option Branch :=
  match t.current with
  | some (_, instruction :: _) => instruction.branch?
  | _ => none

/-- A thread after its next step: it goes on with its call, returns from it, or enters the next one. -/
def next (t : Thread) : Thread :=
  match t.current, t.waiting with
  | some (m, instruction :: rest), _ => { t with current := some (instruction.change m, rest) }
  | some (m, []), _ => { t with returned := t.returned ++ [m], current := none }
  | none, call :: waiting => { t with current := some (call.target, call.program), waiting }
  | none, [] => t

/-- The members that a thread will have returned in the end. -/
def results (t : Thread) : List Member :=
  t.returned ++ t.current.toList.map (fun current => current.2.foldl Instruction.change current.1) ++
    t.waiting.map fun call => call.outcome.member

/-- The branches that a thread has still to report, in their order. -/
def due (t : Thread) : List Branch :=
  t.current.toList.flatMap (fun current => current.2.filterMap Instruction.branch?) ++
    t.waiting.flatMap fun call => call.outcome.branches

/-- The steps that a thread has in front of it: instructions, and `none` where it enters a call or returns
from one. -/
def agenda (t : Thread) : List (Option Instruction) :=
  t.current.toList.flatMap (fun current => current.2.map some ++ [none]) ++
    t.waiting.flatMap fun call => none :: (call.program.map some ++ [none])

/-- A step leaves the members alone that a thread will have returned. -/
theorem results_next (t : Thread) : t.next.results = t.results := by
  obtain ⟨returned, current, waiting⟩ := t
  match current, waiting with
  | some (m, instruction :: rest), _ => simp [next, results]
  | some (m, []), _ => simp [next, results]
  | none, call :: waiting => simp [next, results, Call.foldl_change_program]
  | none, [] => rfl

/-- A step takes the branch that it reports off what is due. -/
theorem due_eq (t : Thread) : t.due = t.report?.toList ++ t.next.due := by
  obtain ⟨returned, current, waiting⟩ := t
  match current, waiting with
  | some (m, instruction :: rest), _ =>
    cases instruction <;> simp [report?, next, due, List.filterMap_cons, Instruction.branch?]
  | some (m, []), _ => simp [report?, next, due]
  | none, call :: waiting => simp [report?, next, due, Call.filterMap_branch?_program]
  | none, [] => rfl

/-- A thread that is not done comes nearer to its end with each step. -/
theorem exists_agenda_eq {t : Thread} (h : t.isDone = false) :
    ∃ instruction?, t.agenda = instruction? :: t.next.agenda := by
  obtain ⟨returned, current, waiting⟩ := t
  match current, waiting with
  | some (m, instruction :: rest), _ => exact ⟨some instruction, by simp [next, agenda]⟩
  | some (m, []), _ => exact ⟨none, by simp [next, agenda]⟩
  | none, call :: waiting => exact ⟨none, by simp [next, agenda]⟩
  | none, [] => cases h

/-- A thread that is done has nothing to report and has returned all its results. -/
theorem of_isDone {t : Thread} (h : t.isDone = true) : t.due = [] ∧ t.results = t.returned := by
  obtain ⟨returned, current, waiting⟩ := t
  match current, waiting with
  | none, [] => simp [due, results]
  | some _, _ => simp [isDone] at h
  | none, _ :: _ => simp [isDone] at h

end Thread

/-! ## A pool of threads -/

namespace Coverage

/-- The counters after a list of calls was made, one after the other. -/
def afterCalls (coverage : Coverage) (calls : List Call) : Coverage :=
  calls.foldl (fun coverage call => coverage.observeAll call.outcome.branches) coverage

theorem observeAll_append (coverage : Coverage) (branches branches' : List Branch) :
    coverage.observeAll (branches ++ branches') = (coverage.observeAll branches).observeAll branches' :=
  List.foldl_append

/-- The order in which branches are reported does not matter. -/
theorem observeAll_perm (coverage : Coverage) {branches branches' : List Branch}
    (h : branches.Perm branches') : coverage.observeAll branches = coverage.observeAll branches' := by
  refine ext_count fun branch => ?_
  rw [count_observeAll, count_observeAll, h.count_eq]

theorem afterCalls_eq (coverage : Coverage) (calls : List Call) :
    coverage.afterCalls calls =
      coverage.observeAll (calls.flatMap fun call => call.outcome.branches) := by
  induction calls generalizing coverage with
  | nil => rfl
  | cons call calls ih =>
    rw [afterCalls, List.foldl_cons, ← afterCalls, ih, List.flatMap_cons, observeAll_append]

/-- Threads that run one after the other report all their branches. -/
theorem foldl_afterCalls (coverage : Coverage) (threads : List (List Call)) :
    threads.foldl afterCalls coverage =
      coverage.observeAll (threads.flatMap fun calls => calls.flatMap fun call =>
        call.outcome.branches) := by
  induction threads generalizing coverage with
  | nil => rfl
  | cons calls threads ih =>
    rw [List.foldl_cons, ih, afterCalls_eq, List.flatMap_cons, observeAll_append]

end Coverage

/-- Threads and the coverage that they share. -/
structure Pool where
  coverage : Coverage
  threads : List Thread
  deriving DecidableEq, Repr

namespace Pool

/-- A pool in which no thread has begun. -/
def start (coverage : Coverage) (threads : List (List Call)) : Pool :=
  ⟨coverage, threads.map Thread.ofCalls⟩

/-- The pool after one step of the thread at an index. Nothing happens where there is no thread, or one
that is done. -/
def step (pool : Pool) (i : Nat) : Pool :=
  match pool.threads[i]? with
  | some thread =>
    ⟨pool.coverage.observeAll thread.report?.toList, pool.threads.set i thread.next⟩
  | none => pool

/-- The pool after the steps of a schedule, which names a thread for each step. -/
def run (pool : Pool) (schedule : List Nat) : Pool :=
  schedule.foldl step pool

/-- Whether every thread is done. -/
def isDone (pool : Pool) : Bool :=
  pool.threads.all Thread.isDone

/-- The members that the threads have returned, thread by thread. -/
def returned (pool : Pool) : List (List Member) :=
  pool.threads.map Thread.returned

/-- The coverage that a pool is heading for: what is due is reported in the order of the threads. -/
def heading (pool : Pool) : Coverage :=
  pool.coverage.observeAll (pool.threads.flatMap Thread.due)

/-! ### One step -/

/-- A step is made by a thread of the pool, or changes nothing. -/
theorem step_cases (pool : Pool) (i : Nat) :
    pool.step i = pool ∨ ∃ before thread after, pool.threads = before ++ thread :: after ∧
      pool.step i =
        ⟨pool.coverage.observeAll thread.report?.toList, before ++ thread.next :: after⟩ := by
  by_cases hi : i < pool.threads.length
  · obtain ⟨before, after, hsplit, -, hset⟩ : ∃ before after,
        pool.threads = before ++ pool.threads[i] :: after ∧ before.length = i ∧
          pool.threads.set i pool.threads[i].next = before ++ pool.threads[i].next :: after :=
      List.exists_of_set hi
    refine .inr ⟨before, pool.threads[i], after, hsplit, ?_⟩
    rw [step, List.getElem?_eq_getElem hi]
    simp only [hset]
  · refine .inl ?_
    rw [step, List.getElem?_eq_none (Nat.le_of_not_lt hi)]

theorem results_step (pool : Pool) (i : Nat) :
    (pool.step i).threads.map Thread.results = pool.threads.map Thread.results := by
  obtain h | ⟨before, thread, after, hsplit, h⟩ := pool.step_cases i
  · rw [h]
  · simp [h, hsplit, Thread.results_next]

/-- Whichever thread moves, the pool is heading for the same coverage: a branch that is reported now is
no longer due later. -/
theorem heading_step (pool : Pool) (i : Nat) : (pool.step i).heading = pool.heading := by
  obtain h | ⟨before, thread, after, hsplit, h⟩ := pool.step_cases i
  · rw [h]
  · rw [heading, heading, h, hsplit, ← Coverage.observeAll_append]
    refine Coverage.observeAll_perm _ ?_
    -- the branch moves from its place among what is due to the front
    simp only [List.flatMap_append, List.flatMap_cons, Thread.due_eq thread, List.append_assoc]
    exact List.perm_append_comm_assoc _ _ _

/-! ### A run -/

theorem results_run (pool : Pool) (schedule : List Nat) :
    (pool.run schedule).threads.map Thread.results = pool.threads.map Thread.results :=
  foldl_view (fun pool => pool.threads.map Thread.results) results_step schedule pool

theorem heading_run (pool : Pool) (schedule : List Nat) :
    (pool.run schedule).heading = pool.heading :=
  foldl_view heading heading_step schedule pool

/-! ### The end of a run -/

/-- The steps that the threads of a pool have in front of them. -/
def agenda (pool : Pool) : List (Option Instruction) :=
  pool.threads.flatMap Thread.agenda

/-- As long as some thread is not done, a thread can come nearer to its end. -/
theorem exists_agenda_step {pool : Pool} (h : pool.isDone = false) :
    ∃ i, (pool.step i).agenda.length < pool.agenda.length := by
  obtain ⟨thread, hmem, hthread⟩ : ∃ thread ∈ pool.threads, thread.isDone = false := by
    simpa [isDone] using h
  -- the step of that thread shortens its agenda and leaves the other ones alone
  obtain ⟨before, after, hsplit⟩ := List.append_of_mem hmem
  have hget : pool.threads[before.length]? = some thread := by simp [hsplit]
  refine ⟨before.length, ?_⟩
  obtain ⟨instruction?, hnext⟩ := Thread.exists_agenda_eq hthread
  rw [step, hget, agenda, agenda, hsplit]
  simp [hnext]

/-- Whatever has happened so far, the threads of a pool can be brought to their ends. -/
theorem exists_run_isDone (pool : Pool) : ∃ schedule, (pool.run schedule).isDone = true := by
  induction hn : pool.agenda.length using Nat.strongRecOn generalizing pool with
  | _ n ih =>
    -- the steps that are left become fewer with each step that is made
    cases hdone : pool.isDone with
    | true => exact ⟨[], hdone⟩
    | false =>
      obtain ⟨i, hi⟩ := exists_agenda_step hdone
      obtain ⟨schedule, h⟩ := ih _ (by omega) (pool.step i) rfl
      exact ⟨i :: schedule, h⟩

/-- A pool whose threads are done is where it was heading for, and its threads have returned their
results. -/
theorem of_isDone {pool : Pool} (h : pool.isDone = true) :
    pool.coverage = pool.heading ∧ pool.returned = pool.threads.map Thread.results := by
  have hthreads : ∀ thread ∈ pool.threads, thread.isDone = true := List.all_eq_true.1 h
  constructor
  · have hdue : pool.threads.flatMap Thread.due = [] :=
      List.flatMap_eq_nil_iff.2 fun thread hthread => (Thread.of_isDone (hthreads thread hthread)).1
    rw [heading, hdue]
    rfl
  · refine List.map_congr_left fun thread hthread => ?_
    exact (Thread.of_isDone (hthreads thread hthread)).2.symm

theorem results_start (coverage : Coverage) (threads : List (List Call)) :
    (start coverage threads).threads.map Thread.results =
      threads.map fun calls => calls.map fun call => call.outcome.member := by
  simp [start, Thread.results, Thread.ofCalls]

theorem heading_start (coverage : Coverage) (threads : List (List Call)) :
    (start coverage threads).heading = threads.foldl Coverage.afterCalls coverage := by
  rw [Coverage.foldl_afterCalls]
  simp [start, heading, List.flatMap_map, Thread.due, Thread.ofCalls]

/-- However calls are interleaved, in the end each has returned the member that it returns alone, and
the coverage is the one after the threads run one after the other. -/
theorem run_start_of_isDone {coverage : Coverage} {threads : List (List Call)} {schedule : List Nat}
    (h : ((start coverage threads).run schedule).isDone = true) :
    ((start coverage threads).run schedule).returned =
        threads.map (fun calls => calls.map fun call => call.outcome.member) ∧
      ((start coverage threads).run schedule).coverage = threads.foldl Coverage.afterCalls coverage := by
  obtain ⟨hcoverage, hreturned⟩ := of_isDone h
  rw [hcoverage, hreturned, results_run, heading_run, results_start, heading_start]
  exact ⟨rfl, rfl⟩

end Pool

/-! ## What the counters gain -/

/-- How often a branch is reported by threads, each with a list of calls. -/
def Branch.reports (branch : Branch) (threads : List (List Call)) : Nat :=
  (threads.flatMap fun calls => calls.flatMap fun call => call.outcome.branches).count branch

/-- Each counter gains, modulo 2^64, what all threads report of its branch. -/
theorem Coverage.count_foldl_afterCalls (coverage : Coverage) (threads : List (List Call))
    (branch : Branch) :
    (threads.foldl afterCalls coverage).count branch =
      coverage.count branch + UInt64.ofNat (branch.reports threads) := by
  rw [foldl_afterCalls, count_observeAll, Branch.reports]

/-- One thread for each of `n` copies of a member, required and not required by turns. -/
def Call.copies (options : Options) (m : Member) (n : Nat) : List (List Call) :=
  (List.range n).map fun i => [⟨i % 2 == 0, options, m⟩]

/-- How often a branch is reported for `n` copies of a member: half of them are required, and one more
where `n` is odd. -/
def Branch.reportsOfCopies (options : Options) (m : Member) (n : Nat) : Branch → Nat
  | .required => (n + 1) / 2
  | .notNullAnnotated => if m.isField && options.notNull then (n + 1) / 2 else 0
  | .nonnullAnnotated => if m.isField && options.nullability then (n + 1) / 2 else 0
  | .notRequired => n / 2
  | .nullableAnnotated => if m.isField && options.nullability then n / 2 else 0

/-- A branch is reported by the required copies, by the others, by both or by none. -/
theorem Branch.reports_copies (options : Options) (m : Member) (n : Nat) (branch : Branch) :
    branch.reports (Call.copies options m n) =
      (branch.isTaken true options m).toNat * ((n + 1) / 2) +
        (branch.isTaken false options m).toNat * (n / 2) := by
  induction n with
  | zero => simp [reports, Call.copies]
  | succ n ih =>
    -- one more copy adds the branches of one more call
    have hlast : branch.reports (Call.copies options m (n + 1)) =
        branch.reports (Call.copies options m n) + (branch.isTaken (n % 2 == 0) options m).toNat := by
      rw [← Required.count_branches_annotate]
      simp [reports, Call.copies, List.range_succ, Call.outcome]
    rw [hlast, ih]
    -- the last copy is required exactly if `n` is even
    obtain heven | hodd := Nat.mod_two_eq_zero_or_one n
    · have hhalves : (n + 1 + 1) / 2 = (n + 1) / 2 + 1 ∧ (n + 1) / 2 = n / 2 := by omega
      rw [heven, hhalves.1, hhalves.2, Nat.mul_succ]
      exact Nat.add_right_comm _ _ _
    · have hhalves : (n + 1 + 1) / 2 = (n + 1) / 2 ∧ (n + 1) / 2 = n / 2 + 1 := by omega
      rw [hodd, hhalves.1, hhalves.2, Nat.mul_succ _ (n / 2)]
      exact Nat.add_assoc _ _ _

theorem Branch.reports_copies_eq (options : Options) (m : Member) (n : Nat) (branch : Branch) :
    branch.reports (Call.copies options m n) = branch.reportsOfCopies options m n := by
  obtain ⟨notNull, nullability⟩ := options
  rw [reports_copies]
  cases hfield : m.isField <;> cases notNull <;> cases nullability <;> cases branch <;>
    simp [isTaken, reportsOfCopies, hfield]

namespace Pool

/-- **Parallel applications lose and invent nothing.** Threads with any lists of calls share a coverage
in any state. Whatever has happened so far, they can be brought to their ends; and however they got
there, each call has returned the member that it returns alone, the report is the one after the threads
run one after the other in any order, and each counter has grown, modulo 2^64, by what the threads report
of its branch, which is what the report shows. Copies of one member, required by turns, become what the
rule makes of them one by one, and half of them count as required. -/
theorem run_account (coverage : Coverage) :
    (∀ (threads : List (List Call)) (schedule : List Nat),
      let final := (start coverage threads).run schedule
      (∃ schedule', (final.run schedule').isDone = true) ∧
        (final.isDone = true →
          final.returned = threads.map (fun calls => calls.map fun call =>
              (Required.annotate call.required call.options call.target).member) ∧
            (∀ order : List (List Call), order.Perm threads →
              final.coverage.report = (order.foldl Coverage.afterCalls coverage).report) ∧
            (∀ branch, final.coverage.count branch =
              coverage.count branch + UInt64.ofNat (branch.reports threads)) ∧
            final.coverage.report.entries = Branch.all.map fun branch =>
              (branch, coverage.counters.get branch.index + UInt64.ofNat (branch.reports threads)))) ∧
      ∀ (options : Options) (m : Member) (n : Nat) (schedule : List Nat),
        let final := (start coverage (Call.copies options m n)).run schedule
        final.isDone = true →
          final.returned =
              (List.range n).map (fun i => [(Required.annotate (i % 2 == 0) options m).member]) ∧
            ∀ branch, final.coverage.count branch =
              coverage.count branch + UInt64.ofNat (branch.reportsOfCopies options m n) := by
  refine ⟨fun threads schedule => ⟨exists_run_isDone _, fun hdone => ?_⟩,
    fun options m n schedule hdone => ?_⟩
  · obtain ⟨hreturned, hcoverage⟩ := run_start_of_isDone hdone
    rw [hcoverage]
    have hcount := Coverage.count_foldl_afterCalls coverage threads
    refine ⟨hreturned, fun order horder => ?_, hcount, List.map_congr_left fun branch _ => ?_⟩
    · rw [Coverage.foldl_afterCalls, Coverage.foldl_afterCalls,
        Coverage.observeAll_perm coverage (horder.flatMap_right _)]
    · exact congrArg (Prod.mk branch) (hcount branch)
  · obtain ⟨hreturned, hcoverage⟩ := run_start_of_isDone hdone
    refine ⟨?_, fun branch => ?_⟩
    · rw [hreturned, Call.copies, List.map_map]
      rfl
    · rw [hcoverage, Coverage.count_foldl_afterCalls, Branch.reports_copies_eq]

/-- A required call and one that is not, step by step in turns, from counters that are full: the field
of the first gains one annotation, and the counter of required calls starts again. -/
theorem run_account_by_turns :
    let field : Member := ⟨"id", .empty, .field "Long" [.notNull]⟩
    let full : Coverage := ⟨#v[18446744073709551615, 0, 0, 7, 0]⟩
    let threads : List (List Call) := [[⟨true, ⟨true, true⟩, field⟩], [⟨false, ⟨true, false⟩, field⟩]]
    let final := (start full threads).run [0, 1, 0, 1, 0, 1, 0, 0, 0, 0, 0]
    let halves := (start full (Call.copies ⟨false, true⟩ field 3)).run
      [0, 1, 2, 2, 1, 0, 0, 1, 2, 2, 0, 1, 1, 2, 0, 2, 0]
    final.isDone = true ∧ halves.isDone = true ∧
      final.returned = [[⟨"id", ⟨["\n(Required)"]⟩, .field "Long" [.notNull, .nonnull]⟩], [field]] ∧
      final.coverage.count .required = 0 ∧ final.coverage.count .notRequired = 8 ∧
      halves.coverage.count .required = 1 ∧ halves.coverage.count .nullableAnnotated = 1 := by
  intro field full threads final halves
  have hfinal : final.isDone = true := by decide
  have hhalves : halves.isDone = true := by decide
  obtain ⟨hreturned, -, hcount, -⟩ := ((run_account full).1 threads _).2 hfinal
  obtain ⟨-, hcopies⟩ := (run_account full).2 ⟨false, true⟩ field 3 _ hhalves
  exact ⟨hfinal, hhalves, hreturned, (hcount .required).trans (by decide),
    (hcount .notRequired).trans (by decide), (hcopies .required).trans (by decide),
    (hcopies .nullableAnnotated).trans (by decide)⟩

end Pool

/-- Applying the rule to copies of a member in a session is any interleaving of threads with one copy
each: what the session answers does not depend on how they are scheduled. -/
theorem Session.step_parallel_eq_run {s : Session} {id : String} {m : Member}
    (hm : s.member? id = some m) {n : Nat} {schedule : List Nat} {final : Pool}
    (hfinal : (Pool.start s.coverage (Call.copies s.options m n)).run schedule = final)
    (hdone : final.isDone = true) :
    s.step (.parallel id n) =
      ({ s with coverage := final.coverage },
        ⟨.ran final.returned.flatten final.coverage.report, []⟩) := by
  subst hfinal
  obtain ⟨hreturned, hcoverage⟩ := Pool.run_start_of_isDone hdone
  have hmembers : (alternate s.options m n).map Outcome.member =
      ((Call.copies s.options m n).map fun calls => calls.map fun call =>
        call.outcome.member).flatten := by
    rw [alternate, Call.copies, List.map_map, List.map_map, ← List.flatMap_def, List.map_eq_flatMap]
    rfl
  have hcounters : (alternate s.options m n).foldl (fun c outcome => c.observeAll outcome.branches)
      s.coverage = (Call.copies s.options m n).foldl Coverage.afterCalls s.coverage := by
    rw [alternate, Call.copies, List.foldl_map, List.foldl_map]
    rfl
  simp only [Session.step, Session.withMember, hm]
  rw [hreturned, hcoverage, hmembers, hcounters]

end KeywordRules
