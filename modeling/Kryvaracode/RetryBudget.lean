import Kryvaracode.TaskRuns

namespace Kryvaracode.Tasks
open Runs TaskQueue

variable {floats : Floats}

structure Report where
  error : Text
  now : Int

def fail (taskId : Text) (queue : TaskQueue floats) (report : Report) : TaskQueue floats :=
  (queue.markFailed taskId report.error report.now).1

-- A task that has not been retried yet.
structure FailingTask (floats : Floats) where
  queue : TaskQueue floats
  taskId : Text
  task : QueueTask floats
  held : queue.getTask taskId = some task
  unused : task.retriesUsed = 0
  budget : 0 ≤ task.retryPolicy.maxRetries

def FailingTask.policy (failing : FailingTask floats) : RetryPolicy floats := failing.task.retryPolicy

-- What so many failures are to leave.
def Budgeted (maxRetries : Int) (failures : Nat) (task : QueueTask floats) : Prop :=
  if failures ≤ maxRetries then task.status = .pending ∧ task.retriesUsed = failures
  else task.status = .deadLetter ∧ task.retriesUsed = maxRetries

def KeepsBudget (failing : FailingTask floats) : Prop :=
  ∀ (reports : List Report) (report : Report),
    ((run (fail failing.taskId) failing.queue reports).markFailed failing.taskId report.error report.now).2 = .ok () ∧
      ∃ task, (run (fail failing.taskId) failing.queue (reports ++ [report])).getTask failing.taskId = some task ∧
        Budgeted failing.policy.maxRetries (reports.length + 1) task

-- The backoff of each retry that the policy grants is a float.
def BackoffFits (policy : RetryPolicy floats) : Prop :=
  ∀ power : Nat, power < policy.maxRetries → ∃ factor, floats.power policy.backoffFactor power = .ok factor

theorem delay_ok (policy : RetryPolicy floats) (used : Int) : (∃ duration, delay policy (used + 1) = .ok duration) ↔
    ∃ factor, floats.power policy.backoffFactor used = .ok factor := by
  unfold delay
  rw [Int.add_sub_cancel]
  cases floats.power policy.backoffFactor used with
  | error exc => simp [bind,Except.bind]
  | ok factor => simp [bind,Except.bind,pure,Except.pure]

theorem markFailed_answer {queue : TaskQueue floats} (found : queue.getTask taskId = some task) (error : Text) (now : Int) :
    (queue.markFailed taskId error now).2 = .ok () ↔
      (task.retriesUsed < task.retryPolicy.maxRetries →
        ∃ factor, floats.power task.retryPolicy.backoffFactor task.retriesUsed = .ok factor) := by
  rw [← delay_ok]
  by_cases again : task.retriesUsed < task.retryPolicy.maxRetries
  · cases spent : delay task.retryPolicy (task.retriesUsed + 1) with
    | error exc => simp [markFailed,retryTask,found,again,spent]
    | ok duration => simp [markFailed,retryTask,found,again,spent]
  · simp [markFailed,found,again]

theorem failed_policy (error : Text) (now : Int) (task : QueueTask floats) :
    (failed error now task).retryPolicy = task.retryPolicy := by
  unfold failed
  split
  · split <;> rfl
  · rfl

-- How far a task has come after so many failures.
structure Progress (policy : RetryPolicy floats) (failures : Nat) (task : QueueTask floats) : Prop where
  same : task.retryPolicy = policy
  used : task.retriesUsed = min (failures : Int) policy.maxRetries

theorem failed_progress {policy : RetryPolicy floats} (fits : BackoffFits policy)
    {failures : Nat} {task : QueueTask floats} (progress : Progress policy failures task) (error : Text) (now : Int) :
    Progress policy (failures + 1) (failed error now task) ∧
      Budgeted policy.maxRetries (failures + 1) (failed error now task) := by
  have used := progress.used
  by_cases again : (failures : Int) < policy.maxRetries
  · have counted : task.retriesUsed = failures := by omega
    obtain ⟨duration,spent⟩ := (delay_ok policy failures).mpr (fits failures again)
    have requeued : failed error now task = {task with
        status := .pending,error := none,startedAt := none,completedAt := none,retriesUsed := task.retriesUsed + 1} := by
      unfold failed retries
      rw [progress.same,counted,if_pos (decide_eq_true again),spent]
    rw [requeued]
    refine ⟨⟨progress.same,?_⟩,?_⟩
    · change task.retriesUsed + 1 = _
      omega
    · rw [Budgeted,if_pos (by omega)]
      refine ⟨rfl,?_⟩
      change task.retriesUsed + 1 = _
      omega
  · have buried : failed error now task = {task with status := .deadLetter,error := some error,completedAt := some now} := by
      unfold failed retries
      rw [progress.same,if_neg]
      rw [decide_eq_true_eq]
      omega
    rw [buried]
    refine ⟨⟨progress.same,?_⟩,?_⟩
    · change task.retriesUsed = _
      omega
    · rw [Budgeted,if_neg (by omega)]
      refine ⟨rfl,?_⟩
      change task.retriesUsed = _
      omega

theorem run_progress (failing : FailingTask floats) (fits : BackoffFits failing.policy) (reports : List Report) :
    ∃ task, (run (fail failing.taskId) failing.queue reports).getTask failing.taskId = some task ∧
      Progress failing.policy reports.length task := by
  induction reports using List.reverseRecOn with
  | nil =>
      refine ⟨failing.task,failing.held,rfl,?_⟩
      rw [failing.unused,List.length_nil,FailingTask.policy]
      exact (min_eq_left failing.budget).symm
  | append_singleton reports report ih =>
      obtain ⟨task,found,progress⟩ := ih
      refine ⟨failed report.error report.now task,?_,?_⟩
      · rw [run_append,run_cons,run_nil,fail,markFailed_getTask,if_pos rfl,found]
        rfl
      · rw [List.length_append]
        exact (failed_progress fits progress report.error report.now).1

theorem run_policy (failing : FailingTask floats) (reports : List Report) :
    ∃ task, (run (fail failing.taskId) failing.queue reports).getTask failing.taskId = some task ∧
      task.retryPolicy = failing.policy := by
  induction reports using List.reverseRecOn with
  | nil => exact ⟨failing.task,failing.held,rfl⟩
  | append_singleton reports report ih =>
      obtain ⟨task,found,same⟩ := ih
      refine ⟨failed report.error report.now task,?_,(failed_policy _ _ task).trans same⟩
      rw [run_append,run_cons,run_nil,fail,markFailed_getTask,if_pos rfl,found]
      rfl

-- As long as retries are granted, each failure has used one.
theorem budget_counts {failing : FailingTask floats} (kept : KeepsBudget failing) (report : Report) (failures : Nat)
    (granted : (failures : Int) ≤ failing.policy.maxRetries) {task : QueueTask floats}
    (found : (run (fail failing.taskId) failing.queue (List.replicate failures report)).getTask failing.taskId = some task) :
    task.retriesUsed = failures := by
  cases failures with
  | zero =>
      have same := Option.some.inj (failing.held.symm.trans found)
      rw [← same]
      exact failing.unused
  | succ failures =>
      rw [List.replicate_succ'] at found
      obtain ⟨left,shown,budgeted⟩ := (kept (List.replicate failures report) report).2
      have same := Option.some.inj (shown.symm.trans found)
      rw [Budgeted,List.length_replicate,if_pos (by exact_mod_cast granted)] at budgeted
      rw [← same]
      exact budgeted.2

theorem kept_fits {failing : FailingTask floats} (kept : KeepsBudget failing) : BackoffFits failing.policy := by
  intro power granted
  obtain ⟨task,found,same⟩ := run_policy failing (List.replicate power ⟨[],0⟩)
  have counted := budget_counts kept ⟨[],0⟩ power (Int.le_of_lt granted) found
  have answered := (markFailed_answer found [] 0).mp (kept (List.replicate power ⟨[],0⟩) ⟨[],0⟩).1
  rw [same,counted] at answered
  exact answered granted

theorem retry_budget_exact (failing : FailingTask floats) : KeepsBudget failing ↔ BackoffFits failing.policy := by
  refine ⟨kept_fits,?_⟩
  intro fits reports report
  obtain ⟨task,found,progress⟩ := run_progress failing fits reports
  refine ⟨(markFailed_answer found _ _).mpr ?_,failed report.error report.now task,?_,?_⟩
  · intro again
    have used := progress.used
    rw [progress.same] at again ⊢
    have counted : task.retriesUsed = reports.length := by omega
    rw [counted] at again ⊢
    exact fits _ again
  · rw [run_append,run_cons,run_nil,fail,markFailed_getTask,if_pos rfl,found]
    rfl
  · exact (failed_progress fits progress report.error report.now).2

def OverflowError : Failure := ⟨.other "OverflowError".toList,"(34, 'Numerical result out of range')".toList⟩

-- Whole numbers in the range of a double; all that occur here are powers of two.
def boundedFloats : Floats where
  Number := Int
  times first second := first * second
  power base exponent := if base ^ exponent.toNat < 2 ^ 1024 then .ok (base ^ exponent.toNat) else .error OverflowError
  least first second := min first second
  timestamp moment := moment
  atMost first second := decide (first ≤ second)

def steepTask : QueueTask boundedFloats :=
  ⟨['t'],0,.pending,[],⟨3,(1 : Int),(60 : Int),(2 ^ 600 : Int)⟩,0,.null,none,0,none,none⟩

def steep : FailingTask boundedFloats where
  queue := (TaskQueue.init 5).addTask steepTask
  taskId := ['t']
  task := steepTask
  held := by rfl
  unused := rfl
  budget := by decide

theorem power_overflows (base : Int) (power : Nat) (large : ¬ base ^ power < 2 ^ 1024) :
    boundedFloats.power base (power : Int) = .error OverflowError := if_neg large

theorem steep_overflows : ¬ ((2 : Int) ^ 600) ^ 2 < 2 ^ 1024 := by
  rw [← pow_mul,not_lt]
  exact pow_le_pow_right₀ (by decide) (by decide)

-- The third failure is reported, and the task stays as the report found it.
theorem failed_in_between : ¬ KeepsBudget steep := by
  intro kept
  obtain ⟨factor,fits⟩ := kept_fits kept 2 (by decide)
  exact nomatch (power_overflows _ 2 steep_overflows).symm.trans fits

end Kryvaracode.Tasks
