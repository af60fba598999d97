import Kryvaracode.Tasks
import Kryvaracode.Runs

namespace Kryvaracode.Tasks
open JsonText InsertionDict Runs TaskQueue

variable {floats : Floats}

theorem found_status {queue : TaskQueue floats} (found : queue.getTask taskId = some task) :
    queue.status taskId = some task.status := by
  rw [status,found,Option.map_some]

theorem absent_replaced {queue after : TaskQueue floats} (change : QueueTask floats → QueueTask floats)
    (changed : ∀ other, after.getTask other = if other = taskId then (queue.getTask other).map change else queue.getTask other)
    (found : queue.getTask taskId = some task) (other : Text) :
    after.getTask other = if other = taskId then some (change task) else queue.getTask other := by
  rw [changed]
  split
  next equal => rw [equal,found,Option.map_some]
  next => rfl

theorem cancelTask_absent {queue : TaskQueue floats} (absent : queue.getTask taskId = none) (now : Int) :
    queue.cancelTask taskId now = (queue,false) := by
  simp only [cancelTask,absent]

theorem markRunning_absent {queue : TaskQueue floats} (absent : queue.getTask taskId = none) (now : Int) :
    queue.markRunning taskId now = queue := by
  simp only [markRunning,absent]

theorem markFailed_absent {queue : TaskQueue floats} (absent : queue.getTask taskId = none) (error : Text) (now : Int) :
    queue.markFailed taskId error now = (queue,.ok ()) := by
  simp only [markFailed,absent]

-- A cancellation finds a task that has not run, or does nothing.
theorem cancelTask_cases (queue : TaskQueue floats) (taskId : Text) (now : Int) :
    queue.cancelTask taskId now = (queue,false) ∨
      ∃ task, queue.getTask taskId = some task ∧ (task.status = .pending ∨ task.status = .waitingDeps) ∧
        (queue.cancelTask taskId now).2 = true ∧ ∀ other, (queue.cancelTask taskId now).1.getTask other =
          if other = taskId then some {task with status := .cancelled,completedAt := some now} else queue.getTask other := by
  cases found : queue.getTask taskId with
  | none => exact .inl (cancelTask_absent found now)
  | some task =>
      by_cases early : task.status = .pending ∨ task.status = .waitingDeps
      · have same := absent_replaced (cancelled now) (cancelTask_getTask queue taskId now) found
        simp only [cancelled,early,if_true] at same
        exact .inr ⟨task,rfl,early,by simp only [cancelTask,found,early,if_true],same⟩
      · exact .inl (by simp only [cancelTask,found,early,if_false])

def addedId : Op floats → Option Text
  | .addTask task => some task.taskId
  | .cancelTask _ _ | .markRunning _ _ | .markCompleted _ _ _ | .markFailed _ _ _ | .clearDeadLetters => none

-- Operations in which no id is added twice.
structure Workload (floats : Floats) where
  ops : List (Op floats)
  distinct : (ops.filterMap addedId).Nodup

structure FreshWorkload (floats : Floats) extends Workload floats where
  fresh : ∀ task, .addTask task ∈ ops → task.status = .pending

theorem step_absent (queue : TaskQueue floats) (op : Op floats) (taskId : Text) (absent : queue.getTask taskId = none)
    (other : addedId op ≠ some taskId) : (step queue op).getTask taskId = none := by
  cases op with
  | addTask task =>
      have different : taskId ≠ task.taskId := fun same => other (congrArg some same.symm)
      simp [step,addTask_getTask,different,absent]
  | cancelTask asked now => simp [step,cancelTask_getTask,absent]
  | markRunning asked now => simp [step,markRunning_getTask,absent]
  | markCompleted asked result now =>
      cases found : queue.getTask asked with
      | none => simpa [step,markCompleted_absent queue found] using absent
      | some task =>
          have different : taskId ≠ asked := by
            intro same
            rw [same,found] at absent
            cases absent
          simp [step,markCompleted_found queue found,unblockDependents_getTask,completing_getTask,different,absent]
  | markFailed asked error now => simp [step,markFailed_getTask,absent]
  | clearDeadLetters => simp [step,clearDeadLetters_getTask,absent]

theorem run_absent (queue : TaskQueue floats) (ops : List (Op floats)) (taskId : Text)
    (absent : queue.getTask taskId = none) (other : taskId ∉ ops.filterMap addedId) :
    (run step queue ops).getTask taskId = none := by
  induction ops generalizing queue with
  | nil => exact absent
  | cons op rest ih =>
      have apart : addedId op ≠ some taskId ∧ taskId ∉ rest.filterMap addedId := by
        cases added : addedId op with
        | none => simpa [added] using other
        | some first => simpa [added,eq_comm] using other
      exact ih (step queue op) (step_absent queue op taskId absent apart.1) apart.2

def Unused (queue : TaskQueue floats) (op : Op floats) : Prop :=
  ∀ taskId, addedId op = some taskId → queue.getTask taskId = none

theorem steps_unused (queue : TaskQueue floats) (ops : List (Op floats)) (distinct : (ops.filterMap addedId).Nodup)
    (unused : ∀ taskId ∈ ops.filterMap addedId, queue.getTask taskId = none) : Steps step Unused queue ops := by
  induction ops generalizing queue with
  | nil => trivial
  | cons op rest ih =>
      cases added : addedId op with
      | none =>
          simp only [List.filterMap_cons,added] at distinct unused
          refine ⟨by simp [Unused,added],ih (step queue op) distinct ?_⟩
          intro taskId inside
          exact step_absent queue op taskId (unused taskId inside) (by simp [added])
      | some first =>
          simp only [List.filterMap_cons,added,List.nodup_cons] at distinct
          simp only [List.filterMap_cons,added,List.mem_cons] at unused
          refine ⟨?_,ih (step queue op) distinct.2 ?_⟩
          · intro taskId same
            rw [added] at same
            cases same
            exact unused first (.inl rfl)
          · intro taskId inside
            refine step_absent queue op taskId (unused taskId (.inr inside)) ?_
            intro same
            rw [added] at same
            cases same
            exact distinct.1 inside

theorem workload_unused (maxConcurrent : Int) (work : Workload floats) :
    Steps step Unused (TaskQueue.init maxConcurrent) work.ops :=
  steps_unused _ work.ops work.distinct fun _ _ => rfl

end Kryvaracode.Tasks
