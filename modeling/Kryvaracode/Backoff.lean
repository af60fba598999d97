import Kryvaracode.TaskRuns

namespace Kryvaracode.Tasks
open InsertionDict Runs TaskQueue

variable {floats : Floats}

-- The operations of the queue with the polls between them.
inductive Act (floats : Floats) where
  | operation (op : Op floats)
  | getReadyTasks (now : Int)

def act (queue : TaskQueue floats) : Act floats → TaskQueue floats
  | .operation op => step queue op
  | .getReadyTasks _ => queue

def Returned (queue : TaskQueue floats) (taskId : Text) : Prop :=
  ∃ task ∈ queue.getReadyTasks, queue.getTask taskId = some task

-- Neither added again nor completed, cancelled or failed.
def leaves (taskId : Text) : Act floats → Bool
  | .operation (.addTask task) => decide (task.taskId ≠ taskId)
  | .operation (.cancelTask other _) | .operation (.markCompleted other _ _) | .operation (.markFailed other _ _) =>
      decide (other ≠ taskId)
  | .operation (.markRunning _ _) | .operation .clearDeadLetters | .getReadyTasks _ => true

-- How often the task under the id has been reported as failed since it was added.
def failures (taskId : Text) (acts : List (Act floats)) : Nat :=
  acts.foldl (fun count act => match act with
    | .operation (.addTask task) => if task.taskId = taskId then 0 else count
    | .operation (.markFailed other _ _) => if other = taskId then count + 1 else count
    | .operation _ | .getReadyTasks _ => count) 0

-- A poll within the delay of a failure, with the task as the report found it.
-- Whether so many microseconds make up a delay is asked of the floats.
structure Early (elapsed : floats.Number → Int → Bool) (queue : TaskQueue floats) (acts : List (Act floats)) where
  front : List (Act floats)
  taskId : Text
  error : Text
  failedAt : Int
  middle : List (Act floats)
  now : Int
  rest : List (Act floats)
  task : QueueTask floats
  duration : floats.Number
  whole : front ++ .operation (.markFailed taskId error failedAt) :: middle ++ .getReadyTasks now :: rest = acts
  left : ∀ act ∈ middle, leaves taskId act = true
  found : (run act queue front).getTask taskId = some task
  granted : (failures taskId front : Int) + 1 ≤ task.retryPolicy.maxRetries
  delayed : delay task.retryPolicy ((failures taskId front : Int) + 1) = .ok duration
  within : elapsed duration (now - failedAt) = false

section Polls
variable {elapsed : floats.Number → Int → Bool} {queue : TaskQueue floats} {acts : List (Act floats)}

def Early.failed (early : Early elapsed queue acts) : TaskQueue floats :=
  act (run act queue early.front) (.operation (.markFailed early.taskId early.error early.failedAt))

def Early.polled (early : Early elapsed queue acts) : TaskQueue floats := run act early.failed early.middle

end Polls

def BackoffRespected (elapsed : floats.Number → Int → Bool) (queue : TaskQueue floats) (acts : List (Act floats)) : Prop :=
  ∀ early : Early elapsed queue acts, ¬ Returned early.polled early.taskId

-- What is to be retried has been marked as running by the time of the poll.
def StartedMeanwhile (elapsed : floats.Number → Int → Bool) (queue : TaskQueue floats) (acts : List (Act floats)) : Prop :=
  ∀ early : Early elapsed queue acts, requeues early.task = true →
    ∃ now, .operation (.markRunning early.taskId now) ∈ early.middle

theorem returned_pending (queue : TaskQueue floats) (taskId : Text) :
    Returned queue taskId ↔ queue.status taskId = some .pending := by
  unfold Returned getReadyTasks TaskQueue.status
  simp only [List.mem_mergeSort,List.mem_filter,decide_eq_true_eq]
  constructor
  · rintro ⟨task,⟨_,pending⟩,found⟩
    rw [found,Option.map_some,pending]
  · intro status
    obtain ⟨task,found,pending⟩ := Option.map_eq_some_iff.mp status
    exact ⟨task,⟨(mem_values queue.tasks task).mpr ⟨taskId,found⟩,pending⟩,found⟩

section Leaving
variable {queue : TaskQueue floats} {taskId : Text}

-- What an operation that leaves a task can make of it.
theorem leaves_getTask (op : Op floats) (left : leaves taskId (.operation op) = true) :
    (step queue op).getTask taskId = queue.getTask taskId ∨
      (∃ now, op = .markRunning taskId now ∧ (step queue op).getTask taskId = (queue.getTask taskId).map (started now)) ∨
      (∃ other : TaskQueue floats, (step queue op).getTask taskId = (queue.getTask taskId).map other.promoted) ∨
      (step queue op).getTask taskId = (queue.getTask taskId).filter fun task => decide (task.status ≠ .deadLetter) := by
  cases op with
  | addTask task =>
      have apart : taskId ≠ task.taskId := Ne.symm (of_decide_eq_true left)
      exact .inl (by rw [step,addTask_getTask,if_neg apart])
  | cancelTask other now =>
      have apart : taskId ≠ other := Ne.symm (of_decide_eq_true left)
      exact .inl (by rw [step,cancelTask_getTask,if_neg apart])
  | markRunning other now =>
      by_cases same : taskId = other
      · subst same
        exact .inr (.inl ⟨now,rfl,by rw [step,markRunning_getTask,if_pos rfl]⟩)
      · exact .inl (by rw [step,markRunning_getTask,if_neg same])
  | markCompleted other result now =>
      have apart : taskId ≠ other := Ne.symm (of_decide_eq_true left)
      cases found : queue.getTask other with
      | none => exact .inl (by rw [step,markCompleted_absent queue found])
      | some task =>
          refine .inr (.inr (.inl ⟨queue.completing other task result now,?_⟩))
          rw [step,markCompleted_found queue found,unblockDependents_getTask,completing_getTask,if_neg apart]
  | markFailed other error now =>
      have apart : taskId ≠ other := Ne.symm (of_decide_eq_true left)
      exact .inl (by rw [step,markFailed_getTask,if_neg apart])
  | clearDeadLetters => exact .inr (.inr (.inr (clearDeadLetters_getTask queue taskId)))

theorem promoted_kept (queue : TaskQueue floats) {task : QueueTask floats} (settled : task.status ≠ .waitingDeps) :
    queue.promoted task = task := if_neg fun freed => settled freed.1

theorem pending_stays (queued : queue.status taskId = some .pending) (taken : Act floats) (left : leaves taskId taken = true)
    (other : ∀ now, taken ≠ .operation (.markRunning taskId now)) : (act queue taken).status taskId = some .pending := by
  cases taken with
  | getReadyTasks now => exact queued
  | operation op =>
      obtain ⟨task,found,pending⟩ := Option.map_eq_some_iff.mp queued
      change (step queue op).status taskId = some .pending
      rw [TaskQueue.status]
      rcases leaves_getTask op left with same | ⟨now,rfl,_⟩ | ⟨promoting,same⟩ | same
      · rw [same]
        exact queued
      · exact absurd rfl (other now)
      · rw [same,found,Option.map_some,promoted_kept promoting (by rw [pending]; decide),Option.map_some,pending]
      · rw [same,found,Option.filter_some_pos (by rw [pending]; decide),Option.map_some,pending]

-- A task that only another report makes ready.
def Unready (queue : TaskQueue floats) (taskId : Text) : Prop :=
  ∀ task, queue.getTask taskId = some task → task.status ≠ .pending ∧ task.status ≠ .waitingDeps

theorem unready_stays (unready : Unready queue taskId) (taken : Act floats) (left : leaves taskId taken = true) :
    Unready (act queue taken) taskId := by
  cases taken with
  | getReadyTasks now => exact unready
  | operation op =>
      intro task after
      change (step queue op).getTask taskId = some task at after
      rcases leaves_getTask op left with same | ⟨now,rfl,same⟩ | ⟨promoting,same⟩ | same
      · exact unready task (same ▸ after)
      · rw [same] at after
        obtain ⟨before,_,rfl⟩ := Option.map_eq_some_iff.mp after
        exact ⟨by simp [started],by simp [started]⟩
      · rw [same] at after
        obtain ⟨before,found,rfl⟩ := Option.map_eq_some_iff.mp after
        rw [promoted_kept promoting (unready before found).2]
        exact unready before found
      · rw [same] at after
        exact unready task (Option.filter_eq_some_iff.mp after).1

theorem started_unready (queue : TaskQueue floats) (taskId : Text) (now : Int) :
    Unready (act queue (.operation (.markRunning taskId now))) taskId := by
  intro task after
  change (queue.markRunning taskId now).getTask taskId = some task at after
  rw [markRunning_getTask,if_pos rfl] at after
  obtain ⟨before,_,rfl⟩ := Option.map_eq_some_iff.mp after
  exact ⟨by simp [started],by simp [started]⟩

theorem unready_run (unready : Unready queue taskId) (middle : List (Act floats))
    (left : ∀ act ∈ middle, leaves taskId act = true) : Unready (run act queue middle) taskId := by
  induction middle generalizing queue with
  | nil => exact unready
  | cons taken rest ih =>
      rw [List.forall_mem_cons] at left
      exact ih (unready_stays unready taken left.1) left.2

theorem unready_returned (unready : Unready queue taskId) : ¬ Returned queue taskId := by
  rw [returned_pending]
  intro status
  obtain ⟨task,found,pending⟩ := Option.map_eq_some_iff.mp status
  exact (unready task found).1 pending

-- A pending task is offered until it is marked as running.
theorem pending_run (queued : queue.status taskId = some .pending) (middle : List (Act floats))
    (left : ∀ act ∈ middle, leaves taskId act = true) :
    Returned (run act queue middle) taskId ↔ ¬ ∃ now, .operation (.markRunning taskId now) ∈ middle := by
  induction middle generalizing queue with
  | nil => exact iff_of_true ((returned_pending queue taskId).mpr queued) (by simp)
  | cons taken rest ih =>
      rw [List.forall_mem_cons] at left
      by_cases marked : ∃ now, taken = .operation (.markRunning taskId now)
      · obtain ⟨now,rfl⟩ := marked
        refine iff_of_false (unready_returned ?_) (not_not.mpr ⟨now,List.mem_cons_self⟩)
        exact unready_run (started_unready queue taskId now) rest left.2
      · have other : ∀ now, taken ≠ .operation (.markRunning taskId now) := fun now same => marked ⟨now,same⟩
        rw [run_cons,ih (pending_stays queued taken left.1 other) left.2]
        simp only [List.mem_cons]
        refine not_congr (exists_congr fun now => ?_)
        rw [or_iff_right (Ne.symm (other now))]

end Leaving

theorem early_returned {elapsed : floats.Number → Int → Bool} {queue : TaskQueue floats} {acts : List (Act floats)}
    (early : Early elapsed queue acts) : Returned early.polled early.taskId ↔
      requeues early.task = true ∧ ¬ ∃ now, .operation (.markRunning early.taskId now) ∈ early.middle := by
  have after : early.failed.getTask early.taskId = some (failed early.error early.failedAt early.task) := by
    change ((run act queue early.front).markFailed _ _ _).1.getTask _ = _
    rw [markFailed_getTask,if_pos rfl,early.found]
    rfl
  have status := failed_status early.error early.failedAt early.task
  by_cases again : requeues early.task = true
  · rw [if_pos again] at status
    rw [and_iff_right again]
    refine pending_run ?_ early.middle early.left
    rw [TaskQueue.status,after,Option.map_some,status]
  · rw [if_neg again] at status
    refine iff_of_false (unready_returned (unready_run ?_ early.middle early.left)) fun both => again both.1
    intro task found
    cases after.symm.trans found
    rw [status]
    split <;> exact ⟨by decide,by decide⟩

theorem backoff_exact (elapsed : floats.Number → Int → Bool) (maxConcurrent : Int) (acts : List (Act floats)) :
    BackoffRespected elapsed (TaskQueue.init maxConcurrent) acts ↔
      StartedMeanwhile elapsed (TaskQueue.init maxConcurrent) acts := by
  refine forall_congr' fun early => ?_
  rw [early_returned,not_and,not_not]

def wholeSeconds (duration : wholeFloats.Number) (passed : Int) : Bool :=
  decide ((show Int from duration) * 1000000 ≤ passed)

-- A task is failed and asked for in the same moment, with a delay of one second.
def impatient : List (Act wholeFloats) :=
  [.operation (.addTask (.created ['t'] [] 0)),.operation (.markFailed ['t'] [] 0),.getReadyTasks 0]

theorem retried_at_once : ¬ BackoffRespected wholeSeconds (TaskQueue.init 5) impatient := by
  intro respected
  refine respected {
    front := [.operation (.addTask (.created ['t'] [] 0))]
    taskId := ['t']
    error := []
    failedAt := 0
    middle := []
    now := 0
    rest := []
    task := .created ['t'] [] 0
    duration := (1 : Int)
    whole := rfl
    left := by simp
    found := rfl
    granted := by decide
    delayed := rfl
    within := rfl } ((returned_pending _ _).mpr rfl)

end Kryvaracode.Tasks
