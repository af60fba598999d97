import Kryvaracode.TaskRuns

namespace Kryvaracode.Tasks
open JsonText InsertionDict Runs TaskQueue

variable {floats : Floats}

def DependencySafe (queue : TaskQueue floats) : Prop :=
  ∀ task ∈ queue.getReadyTasks, ∀ depId ∈ task.dependencies, queue.status depId = some .completed

theorem mem_getReadyTasks (queue : TaskQueue floats) (task : QueueTask floats) :
    task ∈ queue.getReadyTasks ↔ ∃ taskId, queue.getTask taskId = some task ∧ task.status = .pending := by
  simp only [getReadyTasks,List.mem_mergeSort,List.mem_filter,mem_values,decide_eq_true_eq,exists_and_right]
  rfl

-- A completed task that a ready one rests on.
def needed (queue : TaskQueue floats) (taskId : Text) : Prop :=
  queue.status taskId = some .completed ∧ ∃ task ∈ queue.getReadyTasks, taskId ∈ task.dependencies

def blocked (queue : TaskQueue floats) (taskId : Text) : Prop :=
  ∃ task, queue.getTask taskId = some task ∧ requeues task = true ∧
    ∃ depId ∈ task.dependencies, depId = taskId ∨ queue.status depId ≠ some .completed

def KeepsDependencies (queue : TaskQueue floats) : Op floats → Prop
  | .markRunning taskId _ => ¬ needed queue taskId
  | .markFailed taskId _ _ => ¬ needed queue taskId ∧ ¬ blocked queue taskId
  | .addTask _ | .cancelTask _ _ | .markCompleted _ _ _ | .clearDeadLetters => True

theorem dependencySafe_tasks (queue : TaskQueue floats) : DependencySafe queue ↔ ∀ taskId task,
    queue.getTask taskId = some task → task.status = .pending → ∀ depId ∈ task.dependencies,
      queue.status depId = some .completed := by
  refine ⟨?_,?_⟩
  · intro safe taskId task found pending
    exact safe task ((mem_getReadyTasks queue task).mpr ⟨taskId,found,pending⟩)
  · intro safe task ready
    obtain ⟨taskId,found,pending⟩ := (mem_getReadyTasks queue task).mp ready
    exact safe taskId task found pending

theorem absent_unneeded {queue : TaskQueue floats} (absent : queue.getTask taskId = none) : ¬ needed queue taskId := by
  intro asked
  rw [needed,status,absent] at asked
  cases asked.1

section Replacing
variable {queue after : TaskQueue floats} {taskId : Text} {task : QueueTask floats}
  (same : ∀ other, after.getTask other = if other = taskId then some task else queue.getTask other)
include same

theorem replaced_status (other : Text) :
    after.status other = if other = taskId then some task.status else queue.status other := by
  rw [status,same]
  split <;> rfl

theorem replaced_safe (unfinished : task.status ≠ .completed) (safe : DependencySafe queue) : DependencySafe after ↔
    ¬ needed queue taskId ∧ (task.status = .pending → ∀ depId ∈ task.dependencies,
      depId ≠ taskId ∧ queue.status depId = some .completed) := by
  have changed := replaced_status same
  rw [dependencySafe_tasks] at safe ⊢
  refine ⟨?_,?_⟩
  · intro still
    refine ⟨?_,?_⟩
    · intro asked
      obtain ⟨done,ready,listed,rests⟩ := asked
      obtain ⟨readyId,found,pending⟩ := (mem_getReadyTasks queue ready).mp listed
      have apart : readyId ≠ taskId := by
        intro equal
        rw [← equal,found_status found,pending] at done
        cases done
      have kept := still readyId ready (by rw [same,if_neg apart,found]) pending taskId rests
      rw [changed,if_pos rfl] at kept
      exact unfinished (Option.some.inj kept)
    · intro pending depId rests
      have done := still taskId task (by rw [same,if_pos rfl]) pending depId rests
      rw [changed] at done
      split at done
      next => exact absurd (Option.some.inj done) unfinished
      next apart => exact ⟨apart,done⟩
  · intro parts other held found pending depId rests
    rw [same] at found
    rw [changed]
    split at found
    next =>
      cases found
      obtain ⟨apart,done⟩ := parts.2 pending depId rests
      rw [if_neg apart,done]
    next apart =>
      have done := safe other held found pending depId rests
      have away : depId ≠ taskId := by
        intro equal
        refine parts.1 ⟨equal ▸ done,held,(mem_getReadyTasks queue held).mpr ⟨other,found,pending⟩,equal ▸ rests⟩
      rw [if_neg away,done]

theorem completed_safe (done : task.status = .completed) (safe : DependencySafe queue) : DependencySafe after := by
  rw [dependencySafe_tasks] at safe ⊢
  intro other held found pending depId rests
  rw [same] at found
  rw [replaced_status same]
  split at found
  next =>
    cases found
    rw [done] at pending
    cases pending
  next apart =>
    split
    next => rw [done]
    next => exact safe other held found pending depId rests
end Replacing

theorem unblockDependents_safe (queue : TaskQueue floats) (safe : DependencySafe queue) :
    DependencySafe queue.unblockDependents := by
  rw [dependencySafe_tasks] at safe ⊢
  intro taskId task found pending depId rests
  rw [unblockDependents_getTask,Option.map_eq_some_iff] at found
  obtain ⟨before,found,rfl⟩ := found
  rw [unblockDependents_completed]
  by_cases freed : before.status = .waitingDeps ∧ queue.checkDependencies before = true
  · rw [promoted,if_pos freed] at rests
    exact of_decide_eq_true (List.all_eq_true.mp freed.2 depId rests)
  · rw [promoted,if_neg freed] at pending rests
    exact safe taskId before found pending depId rests

theorem failed_dependencies (error : Text) (now : Int) (task : QueueTask floats) :
    (failed error now task).dependencies = task.dependencies := by
  unfold failed
  split
  next => split <;> rfl
  next => rfl

theorem failed_pending (error : Text) (now : Int) (task : QueueTask floats) :
    (failed error now task).status = .pending ↔ requeues task = true := by
  rw [failed_status]
  split
  next again => simp [again]
  next last => split <;> simp [last]

theorem failed_uncompleted (error : Text) (now : Int) (task : QueueTask floats) :
    (failed error now task).status ≠ .completed := by
  rw [failed_status]
  split
  next => simp
  next => split <;> simp

theorem addTask_safe (queue : TaskQueue floats) (task : QueueTask floats) (fresh : task.status = .pending)
    (unused : queue.getTask task.taskId = none) (safe : DependencySafe queue) : DependencySafe (queue.addTask task) := by
  have unfinished : (queue.admitted task).status ≠ .completed := by
    unfold admitted
    split <;> simp [fresh]
  refine (replaced_safe (addTask_getTask queue task) unfinished safe).mpr ⟨absent_unneeded unused,?_⟩
  intro pending depId rests
  have met : queue.checkDependencies task = true := by
    by_contra unmet
    rw [admitted,if_neg unmet] at pending
    cases pending
  rw [admitted,if_pos met] at rests
  have done := of_decide_eq_true (List.all_eq_true.mp met depId rests)
  refine ⟨?_,done⟩
  intro equal
  rw [equal,status,unused] at done
  cases done

theorem cancelTask_safe (queue : TaskQueue floats) (taskId : Text) (now : Int) (safe : DependencySafe queue) :
    DependencySafe (queue.cancelTask taskId now).1 := by
  rcases cancelTask_cases queue taskId now with idle | ⟨task,found,early,_,same⟩
  · rwa [idle]
  · refine (replaced_safe same (by simp) safe).mpr ⟨?_,by simp⟩
    intro asked
    have done := asked.1
    rw [found_status found] at done
    rcases early with pending | waiting
    · simp [pending] at done
    · simp [waiting] at done

theorem markRunning_safe (queue : TaskQueue floats) (taskId : Text) (now : Int) (safe : DependencySafe queue) :
    DependencySafe (queue.markRunning taskId now) ↔ ¬ needed queue taskId := by
  cases found : queue.getTask taskId with
  | none => simp [markRunning_absent found,safe,absent_unneeded found]
  | some task =>
      have same := absent_replaced (started now) (markRunning_getTask queue taskId now) found
      rw [replaced_safe same (by simp [started]) safe]
      exact and_iff_left fun pending => by cases pending

theorem markCompleted_safe (queue : TaskQueue floats) (taskId : Text) (result : Json) (now : Int)
    (safe : DependencySafe queue) : DependencySafe (queue.markCompleted taskId result now) := by
  cases found : queue.getTask taskId with
  | none => rwa [markCompleted_absent queue found]
  | some task =>
      rw [markCompleted_found queue found]
      exact unblockDependents_safe _ (completed_safe (completing_getTask queue taskId task result now) rfl safe)

theorem markFailed_safe (queue : TaskQueue floats) (taskId error : Text) (now : Int) (safe : DependencySafe queue) :
    DependencySafe (queue.markFailed taskId error now).1 ↔ ¬ needed queue taskId ∧ ¬ blocked queue taskId := by
  cases found : queue.getTask taskId with
  | none => simp [markFailed_absent found,found,safe,absent_unneeded found,blocked]
  | some task =>
      have same := absent_replaced (failed error now) (markFailed_getTask queue taskId error now) found
      rw [replaced_safe same (failed_uncompleted error now task) safe,failed_pending,failed_dependencies]
      refine and_congr_right fun _ => ?_
      simp only [blocked,found,Option.some.injEq,exists_eq_left',not_and,not_exists,not_or,not_not,ne_eq]

theorem clearDeadLetters_safe (queue : TaskQueue floats) (safe : DependencySafe queue) :
    DependencySafe queue.clearDeadLetters.1 := by
  rw [dependencySafe_tasks] at safe ⊢
  intro taskId task found pending depId rests
  rw [clearDeadLetters_getTask,Option.filter_eq_some_iff] at found
  have done := safe taskId task found.1 pending depId rests
  rw [status,Option.map_eq_some_iff] at done
  obtain ⟨dep,held,complete⟩ := done
  rw [status,clearDeadLetters_getTask,held]
  simp [complete]

def Admissible (queue : TaskQueue floats) (op : Op floats) : Prop :=
  Unused queue op ∧ ∀ task, op = .addTask task → task.status = .pending

theorem step_dependencies (queue : TaskQueue floats) (op : Op floats) (fit : Admissible queue op)
    (safe : DependencySafe queue) : DependencySafe (step queue op) ↔ KeepsDependencies queue op := by
  cases op with
  | addTask task => exact iff_of_true (addTask_safe queue task (fit.2 task rfl) (fit.1 _ rfl) safe) trivial
  | cancelTask taskId now => exact iff_of_true (cancelTask_safe queue taskId now safe) trivial
  | markRunning taskId now => exact markRunning_safe queue taskId now safe
  | markCompleted taskId result now => exact iff_of_true (markCompleted_safe queue taskId result now safe) trivial
  | markFailed taskId error now => exact markFailed_safe queue taskId error now safe
  | clearDeadLetters => exact iff_of_true (clearDeadLetters_safe queue safe) trivial

theorem init_safe (maxConcurrent : Int) : DependencySafe (TaskQueue.init maxConcurrent : TaskQueue floats) := by
  rw [dependencySafe_tasks]
  intro taskId task found
  cases found

theorem freshWorkload_admissible (maxConcurrent : Int) (work : FreshWorkload floats) :
    Steps step Admissible (TaskQueue.init maxConcurrent) work.ops := by
  refine steps_members (workload_unused maxConcurrent work.toWorkload) ?_
  intro op inside queue unused
  refine ⟨unused,?_⟩
  intro task same
  exact work.fresh task (same ▸ inside)

theorem dependency_safety_exact (maxConcurrent : Int) (work : FreshWorkload floats) :
    Throughout step DependencySafe (TaskQueue.init maxConcurrent) work.ops ↔
      Steps step KeepsDependencies (TaskQueue.init maxConcurrent) work.ops := by
  rw [throughout_exact step_dependencies _ _ (freshWorkload_admissible maxConcurrent work)]
  exact and_iff_right (init_safe maxConcurrent)

-- A second worker starts a finished task again while its dependent is ready.
def restartedDependency : FreshWorkload wholeFloats where
  ops := [.addTask (.created ['a'] [] 0),.addTask (.created ['b'] [['a']] 1),.markCompleted ['a'] .null 2,.markRunning ['a'] 3]
  distinct := by decide
  fresh := by simp [QueueTask.created]

theorem restarted_dependency_unsafe :
    ¬ Throughout step DependencySafe (TaskQueue.init 5) restartedDependency.ops := by
  intro always
  have safe := (dependencySafe_tasks _).mp (throughout_end always)
  have running := safe ['b'] (.created ['b'] [['a']] 1) rfl rfl ['a'] (List.mem_cons_self ..)
  revert running
  decide

-- A report of failure makes a task ready that waits for one never added.
example : (run step (TaskQueue.init 5) [.addTask (.created ['b'] [['a']] 0),.markFailed ['b'] [] 1]).status ['b'] =
    some .pending := by decide

end Kryvaracode.Tasks
