import Kryvaracode.TaskDependencies

namespace Kryvaracode.Tasks
open JsonText InsertionDict Runs TaskQueue

variable {floats : Floats}

-- Each waiting task waits for something: a dependency that is absent or not
-- completed.
def WaitsRightly (queue : TaskQueue floats) : Prop :=
  ∀ taskId task, queue.getTask taskId = some task → task.status = .waitingDeps →
    ∃ depId ∈ task.dependencies, queue.status depId ≠ some .completed

theorem checkDependencies_unmet (queue : TaskQueue floats) (task : QueueTask floats)
    (unmet : queue.checkDependencies task ≠ true) : ∃ depId ∈ task.dependencies, queue.status depId ≠ some .completed := by
  by_contra met
  push Not at met
  apply unmet
  exact List.all_eq_true.mpr fun depId rests => decide_eq_true (met depId rests)

-- A queue in which no more is completed, and no more waits, than before.
theorem waits_fewer {queue after : TaskQueue floats} (waits : WaitsRightly queue)
    (completed : ∀ depId, after.status depId = some .completed → queue.status depId = some .completed)
    (waiting : ∀ taskId task, after.getTask taskId = some task → task.status = .waitingDeps →
      ∃ before, queue.getTask taskId = some before ∧ before.status = .waitingDeps ∧
        before.dependencies = task.dependencies) : WaitsRightly after := by
  intro taskId task found waitingNow
  obtain ⟨before,held,waited,same⟩ := waiting taskId task found waitingNow
  obtain ⟨depId,rests,unmet⟩ := waits taskId before held waited
  exact ⟨depId,same ▸ rests,fun done => unmet (completed depId done)⟩

section Replacing
variable {queue after : TaskQueue floats} {taskId : Text} {task : QueueTask floats}
  (same : ∀ other, after.getTask other = if other = taskId then some task else queue.getTask other)
include same

theorem replaced_completed (unfinished : task.status ≠ .completed) (depId : Text)
    (done : after.status depId = some .completed) : queue.status depId = some .completed := by
  rw [replaced_status same] at done
  split at done
  next => exact absurd (Option.some.inj done) unfinished
  next => exact done

theorem replaced_waits (unfinished : task.status ≠ .completed) (active : task.status ≠ .waitingDeps)
    (waits : WaitsRightly queue) : WaitsRightly after := by
  refine waits_fewer waits (replaced_completed same unfinished) ?_
  intro other held found waiting
  rw [same] at found
  split at found
  next =>
    cases found
    exact absurd waiting active
  next => exact ⟨held,found,waiting,rfl⟩

theorem added_waits (unfinished : task.status ≠ .completed)
    (rests : task.status = .waitingDeps → ∃ depId ∈ task.dependencies, queue.status depId ≠ some .completed)
    (waits : WaitsRightly queue) : WaitsRightly after := by
  have completed := replaced_completed same unfinished
  intro other held found waiting
  have unmet : ∃ depId ∈ held.dependencies, queue.status depId ≠ some .completed := by
    rw [same] at found
    split at found
    next =>
      cases found
      exact rests waiting
    next => exact waits other held found waiting
  obtain ⟨depId,rested,undone⟩ := unmet
  exact ⟨depId,rested,fun done => undone (completed depId done)⟩
end Replacing

theorem addTask_waits (queue : TaskQueue floats) (task : QueueTask floats) (fresh : task.status = .pending)
    (waits : WaitsRightly queue) : WaitsRightly (queue.addTask task) := by
  by_cases met : queue.checkDependencies task = true
  · have kept : queue.admitted task = task := if_pos met
    have same := addTask_getTask queue task
    rw [kept] at same
    exact replaced_waits same (by simp [fresh]) (by simp [fresh]) waits
  · have held : queue.admitted task = {task with status := .waitingDeps} := if_neg met
    have same := addTask_getTask queue task
    rw [held] at same
    exact added_waits same (by simp) (fun _ => checkDependencies_unmet queue task met) waits

theorem cancelTask_waits (queue : TaskQueue floats) (taskId : Text) (now : Int) (waits : WaitsRightly queue) :
    WaitsRightly (queue.cancelTask taskId now).1 := by
  rcases cancelTask_cases queue taskId now with idle | ⟨task,_,_,_,same⟩
  · rwa [idle]
  · exact replaced_waits same (by simp) (by simp) waits

theorem markRunning_waits (queue : TaskQueue floats) (taskId : Text) (now : Int) (waits : WaitsRightly queue) :
    WaitsRightly (queue.markRunning taskId now) := by
  cases found : queue.getTask taskId with
  | none => rwa [markRunning_absent found]
  | some task =>
      have same := absent_replaced (started now) (markRunning_getTask queue taskId now) found
      exact replaced_waits same (by simp [started]) (by simp [started]) waits

-- Whatever waited before, what still waits after the dependents are looked at
-- has been looked at.
theorem unblockDependents_waits (queue : TaskQueue floats) : WaitsRightly queue.unblockDependents := by
  intro taskId task found waiting
  rw [unblockDependents_getTask,Option.map_eq_some_iff] at found
  obtain ⟨before,held,rfl⟩ := found
  by_cases freed : before.status = .waitingDeps ∧ queue.checkDependencies before = true
  · rw [promoted,if_pos freed] at waiting
    cases waiting
  · rw [promoted,if_neg freed] at waiting ⊢
    obtain ⟨depId,rests,undone⟩ := checkDependencies_unmet queue before fun met => freed ⟨waiting,met⟩
    exact ⟨depId,rests,fun done => undone ((unblockDependents_completed queue depId).mp done)⟩

theorem markCompleted_waits (queue : TaskQueue floats) (taskId : Text) (result : Json) (now : Int)
    (waits : WaitsRightly queue) : WaitsRightly (queue.markCompleted taskId result now) := by
  cases found : queue.getTask taskId with
  | none => rwa [markCompleted_absent queue found]
  | some task =>
      rw [markCompleted_found queue found]
      exact unblockDependents_waits _

theorem failed_active (error : Text) (now : Int) (task : QueueTask floats) : (failed error now task).status ≠ .waitingDeps := by
  rw [failed_status]
  split
  next => simp
  next => split <;> simp

theorem markFailed_waits (queue : TaskQueue floats) (taskId error : Text) (now : Int) (waits : WaitsRightly queue) :
    WaitsRightly (queue.markFailed taskId error now).1 := by
  cases found : queue.getTask taskId with
  | none => rwa [markFailed_absent found]
  | some task =>
      have same := absent_replaced (failed error now) (markFailed_getTask queue taskId error now) found
      exact replaced_waits same (failed_uncompleted error now task) (failed_active error now task) waits

theorem clearDeadLetters_completed (queue : TaskQueue floats) (depId : Text)
    (done : queue.clearDeadLetters.1.status depId = some .completed) : queue.status depId = some .completed := by
  rw [status,Option.map_eq_some_iff] at done
  obtain ⟨dep,held,complete⟩ := done
  rw [clearDeadLetters_getTask,Option.filter_eq_some_iff] at held
  rw [found_status held.1,complete]

theorem clearDeadLetters_waits (queue : TaskQueue floats) (waits : WaitsRightly queue) :
    WaitsRightly queue.clearDeadLetters.1 := by
  refine waits_fewer waits (clearDeadLetters_completed queue) ?_
  intro taskId task found waiting
  rw [clearDeadLetters_getTask,Option.filter_eq_some_iff] at found
  exact ⟨task,found.1,waiting,rfl⟩

theorem step_waits (queue : TaskQueue floats) (op : Op floats) (waits : WaitsRightly queue) (fit : Admissible queue op) :
    WaitsRightly (step queue op) := by
  cases op with
  | addTask task => exact addTask_waits queue task (fit.2 task rfl) waits
  | cancelTask taskId now => exact cancelTask_waits queue taskId now waits
  | markRunning taskId now => exact markRunning_waits queue taskId now waits
  | markCompleted taskId result now => exact markCompleted_waits queue taskId result now waits
  | markFailed taskId error now => exact markFailed_waits queue taskId error now waits
  | clearDeadLetters => exact clearDeadLetters_waits queue waits

theorem init_waits (maxConcurrent : Int) : WaitsRightly (TaskQueue.init maxConcurrent : TaskQueue floats) := by
  intro taskId task found
  cases found

theorem no_lost_wakeup (maxConcurrent : Int) (work : FreshWorkload floats) :
    Throughout step WaitsRightly (TaskQueue.init maxConcurrent) work.ops :=
  throughout_invariant step_waits _ _ (init_waits maxConcurrent) (freshWorkload_admissible maxConcurrent work)

end Kryvaracode.Tasks
