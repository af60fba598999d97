import Kryvaracode.TaskWaiting

namespace Kryvaracode.Tasks
open JsonText InsertionDict Runs TaskQueue

variable {floats : Floats}

-- Operations in which a task names only dependencies added before it.
structure OrderedWorkload (floats : Floats) extends Workload floats where
  ordered : ∀ front task rest, ops = front ++ .addTask task :: rest →
    ∀ depId ∈ task.dependencies, depId ∈ front.filterMap addedId

-- A dependency was added, so one that is not in the queue has been removed.
def lost : Option TaskStatus → Bool
  | none | some .cancelled | some .deadLetter => true
  | some .pending | some .waitingDeps | some .running | some .completed | some .failed | some .timeout => false

inductive Doomed (queue : TaskQueue floats) : Text → Prop where
  | direct (found : queue.getTask taskId = some task) (waiting : task.status = .waitingDeps)
      (rests : depId ∈ task.dependencies) (gone : lost (queue.status depId) = true) : Doomed queue taskId
  | through (found : queue.getTask taskId = some task) (waiting : task.status = .waitingDeps)
      (rests : depId ∈ task.dependencies) (doomed : Doomed queue depId) : Doomed queue taskId

def NoneDoomed (queue : TaskQueue floats) : Prop := ∀ taskId, ¬ Doomed queue taskId

-- Another task waits for this one.
def awaited (queue : TaskQueue floats) (taskId : Text) : Prop :=
  ∃ other task, other ≠ taskId ∧ queue.getTask other = some task ∧ task.status = .waitingDeps ∧ taskId ∈ task.dependencies

def KeepsDependents (queue : TaskQueue floats) : Op floats → Prop
  | .addTask task => ∀ depId ∈ task.dependencies, lost (queue.status depId) = false
  | .cancelTask taskId now => (queue.cancelTask taskId now).2 = true → ¬ awaited queue taskId
  | .markFailed taskId _ _ => (∃ task, queue.getTask taskId = some task ∧ retries task = false) → ¬ awaited queue taskId
  | .markRunning _ _ | .markCompleted _ _ _ | .clearDeadLetters => True

-- A chain of waiting tasks ends in one that waits for the lost dependency itself.
theorem noneDoomed_direct (queue : TaskQueue floats) : NoneDoomed queue ↔ ∀ taskId task,
    queue.getTask taskId = some task → task.status = .waitingDeps → ∀ depId ∈ task.dependencies,
      lost (queue.status depId) = false := by
  refine ⟨?_,?_⟩
  · intro none taskId task found waiting depId rests
    rw [Bool.eq_false_iff]
    intro gone
    exact none taskId (.direct found waiting rests gone)
  · intro alive taskId doomed
    induction doomed with
    | direct found waiting rests gone =>
        rw [alive _ _ found waiting _ rests] at gone
        cases gone
    | through _ _ _ _ ih => exact ih

section Replacing
variable {queue after : TaskQueue floats} {taskId : Text} {task : QueueTask floats}
  (same : ∀ other, after.getTask other = if other = taskId then some task else queue.getTask other)
include same

theorem replaced_doomed (none : NoneDoomed queue) : NoneDoomed after ↔
    (lost (some task.status) = true → ¬ awaited queue taskId) ∧
      (task.status = .waitingDeps → ∀ depId ∈ task.dependencies, lost (after.status depId) = false) := by
  have changed := replaced_status same
  rw [noneDoomed_direct] at none ⊢
  refine ⟨?_,?_⟩
  · intro alive
    refine ⟨?_,alive taskId task (by rw [same,if_pos rfl])⟩
    intro gone asked
    obtain ⟨other,held,apart,found,waiting,rests⟩ := asked
    have kept := alive other held (by rw [same,if_neg apart,found]) waiting taskId rests
    rw [changed,if_pos rfl,gone] at kept
    cases kept
  · intro parts other held found waiting depId rests
    by_cases own : other = taskId
    · rw [same,if_pos own] at found
      cases found
      exact parts.2 waiting depId rests
    · rw [same,if_neg own] at found
      rw [changed]
      split
      next equal =>
        rw [Bool.eq_false_iff]
        intro gone
        exact parts.1 gone ⟨other,held,own,found,waiting,equal ▸ rests⟩
      next => exact none other held found waiting depId rests

theorem alive_doomed (alive : lost (some task.status) = false) (active : task.status ≠ .waitingDeps)
    (none : NoneDoomed queue) : NoneDoomed after := by
  refine (replaced_doomed same none).mpr ⟨?_,fun waiting => absurd waiting active⟩
  intro gone
  rw [alive] at gone
  cases gone

theorem lost_doomed (gone : lost (some task.status) = true) (active : task.status ≠ .waitingDeps)
    (none : NoneDoomed queue) : NoneDoomed after ↔ ¬ awaited queue taskId := by
  rw [replaced_doomed same none]
  refine (and_iff_left fun waiting => absurd waiting active).trans ⟨fun kept => kept gone,fun kept _ => kept⟩
end Replacing

theorem addTask_doomed (queue : TaskQueue floats) (task : QueueTask floats) (unused : queue.getTask task.taskId = none)
    (apart : ∀ depId ∈ task.dependencies, depId ≠ task.taskId) (none : NoneDoomed queue) :
    NoneDoomed (queue.addTask task) ↔ ∀ depId ∈ task.dependencies, lost (queue.status depId) = false := by
  have same := addTask_getTask queue task
  have dependencies : (queue.admitted task).dependencies = task.dependencies := by
    unfold admitted
    split <;> rfl
  have unawaited : ¬ awaited queue task.taskId := by
    intro asked
    obtain ⟨other,held,_,found,waiting,rests⟩ := asked
    have alive := (noneDoomed_direct queue).mp none other held found waiting task.taskId rests
    rw [status,unused] at alive
    cases alive
  have before : ∀ depId ∈ task.dependencies, (queue.addTask task).status depId = queue.status depId := by
    intro depId rests
    rw [replaced_status same,if_neg (apart depId rests)]
  rw [replaced_doomed same none,dependencies]
  refine (and_iff_right fun _ => unawaited).trans ⟨?_,?_⟩
  · intro kept depId rests
    by_cases met : queue.checkDependencies task = true
    · rw [of_decide_eq_true (List.all_eq_true.mp met depId rests)]
      rfl
    · have waiting : (queue.admitted task).status = .waitingDeps := by rw [admitted,if_neg met]
      rw [← before depId rests]
      exact kept waiting depId rests
  · intro alive _ depId rests
    rw [before depId rests]
    exact alive depId rests

theorem cancelTask_doomed (queue : TaskQueue floats) (taskId : Text) (now : Int) (none : NoneDoomed queue) :
    NoneDoomed (queue.cancelTask taskId now).1 ↔ ((queue.cancelTask taskId now).2 = true → ¬ awaited queue taskId) := by
  rcases cancelTask_cases queue taskId now with idle | ⟨task,_,_,succeeds,same⟩
  · rw [idle]
    exact iff_of_true none fun succeeds => by cases succeeds
  · rw [lost_doomed same rfl (by simp) none,succeeds,forall_prop_of_true rfl]

theorem markRunning_doomed (queue : TaskQueue floats) (taskId : Text) (now : Int) (none : NoneDoomed queue) :
    NoneDoomed (queue.markRunning taskId now) := by
  cases found : queue.getTask taskId with
  | none => rwa [markRunning_absent found]
  | some task =>
      have same := absent_replaced (started now) (markRunning_getTask queue taskId now) found
      exact alive_doomed same rfl (by simp [started]) none

theorem promoted_lost (queue : TaskQueue floats) (depId : Text) :
    lost (queue.unblockDependents.status depId) = lost (queue.status depId) := by
  rw [status,unblockDependents_getTask,status]
  cases queue.getTask depId with
  | none => rfl
  | some task =>
      rw [Option.map_some,Option.map_some,Option.map_some]
      unfold promoted
      split
      next freed => rw [freed.1]; rfl
      next => rfl

theorem unblockDependents_doomed (queue : TaskQueue floats) (none : NoneDoomed queue) : NoneDoomed queue.unblockDependents := by
  rw [noneDoomed_direct] at none ⊢
  intro taskId task found waiting depId rests
  rw [unblockDependents_getTask,Option.map_eq_some_iff] at found
  obtain ⟨before,held,rfl⟩ := found
  rw [promoted_lost]
  by_cases freed : before.status = .waitingDeps ∧ queue.checkDependencies before = true
  · rw [promoted,if_pos freed] at waiting
    cases waiting
  · rw [promoted,if_neg freed] at waiting rests
    exact none taskId before held waiting depId rests

theorem markCompleted_doomed (queue : TaskQueue floats) (taskId : Text) (result : Json) (now : Int) (none : NoneDoomed queue) :
    NoneDoomed (queue.markCompleted taskId result now) := by
  cases found : queue.getTask taskId with
  | none => rwa [markCompleted_absent queue found]
  | some task =>
      rw [markCompleted_found queue found]
      apply unblockDependents_doomed
      exact alive_doomed (completing_getTask queue taskId task result now) rfl (by simp [finished]) none

theorem markFailed_doomed (queue : TaskQueue floats) (taskId error : Text) (now : Int) (none : NoneDoomed queue) :
    NoneDoomed (queue.markFailed taskId error now).1 ↔
      ((∃ task, queue.getTask taskId = some task ∧ retries task = false) → ¬ awaited queue taskId) := by
  cases found : queue.getTask taskId with
  | none => simp [markFailed_absent found,none]
  | some task =>
      have same := absent_replaced (failed error now) (markFailed_getTask queue taskId error now) found
      have active := failed_active error now task
      simp only [Option.some.injEq,exists_eq_left']
      cases again : retries task with
      | true =>
          have alive : lost (some (failed error now task).status) = false := by
            rw [failed_status,again]
            split <;> rfl
          simp only [alive_doomed same alive active none,Bool.true_eq_false,false_implies]
      | false =>
          have gone : lost (some (failed error now task).status) = true := by
            rw [failed_status,requeues,again]
            rfl
          rw [lost_doomed same gone active none]
          simp only [true_implies]

theorem clearDeadLetters_doomed (queue : TaskQueue floats) (none : NoneDoomed queue) : NoneDoomed queue.clearDeadLetters.1 := by
  rw [noneDoomed_direct] at none ⊢
  intro taskId task found waiting depId rests
  rw [clearDeadLetters_getTask,Option.filter_eq_some_iff] at found
  have alive := none taskId task found.1 waiting depId rests
  rw [status] at alive ⊢
  rw [clearDeadLetters_getTask]
  cases held : queue.getTask depId with
  | none =>
      rw [held] at alive
      cases alive
  | some dep =>
      rw [held] at alive
      have kept : dep.status ≠ .deadLetter := by
        intro dead
        rw [Option.map_some,dead] at alive
        cases alive
      simpa [Option.filter,kept] using alive

def Ordered (queue : TaskQueue floats) (op : Op floats) : Prop :=
  Unused queue op ∧ ∀ task, op = .addTask task → ∀ depId ∈ task.dependencies, depId ≠ task.taskId

theorem step_doomed (queue : TaskQueue floats) (op : Op floats) (fit : Ordered queue op) (none : NoneDoomed queue) :
    NoneDoomed (step queue op) ↔ KeepsDependents queue op := by
  cases op with
  | addTask task => exact addTask_doomed queue task (fit.1 _ rfl) (fit.2 task rfl) none
  | cancelTask taskId now => exact cancelTask_doomed queue taskId now none
  | markRunning taskId now => exact iff_of_true (markRunning_doomed queue taskId now none) trivial
  | markCompleted taskId result now => exact iff_of_true (markCompleted_doomed queue taskId result now none) trivial
  | markFailed taskId error now => exact markFailed_doomed queue taskId error now none
  | clearDeadLetters => exact iff_of_true (clearDeadLetters_doomed queue none) trivial

-- No id is added twice, so none that was added before is the task's own.
theorem orderedWorkload_apart (work : OrderedWorkload floats) (task : QueueTask floats) (inside : .addTask task ∈ work.ops)
    (depId : Text) (rests : depId ∈ task.dependencies) : depId ≠ task.taskId := by
  obtain ⟨front,rest,whole⟩ := List.append_of_mem inside
  have early := work.ordered front task rest whole depId rests
  have distinct := work.distinct
  rw [whole,List.filterMap_append,List.nodup_append] at distinct
  exact distinct.2.2 depId early task.taskId (by simp [addedId])

theorem orderedWorkload_ordered (maxConcurrent : Int) (work : OrderedWorkload floats) :
    Steps step Ordered (TaskQueue.init maxConcurrent) work.ops := by
  refine steps_members (workload_unused maxConcurrent work.toWorkload) ?_
  intro op inside queue unused
  refine ⟨unused,?_⟩
  intro task same
  exact orderedWorkload_apart work task (same ▸ inside)

theorem init_doomed (maxConcurrent : Int) : NoneDoomed (TaskQueue.init maxConcurrent : TaskQueue floats) := by
  rw [noneDoomed_direct]
  intro taskId task found
  cases found

theorem dead_dependencies_exact (maxConcurrent : Int) (work : OrderedWorkload floats) :
    Throughout step NoneDoomed (TaskQueue.init maxConcurrent) work.ops ↔
      Steps step KeepsDependents (TaskQueue.init maxConcurrent) work.ops := by
  rw [throughout_exact step_doomed _ _ (orderedWorkload_ordered maxConcurrent work)]
  exact and_iff_right (init_doomed maxConcurrent)

-- The dependent of a cancelled task is left waiting.
def cancelledDependency : OrderedWorkload wholeFloats where
  ops := [.addTask (.created ['a'] [] 0),.addTask (.created ['b'] [['a']] 1),.cancelTask ['a'] 2]
  distinct := by decide
  ordered := by
    intro front task rest whole depId rests
    rcases front with _ | ⟨first,_ | ⟨second,front⟩⟩
    · cases whole
      cases rests
    · cases whole
      exact rests
    · rcases front with _ | ⟨third,front⟩
      · cases whole
      · simp at whole

theorem cancelled_dependency_awaited :
    ¬ Throughout step NoneDoomed (TaskQueue.init 5) cancelledDependency.ops := by
  intro always
  have alive := (noneDoomed_direct _).mp (throughout_end always) ['b']
    {QueueTask.created ['b'] [['a']] 1 with status := .waitingDeps} rfl rfl ['a'] (List.mem_singleton.mpr rfl)
  revert alive
  decide

end Kryvaracode.Tasks
