import Kryvaracode.TaskRuns

namespace Kryvaracode.Tasks
open JsonText InsertionDict Runs TaskQueue

variable {floats : Floats}

def TaskQueue.running (queue : TaskQueue floats) : Nat :=
  queue.tasks.values.countP fun task => decide (task.status = .running)

def Accounted (maxConcurrent : Int) (queue : TaskQueue floats) : Prop :=
  queue.runningCount = queue.running ∧ queue.runningCount ≤ maxConcurrent

-- A report of an end is counted once the task runs, or not at all at zero.
def ends (queue : TaskQueue floats) (taskId : Text) : Prop :=
  queue.getTask taskId = none ∨ queue.status taskId = some .running ∨ queue.runningCount = 0

def KeepsAccount (maxConcurrent : Int) (queue : TaskQueue floats) : Op floats → Prop
  | .addTask task => queue.status task.taskId = some .running ↔
      task.status = .running ∧ queue.checkDependencies task = true
  | .markRunning taskId _ => queue.getTask taskId = none ∨
      (queue.status taskId ≠ some .running ∧ queue.runningCount + 1 ≤ maxConcurrent)
  | .markCompleted taskId _ _ => ends queue taskId
  | .markFailed taskId _ _ => ends queue taskId
  | .cancelTask _ _ | .clearDeadLetters => True

def one (status : Option TaskStatus) : Nat := if status = some .running then 1 else 0

theorem set_running (queue : TaskQueue floats) (taskId : Text) (task : QueueTask floats) (maxConcurrent : Int)
    (runningCount : Nat) : (TaskQueue.mk (queue.tasks.set taskId task) maxConcurrent runningCount).running +
      one (queue.status taskId) = queue.running + one (some task.status) := by
  have moved := countP_set (fun task : QueueTask floats => decide (task.status = .running)) queue.tasks taskId task
  have weighed : ∀ held : Option (QueueTask floats),
      weight (fun task => decide (task.status = .running)) held = one (held.map QueueTask.status) := by
    intro held
    cases held with
    | none => rfl
    | some task => simp [weight,one]
  rw [weighed,weighed] at moved
  exact moved

theorem promote_running (queue : TaskQueue floats) (taskId : Text) :
    (queue.promote taskId).running = queue.running ∧ (queue.promote taskId).runningCount = queue.runningCount := by
  unfold promote
  cases found : queue.getTask taskId with
  | none => exact ⟨rfl,rfl⟩
  | some task =>
      dsimp only
      by_cases freed : task.status = .waitingDeps ∧ queue.checkDependencies task = true
      · have moved := set_running queue taskId {task with status := .pending} queue.maxConcurrent queue.runningCount
        simp only [status,found,Option.map_some,freed.1,one] at moved
        rw [if_pos freed]
        exact ⟨by simpa using moved,rfl⟩
      · rw [if_neg freed]
        exact ⟨rfl,rfl⟩

theorem unblockDependents_running (queue : TaskQueue floats) : queue.unblockDependents.running = queue.running ∧
    queue.unblockDependents.runningCount = queue.runningCount := by
  unfold unblockDependents
  generalize queue.tasks.keys = ids
  induction ids generalizing queue with
  | nil => exact ⟨rfl,rfl⟩
  | cons first rest ih =>
      rw [List.foldl_cons,(ih (queue.promote first)).1,(ih (queue.promote first)).2]
      exact promote_running queue first

theorem addTask_accounted (maxConcurrent : Int) (queue : TaskQueue floats) (task : QueueTask floats)
    (accounted : Accounted maxConcurrent queue) :
    Accounted maxConcurrent (queue.addTask task) ↔ KeepsAccount maxConcurrent queue (.addTask task) := by
  have moved := set_running queue task.taskId (queue.admitted task) queue.maxConcurrent queue.runningCount
  have enters : (queue.admitted task).status = .running ↔ task.status = .running ∧ queue.checkDependencies task = true := by
    unfold admitted
    split
    next met => simp [met]
    next unmet => simp [unmet]
  have kept : Accounted maxConcurrent (queue.addTask task) ↔ (queue.addTask task).running = queue.running := by
    refine ⟨fun after => after.1.symm.trans accounted.1,?_⟩
    intro same
    exact ⟨accounted.1.trans same.symm,accounted.2⟩
  rw [kept,KeepsAccount,← enters]
  change (queue.addTask task).running + _ = _ at moved
  simp only [one,Option.some.injEq] at moved
  by_cases held : queue.status task.taskId = some .running
  · by_cases runs : (queue.admitted task).status = .running
    · rw [if_pos held,if_pos runs] at moved
      exact iff_of_true (by omega) (iff_of_true held runs)
    · rw [if_pos held,if_neg runs] at moved
      exact iff_of_false (by omega) fun same => runs (same.mp held)
  · by_cases runs : (queue.admitted task).status = .running
    · rw [if_neg held,if_pos runs] at moved
      exact iff_of_false (by omega) fun same => held (same.mpr runs)
    · rw [if_neg held,if_neg runs] at moved
      exact iff_of_true (by omega) (iff_of_false held runs)

theorem cancelTask_accounted (maxConcurrent : Int) (queue : TaskQueue floats) (taskId : Text) (now : Int)
    (accounted : Accounted maxConcurrent queue) : Accounted maxConcurrent (queue.cancelTask taskId now).1 := by
  unfold cancelTask
  cases found : queue.getTask taskId with
  | none => exact accounted
  | some task =>
      by_cases early : task.status = .pending ∨ task.status = .waitingDeps
      · have moved := set_running queue taskId {task with status := .cancelled,completedAt := some now}
          queue.maxConcurrent queue.runningCount
        have idle : task.status ≠ .running := by
          intro runs
          simp [runs] at early
        simp only [status,found,Option.map_some,one,Option.some.injEq,idle,if_false,reduceCtorEq] at moved
        simp only [early,if_true]
        exact ⟨accounted.1.trans moved.symm,accounted.2⟩
      · simpa only [early,if_false] using accounted

theorem markRunning_accounted (maxConcurrent : Int) (queue : TaskQueue floats) (taskId : Text) (now : Int)
    (accounted : Accounted maxConcurrent queue) : Accounted maxConcurrent (queue.markRunning taskId now) ↔
      KeepsAccount maxConcurrent queue (.markRunning taskId now) := by
  simp only [KeepsAccount]
  cases found : queue.getTask taskId with
  | none => simp [markRunning_absent found,accounted]
  | some task =>
      have moved := set_running queue taskId (started now task) queue.maxConcurrent (queue.runningCount + 1)
      have same : queue.markRunning taskId now =
          ⟨queue.tasks.set taskId (started now task),queue.maxConcurrent,queue.runningCount + 1⟩ := by
        simp [markRunning,found,started]
      rw [← same] at moved
      have counted : (queue.markRunning taskId now).runningCount = queue.runningCount + 1 := by rw [same]
      have before := accounted.1
      simp only [Accounted,counted,status,found,Option.map_some,reduceCtorEq,false_or,ne_eq,Option.some.injEq]
      simp only [one,status,found,Option.map_some,Option.some.injEq,started,if_true] at moved
      split at moved
      next runs => exact iff_of_false (fun after => by omega) (fun both => both.1 runs)
      next idle =>
        refine and_congr (iff_of_true (by omega) idle) ?_
        push_cast
        rfl

theorem ended_accounted (maxConcurrent : Int) (queue after : TaskQueue floats) (taskId : Text) (task : QueueTask floats)
    (found : queue.getTask taskId = some task) (accounted : Accounted maxConcurrent queue)
    (counted : after.runningCount = queue.runningCount - 1) (moved : after.running + one (some task.status) = queue.running) :
    Accounted maxConcurrent after ↔ ends queue taskId := by
  have before := accounted.1
  have bounded := accounted.2
  have idle : ends queue taskId ↔ task.status = .running ∨ queue.runningCount = 0 := by
    rw [ends,found,status,found]
    simp
  rw [idle,Accounted,counted]
  simp only [one,Option.some.injEq] at moved
  split at moved
  next runs => exact iff_of_true ⟨by omega,by omega⟩ (.inl runs)
  next rests =>
    refine ⟨?_,?_⟩
    · intro after
      exact .inr (by omega)
    · intro either
      have zero := either.resolve_left rests
      exact ⟨by omega,by omega⟩

theorem markCompleted_accounted (maxConcurrent : Int) (queue : TaskQueue floats) (taskId : Text) (result : Json) (now : Int)
    (accounted : Accounted maxConcurrent queue) :
    Accounted maxConcurrent (queue.markCompleted taskId result now) ↔ ends queue taskId := by
  cases found : queue.getTask taskId with
  | none => simp [markCompleted_absent queue found,accounted,ends,found]
  | some task =>
      rw [markCompleted_found queue found]
      have unblocked := unblockDependents_running (queue.completing taskId task result now)
      have moved := set_running queue taskId (finished result now task) queue.maxConcurrent (queue.runningCount - 1)
      refine ended_accounted maxConcurrent queue _ taskId task found accounted unblocked.2 ?_
      rw [unblocked.1,← found_status found]
      exact moved

theorem markFailed_accounted (maxConcurrent : Int) (queue : TaskQueue floats) (taskId error : Text) (now : Int)
    (accounted : Accounted maxConcurrent queue) :
    Accounted maxConcurrent (queue.markFailed taskId error now).1 ↔ ends queue taskId := by
  cases found : queue.getTask taskId with
  | none => simp [markFailed,accounted,ends,found]
  | some task =>
      rw [markFailed_found queue found]
      have moved := set_running queue taskId (failed error now task) queue.maxConcurrent (queue.runningCount - 1)
      refine ended_accounted maxConcurrent queue _ taskId task found accounted rfl ?_
      have idle : (failed error now task).status ≠ .running := by
        rw [failed_status]
        split
        next => simp
        next => split <;> simp
      simpa [found_status found,one,idle] using moved

theorem clearDeadLetters_accounted (maxConcurrent : Int) (queue : TaskQueue floats)
    (accounted : Accounted maxConcurrent queue) : Accounted maxConcurrent queue.clearDeadLetters.1 := by
  have same : queue.clearDeadLetters.1.running = queue.running := by
    refine countP_filter _ queue.tasks _ ?_
    intro taskId task runs
    simp [of_decide_eq_true runs]
  exact ⟨accounted.1.trans same.symm,accounted.2⟩

theorem step_accounted (maxConcurrent : Int) (queue : TaskQueue floats) (op : Op floats)
    (accounted : Accounted maxConcurrent queue) :
    Accounted maxConcurrent (step queue op) ↔ KeepsAccount maxConcurrent queue op := by
  cases op with
  | addTask task => exact addTask_accounted maxConcurrent queue task accounted
  | cancelTask taskId now => exact iff_of_true (cancelTask_accounted maxConcurrent queue taskId now accounted) trivial
  | markRunning taskId now => exact markRunning_accounted maxConcurrent queue taskId now accounted
  | markCompleted taskId result now => exact markCompleted_accounted maxConcurrent queue taskId result now accounted
  | markFailed taskId error now => exact markFailed_accounted maxConcurrent queue taskId error now accounted
  | clearDeadLetters => exact iff_of_true (clearDeadLetters_accounted maxConcurrent queue accounted) trivial

theorem running_count_exact (maxConcurrent : Int) (ops : List (Op floats)) :
    Throughout step (Accounted maxConcurrent) (TaskQueue.init maxConcurrent) ops ↔
      0 ≤ maxConcurrent ∧ Steps step (KeepsAccount maxConcurrent) (TaskQueue.init maxConcurrent) ops := by
  have fits : Steps step (fun _ _ => True) (TaskQueue.init maxConcurrent) ops := steps_forall (fun _ _ _ => trivial) _
  rw [throughout_exact (fun queue op _ => step_accounted maxConcurrent queue op) _ ops fits]
  refine and_congr_left fun _ => ⟨And.right,?_⟩
  intro bound
  exact ⟨rfl,bound⟩

-- One task started twice is counted twice, past a limit that nothing reads.
theorem restarted_task_miscounted : ¬ Throughout step (Accounted 1) (TaskQueue.init 1 : TaskQueue wholeFloats)
    [.addTask (.created ['a'] [] 0),.markRunning ['a'] 1,.markRunning ['a'] 2] := by
  intro always
  have ended := throughout_end always
  revert ended
  simp only [Accounted]
  decide

end Kryvaracode.Tasks
