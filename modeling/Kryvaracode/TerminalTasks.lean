import Kryvaracode.TaskRuns

namespace Kryvaracode.Tasks
open JsonText InsertionDict Runs TaskQueue

variable {floats : Floats}

def TaskStatus.terminal : TaskStatus → Bool
  | .completed | .cancelled | .deadLetter => true
  | .pending | .waitingDeps | .running | .failed | .timeout => false

def settled (index : Text × TaskStatus) (queue : TaskQueue floats) : Prop :=
  index.2.terminal = true ∧ queue.status index.1 = some index.2

def removed (index : Text × TaskStatus) (queue : TaskQueue floats) : Prop := queue.getTask index.1 = none

def Absorbing (maxConcurrent : Int) (ops : List (Op floats)) : Prop :=
  Lasting step removed settled (TaskQueue.init maxConcurrent) ops

def CancelledNeverRuns (maxConcurrent : Int) (ops : List (Op floats)) : Prop :=
  ∀ front taskId now rest, front ++ .cancelTask taskId now :: rest = ops →
    ((run step (TaskQueue.init maxConcurrent) front).cancelTask taskId now).2 = true → ∀ later, later <+: rest →
      (run step (TaskQueue.init maxConcurrent) (front ++ .cancelTask taskId now :: later)).status taskId ≠ some .running

-- A dead letter may be reported as failed again once its retries are spent.
def KeepsTerminal (queue : TaskQueue floats) : Op floats → Prop
  | .markRunning taskId _ => ∀ status, queue.status taskId = some status → status.terminal = false
  | .markCompleted taskId _ _ => queue.status taskId ≠ some .cancelled ∧ queue.status taskId ≠ some .deadLetter
  | .markFailed taskId _ _ => queue.status taskId ≠ some .completed ∧ queue.status taskId ≠ some .cancelled ∧
      ∀ task, queue.getTask taskId = some task → task.status = .deadLetter → retries task = false
  | .addTask _ | .cancelTask _ _ | .clearDeadLetters => True

def StaysSettled (queue after : TaskQueue floats) : Prop :=
  ∀ index, settled index queue → settled index after ∨ removed index after

theorem removed_unsettled (index : Text × TaskStatus) (queue : TaskQueue floats) (gone : removed index queue) :
    ¬ settled index queue := by
  intro held
  have status := held.2
  rw [TaskQueue.status,gone] at status
  cases status

theorem staysSettled_refl (queue : TaskQueue floats) : StaysSettled queue queue := fun _ held => .inl held

theorem replaced_settled {queue after : TaskQueue floats} {taskId : Text} {before task : QueueTask floats}
    (same : ∀ other, after.getTask other = if other = taskId then some task else queue.getTask other)
    (found : queue.getTask taskId = some before) :
    StaysSettled queue after ↔ (before.status.terminal = true → task.status = before.status) := by
  have changed : ∀ other, after.status other = if other = taskId then some task.status else queue.status other := by
    intro other
    rw [status,same]
    split <;> rfl
  refine ⟨?_,?_⟩
  · intro stays terminal
    rcases stays (taskId,before.status) ⟨terminal,found_status found⟩ with held | gone
    · have kept := held.2
      rw [changed,if_pos rfl] at kept
      exact Option.some.inj kept
    · rw [removed,same,if_pos rfl] at gone
      cases gone
  · intro kept index held
    refine .inl ⟨held.1,?_⟩
    rw [changed]
    split
    next equal =>
      have status := held.2
      rw [equal,found_status found] at status
      have terminal := held.1
      rw [← Option.some.inj status] at terminal
      rw [kept terminal]
      exact status
    next => exact held.2

theorem promoted_terminal (queue : TaskQueue floats) (task : QueueTask floats) (status : TaskStatus)
    (terminal : status.terminal = true) : (queue.promoted task).status = status ↔ task.status = status := by
  unfold promoted
  split
  next freed =>
    rw [freed.1]
    refine iff_of_false ?_ ?_
    · intro pending
      rw [← pending] at terminal
      cases terminal
    · intro waiting
      rw [← waiting] at terminal
      cases terminal
  next => rfl

theorem unblockDependents_settled (queue : TaskQueue floats) (index : Text × TaskStatus) :
    (settled index queue.unblockDependents ↔ settled index queue) ∧
      (removed index queue.unblockDependents ↔ removed index queue) := by
  refine ⟨?_,?_⟩
  · refine and_congr_right ?_
    intro terminal
    rw [status,unblockDependents_getTask,status]
    cases queue.getTask index.1 with
    | none => rfl
    | some task => simpa using promoted_terminal queue task index.2 terminal
  · rw [removed,unblockDependents_getTask,Option.map_eq_none_iff,removed]

theorem failed_terminal (error : Text) (now : Int) (task : QueueTask floats) :
    (task.status.terminal = true → (failed error now task).status = task.status) ↔
      task.status ≠ .completed ∧ task.status ≠ .cancelled ∧ (task.status = .deadLetter → retries task = false) := by
  rw [failed_status]
  cases again : retries task with
  | false => cases status : task.status <;> simp [requeues,again,TaskStatus.terminal]
  | true => cases requeues task <;> cases status : task.status <;> simp [TaskStatus.terminal]

theorem addTask_settled (queue : TaskQueue floats) (task : QueueTask floats) (unused : queue.getTask task.taskId = none) :
    StaysSettled queue (queue.addTask task) := by
  intro index held
  refine .inl ⟨held.1,?_⟩
  have apart : index.1 ≠ task.taskId := by
    intro equal
    have status := held.2
    rw [equal,TaskQueue.status,unused] at status
    cases status
  rw [status,addTask_getTask,if_neg apart]
  exact held.2

theorem cancelTask_settled (queue : TaskQueue floats) (taskId : Text) (now : Int) :
    StaysSettled queue (queue.cancelTask taskId now).1 := by
  cases found : queue.getTask taskId with
  | none =>
      rw [cancelTask_absent found]
      exact staysSettled_refl queue
  | some task =>
      have same := absent_replaced (cancelled now) (cancelTask_getTask queue taskId now) found
      refine (replaced_settled same found).mpr ?_
      intro terminal
      cases status : task.status <;> simp_all [cancelled,TaskStatus.terminal]

theorem markRunning_settled (queue : TaskQueue floats) (taskId : Text) (now : Int) :
    StaysSettled queue (queue.markRunning taskId now) ↔
      ∀ status, queue.status taskId = some status → status.terminal = false := by
  cases found : queue.getTask taskId with
  | none => simp [markRunning_absent found,found,staysSettled_refl,status]
  | some task =>
      rw [replaced_settled (absent_replaced (started now) (markRunning_getTask queue taskId now) found) found,
        found_status found]
      cases status : task.status <;> simp [started,TaskStatus.terminal]

theorem markCompleted_settled (queue : TaskQueue floats) (taskId : Text) (result : Json) (now : Int) :
    StaysSettled queue (queue.markCompleted taskId result now) ↔
      queue.status taskId ≠ some .cancelled ∧ queue.status taskId ≠ some .deadLetter := by
  cases found : queue.getTask taskId with
  | none => simp [markCompleted_absent queue found,staysSettled_refl,status,found]
  | some task =>
      have unblocked : StaysSettled queue (queue.completing taskId task result now).unblockDependents ↔
          StaysSettled queue (queue.completing taskId task result now) := by
        refine forall_congr' fun index => imp_congr_right fun _ => ?_
        rw [(unblockDependents_settled _ index).1,(unblockDependents_settled _ index).2]
      rw [markCompleted_found queue found,unblocked,
        replaced_settled (completing_getTask queue taskId task result now) found,found_status found]
      cases status : task.status <;> simp [finished,TaskStatus.terminal]

theorem markFailed_settled (queue : TaskQueue floats) (taskId error : Text) (now : Int) :
    StaysSettled queue (queue.markFailed taskId error now).1 ↔ KeepsTerminal queue (.markFailed taskId error now) := by
  cases found : queue.getTask taskId with
  | none => simp [markFailed_absent found,found,staysSettled_refl,KeepsTerminal,status]
  | some task =>
      rw [replaced_settled (absent_replaced (failed error now) (markFailed_getTask queue taskId error now) found) found,
        failed_terminal]
      simp [KeepsTerminal,found,status]

theorem clearDeadLetters_settled (queue : TaskQueue floats) : StaysSettled queue queue.clearDeadLetters.1 := by
  intro index held
  have status := held.2
  rw [TaskQueue.status,Option.map_eq_some_iff] at status
  obtain ⟨task,found,same⟩ := status
  by_cases dead : task.status = .deadLetter
  · exact .inr (by simp [removed,clearDeadLetters_getTask,found,dead])
  · have alive : index.2 ≠ .deadLetter := same ▸ dead
    exact .inl ⟨held.1,by simp [TaskQueue.status,clearDeadLetters_getTask,found,same,alive]⟩

theorem step_settled (queue : TaskQueue floats) (op : Op floats) (unused : Unused queue op) :
    StaysSettled queue (step queue op) ↔ KeepsTerminal queue op := by
  cases op with
  | addTask task => exact iff_of_true (addTask_settled queue task (unused _ rfl)) trivial
  | cancelTask taskId now => exact iff_of_true (cancelTask_settled queue taskId now) trivial
  | markRunning taskId now => exact markRunning_settled queue taskId now
  | markCompleted taskId result now => exact markCompleted_settled queue taskId result now
  | markFailed taskId error now => exact markFailed_settled queue taskId error now
  | clearDeadLetters => exact iff_of_true (clearDeadLetters_settled queue) trivial

theorem absorbing_steps (maxConcurrent : Int) (ops : List (Op floats)) (distinct : (ops.filterMap addedId).Nodup) :
    Absorbing maxConcurrent ops ↔ Steps step KeepsTerminal (TaskQueue.init maxConcurrent) ops := by
  rw [Absorbing,lasting_exact removed settled removed_unsettled]
  exact steps_congr step_settled (workload_unused maxConcurrent ⟨ops,distinct⟩)

theorem cancelTask_status (queue : TaskQueue floats) (taskId : Text) (now : Int)
    (accepted : (queue.cancelTask taskId now).2 = true) :
    (queue.cancelTask taskId now).1.status taskId = some .cancelled := by
  have early := (cancelTask_true queue taskId now).mp accepted
  simp only [status,Option.map_eq_some_iff] at early
  rw [status,cancelTask_getTask,if_pos rfl]
  rcases early with pending | waiting
  · obtain ⟨task,found,same⟩ := pending
    simp [found,cancelled,same]
  · obtain ⟨task,found,same⟩ := waiting
    simp [found,cancelled,same]

-- The id was added before it was cancelled, so nothing adds it afterwards.
theorem cancelled_stays (maxConcurrent : Int) (front later : List (Op floats)) (taskId : Text) (now : Int)
    (distinct : ((front ++ .cancelTask taskId now :: later).filterMap addedId).Nodup)
    (accepted : ((run step (TaskQueue.init maxConcurrent) front).cancelTask taskId now).2 = true)
    (absorbing : Absorbing maxConcurrent (front ++ .cancelTask taskId now :: later)) :
    (run step (TaskQueue.init maxConcurrent) (front ++ .cancelTask taskId now :: later)).status taskId ≠ some .running := by
  have whole : (front ++ [Op.cancelTask taskId now]) ++ later = front ++ .cancelTask taskId now :: later :=
    List.append_cons front _ later ▸ rfl
  have reached : run step (TaskQueue.init maxConcurrent) (front ++ [.cancelTask taskId now]) =
      ((run step (TaskQueue.init maxConcurrent) front).cancelTask taskId now).1 := by
    rw [run_append]
    rfl
  have held : settled (taskId,.cancelled) (run step (TaskQueue.init maxConcurrent) (front ++ [.cancelTask taskId now])) := by
    rw [reached]
    exact ⟨rfl,cancelTask_status _ taskId now accepted⟩
  have added : taskId ∈ front.filterMap addedId := by
    by_contra other
    have absent := run_absent (TaskQueue.init maxConcurrent) front taskId rfl other
    rw [cancelTask,absent] at accepted
    cases accepted
  have unadded : ∀ op ∈ later, ∀ _ : TaskQueue floats, addedId op ≠ some taskId := by
    intro op inside _ same
    rw [List.filterMap_append] at distinct
    have again : taskId ∈ (Op.cancelTask taskId now :: later).filterMap addedId :=
      List.mem_filterMap.mpr ⟨op,List.mem_cons_of_mem _ inside,same⟩
    exact List.disjoint_of_nodup_append distinct added again
  have lasts := absorbing _ later whole (taskId,.cancelled) held
  have ended := until_run (fun queue op fit gone => step_absent queue op taskId gone fit) _ later
    (steps_forall unadded _) lasts
  rw [← run_append,whole] at ended
  rcases ended with gone | still
  · rw [status,gone]
    simp
  · rw [still.2]
    simp

theorem terminal_absorbing_exact (maxConcurrent : Int) (work : Workload floats) :
    (Absorbing maxConcurrent work.ops ∧ CancelledNeverRuns maxConcurrent work.ops) ↔
      Steps step KeepsTerminal (TaskQueue.init maxConcurrent) work.ops := by
  rw [← absorbing_steps maxConcurrent work.ops work.distinct]
  refine and_iff_left_of_imp ?_
  intro absorbing front taskId now rest whole accepted later early
  obtain ⟨tail,rfl⟩ := early
  have start : front ++ .cancelTask taskId now :: later <+: work.ops :=
    ⟨tail,by rw [← whole,List.append_assoc,List.cons_append]⟩
  have distinct := (start.sublist.filterMap addedId).nodup work.distinct
  have met := (absorbing_steps maxConcurrent work.ops work.distinct).mp absorbing
  exact cancelled_stays maxConcurrent front later taskId now distinct accepted
    ((absorbing_steps maxConcurrent _ distinct).mpr (steps_front _ _ _ _ start met))

-- A worker with a list of ready tasks read before the cancellation.
def staleWorker : Workload wholeFloats where
  ops := [.addTask (.created ['a'] [] 0),.cancelTask ['a'] 1,.markRunning ['a'] 2]
  distinct := by decide

theorem stale_worker_runs_cancelled :
    ¬ Absorbing 5 staleWorker.ops ∧ ¬ CancelledNeverRuns 5 staleWorker.ops := by
  refine ⟨?_,?_⟩
  · intro absorbing
    have lasts := absorbing [.addTask (.created ['a'] [] 0),.cancelTask ['a'] 1] [.markRunning ['a'] 2] rfl
      (['a'],.cancelled) ⟨rfl,by decide⟩
    rcases lasts with gone | along
    · cases gone
    · rcases until_start along.2 with gone | held
      · cases gone
      · revert held
        simp only [settled]
        decide
  · intro never
    have still := never [.addTask (.created ['a'] [] 0)] ['a'] 1 [.markRunning ['a'] 2] rfl (by decide)
      [.markRunning ['a'] 2] (List.prefix_refl _)
    revert still
    decide

end Kryvaracode.Tasks
