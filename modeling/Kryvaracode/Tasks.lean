import Kryvaracode.Exceptions
import Kryvaracode.JsonText
import Kryvaracode.InsertionDict

namespace Kryvaracode.Tasks
open JsonText InsertionDict

inductive TaskStatus where
  | pending
  | waitingDeps
  | running
  | completed
  | failed
  | timeout
  | deadLetter
  | cancelled
  deriving DecidableEq, Repr

def TaskStatus.value : TaskStatus → Text
  | .pending => "pending".toList
  | .waitingDeps => "waiting_deps".toList
  | .running => "running".toList
  | .completed => "completed".toList
  | .failed => "failed".toList
  | .timeout => "timeout".toList
  | .deadLetter => "dead_letter".toList
  | .cancelled => "cancelled".toList

def TaskStatus.members : List TaskStatus :=
  [.pending,.waitingDeps,.running,.completed,.failed,.timeout,.deadLetter,.cancelled]

-- What the queue asks of the language's floats. Only the power can raise.
structure Floats where
  Number : Type
  times : Number → Number → Number
  power : Number → Int → Result Number
  least : Number → Number → Number
  timestamp : Int → Number
  atMost : Number → Number → Bool

variable {floats : Floats}

structure RetryPolicy (floats : Floats) where
  maxRetries : Int
  baseDelay : floats.Number
  maxDelay : floats.Number
  backoffFactor : floats.Number

-- Moments are microseconds of UTC.
structure QueueTask (floats : Floats) where
  taskId : Text
  priority : Int
  status : TaskStatus
  dependencies : List Text
  retryPolicy : RetryPolicy floats
  retriesUsed : Int
  result : Json
  error : Option Text
  createdAt : Int
  startedAt : Option Int
  completedAt : Option Int

structure TaskQueue (floats : Floats) where
  tasks : Dict Text (QueueTask floats)
  maxConcurrent : Int
  runningCount : Nat

namespace TaskQueue

def init (maxConcurrent : Int) : TaskQueue floats := ⟨Dict.empty,maxConcurrent,0⟩

variable (queue : TaskQueue floats)

def getTask (taskId : Text) : Option (QueueTask floats) := queue.tasks.get taskId
def status (taskId : Text) : Option TaskStatus := (queue.getTask taskId).map QueueTask.status

def checkDependencies (task : QueueTask floats) : Bool :=
  task.dependencies.all fun depId => decide (queue.status depId = some .completed)

def admitted (task : QueueTask floats) : QueueTask floats :=
  if queue.checkDependencies task then task else {task with status := .waitingDeps}

def addTask (task : QueueTask floats) : TaskQueue floats :=
  {queue with tasks := queue.tasks.set task.taskId (queue.admitted task)}

def cancelTask (taskId : Text) (now : Int) : TaskQueue floats × Bool :=
  match queue.getTask taskId with
  | none => (queue,false)
  | some task =>
      if task.status = .pending ∨ task.status = .waitingDeps then
        ({queue with tasks := queue.tasks.set taskId {task with status := .cancelled,completedAt := some now}},true)
      else (queue,false)

-- The sort key puts the larger priority first and then the older task.
def sooner (first second : QueueTask floats) : Bool :=
  decide (second.priority < first.priority) || (decide (first.priority = second.priority) &&
    floats.atMost (floats.timestamp first.createdAt) (floats.timestamp second.createdAt))

def getReadyTasks : List (QueueTask floats) :=
  (queue.tasks.values.filter fun task => decide (task.status = .pending)).mergeSort sooner

def markRunning (taskId : Text) (now : Int) : TaskQueue floats :=
  match queue.getTask taskId with
  | none => queue
  | some task => {queue with
      tasks := queue.tasks.set taskId {task with status := .running,startedAt := some now}
      runningCount := queue.runningCount + 1}

def promote (taskId : Text) : TaskQueue floats :=
  match queue.getTask taskId with
  | none => queue
  | some task =>
      if task.status = .waitingDeps ∧ queue.checkDependencies task = true then
        {queue with tasks := queue.tasks.set taskId {task with status := .pending}}
      else queue

def unblockDependents : TaskQueue floats := queue.tasks.keys.foldl promote queue

-- The clamp at zero is the subtraction of naturals.
def markCompleted (taskId : Text) (result : Json) (now : Int) : TaskQueue floats :=
  match queue.getTask taskId with
  | none => queue
  | some task => unblockDependents {queue with
      tasks := queue.tasks.set taskId {task with status := .completed,result := result,completedAt := some now}
      runningCount := queue.runningCount - 1}

def delay (policy : RetryPolicy floats) (retriesUsed : Int) : Result floats.Number := do
  let factor ← floats.power policy.backoffFactor (retriesUsed - 1)
  return floats.least (floats.times policy.baseDelay factor) policy.maxDelay

-- The loop's timer is given a callback that does nothing.
def retryTask (taskId : Text) (task : QueueTask floats) : TaskQueue floats × Result Unit :=
  let retried := {task with retriesUsed := task.retriesUsed + 1}
  match delay retried.retryPolicy retried.retriesUsed with
  | .error exc => ({queue with tasks := queue.tasks.set taskId retried},.error exc)
  | .ok _ =>
      let requeued := {retried with status := .pending,error := none,startedAt := none,completedAt := none}
      ({queue with tasks := queue.tasks.set taskId requeued},.ok ())

def markFailed (taskId error : Text) (now : Int) : TaskQueue floats × Result Unit :=
  match queue.getTask taskId with
  | none => (queue,.ok ())
  | some task =>
      let failed := {task with status := .failed,error := some error,completedAt := some now}
      let counted := {queue with tasks := queue.tasks.set taskId failed,runningCount := queue.runningCount - 1}
      if failed.retriesUsed < failed.retryPolicy.maxRetries then counted.retryTask taskId failed
      else ({counted with tasks := counted.tasks.set taskId {failed with status := .deadLetter}},.ok ())

def deadLetterCount : Nat := queue.tasks.values.countP fun task => decide (task.status = .deadLetter)

def clearDeadLetters : TaskQueue floats × Nat :=
  ({queue with tasks := queue.tasks.filter fun _ task => decide (task.status ≠ .deadLetter)},queue.deadLetterCount)

def stats : List (Text × Nat) := TaskStatus.members.map fun status =>
  (status.value,queue.tasks.values.countP fun task => decide (task.status = status))

def len : Nat := queue.tasks.size

end TaskQueue

-- Whole numbers in the place of floats, for runs in which no fraction occurs.
def wholeFloats : Floats where
  Number := Int
  times first second := first * second
  power base exponent := .ok (base ^ exponent.toNat)
  least first second := min first second
  timestamp moment := moment
  atMost first second := decide (first ≤ second)

def defaultPolicy : RetryPolicy wholeFloats := ⟨3,(1 : Int),(60 : Int),(2 : Int)⟩

def QueueTask.created (taskId : Text) (dependencies : List Text) (createdAt : Int) : QueueTask wholeFloats :=
  ⟨taskId,0,.pending,dependencies,defaultPolicy,0,.null,none,createdAt,none,none⟩

inductive Op (floats : Floats) where
  | addTask (task : QueueTask floats)
  | cancelTask (taskId : Text) (now : Int)
  | markRunning (taskId : Text) (now : Int)
  | markCompleted (taskId : Text) (result : Json) (now : Int)
  | markFailed (taskId error : Text) (now : Int)
  | clearDeadLetters

def step (queue : TaskQueue floats) : Op floats → TaskQueue floats
  | .addTask task => queue.addTask task
  | .cancelTask taskId now => (queue.cancelTask taskId now).1
  | .markRunning taskId now => queue.markRunning taskId now
  | .markCompleted taskId result now => queue.markCompleted taskId result now
  | .markFailed taskId error now => (queue.markFailed taskId error now).1
  | .clearDeadLetters => queue.clearDeadLetters.1

namespace TaskQueue
section Effects
variable (queue : TaskQueue floats)

-- What one operation leaves of the task it is about.
def cancelled (now : Int) (task : QueueTask floats) : QueueTask floats :=
  if task.status = .pending ∨ task.status = .waitingDeps then {task with status := .cancelled,completedAt := some now}
  else task

def started (now : Int) (task : QueueTask floats) : QueueTask floats :=
  {task with status := .running,startedAt := some now}

def finished (result : Json) (now : Int) (task : QueueTask floats) : QueueTask floats :=
  {task with status := .completed,result := result,completedAt := some now}

def promoted (task : QueueTask floats) : QueueTask floats :=
  if task.status = .waitingDeps ∧ queue.checkDependencies task = true then {task with status := .pending} else task

def retries (task : QueueTask floats) : Bool := decide (task.retriesUsed < task.retryPolicy.maxRetries)

def failed (error : Text) (now : Int) (task : QueueTask floats) : QueueTask floats :=
  if retries task then
    match delay task.retryPolicy (task.retriesUsed + 1) with
    | .error _ => {task with
        status := .failed,error := some error,completedAt := some now,retriesUsed := task.retriesUsed + 1}
    | .ok _ => {task with
        status := .pending,error := none,startedAt := none,completedAt := none,retriesUsed := task.retriesUsed + 1}
  else {task with status := .deadLetter,error := some error,completedAt := some now}

def requeues (task : QueueTask floats) : Bool :=
  retries task && (delay task.retryPolicy (task.retriesUsed + 1)).isOk

theorem failed_status (error : Text) (now : Int) (task : QueueTask floats) : (failed error now task).status =
    if requeues task then .pending else if retries task then .failed else .deadLetter := by
  unfold failed requeues
  cases again : retries task with
  | false => rfl
  | true =>
      cases delay task.retryPolicy (task.retriesUsed + 1) with
      | error exc => rfl
      | ok duration => rfl

theorem addTask_getTask (task : QueueTask floats) (taskId : Text) : (queue.addTask task).getTask taskId =
    if taskId = task.taskId then some (queue.admitted task) else queue.getTask taskId :=
  get_set queue.tasks task.taskId (queue.admitted task) taskId

theorem set_getTask (taskId : Text) (task : QueueTask floats) (maxConcurrent : Int) (runningCount : Nat) (other : Text) :
    (TaskQueue.mk (queue.tasks.set taskId task) maxConcurrent runningCount).getTask other =
      if other = taskId then some task else queue.getTask other := get_set queue.tasks taskId task other

theorem cancelTask_getTask (taskId : Text) (now : Int) (other : Text) :
    (queue.cancelTask taskId now).1.getTask other =
      if other = taskId then (queue.getTask other).map (cancelled now) else queue.getTask other := by
  unfold cancelTask
  by_cases same : other = taskId
  · subst same
    cases found : queue.getTask other with
    | none => simp [found]
    | some task =>
        by_cases early : task.status = .pending ∨ task.status = .waitingDeps
        · simp [early,cancelled,set_getTask]
        · simp [early,cancelled,found]
  · cases found : queue.getTask taskId with
    | none => simp [same]
    | some task =>
        by_cases early : task.status = .pending ∨ task.status = .waitingDeps
        · simp [early,same,set_getTask]
        · simp [early,same]

theorem cancelTask_true (taskId : Text) (now : Int) :
    (queue.cancelTask taskId now).2 = true ↔
      queue.status taskId = some .pending ∨ queue.status taskId = some .waitingDeps := by
  unfold cancelTask status
  cases queue.getTask taskId with
  | none => simp
  | some task =>
      by_cases early : task.status = .pending ∨ task.status = .waitingDeps
      · simp [early]
      · simp [early]

theorem markRunning_getTask (taskId : Text) (now : Int) (other : Text) :
    (queue.markRunning taskId now).getTask other =
      if other = taskId then (queue.getTask other).map (started now) else queue.getTask other := by
  unfold markRunning
  by_cases same : other = taskId
  · subst same
    cases found : queue.getTask other with
    | none => simp [found]
    | some task => simp [started,set_getTask]
  · cases found : queue.getTask taskId with
    | none => simp [same]
    | some task => simp [same,set_getTask]

theorem promote_getTask (taskId other : Text) : (queue.promote taskId).getTask other =
    if other = taskId then (queue.getTask other).map queue.promoted else queue.getTask other := by
  unfold promote
  by_cases same : other = taskId
  · subst same
    cases found : queue.getTask other with
    | none => simp [found]
    | some task =>
        by_cases freed : task.status = .waitingDeps ∧ queue.checkDependencies task = true
        · simp [freed,promoted,set_getTask]
        · simp [freed,promoted,found]
  · cases found : queue.getTask taskId with
    | none => simp [same]
    | some task =>
        by_cases freed : task.status = .waitingDeps ∧ queue.checkDependencies task = true
        · simp [freed,same,set_getTask]
        · simp [freed,same]

-- Each way out of a failure report writes the one task a last time.
theorem markFailed_found (found : queue.getTask taskId = some task) (error : Text) (now : Int) :
    (queue.markFailed taskId error now).1 =
      ⟨queue.tasks.set taskId (failed error now task),queue.maxConcurrent,queue.runningCount - 1⟩ := by
  by_cases again : task.retriesUsed < task.retryPolicy.maxRetries
  · cases spent : delay task.retryPolicy (task.retriesUsed + 1) with
    | error exc => simp [markFailed,retryTask,found,again,spent,failed,retries]
    | ok duration => simp [markFailed,retryTask,found,again,spent,failed,retries]
  · simp [markFailed,found,again,failed,retries]

theorem markFailed_getTask (taskId error : Text) (now : Int) (other : Text) :
    (queue.markFailed taskId error now).1.getTask other =
      if other = taskId then (queue.getTask other).map (failed error now) else queue.getTask other := by
  cases found : queue.getTask taskId with
  | none =>
      by_cases same : other = taskId
      · simp [markFailed,same,found]
      · simp [markFailed,same,found]
  | some task =>
      rw [markFailed_found queue found,set_getTask]
      by_cases same : other = taskId
      · simp [same,found]
      · simp [same]

theorem clearDeadLetters_getTask (taskId : Text) : queue.clearDeadLetters.1.getTask taskId =
    (queue.getTask taskId).filter fun task => decide (task.status ≠ .deadLetter) :=
  get_filter queue.tasks (fun _ task => decide (task.status ≠ .deadLetter)) taskId
section Unblocking

theorem promoted_completed (task : QueueTask floats) :
    (queue.promoted task).status = .completed ↔ task.status = .completed := by
  unfold promoted
  split
  next freed => simp [freed.1]
  next => rfl

theorem promoted_again (task : QueueTask floats) : queue.promoted (queue.promoted task) = queue.promoted task := by
  by_cases freed : task.status = .waitingDeps ∧ queue.checkDependencies task = true
  · have ready : queue.promoted task = {task with status := .pending} := if_pos freed
    rw [ready]
    exact if_neg fun waiting => by cases waiting.1
  · have same : queue.promoted task = task := if_neg freed
    rw [same,same]

theorem promote_completed (taskId depId : Text) :
    (queue.promote taskId).status depId = some .completed ↔ queue.status depId = some .completed := by
  simp only [status,promote_getTask]
  split
  next => cases queue.getTask depId with
    | none => rfl
    | some task => simpa using promoted_completed queue task
  next => rfl

-- Readiness asks for completed tasks alone, and promoting completes none.
theorem promote_promoted (taskId : Text) : (queue.promote taskId).promoted = queue.promoted := by
  funext task
  have asked : (fun depId => decide ((queue.promote taskId).status depId = some .completed)) =
      fun depId => decide (queue.status depId = some .completed) := by
    funext depId
    exact decide_eq_decide.mpr (promote_completed queue taskId depId)
  have checked : (queue.promote taskId).checkDependencies task = queue.checkDependencies task := by
    rw [checkDependencies,checkDependencies,asked]
  rw [promoted,promoted,checked]

theorem promotes_getTask (ids : List Text) (other : Text) : (ids.foldl promote queue).getTask other =
    if other ∈ ids then (queue.getTask other).map queue.promoted else queue.getTask other := by
  induction ids generalizing queue with
  | nil => simp
  | cons first rest ih =>
      rw [List.foldl_cons,ih,promote_promoted,promote_getTask]
      by_cases here : other = first
      · cases queue.getTask other with
        | none => simp
        | some task => simp [here,promoted_again]
      · simp [here]

theorem unblockDependents_getTask (taskId : Text) :
    queue.unblockDependents.getTask taskId = (queue.getTask taskId).map queue.promoted := by
  rw [unblockDependents,promotes_getTask]
  split
  next => rfl
  next absent =>
    have missing : queue.getTask taskId = none := (not_mem_keys queue.tasks taskId).mp absent
    rw [missing]
    rfl

theorem unblockDependents_completed (depId : Text) :
    queue.unblockDependents.status depId = some .completed ↔ queue.status depId = some .completed := by
  rw [status,unblockDependents_getTask,status]
  cases queue.getTask depId with
  | none => rfl
  | some task => simpa using promoted_completed queue task

-- The queue with the one task completed, before its dependents are looked at.
def completing (taskId : Text) (task : QueueTask floats) (result : Json) (now : Int) : TaskQueue floats where
  tasks := queue.tasks.set taskId (finished result now task)
  maxConcurrent := queue.maxConcurrent
  runningCount := queue.runningCount - 1

theorem completing_getTask (taskId : Text) (task : QueueTask floats) (result : Json) (now : Int) (other : Text) :
    (queue.completing taskId task result now).getTask other =
      if other = taskId then some (finished result now task) else queue.getTask other :=
  set_getTask queue taskId _ _ _ other

theorem markCompleted_found (found : queue.getTask taskId = some task) (result : Json) (now : Int) :
    queue.markCompleted taskId result now = (queue.completing taskId task result now).unblockDependents := by
  simp only [markCompleted,found,completing,finished]

theorem markCompleted_absent (absent : queue.getTask taskId = none) (result : Json) (now : Int) :
    queue.markCompleted taskId result now = queue := by
  simp only [markCompleted,absent]
end Unblocking

end Effects
end TaskQueue

end Kryvaracode.Tasks
