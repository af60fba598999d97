import Kryvaracode.CoordinatorIsolation
import Kryvaracode.RetryBudget

namespace Kryvaracode.Coordination
open JsonText InsertionDict Runs StateStore Messages Tasks

variable {objects : Objects} {floats : Floats}

-- The reports on tasks, and what is asked of the coordinator's queue itself.
inductive Request (floats : Floats) where
  | submitTask (task : QueueTask floats) (target : Option Text)
  | completeTask (taskId : Text) (result : Json) (now : Int)
  | failTask (taskId error : Text) (now : Int)
  | cancelTask (taskId : Text) (now : Int)
  | clearDeadLetters

namespace World
variable (world : World objects floats)

def request : Request floats → World objects floats
  | .submitTask task target => (world.submitTask task target).1
  | .completeTask taskId result now => world.completeTask taskId result now
  | .failTask taskId error now => (world.failTask taskId error now).1
  | .cancelTask taskId now => world.onQueue fun queue => (queue.cancelTask taskId now).1
  | .clearDeadLetters => world.onQueue fun queue => queue.clearDeadLetters.1

def tasks : TaskQueue floats := (world.parts world.coordinator.queue).queue
def messages : List Message := (world.parts world.coordinator.bus).bus.queue

-- What a request has put on the bus.
def told (request : Request floats) : List Message := (world.request request).messages.drop world.messages.length

def accepts (target : Option Text) : Bool :=
  !(truthy target && (world.coordinator.agents.get (target.getD [])).isNone)

end World

def TASK_COMPLETED : Text := "coordinator.task.completed".toList
def TASK_FAILED : Text := "coordinator.task.failed".toList
def TASK_SUBMITTED : Text := "coordinator.task.submitted".toList

def named (message : Message) : Option Text :=
  match message.payload.lookup "task_id".toList with
  | some (.str taskId) => some taskId
  | _ => none

-- The run, with the tasks announced as completed. A task submitted under an id
-- takes the place of the one before it.
structure History (objects : Objects) (floats : Floats) where
  world : World objects floats
  announced : List Text

def completions (messages : List Message) : List Text :=
  (messages.filter fun message => decide (message.topic = TASK_COMPLETED)).filterMap named

def replaces (world : World objects floats) (taskId : Text) : Request floats → Bool
  | .submitTask task target => world.accepts target && decide (task.taskId = taskId)
  | .completeTask _ _ _ | .failTask _ _ _ | .cancelTask _ _ | .clearDeadLetters => false

def History.step (history : History objects floats) (request : Request floats) : History objects floats where
  world := history.world.request request
  announced := history.announced.filter (fun taskId => !replaces history.world taskId request) ++
    completions (history.world.told request)

structure Truthful (history : History objects floats) (request : Request floats) : Prop where
  completed : ∀ message ∈ history.world.told request, message.topic = TASK_COMPLETED → ∃ taskId,
    named message = some taskId ∧ (history.world.request request).tasks.status taskId = some .completed ∧
      taskId ∉ history.announced
  failed : ∀ message ∈ history.world.told request, message.topic = TASK_FAILED → ∃ taskId task,
    named message = some taskId ∧ history.world.tasks.getTask taskId = some task ∧
      (history.world.request request).tasks.getTask taskId ≠ none ∧ task.status ≠ .completed ∧ task.status ≠ .cancelled

-- Only tasks of the queue are reported, as completed once, and as failed before
-- they are completed or cancelled (unless the report raises an exception).
def Founded (history : History objects floats) : Request floats → Prop
  | .completeTask taskId _ _ => history.world.tasks.getTask taskId ≠ none ∧ taskId ∉ history.announced
  | .failTask taskId _ _ => ∃ task, history.world.tasks.getTask taskId = some task ∧
      ((TaskQueue.retries task = true ∧ TaskQueue.requeues task = false) ∨
        (task.status ≠ .completed ∧ task.status ≠ .cancelled))
  | .submitTask _ _ | .cancelTask _ _ | .clearDeadLetters => True

section Messages
variable (world : World objects floats)

theorem onQueue_tasks (change : TaskQueue floats → TaskQueue floats) : (world.onQueue change).tasks = change world.tasks := by
  unfold World.tasks World.onQueue World.on
  cases side : world.coordinator.queue <;> simp [World.parts,side]

theorem onQueue_messages (change : TaskQueue floats → TaskQueue floats) : (world.onQueue change).messages = world.messages := by
  unfold World.messages World.onQueue World.on
  cases world.coordinator.queue <;> cases world.coordinator.bus <;> simp [World.parts]

theorem publish_tasks (topic : Text) (payload : Members) (msgType : MessageType) :
    (world.publish topic payload msgType).tasks = world.tasks := by
  unfold World.tasks World.publish World.onBus World.on
  cases world.coordinator.bus <;> cases world.coordinator.queue <;> simp [World.parts]

theorem publish_messages (topic : Text) (payload : Members) (msgType : MessageType) :
    (world.publish topic payload msgType).messages = world.messages ++ [⟨topic,"coordinator".toList,payload,msgType⟩] := by
  unfold World.messages World.publish World.onBus World.on
  cases side : world.coordinator.bus <;> simp [World.parts,side,MessageBus.publish]

theorem markFailed_tasks (taskId error : Text) (now : Int) : (world.markFailed taskId error now).1.tasks =
      (world.tasks.markFailed taskId error now).1 ∧
    (world.markFailed taskId error now).2 = (world.tasks.markFailed taskId error now).2 ∧
      (world.markFailed taskId error now).1.messages = world.messages := by
  unfold World.markFailed World.tasks World.messages
  cases side : world.coordinator.queue <;> cases world.coordinator.bus <;> simp [World.parts,side]

-- A message on the bus is all that a request tells which publishes one.
theorem told_published (before : World objects floats) (request : Request floats) (topic : Text) (payload : Members)
    (msgType : MessageType) (done : (world.request request).messages = (before.publish topic payload msgType).messages)
    (same : before.messages = world.messages) : world.told request = [⟨topic,"coordinator".toList,payload,msgType⟩] := by
  rw [World.told,done,publish_messages,same,List.drop_left]

theorem told_nothing (request : Request floats) (same : (world.request request).messages = world.messages) :
    world.told request = [] := by
  rw [World.told,same,List.drop_length]

def completedMessage (taskId : Text) (result : Json) : Message :=
  ⟨TASK_COMPLETED,"coordinator".toList,[("task_id".toList,.str taskId),("result".toList,result)],.taskResult⟩

def failedMessage (taskId error : Text) : Message :=
  ⟨TASK_FAILED,"coordinator".toList,[("task_id".toList,.str taskId),("error".toList,.str error)],.taskResult⟩

theorem completed_named (taskId : Text) (result : Json) : named (completedMessage taskId result) = some taskId := by
  simp [named,completedMessage]

theorem failed_named (taskId error : Text) : named (failedMessage taskId error) = some taskId := by
  simp [named,failedMessage]

theorem topics_apart : TASK_FAILED ≠ TASK_COMPLETED ∧ TASK_SUBMITTED ≠ TASK_COMPLETED ∧ TASK_SUBMITTED ≠ TASK_FAILED := by
  delta TASK_FAILED TASK_COMPLETED TASK_SUBMITTED
  repeat rewrite [String.toList_ofList]
  decide

theorem complete_told (taskId : Text) (result : Json) (now : Int) :
    world.told (.completeTask taskId result now) = [completedMessage taskId result] :=
  told_published world (world.onQueue (·.markCompleted taskId result now)) _ _ _ _ rfl (onQueue_messages world _)

theorem complete_tasks (taskId : Text) (result : Json) (now : Int) :
    (world.request (.completeTask taskId result now)).tasks = world.tasks.markCompleted taskId result now :=
  (publish_tasks _ _ _ _).trans (onQueue_tasks world _)

theorem fail_request (taskId error : Text) (now : Int) :
    (world.request (.failTask taskId error now)).tasks = (world.tasks.markFailed taskId error now).1 ∧
      world.told (.failTask taskId error now) =
        if (world.tasks.markFailed taskId error now).2 = .ok () then [failedMessage taskId error] else [] := by
  obtain ⟨tasks,answer,messages⟩ := markFailed_tasks world taskId error now
  rw [← answer]
  rcases marked : world.markFailed taskId error now with ⟨after,result⟩
  rw [marked] at tasks messages
  have done : world.request (.failTask taskId error now) = (world.failTask taskId error now).1 := rfl
  cases result with
  | error exc =>
      have unchanged : world.request (.failTask taskId error now) = after := by rw [done,World.failTask,marked]
      rw [if_neg (by simp)]
      exact ⟨by rw [unchanged]; exact tasks,told_nothing world _ (by rw [unchanged]; exact messages)⟩
  | ok nothing =>
      have published : world.request (.failTask taskId error now) = after.publish TASK_FAILED
          [("task_id".toList,.str taskId),("error".toList,.str error)] .taskResult := by
        rw [done,World.failTask,marked]
        rfl
      rw [if_pos rfl]
      refine ⟨by rw [published,publish_tasks]; exact tasks,?_⟩
      exact told_published world after _ _ _ _ (congrArg World.messages published) messages

theorem submit_told (task : QueueTask floats) (target : Option Text) :
    ∀ message ∈ world.told (.submitTask task target), message.topic = TASK_SUBMITTED := by
  have done : world.request (.submitTask task target) = (world.submitTask task target).1 := rfl
  cases refused : truthy target && (world.coordinator.agents.get (target.getD [])).isNone with
  | true =>
      have unchanged : world.request (.submitTask task target) = world := by rw [done,World.submitTask,if_pos refused]
      rw [told_nothing world _ (by rw [unchanged])]
      simp
  | false =>
      have told : world.told (.submitTask task target) = [⟨TASK_SUBMITTED,"coordinator".toList,
          [("task_id".toList,.str task.taskId),("target".toList,target.elim .null .str)],.taskRequest⟩] := by
        refine told_published world (world.onQueue (·.addTask task)) _ _ _ _ ?_ (onQueue_messages world _)
        rw [done,World.submitTask,if_neg (by simp [refused])]
        rfl
      rw [told]
      simp

end Messages

theorem markCompleted_status (queue : TaskQueue floats) (taskId : Text) (result : Json) (now : Int) :
    (queue.markCompleted taskId result now).status taskId = some .completed ↔ queue.getTask taskId ≠ none := by
  cases found : queue.getTask taskId with
  | none =>
      rw [TaskQueue.markCompleted_absent queue found,TaskQueue.status,found]
      exact iff_of_false (by simp) (not_not.mpr rfl)
  | some task =>
      rw [TaskQueue.markCompleted_found queue found,TaskQueue.unblockDependents_completed,TaskQueue.status,
        TaskQueue.completing_getTask,if_pos rfl]
      exact iff_of_true rfl (by simp)

section Exact
variable (history : History objects floats)

theorem complete_truthful (taskId : Text) (result : Json) (now : Int) :
    Truthful history (.completeTask taskId result now) ↔ Founded history (.completeTask taskId result now) := by
  have told := complete_told history.world taskId result now
  have tasks := complete_tasks history.world taskId result now
  constructor
  · intro truthful
    obtain ⟨other,its,status,new⟩ := truthful.completed _ (told ▸ List.mem_singleton_self _) rfl
    cases (completed_named taskId result).symm.trans its
    rw [tasks,markCompleted_status] at status
    exact ⟨status,new⟩
  · intro founded
    refine ⟨?_,?_⟩
    · intro message member _
      rw [told,List.mem_singleton] at member
      subst member
      refine ⟨taskId,completed_named taskId result,?_,founded.2⟩
      rw [tasks,markCompleted_status]
      exact founded.1
    · intro message member topic
      rw [told,List.mem_singleton] at member
      subst member
      exact absurd topic.symm topics_apart.1

theorem quiet_truthful (request : Request floats) (topic : Text) (apart : topic ≠ TASK_COMPLETED ∧ topic ≠ TASK_FAILED)
    (told : ∀ message ∈ history.world.told request, message.topic = topic) : Truthful history request := by
  refine ⟨?_,?_⟩
  · intro message member its
    exact absurd ((told message member).symm.trans its) apart.1
  · intro message member its
    exact absurd ((told message member).symm.trans its) apart.2

-- The report raises where a retry is due but its delay overflows.
theorem markFailed_ok {queue : TaskQueue floats} {taskId error : Text} {now : Int} {task : QueueTask floats}
    (found : queue.getTask taskId = some task) : (queue.markFailed taskId error now).2 = .ok () ↔
      ¬ (TaskQueue.retries task = true ∧ TaskQueue.requeues task = false) := by
  rw [markFailed_answer found,← delay_ok]
  cases spent : TaskQueue.delay task.retryPolicy (task.retriesUsed + 1) with
  | error exc => simp [TaskQueue.retries,TaskQueue.requeues,spent,Except.isOk,Except.toBool]
  | ok duration => simp [TaskQueue.retries,TaskQueue.requeues,spent,Except.isOk,Except.toBool]

-- One failure announced, as the task was before it.
theorem announced_truthful {taskId error : Text} {now : Int} {task : QueueTask floats}
    (found : history.world.tasks.getTask taskId = some task)
    (told : history.world.told (.failTask taskId error now) = [failedMessage taskId error]) :
    Truthful history (.failTask taskId error now) ↔ task.status ≠ .completed ∧ task.status ≠ .cancelled := by
  constructor
  · intro truthful
    obtain ⟨other,held,its,same,_,early⟩ := truthful.failed _ (told ▸ List.mem_singleton_self _) rfl
    cases (failed_named taskId error).symm.trans its
    cases found.symm.trans same
    exact early
  · intro early
    refine ⟨?_,?_⟩
    · intro message member topic
      rw [told,List.mem_singleton] at member
      subst member
      exact absurd topic topics_apart.1
    · intro message member _
      rw [told,List.mem_singleton] at member
      subst member
      refine ⟨taskId,task,failed_named taskId error,found,?_,early⟩
      rw [(fail_request history.world taskId error now).1,TaskQueue.markFailed_getTask,if_pos rfl,found]
      exact Option.some_ne_none _

theorem fail_truthful (taskId error : Text) (now : Int) :
    Truthful history (.failTask taskId error now) ↔ Founded history (.failTask taskId error now) := by
  have told := (fail_request history.world taskId error now).2
  cases found : history.world.tasks.getTask taskId with
  | none =>
      rw [markFailed_absent found,if_pos rfl] at told
      refine iff_of_false ?_ ?_
      · intro truthful
        obtain ⟨other,task,its,held,_⟩ := truthful.failed _ (told ▸ List.mem_singleton_self _) rfl
        cases (failed_named taskId error).symm.trans its
        rw [found] at held
        cases held
      · rintro ⟨task,held,_⟩
        rw [found] at held
        cases held
  | some task =>
      have founded : Founded history (.failTask taskId error now) ↔
          (TaskQueue.retries task = true ∧ TaskQueue.requeues task = false) ∨
            (task.status ≠ .completed ∧ task.status ≠ .cancelled) := by
        simp [Founded,found]
      rw [founded]
      by_cases raises : TaskQueue.retries task = true ∧ TaskQueue.requeues task = false
      · rw [if_neg (not_not.mpr raises ∘ (markFailed_ok found).mp)] at told
        refine iff_of_true ⟨?_,?_⟩ (.inl raises)
        all_goals
          intro message member
          rw [told] at member
          cases member
      · rw [if_pos ((markFailed_ok found).mpr raises)] at told
        rw [or_iff_right raises]
        exact announced_truthful history found told

theorem truthful_founded (request : Request floats) : Truthful history request ↔ Founded history request := by
  cases request with
  | submitTask task target =>
      refine iff_of_true ?_ trivial
      exact quiet_truthful history _ TASK_SUBMITTED topics_apart.2 (submit_told history.world task target)
  | completeTask taskId result now => exact complete_truthful history taskId result now
  | failTask taskId error now => exact fail_truthful history taskId error now
  | cancelTask taskId now =>
      refine iff_of_true (quiet_truthful history _ TASK_SUBMITTED topics_apart.2 ?_) trivial
      rw [told_nothing history.world (.cancelTask taskId now) (onQueue_messages history.world _)]
      simp
  | clearDeadLetters =>
      refine iff_of_true (quiet_truthful history _ TASK_SUBMITTED topics_apart.2 ?_) trivial
      rw [told_nothing history.world .clearDeadLetters (onQueue_messages history.world _)]
      simp

end Exact

-- From a coordinator as it is made, with nothing announced yet.
def beginning (singletons given : Components objects floats) : History objects floats := ⟨World.init singletons given,[]⟩

theorem broadcasts_exact (singletons given : Components objects floats) (requests : List (Request floats)) :
    Steps History.step Truthful (beginning singletons given) requests ↔
      Steps History.step Founded (beginning singletons given) requests :=
  steps_congr (fun history request (_ : True) => truthful_founded history request) (steps_forall (fun _ _ _ => trivial) _)

-- A completion is announced of a task that nobody has submitted.
theorem unknown_announced : ¬ Steps History.step Truthful (beginning newComponents newComponents)
    [.completeTask ['t'] .null 0] := by
  intro truthful
  have founded := (complete_truthful (beginning newComponents newComponents) ['t'] .null 0).mp truthful.1
  exact founded.1 rfl

end Kryvaracode.Coordination
