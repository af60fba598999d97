import Kryvaracode.Coordinator

namespace Kryvaracode.Coordination
open JsonText InsertionDict Runs StateStore Messages Tasks

variable {objects : Objects} {floats : Floats} (encode : Note → objects.Value)

def Isolated (singletons given : Components objects floats) : Prop :=
  ∀ ops, let world := run (World.step encode) (World.init singletons given) ops
    world.singletons = singletons ∧ (∀ taskId ∈ world.submitted, world.given.queue.getTask taskId ≠ none) ∧
      ∀ readings, (world.healthReport readings).queue = world.given.queue.stats

-- Every reference is to what was handed in.
structure Own (singletons : Components objects floats) (world : World objects floats) : Prop where
  bus : world.coordinator.bus = .given
  state : world.coordinator.state = .given
  queue : world.coordinator.queue = .given
  omegaBus : world.orchestrator.bus = .given
  omegaQueue : world.orchestrator.queue = .given
  untouched : world.singletons = singletons
  held : ∀ taskId ∈ world.submitted, world.given.queue.getTask taskId ≠ none

def KeepsTasks (before after : TaskQueue floats) : Prop :=
  ∀ taskId, before.getTask taskId ≠ none → after.getTask taskId ≠ none

theorem addTask_keeps (queue : TaskQueue floats) (task : QueueTask floats) : KeepsTasks queue (queue.addTask task) := by
  intro taskId present
  rw [TaskQueue.addTask_getTask]
  split
  next => simp
  next => exact present

theorem markCompleted_keeps (queue : TaskQueue floats) (taskId : Text) (result : Json) (now : Int) :
    KeepsTasks queue (queue.markCompleted taskId result now) := by
  cases found : queue.getTask taskId with
  | none =>
      rw [TaskQueue.markCompleted_absent queue found]
      exact fun _ present => present
  | some task =>
      intro other present
      rw [TaskQueue.markCompleted_found queue found,TaskQueue.unblockDependents_getTask,TaskQueue.completing_getTask,
        ne_eq,Option.map_eq_none_iff]
      split
      next => simp
      next => exact present

theorem markFailed_keeps (queue : TaskQueue floats) (taskId error : Text) (now : Int) :
    KeepsTasks queue (queue.markFailed taskId error now).1 := by
  intro other present
  rw [TaskQueue.markFailed_getTask]
  split
  next => rwa [ne_eq,Option.map_eq_none_iff]
  next => exact present

theorem on_given (world : World objects floats) (change : Components objects floats → Components objects floats) :
    (world.on .given change).given = change world.given := rfl

theorem publish_given (world : World objects floats) (topic : Text) (payload : Members) (msgType : MessageType) :
    (world.publish topic payload msgType).given.queue = world.given.queue := by
  unfold World.publish World.onBus World.on
  cases world.coordinator.bus <;> rfl

def anyTask (floats : Floats) : QueueTask floats :=
  ⟨['t'],0,.pending,[],⟨3,floats.timestamp 1,floats.timestamp 60,floats.timestamp 2⟩,0,.null,none,0,none,none⟩

section Steps
variable {singletons : Components objects floats} {world : World objects floats} (own : Own singletons world)
include own

theorem on_own {side : Side} (mine : side = .given) (change : Components objects floats → Components objects floats)
    (keeps : KeepsTasks world.given.queue (change world.given).queue) : Own singletons (world.on side change) := by
  subst mine
  exact ⟨own.bus,own.state,own.queue,own.omegaBus,own.omegaQueue,own.untouched,
    fun taskId inside => keeps taskId (own.held taskId inside)⟩

theorem onBus_own (change : MessageBus → MessageBus) : Own singletons (world.onBus change) :=
  on_own own own.bus _ fun _ present => present

theorem onState_own (key : Text) (note : Note) (source : Text) (now : Int) :
    Own singletons (world.onState encode key note source now) := on_own own own.state _ fun _ present => present

theorem onQueue_own (change : TaskQueue floats → TaskQueue floats) (keeps : ∀ queue, KeepsTasks queue (change queue)) :
    Own singletons (world.onQueue change) := on_own own own.queue _ (keeps world.given.queue)

theorem publish_own (topic : Text) (payload : Members) (msgType : MessageType) :
    Own singletons (world.publish topic payload msgType) := onBus_own own _

theorem withAgents_own (agents : Dict Text AgentInfo) : Own singletons (world.withAgents agents) :=
  ⟨own.bus,own.state,own.queue,own.omegaBus,own.omegaQueue,own.untouched,own.held⟩

theorem flags_own (monitored running : Bool) :
    Own singletons {world with coordinator := {world.coordinator with monitored := monitored,running := running}} :=
  ⟨own.bus,own.state,own.queue,own.omegaBus,own.omegaQueue,own.untouched,own.held⟩

theorem start_own : Own singletons world.start := by
  unfold World.start
  split
  next => exact own
  next => exact onBus_own (flags_own own true true) _

theorem registerAgent_own (name : Text) (capabilities : Option (List Text)) (clock : Nat → Int) :
    Own singletons (world.registerAgent encode name capabilities clock) := by
  unfold World.registerAgent
  have listed := withAgents_own own (world.coordinator.agents.set name ⟨name,.registered,capabilities.getD [],clock 0⟩)
  exact publish_own (onState_own encode (onState_own encode listed _ _ _ _) _ _ _ _) _ _ _

theorem deregisterAgent_own (name : Text) (now : Int) : Own singletons (world.deregisterAgent encode name now).1 := by
  unfold World.deregisterAgent
  cases world.coordinator.agents.get name with
  | none => exact own
  | some info =>
      have marked := withAgents_own own (world.coordinator.agents.set name {info with status := .stopping})
      exact withAgents_own (publish_own (onState_own encode marked _ _ _ _) _ _ _) _

omit own in
theorem deregisters_own (agents : List (Text × Nat)) (clock : Nat → Int) (world : World objects floats)
    (own : Own singletons world) : Own singletons
      (agents.foldl (fun world agent => (world.deregisterAgent encode agent.1 (clock agent.2)).1) world) := by
  induction agents generalizing world with
  | nil => exact own
  | cons agent rest ih => exact ih _ (deregisterAgent_own encode own agent.1 (clock agent.2))

theorem stop_own (clock : Nat → Int) : Own singletons (world.stop encode clock) := by
  unfold World.stop
  have halted := flags_own own world.coordinator.monitored false
  have emptied := deregisters_own encode world.coordinator.agents.keys.zipIdx clock _ halted
  exact onBus_own (flags_own emptied false _) _

theorem heartbeat_own (name : Text) (now : Int) : Own singletons (world.heartbeat encode name now) := by
  unfold World.heartbeat
  cases world.coordinator.agents.get name with
  | none => exact own
  | some info => exact onState_own encode (withAgents_own own _) _ _ _ _

theorem checkHeartbeats_own (now : Int) : Own singletons (world.checkHeartbeats now) := by
  unfold World.checkHeartbeats
  split
  next => exact withAgents_own own _
  next => exact own

theorem submitTask_own (task : QueueTask floats) (target : Option Text) : Own singletons (world.submitTask task target).1 := by
  unfold World.submitTask
  split
  next => exact own
  next =>
    have queued := onQueue_own own (·.addTask task) fun queue => addTask_keeps queue task
    have told := publish_own queued "coordinator.task.submitted".toList
      [("task_id".toList,.str task.taskId),("target".toList,target.elim .null .str)] .taskRequest
    refine ⟨told.bus,told.state,told.queue,told.omegaBus,told.omegaQueue,told.untouched,?_⟩
    intro taskId inside
    rcases List.mem_append.mp inside with earlier | new
    · exact told.held taskId earlier
    · rw [List.mem_singleton] at new
      have added : (world.onQueue (·.addTask task)).given.queue = world.given.queue.addTask task := by
        rw [World.onQueue,own.queue,on_given]
      show (World.publish _ _ _ _).given.queue.getTask taskId ≠ none
      rw [publish_given,added,new,TaskQueue.addTask_getTask,if_pos rfl]
      simp

theorem completeTask_own (taskId : Text) (result : Json) (now : Int) :
    Own singletons (world.completeTask taskId result now) :=
  publish_own (onQueue_own own _ fun queue => markCompleted_keeps queue taskId result now) _ _ _

theorem failTask_own (taskId error : Text) (now : Int) : Own singletons (world.failTask taskId error now).1 := by
  have marked : Own singletons (world.markFailed taskId error now).1 := by
    unfold World.markFailed
    rw [own.queue]
    exact on_own own rfl (fun parts => {parts with queue := (parts.queue.markFailed taskId error now).1})
      (markFailed_keeps world.given.queue taskId error now)
  unfold World.failTask
  rcases outcome : world.markFailed taskId error now with ⟨failed,result⟩
  rw [outcome] at marked
  cases result with
  | error exc => exact marked
  | ok done => exact publish_own marked _ _ _

theorem dispatch_own : Own singletons world.dispatch := onBus_own own _

theorem orchestratorBus_own (running : Bool) : Own singletons (world.orchestratorBus running) :=
  on_own own own.omegaBus (fun parts => {parts with bus := {parts.bus with running := running}}) fun _ present => present

theorem step_own (op : Op floats) : Own singletons (world.step encode op) := by
  cases op with
  | start => exact start_own own
  | stop clock => exact stop_own encode own clock
  | registerAgent name capabilities clock => exact registerAgent_own encode own name capabilities clock
  | deregisterAgent name now => exact deregisterAgent_own encode own name now
  | heartbeat name now => exact heartbeat_own encode own name now
  | checkHeartbeats now => exact checkHeartbeats_own own now
  | submitTask task target => exact submitTask_own own task target
  | completeTask taskId result now => exact completeTask_own own taskId result now
  | failTask taskId error now => exact failTask_own own taskId error now
  | dispatch => exact dispatch_own own
  | orchestratorStart => exact orchestratorBus_own (start_own own) true
  | orchestratorStop clock => exact orchestratorBus_own (stop_own encode own clock) false
end Steps

theorem init_own (singletons given : Components objects floats) (holds : queueTruth given.queue = true) :
    Own singletons (World.init singletons given) := by
  have chosen_queue : chosen (queueTruth given.queue) = .given := by rw [holds]; rfl
  exact ⟨rfl,rfl,chosen_queue,rfl,chosen_queue,rfl,fun taskId inside => by cases inside⟩

theorem run_own (singletons given : Components objects floats) (holds : queueTruth given.queue = true)
    (ops : List (Op floats)) : Own singletons (run (World.step encode) (World.init singletons given) ops) := by
  have always : Throughout (World.step encode) (Own singletons) (World.init singletons given) ops :=
    throughout_invariant (fun world op own (_ : True) => step_own encode own op) _ ops (init_own singletons given holds)
      (steps_forall (fun _ _ _ => trivial) _)
  exact throughout_end always

-- The constructor takes an empty queue for a missing one.
theorem init_empty (singletons given : Components objects floats) (empty : given.queue.len = 0) :
    (World.init singletons given).coordinator.queue = .singleton := by
  simp [World.init,AgentCoordinator.init,chosen,queueTruth,empty]

theorem submitTask_singleton (world : World objects floats) (task : QueueTask floats)
    (elsewhere : world.coordinator.queue = .singleton) : task.taskId ∈ (world.submitTask task none).1.submitted ∧
      (world.submitTask task none).1.given.queue = world.given.queue := by
  refine ⟨List.mem_append_right _ (List.mem_singleton.mpr rfl),?_⟩
  have untouched : (world.onQueue (·.addTask task)).given = world.given := by
    rw [World.onQueue,elsewhere]
    rfl
  show (World.publish _ _ _ _).given.queue = world.given.queue
  rw [publish_given,untouched]

theorem component_isolation_exact (singletons given : Components objects floats) :
    Isolated encode singletons given ↔ given.queue.len ≠ 0 := by
  refine ⟨?_,?_⟩
  · intro isolated empty
    have submitted := submitTask_singleton (World.init singletons given) (anyTask floats) (init_empty singletons given empty)
    refine (isolated [.submitTask (anyTask floats) none]).2.1 _ submitted.1 ?_
    rw [run_cons,run_nil]
    change (World.submitTask _ _ _).1.given.queue.getTask _ = none
    rw [submitted.2]
    exact (size_zero given.queue.tasks).mp empty _
  · intro present ops
    have own := run_own encode singletons given (decide_eq_true present) ops
    refine ⟨own.untouched,own.held,?_⟩
    intro readings
    rw [World.healthReport,own.omegaQueue]
    rfl

def newComponents : Components plainObjects wholeFloats := ⟨.init,.init,.init 5⟩

-- The first task goes to the module's queue, and the empty one is never used.
theorem empty_queue_bypassed : ¬ Isolated (fun _ => none) newComponents newComponents := by
  intro isolated
  obtain ⟨_,held,_⟩ := isolated [.submitTask (.created ['t'] [] 0) none]
  exact held ['t'] (List.mem_singleton.mpr rfl) rfl

end Kryvaracode.Coordination
