import Kryvaracode.StateStore
import Kryvaracode.MessageBus
import Kryvaracode.TaskRuns

namespace Kryvaracode.Coordination
open JsonText InsertionDict Runs StateStore Messages Tasks

def HEARTBEAT_TIMEOUT : Int := 45

inductive AgentStatus where
  | registered
  | starting
  | active
  | idle
  | degraded
  | stopping
  | stopped
  deriving DecidableEq, Repr

def AgentStatus.value : AgentStatus → Text
  | .registered => "registered".toList
  | .starting => "starting".toList
  | .active => "active".toList
  | .idle => "idle".toList
  | .degraded => "degraded".toList
  | .stopping => "stopping".toList
  | .stopped => "stopped".toList

structure AgentInfo where
  name : Text
  status : AgentStatus
  capabilities : List Text
  lastHeartbeat : Int

-- What the coordinator writes into the shared state.
inductive Note where
  | status (status : AgentStatus)
  | capabilities (capabilities : List Text)
  | heartbeat (moment : Int)

variable {objects : Objects} {floats : Floats}

structure Components (objects : Objects) (floats : Floats) where
  bus : MessageBus
  state : SharedState objects
  queue : TaskQueue floats

-- A component is the one handed to the constructor or the module's own.
inductive Side where
  | given
  | singleton
  deriving DecidableEq, Repr

structure AgentCoordinator where
  bus : Side
  state : Side
  queue : Side
  agents : Dict Text AgentInfo
  monitored : Bool
  running : Bool

structure OmegaOrchestrator where
  bus : Side
  state : Side
  queue : Side

structure World (objects : Objects) (floats : Floats) where
  singletons : Components objects floats
  given : Components objects floats
  coordinator : AgentCoordinator
  orchestrator : OmegaOrchestrator
  submitted : List Text

-- `argument or default`: an object with a length is false when it is empty, and
-- of the three only the queue has one.
def chosen (truth : Bool) : Side := if truth then .given else .singleton

def queueTruth (queue : TaskQueue floats) : Bool := decide (queue.len ≠ 0)

def AgentCoordinator.init (given : Components objects floats) : AgentCoordinator where
  bus := chosen true
  state := chosen true
  queue := chosen (queueTruth given.queue)
  agents := Dict.empty
  monitored := false
  running := false

def OmegaOrchestrator.init (given : Components objects floats) : OmegaOrchestrator where
  bus := chosen true
  state := chosen true
  queue := chosen (queueTruth given.queue)

namespace World

def init (singletons given : Components objects floats) : World objects floats :=
  ⟨singletons,given,.init given,.init given,[]⟩

variable (world : World objects floats) (encode : Note → objects.Value)

def on (side : Side) (change : Components objects floats → Components objects floats) : World objects floats :=
  match side with
  | .given => {world with given := change world.given}
  | .singleton => {world with singletons := change world.singletons}

def onBus (change : MessageBus → MessageBus) : World objects floats :=
  world.on world.coordinator.bus fun parts => {parts with bus := change parts.bus}

def onState (key : Text) (note : Note) (source : Text) (now : Int) : World objects floats :=
  world.on world.coordinator.state fun parts => {parts with state := (parts.state.set key (encode note) source none now).1}

def onQueue (change : TaskQueue floats → TaskQueue floats) : World objects floats :=
  world.on world.coordinator.queue fun parts => {parts with queue := change parts.queue}

def withAgents (agents : Dict Text AgentInfo) : World objects floats :=
  {world with coordinator := {world.coordinator with agents := agents}}

def publish (topic : Text) (payload : Members) (msgType : MessageType) : World objects floats :=
  world.onBus (·.publish ⟨topic,"coordinator".toList,payload,msgType⟩)

def agentKey (name field : Text) : Text := "agent.".toList ++ name ++ ".".toList ++ field

def start : World objects floats :=
  if world.coordinator.running then world
  else onBus {world with coordinator := {world.coordinator with running := true,monitored := true}}
    fun bus => {bus with running := true}

def registerAgent (name : Text) (capabilities : Option (List Text)) (clock : Nat → Int) : World objects floats :=
  let info := ⟨name,.registered,capabilities.getD [],clock 0⟩
  let listed := world.withAgents (world.coordinator.agents.set name info)
  let noted := listed.onState encode (agentKey name "status".toList) (.status .registered) "coordinator".toList (clock 1)
  let described := noted.onState encode (agentKey name "capabilities".toList) (.capabilities info.capabilities)
    "coordinator".toList (clock 2)
  described.publish "coordinator.agent.registered".toList
    [("agent".toList,.str name),("capabilities".toList,.arr (info.capabilities.map .str))] .agentMsg

def deregisterAgent (name : Text) (now : Int) : World objects floats × Bool :=
  match world.coordinator.agents.get name with
  | none => (world,false)
  | some info =>
      let marked := world.withAgents (world.coordinator.agents.set name {info with status := .stopping})
      let noted := marked.onState encode (agentKey name "status".toList) (.status .stopped) "coordinator".toList now
      let told := noted.publish "coordinator.agent.deregistered".toList [("agent".toList,.str name)] .agentMsg
      (told.withAgents (told.coordinator.agents.erase name),true)

def stop (clock : Nat → Int) : World objects floats :=
  let halted := {world with coordinator := {world.coordinator with running := false}}
  let emptied := world.coordinator.agents.keys.zipIdx.foldl
    (fun world agent => (world.deregisterAgent encode agent.1 (clock agent.2)).1) halted
  onBus {emptied with coordinator := {emptied.coordinator with monitored := false}} fun bus => {bus with running := false}

def heartbeat (name : Text) (now : Int) : World objects floats :=
  match world.coordinator.agents.get name with
  | none => world
  | some info =>
      let status := if info.status = .registered ∨ info.status = .degraded then .active else info.status
      let beaten := world.withAgents (world.coordinator.agents.set name {info with lastHeartbeat := now,status := status})
      beaten.onState encode (agentKey name "heartbeat".toList) (.heartbeat now) name now

def degrade (now : Int) (info : AgentInfo) : AgentInfo :=
  if HEARTBEAT_TIMEOUT * 1000000 < now - info.lastHeartbeat ∧ info.status ≠ .degraded then {info with status := .degraded}
  else info

-- One pass of the heartbeat loop, which sleeps between two.
def checkHeartbeats (now : Int) : World objects floats :=
  if world.coordinator.monitored && world.coordinator.running then
    world.withAgents (world.coordinator.agents.map (degrade now))
  else world

def submitTask (task : QueueTask floats) (target : Option Text) : World objects floats × Result Text :=
  if truthy target && (world.coordinator.agents.get (target.getD [])).isNone then
    (world,.error (ValueError ("Unknown agent: ".toList ++ target.getD [])))
  else
    let queued := world.onQueue (·.addTask task)
    let told := queued.publish "coordinator.task.submitted".toList
      [("task_id".toList,.str task.taskId),("target".toList,target.elim .null .str)] .taskRequest
    ({told with submitted := told.submitted ++ [task.taskId]},.ok task.taskId)

def completeTask (taskId : Text) (result : Json) (now : Int) : World objects floats :=
  (world.onQueue (·.markCompleted taskId result now)).publish "coordinator.task.completed".toList
    [("task_id".toList,.str taskId),("result".toList,result)] .taskResult

def markFailed (taskId error : Text) (now : Int) : World objects floats × Result Unit :=
  match world.coordinator.queue with
  | .given =>
      let failed := world.given.queue.markFailed taskId error now
      ({world with given := {world.given with queue := failed.1}},failed.2)
  | .singleton =>
      let failed := world.singletons.queue.markFailed taskId error now
      ({world with singletons := {world.singletons with queue := failed.1}},failed.2)

def failTask (taskId error : Text) (now : Int) : World objects floats × Result Unit :=
  match world.markFailed taskId error now with
  | (failed,.error exc) => (failed,.error exc)
  | (failed,.ok ()) => (failed.publish "coordinator.task.failed".toList
      [("task_id".toList,.str taskId),("error".toList,.str error)] .taskResult,.ok ())

-- The bus that was started hands out what is queued.
def dispatch : World objects floats := world.onBus fun bus => if bus.running then (dispatchLoop bus).bus else bus

def orchestratorBus (running : Bool) : World objects floats :=
  world.on world.orchestrator.bus fun parts => {parts with bus := {parts.bus with running := running}}

end World

inductive Op (floats : Floats) where
  | start
  | stop (clock : Nat → Int)
  | registerAgent (name : Text) (capabilities : Option (List Text)) (clock : Nat → Int)
  | deregisterAgent (name : Text) (now : Int)
  | heartbeat (name : Text) (now : Int)
  | checkHeartbeats (now : Int)
  | submitTask (task : QueueTask floats) (target : Option Text)
  | completeTask (taskId : Text) (result : Json) (now : Int)
  | failTask (taskId error : Text) (now : Int)
  | dispatch
  | orchestratorStart
  | orchestratorStop (clock : Nat → Int)

def World.step (encode : Note → objects.Value) (world : World objects floats) : Op floats → World objects floats
  | .start => world.start
  | .stop clock => world.stop encode clock
  | .registerAgent name capabilities clock => world.registerAgent encode name capabilities clock
  | .deregisterAgent name now => (world.deregisterAgent encode name now).1
  | .heartbeat name now => world.heartbeat encode name now
  | .checkHeartbeats now => world.checkHeartbeats now
  | .submitTask task target => (world.submitTask task target).1
  | .completeTask taskId result now => world.completeTask taskId result now
  | .failTask taskId error now => (world.failTask taskId error now).1
  | .dispatch => world.dispatch
  | .orchestratorStart => world.start.orchestratorBus true
  | .orchestratorStop clock => (world.stop encode clock).orchestratorBus false

def World.parts (world : World objects floats) : Side → Components objects floats
  | .given => world.given
  | .singleton => world.singletons

structure CoordinatorStats where
  agents : Nat
  activeAgents : Nat
  taskQueue : List (Text × Nat)
  deadLetters : Nat

structure HealthReport where
  coordinator : CoordinatorStats
  queue : List (Text × Nat)
  state : List (Text × Nat)

def World.stats (world : World objects floats) : CoordinatorStats where
  agents := world.coordinator.agents.size
  activeAgents := world.coordinator.agents.values.countP fun info => decide (info.status = .active)
  taskQueue := (world.parts world.coordinator.queue).queue.stats
  deadLetters := (world.parts world.coordinator.queue).queue.deadLetterCount

def World.healthReport (world : World objects floats) (readings : Text → Int) : HealthReport where
  coordinator := world.stats
  queue := (world.parts world.orchestrator.queue).queue.stats
  state := (world.parts world.orchestrator.state).state.getStats readings

end Kryvaracode.Coordination
