import Kryvaracode.Heartbeats
import Kryvaracode.StatusRegistry

namespace Kryvaracode.Coordination
open InsertionDict Runs Tasks
open StateStore (Objects)
open Heartbeats (Life View Joined Quiet detect)

variable {objects : Objects} {floats : Floats}

abbrev heartbeatTimeout : Int := HEARTBEAT_TIMEOUT * 1000000

-- What an operation is to the monitor. A pass of the loop that is not running is none.
def Op.signs (world : World objects floats) : Op floats → List (Heartbeats.Event Text Int)
  | .registerAgent name _ clock => [.join name (clock 0)]
  | .deregisterAgent name _ => [.leave name]
  | .heartbeat name now => [.beat name now]
  | .checkHeartbeats now => if world.coordinator.monitored && world.coordinator.running then [.check now] else []
  | .stop _ | .orchestratorStop _ => world.coordinator.agents.keys.map .leave
  | .start | .submitTask _ _ | .completeTask _ _ _ | .failTask _ _ _ | .dispatch | .orchestratorStart => []

def history (encode : Note → objects.Value) : World objects floats → List (Op floats) → List (Heartbeats.Event Text Int)
  | _,[] => []
  | world,op :: rest => op.signs world ++ history encode (world.step encode op) rest

def shownStatus (life : Life Int) : AgentStatus :=
  if life.suspected then .degraded else if life.beaten then .active else .registered

def Shown (info : AgentInfo) (life : Life Int) : Prop := info.lastHeartbeat = life.seen ∧ info.status = shownStatus life

def Mirrors (agents : Dict Text AgentInfo) (view : View Text Int) : Prop := ∀ name, Option.Rel Shown (agents.get name) (view name)

-- The registry after a history of signs and checks.
structure Detects (agents : Dict Text AgentInfo) (past : List (Heartbeats.Event Text Int)) : Prop where
  members : ∀ name, (agents.get name).isSome ↔ Joined past name
  exactly : ∀ name info, agents.get name = some info → ∃ front sign back, past = front ++ sign :: back ∧ Quiet name back ∧
    (sign = .join name info.lastHeartbeat ∧ (info.status = .registered ∨ info.status = .degraded) ∨
      sign = .beat name info.lastHeartbeat ∧ (info.status = .active ∨ info.status = .degraded)) ∧
    (info.status = .degraded ↔ ∃ now, .check now ∈ back ∧ heartbeatTimeout < now - info.lastHeartbeat)
  complete : ∀ name info, agents.get name = some info → ∀ now gap, (∃ check, .check check ∈ past ∧ now - gap ≤ check) →
    heartbeatTimeout + gap < now - info.lastHeartbeat → info.status = .degraded

section Mirrors
variable {agents : Dict Text AgentInfo} {view : View Text Int}

theorem set_mirrors (mirrors : Mirrors agents view) (name : Text) {info : AgentInfo} {life : Life Int} (shown : Shown info life) :
    Mirrors (agents.set name info) (Function.update view name (some life)) := by
  intro other
  rw [get_set,Function.update_apply]
  split
  next => exact .some shown
  next => exact mirrors other

-- Whatever a row was set to before it is taken out.
theorem erase_mirrors (mirrors : Mirrors agents view) (name : Text) (info : AgentInfo) :
    Mirrors ((agents.set name info).erase name) (Function.update view name none) := by
  intro other
  rw [get_erase,Function.update_apply]
  split
  next => exact .none
  next apart =>
    rw [get_set,if_neg apart]
    exact mirrors other

theorem absent_mirrors (mirrors : Mirrors agents view) {name : Text} (absent : agents.get name = none) : view name = none := by
  have related := mirrors name
  rw [absent] at related
  cases held : view name with
  | none => rfl
  | some life =>
      rw [held] at related
      cases related

theorem present_mirrors (mirrors : Mirrors agents view) {name : Text} {info : AgentInfo} (present : agents.get name = some info) :
    ∃ life, view name = some life ∧ Shown info life := by
  have related := mirrors name
  rw [present] at related
  cases held : view name with
  | none =>
      rw [held] at related
      cases related
  | some life =>
      rw [held] at related
      cases related with
      | some shown => exact ⟨life,rfl,shown⟩

theorem degrade_shown {info : AgentInfo} {life : Life Int} (shown : Shown info life) (now : Int) :
    Shown (World.degrade now info) (Heartbeats.examine heartbeatTimeout now life) := by
  obtain ⟨seen,status⟩ := shown
  unfold World.degrade Heartbeats.examine
  rw [seen]
  by_cases late : heartbeatTimeout < now - life.seen
  · rw [if_pos late]
    by_cases already : info.status = .degraded
    · rw [if_neg fun both => both.2 already]
      exact ⟨seen,already⟩
    · rw [if_pos ⟨late,already⟩]
      exact ⟨rfl,rfl⟩
  · rw [if_neg fun both => late both.1,if_neg late]
    exact ⟨seen,status⟩

theorem map_mirrors (mirrors : Mirrors agents view) (now : Int) :
    Mirrors (agents.map (World.degrade now)) fun name => (view name).map (Heartbeats.examine heartbeatTimeout now) := by
  intro name
  change Option.Rel Shown _ ((view name).map _)
  rw [get_map]
  cases held : agents.get name with
  | none =>
      rw [absent_mirrors mirrors held]
      exact .none
  | some info =>
      obtain ⟨life,known,shown⟩ := present_mirrors mirrors held
      rw [known]
      exact .some (degrade_shown shown now)

end Mirrors

section Steps
variable (encode : Note → objects.Value) {world : World objects floats} {view : View Text Int}

theorem deregister_mirrors (mirrors : Mirrors world.coordinator.agents view) (name : Text) (now : Int) :
    Mirrors (world.deregisterAgent encode name now).1.coordinator.agents (Function.update view name none) := by
  cases found : world.coordinator.agents.get name with
  | none =>
      have same : (world.deregisterAgent encode name now).1 = world := by
        unfold World.deregisterAgent
        rw [found]
      rw [same,← absent_mirrors mirrors found,Function.update_eq_self]
      exact mirrors
  | some info =>
      rw [deregisterAgent_coordinator world encode name now info found]
      exact erase_mirrors mirrors name _

theorem heartbeat_mirrors (mirrors : Mirrors world.coordinator.agents view) (name : Text) (now : Int) :
    Mirrors (world.heartbeat encode name now).coordinator.agents
      (Function.update view name ((view name).map fun _ => ⟨now,true,false⟩)) := by
  cases found : world.coordinator.agents.get name with
  | none =>
      have same : world.heartbeat encode name now = world := by
        unfold World.heartbeat
        rw [found]
      rw [same,absent_mirrors mirrors found,Option.map_none,← absent_mirrors mirrors found,Function.update_eq_self]
      exact mirrors
  | some info =>
      obtain ⟨life,known,shown⟩ := present_mirrors mirrors found
      rw [heartbeat_coordinator world encode name now info found,known]
      refine set_mirrors mirrors name ⟨rfl,?_⟩
      rw [shown.2]
      unfold shownStatus
      cases life.suspected <;> cases life.beaten <;> rfl

-- `stop` takes the agents out one after the other.
theorem deregisters_mirrors (clock : Nat → Int) (names : List (Text × Nat)) {world : World objects floats} {view : View Text Int}
    (mirrors : Mirrors world.coordinator.agents view) :
    Mirrors (names.foldl (fun world agent => (world.deregisterAgent encode agent.1 (clock agent.2)).1) world).coordinator.agents
      (run (Heartbeats.step heartbeatTimeout) view (names.map fun agent => .leave agent.1)) := by
  induction names generalizing world view with
  | nil => exact mirrors
  | cons agent names ih => exact ih (deregister_mirrors encode mirrors agent.1 (clock agent.2))

theorem stop_mirrors (mirrors : Mirrors world.coordinator.agents view) (clock : Nat → Int) :
    Mirrors (world.stop encode clock).coordinator.agents
      (run (Heartbeats.step heartbeatTimeout) view (world.coordinator.agents.keys.map .leave)) := by
  have halted : Mirrors ({world with coordinator := {world.coordinator with running := false}} : World objects floats).coordinator.agents
      view := mirrors
  have emptied := deregisters_mirrors encode clock world.coordinator.agents.keys.zipIdx halted
  have names := List.zipIdx_map_fst 0 world.coordinator.agents.keys
  rw [← names,List.map_map]
  unfold World.stop World.onBus
  rw [on_coordinator]
  exact emptied

-- The other operations leave the registry alone.
theorem start_agents (world : World objects floats) : world.start.coordinator.agents = world.coordinator.agents := by
  unfold World.start World.onBus
  split
  next => rfl
  next =>
    rw [on_coordinator]

theorem submitTask_coordinator (world : World objects floats) (task : QueueTask floats) (target : Option Text) :
    (world.submitTask task target).1.coordinator = world.coordinator := by
  unfold World.submitTask
  split
  next => rfl
  next =>
    unfold World.onQueue
    exact (publish_coordinator _ _ _ _).trans (on_coordinator _ _ _)

theorem completeTask_coordinator (world : World objects floats) (taskId : Text) (result : JsonText.Json) (now : Int) :
    (world.completeTask taskId result now).coordinator = world.coordinator :=
  (publish_coordinator _ _ _ _).trans (on_coordinator _ _ _)

theorem failTask_coordinator (world : World objects floats) (taskId error : Text) (now : Int) :
    (world.failTask taskId error now).1.coordinator = world.coordinator := by
  have marked : (world.markFailed taskId error now).1.coordinator = world.coordinator := by
    unfold World.markFailed
    split <;> rfl
  unfold World.failTask
  split
  next failed exc same =>
    rw [same] at marked
    exact marked
  next failed same =>
    rw [same] at marked
    rw [publish_coordinator]
    exact marked

theorem step_mirrors (mirrors : Mirrors world.coordinator.agents view) (op : Op floats) :
    Mirrors (world.step encode op).coordinator.agents (run (Heartbeats.step heartbeatTimeout) view (op.signs world)) := by
  cases op with
  | start =>
      unfold World.step
      rw [start_agents]
      exact mirrors
  | stop clock => exact stop_mirrors encode mirrors clock
  | registerAgent name capabilities clock =>
      unfold World.step
      rw [registerAgent_agents]
      exact set_mirrors mirrors name ⟨rfl,rfl⟩
  | deregisterAgent name now => exact deregister_mirrors encode mirrors name now
  | heartbeat name now => exact heartbeat_mirrors encode mirrors name now
  | checkHeartbeats now =>
      rw [World.step,World.checkHeartbeats,Op.signs]
      split
      next => exact map_mirrors mirrors now
      next => exact mirrors
  | submitTask task target =>
      unfold World.step
      rw [submitTask_coordinator]
      exact mirrors
  | completeTask taskId result now =>
      unfold World.step
      rw [completeTask_coordinator]
      exact mirrors
  | failTask taskId error now =>
      unfold World.step
      rw [failTask_coordinator]
      exact mirrors
  | dispatch =>
      unfold World.step World.dispatch World.onBus
      rw [on_coordinator]
      exact mirrors
  | orchestratorStart =>
      unfold World.step World.orchestratorBus
      rw [on_coordinator,start_agents]
      exact mirrors
  | orchestratorStop clock =>
      unfold World.step World.orchestratorBus
      rw [on_coordinator]
      exact stop_mirrors encode mirrors clock

theorem run_mirrors (ops : List (Op floats)) {world : World objects floats} {view : View Text Int}
    (mirrors : Mirrors world.coordinator.agents view) :
    Mirrors (run (World.step encode) world ops).coordinator.agents
      (run (Heartbeats.step heartbeatTimeout) view (history encode world ops)) := by
  induction ops generalizing world view with
  | nil => exact mirrors
  | cons op rest ih =>
      rw [history,run_append]
      exact ih (step_mirrors encode mirrors op)

theorem history_append (world : World objects floats) (front rest : List (Op floats)) :
    history encode world (front ++ rest) = history encode world front ++ history encode (run (World.step encode) world front) rest := by
  induction front generalizing world with
  | nil => rfl
  | cons op front ih => rw [List.cons_append,history,history,ih,List.append_assoc,run_cons]

theorem mirrors_detects {agents : Dict Text AgentInfo} {past : List (Heartbeats.Event Text Int)} (ordered : Heartbeats.Ordered past)
    (mirrors : Mirrors agents (detect heartbeatTimeout past)) : Detects agents past := by
  have explained : ∀ name info, agents.get name = some info → ∃ life, detect heartbeatTimeout past name = some life ∧ Shown info life :=
    fun name info found => present_mirrors mirrors found
  refine ⟨?_,?_,?_⟩
  · intro name
    rw [← @Heartbeats.detect_members _ _ _ _ heartbeatTimeout]
    cases held : agents.get name with
    | none =>
        rw [absent_mirrors mirrors held]
        exact iff_of_false Bool.false_ne_true Bool.false_ne_true
    | some info =>
        obtain ⟨life,known,_⟩ := explained name info held
        rw [known]
        rfl
  · intro name info found
    obtain ⟨life,held,seen,status⟩ := explained name info found
    obtain ⟨front,sign,back,whole,made,quiet,exactly⟩ := Heartbeats.detect_explained past held
    refine ⟨front,sign,back,whole,quiet,?_,?_⟩
    · rw [seen,status,shownStatus]
      rcases made with ⟨same,beaten⟩ | ⟨same,beaten⟩
      · refine .inl ⟨same,?_⟩
        rw [beaten]
        cases life.suspected <;> simp
      · refine .inr ⟨same,?_⟩
        rw [beaten]
        cases life.suspected <;> simp
    · rw [seen,← exactly,status,shownStatus]
      cases life.suspected <;> cases life.beaten <;> decide
  · intro name info found now gap recent silent
    obtain ⟨life,held,seen,status⟩ := explained name info found
    rw [seen] at silent
    have suspected := Heartbeats.detect_complete (by decide) ordered held recent silent
    rw [status,shownStatus,if_pos suspected]

-- Over every run: an agent is registered until its first heartbeat, active after one,
-- and degraded exactly if a check has found its last sign of life older than the timeout.
theorem heartbeats_exact (singletons given : Components objects floats) (ops : List (Op floats))
    (ordered : Heartbeats.Ordered (history encode (World.init singletons given) ops)) (front : List (Op floats)) (early : front <+: ops) :
    Detects (run (World.step encode) (World.init singletons given) front).coordinator.agents
      (history encode (World.init singletons given) front) := by
  obtain ⟨rest,rfl⟩ := early
  have before : Heartbeats.Ordered (history encode (World.init singletons given) front) := by
    rw [history_append,Heartbeats.Ordered,List.filterMap_append] at ordered
    exact (List.pairwise_append.mp ordered).1
  exact mirrors_detects before (run_mirrors encode front fun name => .none)

end Steps
-- Silent for a minute, checked, and back.
def silentAgent : List (Op wholeFloats) :=
  [.start,.registerAgent ['a'] none fun _ => 0,.heartbeat ['a'] 1000000,.checkHeartbeats 61000000,.heartbeat ['a'] 70000000]

def noNotes : Note → textObjects.Value := fun _ => none

theorem silence_noticed : Detects
    (run (World.step noNotes) (World.init textComponents textComponents) (silentAgent.take 4)).coordinator.agents
      (history noNotes (World.init textComponents textComponents) (silentAgent.take 4)) :=
  heartbeats_exact noNotes textComponents textComponents silentAgent (by unfold Heartbeats.Ordered; decide) _
    (List.take_prefix 4 silentAgent)

example : (silentAgent.inits.map fun front => ((run (World.step noNotes) (World.init textComponents textComponents) front).coordinator.agents.get
    ['a']).map AgentInfo.status) =
    [none,none,some .registered,some .active,some .degraded,some .active] := by decide

end Kryvaracode.Coordination
