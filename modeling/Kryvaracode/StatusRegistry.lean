import Kryvaracode.CoordinatorIsolation

namespace Kryvaracode.Coordination
open JsonText InsertionDict Runs StateStore Messages Tasks

variable {objects : Objects} {floats : Floats}

-- How what is written down is a value of the store: different texts are different values.
structure Writing (objects : Objects) where
  text : Text → objects.Value
  texts : List Text → objects.Value
  moment : Int → objects.Value
  apart : Function.Injective text

def Writing.encode (writing : Writing objects) : Note → objects.Value
  | .status status => writing.text status.value
  | .capabilities capabilities => writing.texts capabilities
  | .heartbeat moment => writing.moment moment

theorem value_injective : Function.Injective AgentStatus.value := by
  intro first second same
  revert same
  cases first <;> cases second <;> decide

theorem status_apart (writing : Writing objects) {first second : AgentStatus}
    (same : writing.encode (.status first) = writing.encode (.status second)) : first = second :=
  value_injective (writing.apart same)

-- The calls on the registry, with their clocks.
inductive AgentOp where
  | registerAgent (name : Text) (capabilities : Option (List Text)) (clock : Nat → Int)
  | deregisterAgent (name : Text) (now : Int)
  | heartbeat (name : Text) (now : Int)
  | checkHeartbeats (now : Int)

def AgentOp.op : AgentOp → Op floats
  | .registerAgent name capabilities clock => .registerAgent name capabilities clock
  | .deregisterAgent name now => .deregisterAgent name now
  | .heartbeat name now => .heartbeat name now
  | .checkHeartbeats now => .checkHeartbeats now

def AgentOp.registers : AgentOp → List Text
  | .registerAgent name _ _ => [name]
  | .deregisterAgent _ _ | .heartbeat _ _ | .checkHeartbeats _ => []

-- A coordinator with the names that were ever registered with it.
structure Ledger (objects : Objects) (floats : Floats) where
  world : World objects floats
  known : List Text

def Ledger.init (singletons given : Components objects floats) : Ledger objects floats :=
  ⟨(World.init singletons given).start,[]⟩

def Ledger.step (writing : Writing objects) (ledger : Ledger objects floats) (op : AgentOp) : Ledger objects floats :=
  ⟨ledger.world.step writing.encode op.op,op.registers ++ ledger.known⟩

def World.noted (world : World objects floats) (key : Text) : Option objects.Value :=
  ((world.parts world.coordinator.state).state.store.get key).map StateEntry.value

def World.statusOf (world : World objects floats) (name : Text) : AgentStatus :=
  (world.coordinator.agents.get name).elim .stopped AgentInfo.status

def World.statusNoted (world : World objects floats) (name : Text) : Option objects.Value :=
  world.noted (World.agentKey name "status".toList)

def Agrees (writing : Writing objects) (ledger : Ledger objects floats) : Prop :=
  ∀ name ∈ ledger.known, ledger.world.statusNoted name = some (writing.encode (.status (ledger.world.statusOf name)))

-- The calls that change a status without writing it down find none to change.
def KeepsStatus (ledger : Ledger objects floats) : AgentOp → Prop
  | .registerAgent _ _ _ | .deregisterAgent _ _ => True
  | .heartbeat name _ => ∀ info, ledger.world.coordinator.agents.get name = some info →
      info.status ≠ .registered ∧ info.status ≠ .degraded
  | .checkHeartbeats now => ∀ name info, ledger.world.coordinator.agents.get name = some info →
      HEARTBEAT_TIMEOUT * 1000000 < now - info.lastHeartbeat → info.status = .degraded

theorem endings_apart {first second : Text} (longer : ¬ first <:+ second) (shorter : ¬ second <:+ first) (front back : Text) :
    front ++ first ≠ back ++ second := by
  intro same
  have ends : first <:+ back ++ second := same ▸ List.suffix_append front first
  exact (List.suffix_or_suffix_of_suffix ends (List.suffix_append back second)).elim longer shorter

theorem agentKey_name (name other field : Text) : World.agentKey name field = World.agentKey other field ↔ name = other := by
  unfold World.agentKey
  rw [List.append_left_inj,List.append_left_inj,List.append_right_inj]

theorem status_heartbeat (name other : Text) :
    World.agentKey name "status".toList ≠ World.agentKey other "heartbeat".toList :=
  endings_apart (by decide) (by decide) _ _

theorem status_capabilities (name other : Text) :
    World.agentKey name "status".toList ≠ World.agentKey other "capabilities".toList := by
  unfold World.agentKey
  rw [List.append_assoc,List.append_assoc _ _ "capabilities".toList]
  exact endings_apart (by decide) (by decide) _ _

theorem set_value (state : SharedState objects) (key : Text) (value : objects.Value) (source : Text)
    (ttlSeconds : Option objects.Ttl) (now : Int) (other : Text) :
    ((state.set key value source ttlSeconds now).1.store.get other).map StateEntry.value =
      if other = key then some value else (state.store.get other).map StateEntry.value := by
  have stored : ∀ entry oldValue, (state.replace key entry oldValue source).store.get other =
      if other = key then some entry else state.store.get other := fun entry _ => get_set state.store key entry other
  unfold SharedState.set
  cases state.store.get key with
  | none =>
      dsimp only
      rw [stored]
      split <;> rfl
  | some old =>
      dsimp only
      rw [stored]
      split <;> rfl

section Effects
variable (world : World objects floats) (encode : Note → objects.Value)

theorem on_coordinator (side : Side) (change : Components objects floats → Components objects floats) :
    (world.on side change).coordinator = world.coordinator := by cases side <;> rfl

theorem on_parts (side : Side) (change : Components objects floats → Components objects floats) :
    (world.on side change).parts side = change (world.parts side) := by cases side <;> rfl

theorem onState_noted (key : Text) (note : Note) (source : Text) (now : Int) (other : Text) :
    (world.onState encode key note source now).noted other =
      if other = key then some (encode note) else world.noted other := by
  unfold World.noted World.onState
  rw [on_coordinator,on_parts]
  exact set_value _ key (encode note) source none now other

theorem onState_agents (key : Text) (note : Note) (source : Text) (now : Int) :
    (world.onState encode key note source now).coordinator = world.coordinator := on_coordinator world _ _

theorem publish_noted (topic : Text) (payload : Members) (msgType : MessageType) (key : Text) :
    (world.publish topic payload msgType).noted key = world.noted key := by
  unfold World.noted World.publish World.onBus
  rw [on_coordinator]
  cases world.coordinator.bus <;> cases world.coordinator.state <;> rfl

theorem publish_coordinator (topic : Text) (payload : Members) (msgType : MessageType) :
    (world.publish topic payload msgType).coordinator = world.coordinator := on_coordinator world _ _

theorem onState_statusNoted (key : Text) (note : Note) (source : Text) (now : Int)
    (apart : ∀ name, World.agentKey name "status".toList ≠ key) (name : Text) :
    (world.onState encode key note source now).statusNoted name = world.statusNoted name := by
  rw [World.statusNoted,onState_noted,if_neg (apart name)]
  rfl

theorem noteStatus_statusNoted (name : Text) (status : AgentStatus) (source : Text) (now : Int) (other : Text) :
    (world.onState encode (World.agentKey name "status".toList) (.status status) source now).statusNoted other =
      if other = name then some (encode (.status status)) else world.statusNoted other := by
  rw [World.statusNoted,onState_noted]
  by_cases same : other = name
  · rw [if_pos (congrArg (World.agentKey · "status".toList) same),if_pos same]
  · rw [if_neg fun equal => same ((agentKey_name other name _).mp equal),if_neg same]
    rfl

theorem registerAgent_statusNoted (name : Text) (capabilities : Option (List Text)) (clock : Nat → Int) (other : Text) :
    (world.registerAgent encode name capabilities clock).statusNoted other =
      if other = name then some (encode (.status .registered)) else world.statusNoted other := by
  unfold World.registerAgent
  rw [World.statusNoted,publish_noted,onState_noted,if_neg (status_capabilities other name)]
  exact noteStatus_statusNoted _ encode name .registered _ _ other

theorem registerAgent_agents (name : Text) (capabilities : Option (List Text)) (clock : Nat → Int) :
    (world.registerAgent encode name capabilities clock).coordinator = {world.coordinator with
      agents := world.coordinator.agents.set name ⟨name,.registered,capabilities.getD [],clock 0⟩} := by
  unfold World.registerAgent
  rw [publish_coordinator,onState_agents,onState_agents]
  rfl

theorem deregisterAgent_statusNoted (name : Text) (now : Int) (info : AgentInfo)
    (found : world.coordinator.agents.get name = some info) (other : Text) :
    (world.deregisterAgent encode name now).1.statusNoted other =
      if other = name then some (encode (.status .stopped)) else world.statusNoted other := by
  unfold World.deregisterAgent
  rw [found]
  refine (publish_noted _ _ _ _ _).trans ?_
  exact noteStatus_statusNoted _ encode name .stopped _ _ other

theorem deregisterAgent_coordinator (name : Text) (now : Int) (info : AgentInfo)
    (found : world.coordinator.agents.get name = some info) : (world.deregisterAgent encode name now).1.coordinator =
      {world.coordinator with agents := (world.coordinator.agents.set name {info with status := .stopping}).erase name} := by
  unfold World.deregisterAgent
  rw [found]
  dsimp only [World.withAgents]
  rw [publish_coordinator,onState_agents]

theorem heartbeat_coordinator (name : Text) (now : Int) (info : AgentInfo)
    (found : world.coordinator.agents.get name = some info) : (world.heartbeat encode name now).coordinator =
      {world.coordinator with agents := world.coordinator.agents.set name {info with
        lastHeartbeat := now,
        status := if info.status = .registered ∨ info.status = .degraded then .active else info.status}} := by
  unfold World.heartbeat
  rw [found]
  exact onState_agents _ _ _ _ _ _

theorem heartbeat_statusNoted (name : Text) (now : Int) (other : Text) :
    (world.heartbeat encode name now).statusNoted other = world.statusNoted other := by
  unfold World.heartbeat
  cases world.coordinator.agents.get name with
  | none => rfl
  | some info => exact onState_statusNoted _ encode _ _ _ _ (fun asked => status_heartbeat asked name) other

theorem checkHeartbeats_statusNoted (now : Int) (other : Text) :
    (world.checkHeartbeats now).statusNoted other = world.statusNoted other := by
  unfold World.checkHeartbeats
  split <;> rfl
end Effects

-- What holds of any run: the registered are known, and the monitor runs.
structure Watched (ledger : Ledger objects floats) : Prop where
  listed : ∀ name info, ledger.world.coordinator.agents.get name = some info → name ∈ ledger.known
  monitored : ledger.world.coordinator.monitored = true
  running : ledger.world.coordinator.running = true

theorem init_watched (singletons given : Components objects floats) : Watched (Ledger.init singletons given) := by
  refine ⟨?_,rfl,rfl⟩
  intro name info found
  cases found

section Ledgers
variable (writing : Writing objects) (ledger : Ledger objects floats)

theorem watched_agents {ledger after : Ledger objects floats} (watched : Watched ledger) (agents : Dict Text AgentInfo)
    (same : after.world.coordinator = {ledger.world.coordinator with agents := agents})
    (listed : ∀ name info, agents.get name = some info → name ∈ after.known) : Watched after := by
  refine ⟨?_,?_,?_⟩
  · rw [same]
    exact listed
  · rw [same]
    exact watched.monitored
  · rw [same]
    exact watched.running

theorem deregister_unknown (name : Text) (now : Int) (found : ledger.world.coordinator.agents.get name = none) :
    ledger.step writing (.deregisterAgent name now) = ledger := by
  simp only [Ledger.step,AgentOp.op,AgentOp.registers,World.step,World.deregisterAgent,found,List.nil_append]

theorem heartbeat_unknown (name : Text) (now : Int) (found : ledger.world.coordinator.agents.get name = none) :
    ledger.step writing (.heartbeat name now) = ledger := by
  simp only [Ledger.step,AgentOp.op,AgentOp.registers,World.step,World.heartbeat,found,List.nil_append]

theorem step_watched (ledger : Ledger objects floats) (op : AgentOp) (watched : Watched ledger) :
    Watched (ledger.step writing op) := by
  cases op with
  | registerAgent name capabilities clock =>
      refine watched_agents watched _ (registerAgent_agents ledger.world writing.encode name capabilities clock) ?_
      intro other info found
      rw [get_set] at found
      split at found
      next same => exact List.mem_append_left _ (List.mem_singleton.mpr same)
      next => exact List.mem_append_right _ (watched.listed other info found)
  | deregisterAgent name now =>
      cases found : ledger.world.coordinator.agents.get name with
      | none =>
          rw [deregister_unknown writing ledger name now found]
          exact watched
      | some info =>
          refine watched_agents watched _ (deregisterAgent_coordinator ledger.world writing.encode name now info found) ?_
          intro other kept held
          rw [get_erase] at held
          split at held
          next => cases held
          next apart =>
            rw [get_set,if_neg apart] at held
            exact watched.listed other kept held
  | heartbeat name now =>
      cases found : ledger.world.coordinator.agents.get name with
      | none =>
          rw [heartbeat_unknown writing ledger name now found]
          exact watched
      | some info =>
          refine watched_agents watched _ (heartbeat_coordinator ledger.world writing.encode name now info found) ?_
          intro other kept held
          rw [get_set] at held
          split at held
          next same => exact same ▸ watched.listed name info found
          next => exact watched.listed other kept held
  | checkHeartbeats now =>
      refine watched_agents watched (ledger.world.coordinator.agents.map (World.degrade now)) ?_ ?_
      · change (ledger.world.checkHeartbeats now).coordinator = _
        rw [World.checkHeartbeats,if_pos (by rw [watched.monitored,watched.running]; rfl)]
        rfl
      · intro other kept held
        rw [get_map,Option.map_eq_some_iff] at held
        obtain ⟨info,found,_⟩ := held
        exact watched.listed other info found

-- Where what is noted stays, agreement lasts exactly if no status moves.
theorem agrees_unnoted {ledger : Ledger objects floats} (agrees : Agrees writing ledger) (after : Ledger objects floats)
    (noted : ∀ name, after.world.statusNoted name = ledger.world.statusNoted name) (known : after.known = ledger.known) :
    Agrees writing after ↔ ∀ name ∈ ledger.known, after.world.statusOf name = ledger.world.statusOf name := by
  unfold Agrees
  rw [known]
  refine forall₂_congr ?_
  intro name inside
  rw [noted,agrees name inside,Option.some_inj]
  refine ⟨fun same => (status_apart writing same).symm,?_⟩
  intro same
  rw [same]

theorem register_agrees {ledger : Ledger objects floats} (agrees : Agrees writing ledger) (name : Text)
    (capabilities : Option (List Text)) (clock : Nat → Int) :
    Agrees writing (ledger.step writing (.registerAgent name capabilities clock)) := by
  intro other inside
  have noted := registerAgent_statusNoted ledger.world writing.encode name capabilities clock other
  have agents := registerAgent_agents ledger.world writing.encode name capabilities clock
  refine noted.trans ?_
  change _ = some (writing.encode (.status (World.statusOf (ledger.world.registerAgent _ _ _ _) other)))
  rw [World.statusOf,agents,get_set]
  by_cases same : other = name
  · rw [if_pos same,if_pos same]
    rfl
  · rw [if_neg same,if_neg same]
    rcases List.mem_append.mp inside with new | earlier
    · exact absurd (List.mem_singleton.mp new) same
    · exact agrees other earlier

theorem deregister_agrees {ledger : Ledger objects floats} (agrees : Agrees writing ledger) (name : Text) (now : Int) :
    Agrees writing (ledger.step writing (.deregisterAgent name now)) := by
  cases found : ledger.world.coordinator.agents.get name with
  | none =>
      rw [deregister_unknown writing ledger name now found]
      exact agrees
  | some info =>
      intro other inside
      have noted := deregisterAgent_statusNoted ledger.world writing.encode name now info found other
      have agents := deregisterAgent_coordinator ledger.world writing.encode name now info found
      refine noted.trans ?_
      change _ = some (writing.encode (.status (World.statusOf (ledger.world.deregisterAgent _ _ _).1 other)))
      rw [World.statusOf,agents,get_erase]
      by_cases same : other = name
      · rw [if_pos same,if_pos same]
        rfl
      · rw [if_neg same,if_neg same,get_set,if_neg same]
        exact agrees other inside

theorem heartbeat_agrees {ledger : Ledger objects floats} (watched : Watched ledger) (agrees : Agrees writing ledger)
    (name : Text) (now : Int) : Agrees writing (ledger.step writing (.heartbeat name now)) ↔
      ∀ info, ledger.world.coordinator.agents.get name = some info →
        info.status ≠ .registered ∧ info.status ≠ .degraded := by
  refine (agrees_unnoted writing agrees (ledger.step writing (.heartbeat name now))
    (heartbeat_statusNoted ledger.world writing.encode name now) rfl).trans ?_
  change (∀ other ∈ _,(ledger.world.heartbeat writing.encode name now).statusOf other = _) ↔ _
  cases found : ledger.world.coordinator.agents.get name with
  | none => simp [World.heartbeat,found]
  | some info =>
      have after : ∀ other, (ledger.world.heartbeat writing.encode name now).statusOf other = if other = name then
          (if info.status = .registered ∨ info.status = .degraded then .active else info.status)
          else ledger.world.statusOf other := by
        intro other
        rw [World.statusOf,heartbeat_coordinator ledger.world writing.encode name now info found,get_set]
        split <;> rfl
      have before : ledger.world.statusOf name = info.status := by rw [World.statusOf,found]; rfl
      refine ⟨?_,?_⟩
      · intro same held equal
        cases equal
        have stays := same name (watched.listed name info found)
        rw [after,if_pos rfl,before] at stays
        refine ⟨?_,?_⟩
        all_goals
          intro was
          rw [was] at stays
          simp at stays
      · intro settled other _
        rw [after]
        split
        next asked => rw [if_neg (by simpa using settled info rfl),asked,before]
        next => rfl

theorem checkHeartbeats_agrees {ledger : Ledger objects floats} (watched : Watched ledger) (agrees : Agrees writing ledger)
    (now : Int) : Agrees writing (ledger.step writing (.checkHeartbeats now)) ↔
      ∀ name info, ledger.world.coordinator.agents.get name = some info →
        HEARTBEAT_TIMEOUT * 1000000 < now - info.lastHeartbeat → info.status = .degraded := by
  refine (agrees_unnoted writing agrees (ledger.step writing (.checkHeartbeats now))
    (checkHeartbeats_statusNoted ledger.world now) rfl).trans ?_
  have after : ∀ name, (ledger.world.checkHeartbeats now).statusOf name =
      ((ledger.world.coordinator.agents.get name).map (World.degrade now)).elim .stopped AgentInfo.status := by
    intro name
    simp only [World.statusOf,World.checkHeartbeats,watched.monitored,watched.running,Bool.and_self,if_true]
    exact congrArg (Option.elim · _ _) (get_map _ _ name)
  change (∀ name ∈ _,(ledger.world.checkHeartbeats now).statusOf name = _) ↔ _
  refine ⟨?_,?_⟩
  · intro same name info found late
    by_contra sound
    have stays := same name (watched.listed name info found)
    rw [after,World.statusOf,found,Option.map_some,World.degrade,if_pos ⟨late,sound⟩] at stays
    exact sound stays.symm
  · intro settled name _
    rw [after,World.statusOf]
    cases found : ledger.world.coordinator.agents.get name with
    | none => rfl
    | some info =>
        rw [Option.map_some,World.degrade,if_neg fun stale => stale.2 (settled name info found stale.1)]

theorem step_agrees (ledger : Ledger objects floats) (op : AgentOp) (watched : Watched ledger)
    (agrees : Agrees writing ledger) : Agrees writing (ledger.step writing op) ↔ KeepsStatus ledger op := by
  cases op with
  | registerAgent name capabilities clock => exact iff_of_true (register_agrees writing agrees name capabilities clock) trivial
  | deregisterAgent name now => exact iff_of_true (deregister_agrees writing agrees name now) trivial
  | heartbeat name now => exact heartbeat_agrees writing watched agrees name now
  | checkHeartbeats now => exact checkHeartbeats_agrees writing watched agrees now
end Ledgers

theorem registry_agreement_exact (writing : Writing objects) (singletons given : Components objects floats)
    (ops : List AgentOp) : Throughout (Ledger.step writing) (Agrees writing) (Ledger.init singletons given) ops ↔
      Steps (Ledger.step writing) KeepsStatus (Ledger.init singletons given) ops := by
  have fits := steps_invariant (step_watched writing) (Ledger.init singletons given) ops (init_watched singletons given)
  rw [throughout_exact (step_agrees writing) (Ledger.init singletons given) ops fits]
  refine and_iff_right ?_
  intro name inside
  cases inside

-- Texts or None as values.
def textObjects : Objects :=
  {plainObjects with Value := Option Text,none := none,differs := fun first second => .ok (decide (first ≠ second))}

def textWriting : Writing textObjects where
  text text := some text
  texts _ := none
  moment _ := none
  apart _ _ := Option.some.inj

def textComponents : Components textObjects wholeFloats := ⟨.init,.init,.init 5⟩

-- A heartbeat makes the agent active, and the shared state still says registered.
theorem heartbeat_unnoted : ¬ Throughout (Ledger.step textWriting) (Agrees textWriting)
    (Ledger.init textComponents textComponents) [.registerAgent ['a'] none fun _ => 0,.heartbeat ['a'] 0] := by
  intro always
  have same : some (some AgentStatus.registered.value) = some (some AgentStatus.active.value) :=
    throughout_end always ['a'] (List.mem_singleton.mpr rfl)
  cases value_injective (Option.some.inj (Option.some.inj same))

end Kryvaracode.Coordination
