import Kryvaracode.StatusRegistry

namespace Kryvaracode.Coordination
open JsonText InsertionDict Runs StateStore Messages Tasks

variable {objects : Objects} {floats : Floats}

-- `del mapping[key]`, with the key as the only argument.
def KeyError (key : Text) : Failure := ⟨.other "KeyError".toList,key⟩

inductive Returned where
  | agent (serial : Nat)
  | flag (truth : Bool)
  | none

-- A call by the await it stands at. A deregistration carries the registration it
-- found and how many there had been, and in a stop the names that are left.
inductive Activity where
  | registering (name : Text) (serial : Nat) (capabilities : List Text)
  | describing (name : Text) (serial : Nat) (capabilities : List Text)
  | announcing (serial : Nat)
  | deregistering (name : Text) (found since : Nat) (rest : Option (List Text))
  | leaving (name : Text) (found since : Nat) (rest : Option (List Text))
  | halting
  | closing
  | returned (value : Returned)
  | raised (exc : Failure)

-- The registration that a call took away, and how many there had been at its start.
structure Removal where
  serial : Nat
  since : Nat

-- Registrations are numbered as they are made, and the latest of a name is the
-- one the agents hold if they hold any.
structure Registry (objects : Objects) (floats : Floats) where
  world : World objects floats
  latest : Text → Nat
  made : Nat
  calls : List Activity
  removals : List Removal

namespace Registry

def init (singletons given : Components objects floats) (started : Bool) : Registry objects floats :=
  let world := World.init singletons given
  ⟨if started then world.start else world,fun _ => 0,0,[],[]⟩

variable (registry : Registry objects floats) (encode : Note → objects.Value)

def agents : Dict Text AgentInfo := registry.world.coordinator.agents

def onWorld (world : World objects floats) : Registry objects floats := {registry with world := world}

def register (name : Text) (capabilities : Option (List Text)) (moment now : Int) : Registry objects floats × Activity :=
  let info := ⟨name,.registered,capabilities.getD [],moment⟩
  let listed := registry.world.withAgents (registry.agents.set name info)
  let noted := listed.onState encode (World.agentKey name "status".toList) (.status .registered) "coordinator".toList now
  ({registry with world := noted,latest := Function.update registry.latest name registry.made,made := registry.made + 1},
    .registering name registry.made info.capabilities)

def depart (name : Text) (info : AgentInfo) (rest : Option (List Text)) (now : Int) : Registry objects floats × Activity :=
  let marked := registry.world.withAgents (registry.agents.set name {info with status := .stopping})
  (registry.onWorld (marked.onState encode (World.agentKey name "status".toList) (.status .stopped) "coordinator".toList now),
    .deregistering name (registry.latest name) registry.made rest)

def deregister (name : Text) (now : Int) : Registry objects floats × Activity :=
  match registry.agents.get name with
  | none => (registry,.returned (.flag false))
  | some info => registry.depart encode name info none now

def close : Registry objects floats × Activity :=
  (registry.onWorld (registry.world.onBus fun bus => {bus with running := false}),.closing)

-- The loop of a stop, up to the next name that is still registered.
def proceed (now : Int) : List Text → Registry objects floats × Activity
  | [] => if registry.world.coordinator.monitored then (registry,.halting) else registry.close
  | name :: rest =>
      match registry.agents.get name with
      | none => proceed now rest
      | some info => registry.depart encode name info (some rest) now

def stop (now : Int) : Registry objects floats × Activity :=
  let halted := {registry.world with coordinator := {registry.world.coordinator with running := false}}
  (registry.onWorld halted).proceed encode now registry.agents.keys

def removed (name : Text) (since : Nat) : Registry objects floats :=
  {registry.onWorld (registry.world.withAgents (registry.agents.erase name)) with
    removals := registry.removals ++ [⟨registry.latest name,since⟩]}

def leave (name : Text) (since : Nat) (rest : Option (List Text)) (now : Int) : Registry objects floats × Activity :=
  match registry.agents.get name,rest with
  | none,_ => (registry,.raised (KeyError name))
  | some _,none => (registry.removed name since,.returned (.flag true))
  | some _,some names => (registry.removed name since).proceed encode now names

def resume (now : Int) : Activity → Registry objects floats × Activity
  | .registering name serial capabilities =>
      (registry.onWorld (registry.world.onState encode (World.agentKey name "capabilities".toList)
        (.capabilities capabilities) "coordinator".toList now),.describing name serial capabilities)
  | .describing name serial capabilities =>
      (registry.onWorld (registry.world.publish "coordinator.agent.registered".toList
        [("agent".toList,.str name),("capabilities".toList,.arr (capabilities.map .str))] .agentMsg),.announcing serial)
  | .announcing serial => (registry,.returned (.agent serial))
  | .deregistering name found since rest =>
      (registry.onWorld (registry.world.publish "coordinator.agent.deregistered".toList [("agent".toList,.str name)]
        .agentMsg),.leaving name found since rest)
  | .leaving name _ since rest => registry.leave encode name since rest now
  | .halting =>
      (registry.onWorld
        {registry.world with coordinator := {registry.world.coordinator with monitored := false}}).close
  | .closing => (registry,.closing)
  | .returned value => (registry,.returned value)
  | .raised exc => (registry,.raised exc)

end Registry

def opened (effect : Registry objects floats × Activity) : Registry objects floats :=
  {effect.1 with calls := effect.1.calls ++ [effect.2]}

def continued (call : Nat) (effect : Registry objects floats × Activity) : Registry objects floats :=
  {effect.1 with calls := effect.1.calls.set call effect.2}

-- A call begins, goes on from the await it stands at, or has the end of the bus's
-- own stop handed to it.
inductive Turn where
  | registerAgent (name : Text) (capabilities : Option (List Text)) (moment now : Int)
  | deregisterAgent (name : Text) (now : Int)
  | stop (now : Int)
  | resume (call : Nat) (now : Int)
  | closed (call : Nat) (outcome : Result Unit)

def ending : Result Unit → Activity
  | .ok () => .returned .none
  | .error exc => .raised exc

def Registry.goOn (encode : Note → objects.Value) (registry : Registry objects floats) (call : Nat) (now : Int) :
    Registry objects floats :=
  match registry.calls[call]? with
  | none => registry
  | some activity => continued call (registry.resume encode now activity)

def Registry.closed (registry : Registry objects floats) (call : Nat) (outcome : Result Unit) : Registry objects floats :=
  match registry.calls[call]? with
  | some .closing => continued call (registry,ending outcome)
  | _ => registry

def Registry.step (encode : Note → objects.Value) (registry : Registry objects floats) : Turn → Registry objects floats
  | .registerAgent name capabilities moment now => opened (registry.register encode name capabilities moment now)
  | .deregisterAgent name now => opened (registry.deregister encode name now)
  | .stop now => opened (registry.stop encode now)
  | .resume call now => registry.goOn encode call now
  | .closed call outcome => registry.closed call outcome

def unraised (activity : Activity) : Prop := ∀ exc, activity ≠ .raised exc

structure Exclusive (registry : Registry objects floats) : Prop where
  unraised : ∀ call ∈ registry.calls, unraised call
  once : (registry.removals.map Removal.serial).Nodup
  older : ∀ removal ∈ registry.removals, removal.serial < removal.since

-- A deregistration that comes to delete finds the registration it found at first.
def KeepsRegistrations (registry : Registry objects floats) : Turn → Prop
  | .registerAgent _ _ _ _ | .deregisterAgent _ _ | .stop _ => True
  | .resume call _ => ∀ name found since rest, registry.calls[call]? = some (.leaving name found since rest) →
      registry.agents.get name ≠ none ∧ registry.latest name = found
  | .closed call outcome => registry.calls[call]? = some .closing → outcome = .ok ()

-- The call found a registration made before it, and the name has that one still,
-- or none, or one made after it.
structure Dated (registry : Registry objects floats) (name : Text) (found since : Nat) : Prop where
  before : found < since
  counted : since ≤ registry.made
  later : registry.agents.get name ≠ none → registry.latest name = found ∨ since ≤ registry.latest name

def Sound (registry : Registry objects floats) : Activity → Prop
  | .deregistering name found since _ | .leaving name found since _ => Dated registry name found since
  | .registering _ _ _ | .describing _ _ _ | .announcing _ | .halting | .closing | .returned _ | .raised _ => True

structure Ordered (registry : Registry objects floats) : Prop where
  counted : ∀ name, registry.agents.get name ≠ none →
    registry.latest name < registry.made ∧ registry.latest name ∉ registry.removals.map Removal.serial
  apart : ∀ first second, registry.agents.get first ≠ none → registry.agents.get second ≠ none →
    registry.latest first = registry.latest second → first = second
  past : ∀ serial ∈ registry.removals.map Removal.serial, serial < registry.made
  once : (registry.removals.map Removal.serial).Nodup
  sound : ∀ call ∈ registry.calls, Sound registry call

structure Unmoved (before after : Registry objects floats) : Prop where
  latest : after.latest = before.latest
  made : after.made = before.made
  removals : after.removals = before.removals
  calls : after.calls = before.calls
  present : ∀ name, after.agents.get name = none ↔ before.agents.get name = none

theorem init_ordered (singletons given : Components objects floats) (started : Bool) :
    Ordered (Registry.init singletons given started) := by
  have none : ∀ name, (Registry.init singletons given started).agents.get name = none := by
    intro name
    cases started <;> rfl
  refine ⟨?_,?_,?_,List.nodup_nil,?_⟩
  · intro name present
    exact absurd (none name) present
  · intro first second present
    exact absurd (none first) present
  · intro serial inside
    cases inside
  · intro call inside
    cases inside

section Moves
variable {registry : Registry objects floats}

theorem onWorld_unmoved (world : World objects floats) (present : ∀ name, world.coordinator.agents.get name = none ↔
    registry.agents.get name = none) : Unmoved registry (registry.onWorld world) := ⟨rfl,rfl,rfl,rfl,present⟩

theorem unmoved_refl (registry : Registry objects floats) : Unmoved registry registry := ⟨rfl,rfl,rfl,rfl,fun _ => Iff.rfl⟩

theorem sound_dated {after : Registry objects floats} (kept : ∀ name found since, Dated registry name found since →
    Dated after name found since) {activity : Activity} (sound : Sound registry activity) : Sound after activity := by
  cases activity with
  | deregistering name found since rest => exact kept name found since sound
  | leaving name found since rest => exact kept name found since sound
  | _ => trivial

theorem sound_unmoved {after : Registry objects floats} (unmoved : Unmoved registry after) {activity : Activity}
    (sound : Sound registry activity) : Sound after activity := by
  refine sound_dated ?_ sound
  intro name found since dated
  refine ⟨dated.before,unmoved.made ▸ dated.counted,?_⟩
  rw [unmoved.latest,ne_eq,unmoved.present]
  exact dated.later

theorem ordered_unmoved {after : Registry objects floats} (unmoved : Unmoved registry after) (ordered : Ordered registry) :
    Ordered after := by
  refine ⟨?_,?_,?_,?_,?_⟩
  · simpa only [unmoved.latest,unmoved.made,unmoved.removals,ne_eq,unmoved.present] using ordered.counted
  · simpa only [unmoved.latest,ne_eq,unmoved.present] using ordered.apart
  · simpa only [unmoved.made,unmoved.removals] using ordered.past
  · simpa only [unmoved.removals] using ordered.once
  · intro call inside
    exact sound_unmoved unmoved (ordered.sound call (unmoved.calls ▸ inside))

-- What goes on without a registration made or removed, up to a next await.
structure Settled (registry : Registry objects floats) (effect : Registry objects floats × Activity) : Prop where
  unmoved : Unmoved registry effect.1
  sound : Sound effect.1 effect.2
  unraised : unraised effect.2

theorem unmoved_trans {middle after : Registry objects floats} (first : Unmoved registry middle) (second : Unmoved middle after) :
    Unmoved registry after :=
  ⟨second.latest.trans first.latest,second.made.trans first.made,second.removals.trans first.removals,
    second.calls.trans first.calls,fun name => (second.present name).trans (first.present name)⟩

theorem settled_unmoved {middle : Registry objects floats} {effect : Registry objects floats × Activity}
    (unmoved : Unmoved registry middle) (settled : Settled middle effect) : Settled registry effect :=
  ⟨unmoved_trans unmoved settled.unmoved,settled.sound,settled.unraised⟩

variable (encode : Note → objects.Value)

theorem depart_settled (ordered : Ordered registry) (name : Text) (info : AgentInfo) (rest : Option (List Text)) (now : Int)
    (found : registry.agents.get name = some info) : Settled registry (registry.depart encode name info rest now) := by
  have held : registry.agents.get name ≠ none := by simp [found]
  have unmoved : Unmoved registry (registry.depart encode name info rest now).1 := by
    refine onWorld_unmoved _ ?_
    intro other
    rw [onState_agents]
    change (registry.agents.set name {info with status := .stopping}).get other = none ↔ _
    rw [get_set]
    split
    next same => simp [same,found]
    next => rfl
  refine ⟨unmoved,sound_unmoved unmoved ?_,by intro exc same; cases same⟩
  exact ⟨(ordered.counted name held).1,Nat.le_refl _,fun _ => .inl rfl⟩

theorem close_settled : Settled registry registry.close := by
  refine ⟨onWorld_unmoved _ ?_,trivial,by intro exc same; cases same⟩
  intro name
  rw [World.onBus,on_coordinator]
  rfl

theorem proceed_settled (ordered : Ordered registry) (now : Int) (names : List Text) :
    Settled registry (registry.proceed encode now names) := by
  induction names with
  | nil =>
      unfold Registry.proceed
      split
      next => exact ⟨unmoved_refl registry,trivial,by intro exc same; cases same⟩
      next => exact close_settled
  | cons name rest ih =>
      unfold Registry.proceed
      cases found : registry.agents.get name with
      | none => exact ih
      | some info => exact depart_settled encode ordered name info (some rest) now found

theorem deregister_settled (ordered : Ordered registry) (name : Text) (now : Int) :
    Settled registry (registry.deregister encode name now) := by
  unfold Registry.deregister
  cases found : registry.agents.get name with
  | none => exact ⟨unmoved_refl registry,trivial,by intro exc same; cases same⟩
  | some info => exact depart_settled encode ordered name info none now found

theorem stop_settled (ordered : Ordered registry) (now : Int) : Settled registry (registry.stop encode now) := by
  unfold Registry.stop
  have halted : Unmoved registry (registry.onWorld
      {registry.world with coordinator := {registry.world.coordinator with running := false}}) :=
    onWorld_unmoved _ fun _ => Iff.rfl
  exact settled_unmoved halted (proceed_settled encode (ordered_unmoved halted ordered) now _)

theorem register_agents (registry : Registry objects floats) (name : Text) (capabilities : Option (List Text))
    (moment now : Int) (other : Text) : (registry.register encode name capabilities moment now).1.agents.get other =
      if other = name then some ⟨name,.registered,capabilities.getD [],moment⟩ else registry.agents.get other := by
  rw [← get_set]
  exact congrArg (Dict.get · other) (congrArg AgentCoordinator.agents (onState_agents _ encode _ _ _ _))

-- A name that is held afterwards has the new registration or the one it had.
theorem register_cases (registry : Registry objects floats) (name : Text) (capabilities : Option (List Text))
    (moment now : Int) (other : Text) (held : (registry.register encode name capabilities moment now).1.agents.get other ≠ none) :
    (other = name ∧ (registry.register encode name capabilities moment now).1.latest other = registry.made) ∨
      (registry.agents.get other ≠ none ∧
        (registry.register encode name capabilities moment now).1.latest other = registry.latest other) := by
  rw [register_agents] at held
  by_cases same : other = name
  · exact .inl ⟨same,(Function.update_apply _ _ _ _).trans (if_pos same)⟩
  · rw [if_neg same] at held
    exact .inr ⟨held,(Function.update_apply _ _ _ _).trans (if_neg same)⟩

theorem register_ordered (ordered : Ordered registry) (name : Text) (capabilities : Option (List Text)) (moment now : Int) :
    Ordered (registry.register encode name capabilities moment now).1 := by
  have after := register_cases encode registry name capabilities moment now
  have removals : (registry.register encode name capabilities moment now).1.removals = registry.removals := rfl
  refine ⟨?_,?_,?_,ordered.once,?_⟩
  · intro other held
    rw [removals]
    rcases after other held with ⟨_,new⟩ | ⟨before,same⟩
    · rw [new]
      exact ⟨Nat.lt_succ_self _,fun inside => Nat.lt_irrefl _ (ordered.past _ inside)⟩
    · rw [same]
      have earlier := ordered.counted other before
      exact ⟨Nat.lt_succ_of_lt earlier.1,earlier.2⟩
  · intro first second held also equal
    rcases after first held with ⟨mine,new⟩ | ⟨before,same⟩
    · rcases after second also with ⟨other,_⟩ | ⟨earlier,kept⟩
      · exact mine.trans other.symm
      · rw [new,kept] at equal
        exact absurd equal.symm (Nat.ne_of_lt (ordered.counted second earlier).1)
    · rcases after second also with ⟨_,new⟩ | ⟨earlier,kept⟩
      · rw [same,new] at equal
        exact absurd equal (Nat.ne_of_lt (ordered.counted first before).1)
      · rw [same,kept] at equal
        exact ordered.apart first second before earlier equal
  · intro serial inside
    exact Nat.lt_succ_of_lt (ordered.past serial inside)
  · intro call inside
    refine sound_dated ?_ (ordered.sound call inside)
    intro asked found since dated
    refine ⟨dated.before,Nat.le_succ_of_le dated.counted,?_⟩
    intro held
    rcases after asked held with ⟨_,new⟩ | ⟨before,same⟩
    · rw [new]
      exact .inr dated.counted
    · rw [same]
      exact dated.later before

theorem removed_ordered (ordered : Ordered registry) (name : Text) (since : Nat) (present : registry.agents.get name ≠ none) :
    Ordered (registry.removed name since) := by
  have agents : ∀ other, (registry.removed name since).agents.get other =
      if other = name then none else registry.agents.get other := get_erase registry.agents name
  have serials : (registry.removed name since).removals.map Removal.serial =
      registry.removals.map Removal.serial ++ [registry.latest name] := List.map_append
  have still : ∀ other, (registry.removed name since).agents.get other ≠ none →
      other ≠ name ∧ registry.agents.get other ≠ none := by
    intro other held
    rw [agents] at held
    split at held
    next => exact absurd rfl held
    next apart => exact ⟨apart,held⟩
  have mine := ordered.counted name present
  refine ⟨?_,?_,?_,?_,?_⟩
  · intro other held
    obtain ⟨apart,before⟩ := still other held
    have earlier := ordered.counted other before
    refine ⟨earlier.1,?_⟩
    rw [serials,List.mem_append,List.mem_singleton,not_or]
    exact ⟨earlier.2,fun same => apart (ordered.apart other name before present same)⟩
  · intro first second held also same
    exact ordered.apart first second (still first held).2 (still second also).2 same
  · intro serial inside
    rw [serials,List.mem_append,List.mem_singleton] at inside
    rcases inside with earlier | rfl
    · exact ordered.past serial earlier
    · exact mine.1
  · rw [serials,List.nodup_append]
    refine ⟨ordered.once,List.nodup_singleton _,?_⟩
    intro first inside second alone same
    rw [List.mem_singleton] at alone
    exact mine.2 (alone ▸ same ▸ inside)
  · intro call inside
    refine sound_dated ?_ (ordered.sound call inside)
    intro asked found start dated
    exact ⟨dated.before,dated.counted,fun held => dated.later (still asked held).2⟩

variable (encode : Note → objects.Value)

theorem leave_ordered (ordered : Ordered registry) (name : Text) (since : Nat) (rest : Option (List Text)) (now : Int) :
    Ordered (registry.leave encode name since rest now).1 ∧
      Sound (registry.leave encode name since rest now).1 (registry.leave encode name since rest now).2 := by
  unfold Registry.leave
  cases held : registry.agents.get name with
  | none => exact ⟨ordered,trivial⟩
  | some info =>
      have gone := removed_ordered ordered name since (by simp [held])
      cases rest with
      | none => exact ⟨gone,trivial⟩
      | some names =>
          have settled := proceed_settled encode gone now names
          exact ⟨ordered_unmoved settled.unmoved gone,settled.sound⟩

theorem resume_ordered (ordered : Ordered registry) (now : Int) {activity : Activity} (inside : activity ∈ registry.calls) :
    Ordered (registry.resume encode now activity).1 ∧
      Sound (registry.resume encode now activity).1 (registry.resume encode now activity).2 := by
  have sound := ordered.sound activity inside
  cases activity with
  | registering name serial capabilities =>
      refine ⟨ordered_unmoved (onWorld_unmoved _ fun other => ?_) ordered,trivial⟩
      rw [onState_agents]
      rfl
  | describing name serial capabilities =>
      refine ⟨ordered_unmoved (onWorld_unmoved _ fun other => ?_) ordered,trivial⟩
      rw [publish_coordinator]
      rfl
  | deregistering name found since rest =>
      have unmoved : Unmoved registry (registry.resume encode now (.deregistering name found since rest)).1 := by
        refine onWorld_unmoved _ fun other => ?_
        rw [publish_coordinator]
        rfl
      exact ⟨ordered_unmoved unmoved ordered,sound_unmoved unmoved sound⟩
  | leaving name found since rest => exact leave_ordered encode ordered name since rest now
  | halting =>
      have unmonitored : Unmoved registry (registry.onWorld
          {registry.world with coordinator := {registry.world.coordinator with monitored := false}}) :=
        onWorld_unmoved _ fun _ => Iff.rfl
      have settled := settled_unmoved unmonitored close_settled
      exact ⟨ordered_unmoved settled.unmoved ordered,settled.sound⟩
  | announcing serial => exact ⟨ordered,trivial⟩
  | closing => exact ⟨ordered,trivial⟩
  | returned value => exact ⟨ordered,trivial⟩
  | raised exc => exact ⟨ordered,trivial⟩

-- The calls after a step are those before it and what the call stepped came to.
theorem effect_ordered (effect : Registry objects floats × Activity) (ordered : Ordered effect.1)
    (sound : Sound effect.1 effect.2) (calls : List Activity) (members : ∀ call ∈ calls, call ∈ effect.1.calls ∨ call = effect.2) :
    Ordered {effect.1 with calls := calls} := by
  refine ⟨ordered.counted,ordered.apart,ordered.past,ordered.once,?_⟩
  intro call inside
  have before : Sound effect.1 call := by
    rcases members call inside with earlier | rfl
    · exact ordered.sound call earlier
    · exact sound
  have kept : ∀ name found since, Dated effect.1 name found since → Dated {effect.1 with calls := calls} name found since :=
    fun _ _ _ dated => ⟨dated.before,dated.counted,dated.later⟩
  exact sound_dated kept before

theorem mem_opened {calls : List Activity} {activity : Activity} :
    ∀ call ∈ calls ++ [activity], call ∈ calls ∨ call = activity := by
  intro call inside
  rwa [List.mem_append,List.mem_singleton] at inside

theorem settled_opened (ordered : Ordered registry) {effect : Registry objects floats × Activity}
    (settled : Settled registry effect) : Ordered (opened effect) :=
  effect_ordered _ (ordered_unmoved settled.unmoved ordered) settled.sound _ mem_opened

theorem step_ordered (registry : Registry objects floats) (turn : Turn) (ordered : Ordered registry) :
    Ordered (registry.step encode turn) := by
  cases turn with
  | registerAgent name capabilities moment now =>
      exact effect_ordered _ (register_ordered encode ordered name capabilities moment now) trivial _ mem_opened
  | deregisterAgent name now => exact settled_opened ordered (deregister_settled encode ordered name now)
  | stop now => exact settled_opened ordered (stop_settled encode ordered now)
  | resume call now =>
      change Ordered (registry.goOn encode call now)
      unfold Registry.goOn
      cases found : registry.calls[call]? with
      | none => exact ordered
      | some activity =>
          have resumed := resume_ordered encode ordered now (List.mem_of_getElem? found)
          exact effect_ordered _ resumed.1 resumed.2 _ fun _ inside => List.mem_or_eq_of_mem_set inside
  | closed call outcome =>
      change Ordered (registry.closed call outcome)
      unfold Registry.closed
      split
      next =>
        refine effect_ordered (registry,ending outcome) ordered ?_ _ fun _ inside => List.mem_or_eq_of_mem_set inside
        cases outcome <;> trivial
      next => exact ordered

theorem effect_exclusive (effect : Registry objects floats × Activity) (exclusive : Exclusive registry)
    (same : effect.1.calls = registry.calls) (once : (effect.1.removals.map Removal.serial).Nodup) (calls : List Activity)
    (members : ∀ call ∈ calls, call ∈ effect.1.calls ∨ call = effect.2) (inside : effect.2 ∈ calls) :
    Exclusive {effect.1 with calls := calls} ↔ unraised effect.2 ∧
      ∀ removal ∈ effect.1.removals, removal.serial < removal.since := by
  refine ⟨fun after => ⟨after.unraised _ inside,after.older⟩,?_⟩
  intro parts
  refine ⟨?_,once,parts.2⟩
  intro call listed
  rcases members call listed with earlier | rfl
  · exact exclusive.unraised call (same ▸ earlier)
  · exact parts.1

theorem settled_exclusive (ordered : Ordered registry) (exclusive : Exclusive registry)
    {effect : Registry objects floats × Activity} (settled : Settled registry effect) : Exclusive (opened effect) := by
  have older : ∀ removal ∈ effect.1.removals, removal.serial < removal.since := by
    rw [settled.unmoved.removals]
    exact exclusive.older
  refine (effect_exclusive _ exclusive settled.unmoved.calls (ordered_unmoved settled.unmoved ordered).once _ mem_opened ?_).mpr
    ⟨settled.unraised,older⟩
  exact List.mem_append_right _ (List.mem_singleton.mpr rfl)

theorem proceed_calls (registry : Registry objects floats) (now : Int) (names : List Text) :
    (registry.proceed encode now names).1.calls = registry.calls := by
  induction names with
  | nil =>
      unfold Registry.proceed
      split <;> rfl
  | cons name rest ih =>
      unfold Registry.proceed
      cases registry.agents.get name with
      | none => exact ih
      | some info => rfl

theorem resume_calls (registry : Registry objects floats) (now : Int) (activity : Activity) :
    (registry.resume encode now activity).1.calls = registry.calls := by
  cases activity with
  | leaving name found since rest =>
      change (registry.leave encode name since rest now).1.calls = registry.calls
      unfold Registry.leave
      cases registry.agents.get name with
      | none => rfl
      | some info =>
          cases rest with
          | none => rfl
          | some names => exact proceed_calls encode (registry.removed name since) now names
  | _ => rfl

-- Where a deregistration comes to delete.
theorem leave_exact (ordered : Ordered registry) (exclusive : Exclusive registry) (name : Text) (found since : Nat)
    (rest : Option (List Text)) (now : Int) (dated : Dated registry name found since) :
    (unraised (registry.leave encode name since rest now).2 ∧
      ∀ removal ∈ (registry.leave encode name since rest now).1.removals, removal.serial < removal.since) ↔
      registry.agents.get name ≠ none ∧ registry.latest name = found := by
  cases held : registry.agents.get name with
  | none =>
      have gone : registry.leave encode name since rest now = (registry,.raised (KeyError name)) := by
        simp only [Registry.leave,held]
      rw [gone]
      exact iff_of_false (fun parts => parts.1 _ rfl) (fun parts => parts.1 rfl)
  | some info =>
      have present : registry.agents.get name ≠ none := by simp [held]
      have gone := removed_ordered ordered name since present
      have left : unraised (registry.leave encode name since rest now).2 ∧
          (registry.leave encode name since rest now).1.removals = registry.removals ++ [⟨registry.latest name,since⟩] := by
        simp only [Registry.leave,held]
        cases rest with
        | none => exact ⟨(by intro exc same; cases same),rfl⟩
        | some names =>
            have settled := proceed_settled encode gone now names
            exact ⟨settled.unraised,settled.unmoved.removals⟩
      rw [left.2]
      refine ⟨?_,?_⟩
      · intro parts
        refine ⟨by simp,?_⟩
        have mine := parts.2 ⟨registry.latest name,since⟩ (List.mem_append_right _ (List.mem_singleton.mpr rfl))
        exact (dated.later present).resolve_right (Nat.not_le.mpr mine)
      · intro parts
        refine ⟨left.1,?_⟩
        intro removal inside
        rcases List.mem_append.mp inside with earlier | new
        · exact exclusive.older removal earlier
        · rw [List.mem_singleton.mp new]
          exact parts.2 ▸ dated.before

theorem resume_exact (ordered : Ordered registry) (exclusive : Exclusive registry) (now : Int) {activity : Activity}
    (inside : activity ∈ registry.calls) : (unraised (registry.resume encode now activity).2 ∧
      ∀ removal ∈ (registry.resume encode now activity).1.removals, removal.serial < removal.since) ↔
      ∀ name found since rest, activity = .leaving name found since rest →
        registry.agents.get name ≠ none ∧ registry.latest name = found := by
  have sound := ordered.sound activity inside
  have still := exclusive.unraised activity inside
  cases activity with
  | leaving name found since rest =>
      refine (leave_exact encode ordered exclusive name found since rest now sound).trans ⟨?_,?_⟩
      · intro kept other older start names same
        cases same
        exact kept
      · intro kept
        exact kept name found since rest rfl
  | raised exc => exact absurd rfl (still exc)
  | _ => exact iff_of_true ⟨(by intro exc same; cases same),exclusive.older⟩ (by intro _ _ _ _ same; cases same)

theorem step_exclusive (registry : Registry objects floats) (turn : Turn) (ordered : Ordered registry)
    (exclusive : Exclusive registry) : Exclusive (registry.step encode turn) ↔ KeepsRegistrations registry turn := by
  cases turn with
  | registerAgent name capabilities moment now =>
      refine iff_of_true ((effect_exclusive _ exclusive rfl exclusive.once _ mem_opened ?_).mpr ?_) trivial
      · exact List.mem_append_right _ (List.mem_singleton.mpr rfl)
      · exact ⟨(by intro exc same; cases same),exclusive.older⟩
  | deregisterAgent name now =>
      exact iff_of_true (settled_exclusive ordered exclusive (deregister_settled encode ordered name now)) trivial
  | stop now => exact iff_of_true (settled_exclusive ordered exclusive (stop_settled encode ordered now)) trivial
  | resume call now =>
      change Exclusive (registry.goOn encode call now) ↔ ∀ name found since rest,
        registry.calls[call]? = some (.leaving name found since rest) → _
      unfold Registry.goOn
      cases found : registry.calls[call]? with
      | none => exact iff_of_true exclusive (by intro _ _ _ _ same; cases same)
      | some activity =>
          have inside := List.mem_of_getElem? found
          have resumed := resume_ordered encode ordered now inside
          have same := resume_calls encode registry now activity
          have bound := (List.getElem?_eq_some_iff.mp found).1
          refine (effect_exclusive _ exclusive same resumed.1.once _ (fun _ listed => List.mem_or_eq_of_mem_set listed) ?_).trans ?_
          · exact List.mem_set (same ▸ bound) _
          · simpa only [Option.some_inj] using resume_exact encode ordered exclusive now inside
  | closed call outcome =>
      change Exclusive (registry.closed call outcome) ↔ (registry.calls[call]? = some .closing → outcome = .ok ())
      unfold Registry.closed
      split
      next found =>
        have bound := (List.getElem?_eq_some_iff.mp found).1
        refine (effect_exclusive _ exclusive rfl exclusive.once _ (fun _ listed => List.mem_or_eq_of_mem_set listed)
          (List.mem_set bound _)).trans ?_
        rw [and_iff_left exclusive.older]
        cases outcome with
        | ok done => exact iff_of_true (by intro exc same; cases same) fun _ => rfl
        | error exc => exact iff_of_false (fun calm => calm exc rfl) (fun fine => by cases fine found)
      next other => exact iff_of_true exclusive fun closing => absurd closing other
end Moves

-- A call that is resumed each time at once is the uninterrupted one.
theorem goOn_last {registry : Registry objects floats} (encode : Note → objects.Value) {front : List Activity}
    {activity : Activity} (listed : registry.calls = front ++ [activity]) (now : Int) :
    (registry.goOn encode front.length now).calls = front ++ [(registry.resume encode now activity).2] ∧
      (registry.goOn encode front.length now).world = (registry.resume encode now activity).1.world := by
  have found : registry.calls[front.length]? = some activity := by rw [listed,List.getElem?_concat_length]
  unfold Registry.goOn
  rw [found]
  refine ⟨?_,rfl⟩
  change (registry.resume encode now activity).1.calls.set front.length _ = _
  rw [resume_calls,listed,List.set_append_right _ _ (Nat.le_refl _),Nat.sub_self,List.set_cons_zero]

theorem register_uninterrupted (encode : Note → objects.Value) (registry : Registry objects floats) (name : Text)
    (capabilities : Option (List Text)) (clock : Nat → Int) (after : Int) :
    (run (Registry.step encode) registry [.registerAgent name capabilities (clock 0) (clock 1),
      .resume registry.calls.length (clock 2),.resume registry.calls.length after]).world =
      registry.world.registerAgent encode name capabilities clock := by
  have listed : (registry.step encode (.registerAgent name capabilities (clock 0) (clock 1))).calls =
      registry.calls ++ [.registering name registry.made (capabilities.getD [])] := rfl
  have described := goOn_last encode listed (clock 2)
  have announced := goOn_last encode described.1 after
  refine announced.2.trans ?_
  change World.publish _ _ _ _ = _
  rw [described.2]
  rfl

theorem deregister_uninterrupted (encode : Note → objects.Value) (registry : Registry objects floats) (name : Text)
    (info : AgentInfo) (found : registry.agents.get name = some info) (now after : Int) :
    (run (Registry.step encode) registry [.deregisterAgent name now,.resume registry.calls.length after,
      .resume registry.calls.length after]).world = (registry.world.deregisterAgent encode name now).1 := by
  have opens : registry.step encode (.deregisterAgent name now) = opened (registry.depart encode name info none now) := by
    change opened (registry.deregister encode name now) = _
    unfold Registry.deregister
    rw [found]
  have listed : (opened (registry.depart encode name info none now)).calls =
      registry.calls ++ [.deregistering name (registry.latest name) registry.made none] := rfl
  have departed := goOn_last encode listed after
  have left := goOn_last encode departed.1 after
  have held : (Registry.goOn encode (opened (registry.depart encode name info none now)) registry.calls.length after).agents.get
      name = some {info with status := .stopping} := by
    unfold Registry.agents
    rw [departed.2]
    change (World.publish _ _ _ _).coordinator.agents.get name = _
    rw [publish_coordinator]
    change (World.onState _ _ _ _ _ _).coordinator.agents.get name = _
    rw [onState_agents]
    exact get_set_same _ name _
  rw [run_cons,opens]
  refine left.2.trans ?_
  change (Registry.leave _ encode name _ none after).1.world = _
  unfold Registry.leave
  rw [held]
  unfold World.deregisterAgent
  rw [show registry.world.coordinator.agents.get name = some info from found]
  change World.withAgents (Registry.world _) (Dict.erase (Registry.world _).coordinator.agents name) = _
  rw [departed.2]
  rfl

theorem init_exclusive (singletons given : Components objects floats) (started : Bool) :
    Exclusive (Registry.init singletons given started) := by
  refine ⟨?_,List.nodup_nil,?_⟩
  · intro call inside
    cases inside
  · intro removal inside
    cases inside

theorem deregistration_exclusive_exact (encode : Note → objects.Value) (singletons given : Components objects floats)
    (started : Bool) (turns : List Turn) :
    Throughout (Registry.step encode) Exclusive (Registry.init singletons given started) turns ↔
      Steps (Registry.step encode) KeepsRegistrations (Registry.init singletons given started) turns := by
  have fits := steps_invariant (step_ordered encode) _ turns (init_ordered singletons given started)
  rw [throughout_exact (step_exclusive encode) (Registry.init singletons given started) turns fits]
  exact and_iff_right (init_exclusive singletons given started)

-- Both deregistrations find the agent before either deletes it.
theorem second_deregistration_raises : ¬ Throughout (Registry.step fun _ => none) Exclusive
    (Registry.init newComponents newComponents true)
    [.registerAgent ['a'] none 0 0,.deregisterAgent ['a'] 0,.deregisterAgent ['a'] 0,.resume 1 0,.resume 1 0,.resume 2 0,
      .resume 2 0] := by
  intro always
  have raised : (run (Registry.step fun _ => none) (Registry.init newComponents newComponents true)
      [.registerAgent ['a'] none 0 0,.deregisterAgent ['a'] 0,.deregisterAgent ['a'] 0,.resume 1 0,.resume 1 0,.resume 2 0,
        .resume 2 0]).calls[2]? = some (.raised (KeyError ['a'])) := rfl
  exact (throughout_end always).unraised _ (List.mem_of_getElem? raised) _ rfl

end Kryvaracode.Coordination
