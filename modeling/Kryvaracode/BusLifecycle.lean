import Kryvaracode.MessageBus
import Kryvaracode.Runs

namespace Kryvaracode.Messages
open JsonText InsertionDict Runs

-- A fan-out as its awaits divide it: on to the next subscription to be called.
inductive Sought where
  | done
  | found (place : Place) (rest : List Place)
  | broken (exc : Failure) (rest : List Place)

def seek (turn : Nat) (message : Message) : List Place → Sought
  | [] => .done
  | place :: rest =>
      match verdict turn message place with
      | .passed => seek turn message rest
      | .wanted => .found place rest
      | .broken exc => .broken exc rest

theorem fanOut_seek (turn : Nat) (message : Message) (places : List Place) : fanOut turn message places =
    match seek turn message places with
    | .done => ([],none)
    | .found place rest => (⟨turn,place.index⟩ :: (fanOut turn message rest).1,(fanOut turn message rest).2)
    | .broken exc _ => ([],some exc) := by
  induction places with
  | nil => rfl
  | cons place rest ih =>
      rw [fanOut_cons,seek]
      cases verdict turn message place with
      | passed => exact ih
      | wanted => rfl
      | broken exc => rfl

inductive Phase where
  | fresh
  | waiting
  | calling (turn : Nat) (message : Message) (rest : List Place)
  | ended
  | crashed (exc : Failure)

-- A task of the dispatch loop, and whether a cancellation is under way to it.
structure Loop where
  phase : Phase
  cancelled : Bool

structure World where
  bus : MessageBus
  published : List Message
  taken : Nat
  offered : List Delivery
  loops : List Loop
  dispatchTask : Option Nat
  stops : List Nat

-- A cancellation reaches a callback as an exception at its await: the callback
-- may swallow it and go on, or let it through.
inductive Label where
  | publish (message : Message)
  | start
  | stop
  | begin (task : Nat)
  | take (task : Nat)
  | finish (task : Nat)
  | swallow (task : Nat)
  | cancelled (task : Nat)
  | escape (task : Nat)
  | resumeStop (task : Nat)

def Phase.finished : Phase → Bool
  | .ended | .crashed _ => true
  | .fresh | .waiting | .calling _ _ _ => false

namespace World

def init (bus : MessageBus) : World := ⟨{bus with running := false},bus.queue,0,[],[],none,[]⟩

variable (world : World)

def update (task : Nat) (loop : Loop) : World := {world with loops := world.loops.set task loop}

def around : Phase := if world.bus.running then .waiting else .ended

def advance (task turn : Nat) (message : Message) (places : List Place) : World :=
  match seek turn message places with
  | .done => world.update task ⟨world.around,false⟩
  | .found place rest =>
      {world.update task ⟨.calling turn message rest,false⟩ with offered := world.offered ++ [⟨turn,place.index⟩]}
  | .broken exc _ => world.update task ⟨.crashed exc,false⟩

def start : World :=
  if world.bus.running then world
  else {world with
    bus := {world.bus with running := true}
    loops := world.loops ++ [⟨.fresh,false⟩]
    dispatchTask := some world.loops.length}

def stop : World :=
  let halted := {world with bus := {world.bus with running := false}}
  match world.dispatchTask with
  | none => halted
  | some task => {halted with
      loops := world.loops.modify task fun loop => {loop with cancelled := true}
      stops := world.stops ++ [task]}

-- `get` hands out the oldest message.
def popped (message : Message) (rest : List Message) : World :=
  {world with bus := {world.bus.record message with queue := rest},taken := world.taken + 1}

def take (task : Nat) : World :=
  match world.loops[task]?,world.bus.queue with
  | some ⟨.waiting,false⟩,message :: rest => (world.popped message rest).advance task world.taken message world.bus.places
  | _,_ => world

def finish (task : Nat) : World :=
  match world.loops[task]? with
  | some ⟨.calling turn message rest,false⟩ => world.advance task turn message rest
  | _ => world

-- At the queue the loop ends on a cancellation, before its first step it never runs.
def cancel (task : Nat) : World :=
  match world.loops[task]? with
  | some ⟨phase,true⟩ => if phase.finished then world else world.update task ⟨.ended,true⟩
  | _ => world

def resumeStop (task : Nat) : World :=
  match world.loops[task]? with
  | some ⟨.ended,_⟩ =>
      if task ∈ world.stops then {world with stops := world.stops.erase task,dispatchTask := none} else world
  | some ⟨.crashed _,_⟩ =>
      if task ∈ world.stops then {world with stops := world.stops.erase task} else world
  | _ => world

def step : Label → World
  | .publish message => {world with bus := world.bus.publish message,published := world.published ++ [message]}
  | .start => world.start
  | .stop => world.stop
  | .begin task =>
      match world.loops[task]? with
      | some ⟨.fresh,false⟩ => world.update task ⟨world.around,false⟩
      | _ => world
  | .take task => world.take task
  | .finish task => world.finish task
  | .swallow task =>
      match world.loops[task]? with
      | some ⟨.calling turn message rest,true⟩ => world.update task ⟨.calling turn message rest,false⟩
      | _ => world
  | .cancelled task => world.cancel task
  | .escape task =>
      match world.loops[task]? with
      | some ⟨.calling _ _ _,flag⟩ => world.update task ⟨.ended,flag⟩
      | _ => world
  | .resumeStop task => world.resumeStop task

end World

def Stopped (world : World) : Prop := world.bus.running = false ∧ world.stops = []

-- Each message is in the queue still, or every subscription it is for was called.
def NothingLost (world : World) : Prop :=
  world.bus.queue = world.published.drop world.taken ∧
    ∀ turn message, world.published[turn]? = some message → world.taken ≤ turn ∨
      ∀ place ∈ world.bus.places, due turn message place = true → Delivery.mk turn place.index ∈ world.offered

def unreached (turn : Nat) (message : Message) (places : List Place) : Prop :=
  ∃ place ∈ places, due turn message place = true

def breaksOff (turn : Nat) (message : Message) (places : List Place) : Prop :=
  ∃ exc rest, seek turn message places = .broken exc rest ∧ unreached turn message rest

def KeepsMessages (world : World) : Label → Prop
  | .start => world.bus.running = true ∨ world.stops = []
  | .take task => world.loops[task]? = some ⟨.waiting,false⟩ → ∀ message ∈ world.bus.queue.head?,
      ¬ breaksOff world.taken message world.bus.places
  | .finish task => ∀ turn message rest, world.loops[task]? = some ⟨.calling turn message rest,false⟩ →
      ¬ breaksOff turn message rest
  | .cancelled task => ∀ turn message rest, world.loops[task]? = some ⟨.calling turn message rest,true⟩ →
      ¬ unreached turn message rest
  | .escape task => ∀ turn message rest flag, world.loops[task]? = some ⟨.calling turn message rest,flag⟩ →
      ¬ unreached turn message rest
  | .publish _ | .stop | .begin _ | .swallow _ | .resumeStop _ => True

def live (loops : List Loop) (task : Nat) : Prop :=
  ∃ loop, loops[task]? = some loop ∧ loop.phase.finished = false

def busy (loops : List Loop) (turn : Nat) (message : Message) (place : Place) : Prop :=
  ∃ (task : Nat) (rest : List Place) (flag : Bool), loops[task]? = some ⟨.calling turn message rest,flag⟩ ∧ place ∈ rest

structure Managed (world : World) : Prop where
  queued : world.bus.queue = world.published.drop world.taken
  within : world.taken ≤ world.published.length
  calm : world.bus.running = true → world.stops = []
  owned : ∀ task, live world.loops task →
    world.dispatchTask = some task ∧ (world.bus.running = true ∨ task ∈ world.stops)
  awaited : ∀ task ∈ world.stops, ∀ other, live world.loops other → other = task
  kept : ∀ turn message, world.published[turn]? = some message → turn < world.taken → ∀ place ∈ world.bus.places,
    due turn message place = true → Delivery.mk turn place.index ∈ world.offered ∨ busy world.loops turn message place

theorem managed_stopped {world : World} (managed : Managed world) (stopped : Stopped world) : NothingLost world := by
  refine ⟨managed.queued,?_⟩
  intro turn message listed
  rcases Nat.lt_or_ge turn world.taken with early | late
  · refine .inr ?_
    intro place inside wanted
    rcases managed.kept turn message listed early place inside wanted with offered | running
    · exact offered
    · obtain ⟨task,rest,flag,found,_⟩ := running
      have owner := (managed.owned task ⟨_,found,rfl⟩).2
      rw [stopped.1,stopped.2] at owner
      simp at owner
  · exact .inl late

theorem init_managed (bus : MessageBus) : Managed (World.init bus) := by
  refine ⟨rfl,Nat.zero_le _,fun _ => rfl,?_,?_,?_⟩
  · intro task alive
    obtain ⟨loop,found,_⟩ := alive
    cases found
  · intro task inside
    cases inside
  · intro turn message _ early
    cases early

-- A place that is due is never passed.
theorem seek_due (other : Place) (inside : other ∈ places) (wanted : due turn message other = true) :
    match seek turn message places with
    | .done => False
    | .found place rest => other = place ∨ other ∈ rest
    | .broken _ rest => other ∈ rest := by
  induction places with
  | nil => cases inside
  | cons first rest ih =>
      rw [seek]
      rcases List.mem_cons.mp inside with rfl | later
      · rw [due] at wanted
        cases found : verdict turn message other with
        | wanted => exact .inl rfl
        | passed => simp [found] at wanted
        | broken exc => simp [found] at wanted
      · cases verdict turn message first with
        | passed => exact ih later
        | wanted => exact .inr later
        | broken exc => exact later

theorem seek_done (none : seek turn message places = .done) : ¬ unreached turn message places := by
  intro lost
  obtain ⟨place,inside,wanted⟩ := lost
  have reached := seek_due place inside wanted
  rwa [none] at reached

theorem seek_found (next : seek turn message places = .found place rest) (other : Place) (inside : other ∈ places)
    (wanted : due turn message other = true) : other = place ∨ other ∈ rest := by
  have reached := seek_due other inside wanted
  rwa [next] at reached

theorem seek_broken (failed : seek turn message places = .broken exc rest) (other : Place) (inside : other ∈ places)
    (wanted : due turn message other = true) : other ∈ rest := by
  have reached := seek_due other inside wanted
  rwa [failed] at reached

theorem set_live {loops : List Loop} {task : Nat} {old next : Loop} (found : loops[task]? = some old)
    (alive : next.phase.finished = false → old.phase.finished = false) (other : Nat)
    (lives : live (loops.set task next) other) : live loops other := by
  obtain ⟨loop,held,moving⟩ := lives
  rw [List.getElem?_set] at held
  split at held
  next same =>
    subst same
    split at held
    next =>
      cases held
      exact ⟨old,found,alive moving⟩
    next => cases held
  next => exact ⟨loop,held,moving⟩

theorem set_busy {loops : List Loop} {task : Nat} {old next : Loop} (found : loops[task]? = some old)
    (offered : List Delivery) {turn : Nat} {message : Message} {place : Place} (running : busy loops turn message place)
    (still : ∀ rest flag, old = ⟨.calling turn message rest,flag⟩ → place ∈ rest →
      Delivery.mk turn place.index ∈ offered ∨ ∃ rest' flag', next = ⟨.calling turn message rest',flag'⟩ ∧ place ∈ rest') :
    Delivery.mk turn place.index ∈ offered ∨ busy (loops.set task next) turn message place := by
  obtain ⟨other,rest,flag,held,inside⟩ := running
  have bound := (List.getElem?_eq_some_iff.mp found).1
  by_cases same : other = task
  · subst same
    rw [found,Option.some.injEq] at held
    rcases still rest flag held inside with known | calling
    · exact .inl known
    · obtain ⟨rest',flag',shape,later⟩ := calling
      refine .inr ⟨other,rest',flag',?_,later⟩
      rw [← shape]
      exact List.getElem?_set_self bound
  · refine .inr ⟨other,rest,flag,?_,inside⟩
    exact (List.getElem?_set_ne (Ne.symm same)).trans held

-- One loop moves on and what it had still to call is called or left to it.
theorem update_managed {world : World} (managed : Managed world) {task : Nat} {old next : Loop}
    (found : world.loops[task]? = some old) (alive : next.phase.finished = false → old.phase.finished = false)
    (offered : List Delivery) (grown : ∀ delivery ∈ world.offered, delivery ∈ offered)
    (still : ∀ turn message rest flag, old = ⟨.calling turn message rest,flag⟩ → ∀ place ∈ rest,
      due turn message place = true → Delivery.mk turn place.index ∈ offered ∨
        ∃ rest' flag', next = ⟨.calling turn message rest',flag'⟩ ∧ place ∈ rest') :
    Managed {world.update task next with offered := offered} := by
  refine ⟨managed.queued,managed.within,managed.calm,?_,?_,?_⟩
  · intro other lives
    exact managed.owned other (set_live found alive other lives)
  · intro awaited inside other lives
    exact managed.awaited awaited inside other (set_live found alive other lives)
  · intro turn message listed early place inside wanted
    rcases managed.kept turn message listed early place inside wanted with known | running
    · exact .inl (grown _ known)
    · exact set_busy found offered running fun rest flag shape here => still turn message rest flag shape place here wanted

theorem advance_managed {world : World} (managed : Managed world) {task turn : Nat} {message : Message}
    {places : List Place} (found : world.loops[task]? = some ⟨.calling turn message places,false⟩)
    (whole : ¬ breaksOff turn message places) : Managed (world.advance task turn message places) := by
  unfold World.advance
  cases next : seek turn message places with
  | done =>
      refine update_managed managed found (fun _ => rfl) world.offered (fun _ inside => inside) ?_
      intro turn' message' rest flag shape place inside wanted
      cases shape
      exact absurd ⟨place,inside,wanted⟩ (seek_done next)
  | found place rest =>
      refine update_managed managed found (fun _ => rfl) _ (fun _ inside => List.mem_append_left _ inside) ?_
      intro turn' message' rest' flag shape other inside wanted
      cases shape
      rcases seek_found next other inside wanted with rfl | later
      · exact .inl (List.mem_append_right _ List.mem_cons_self)
      · exact .inr ⟨rest,false,rfl,later⟩
  | broken exc rest =>
      refine update_managed managed found (fun _ => rfl) world.offered (fun _ inside => inside) ?_
      intro turn' message' rest' flag shape place inside wanted
      cases shape
      exact absurd ⟨exc,rest,next,place,seek_broken next place inside wanted,wanted⟩ whole

-- Taken and about to be offered to every subscription.
theorem popped_managed {world : World} (managed : Managed world) {task : Nat} {message : Message} {rest : List Message}
    (found : world.loops[task]? = some ⟨.waiting,false⟩) (queue : world.bus.queue = message :: rest) (bus : MessageBus)
    (shorter : bus.queue = rest) (running : bus.running = world.bus.running) (places : bus.places = world.bus.places) :
    Managed (World.update {world with bus := bus,taken := world.taken + 1} task
      ⟨.calling world.taken message world.bus.places,false⟩) := by
  have first := managed.queued.symm.trans queue
  have bound : world.taken < world.published.length := by
    by_contra past
    rw [List.drop_eq_nil_of_le (not_lt.mp past)] at first
    cases first
  rw [List.drop_eq_getElem_cons bound,List.cons.injEq] at first
  have alive : ∀ other, live (world.loops.set task ⟨.calling world.taken message world.bus.places,false⟩) other →
      live world.loops other := fun other lives => set_live found (fun _ => rfl) other lives
  refine ⟨shorter.trans first.2.symm,bound,fun runs => managed.calm (running ▸ runs),?_,?_,?_⟩
  · intro other lives
    have owner := managed.owned other (alive other lives)
    exact ⟨owner.1,owner.2.imp_left running.trans⟩
  · intro awaited inside other lives
    exact managed.awaited awaited inside other (alive other lives)
  · intro turn held listed early place inside wanted
    have here : place ∈ world.bus.places := places ▸ inside
    change turn < world.taken + 1 at early
    change world.published[turn]? = some held at listed
    by_cases now : turn = world.taken
    · subst now
      rw [List.getElem?_eq_getElem bound,first.1,Option.some.injEq] at listed
      subst listed
      refine .inr ⟨task,world.bus.places,false,?_,here⟩
      exact List.getElem?_set_self (List.getElem?_eq_some_iff.mp found).1
    · rcases managed.kept turn held listed (by omega) place here wanted with known | calling
      · exact .inl known
      · refine set_busy found world.offered calling ?_
        intro _ _ shape
        cases shape

theorem advance_update (world : World) (task turn : Nat) (message : Message) (places : List Place) (loop : Loop) :
    (world.update task loop).advance task turn message places = world.advance task turn message places := by
  unfold World.advance World.update
  cases seek turn message places <;> simp only [List.set_set,World.around]

theorem take_managed {world : World} (managed : Managed world) (task : Nat)
    (kept : KeepsMessages world (.take task)) : Managed (world.take task) := by
  unfold World.take
  split
  next message rest found queue =>
    have whole := kept found message (by rw [queue]; exact rfl)
    have popped := popped_managed managed found queue {world.bus.record message with queue := rest} rfl
      (by simp only [MessageBus.record]) (by simp only [MessageBus.places,MessageBus.record])
    rw [← advance_update _ task world.taken message world.bus.places ⟨.calling world.taken message world.bus.places,false⟩]
    refine advance_managed popped ?_ whole
    exact List.getElem?_set_self (List.getElem?_eq_some_iff.mp found).1
  next => exact managed

theorem start_managed {world : World} (managed : Managed world) (kept : KeepsMessages world .start) :
    Managed world.start := by
  unfold World.start
  cases runs : world.bus.running with
  | true => exact managed
  | false =>
      have calm : world.stops = [] := by
        refine kept.resolve_left ?_
        rw [runs]
        exact Bool.false_ne_true
      -- With no stop under way and not running, every loop has ended.
      have still : ∀ task, ¬ live world.loops task := by
        intro task lives
        have owner := (managed.owned task lives).2
        rw [runs,calm] at owner
        simp at owner
      have only : ∀ task, live (world.loops ++ [⟨.fresh,false⟩]) task → task = world.loops.length := by
        intro task lives
        obtain ⟨loop,found,moving⟩ := lives
        rcases lt_trichotomy task world.loops.length with earlier | same | past
        · rw [List.getElem?_append_left earlier] at found
          exact absurd ⟨loop,found,moving⟩ (still task)
        · exact same
        · rw [List.getElem?_eq_none (by simp; omega)] at found
          cases found
      refine ⟨managed.queued,managed.within,fun _ => calm,?_,?_,?_⟩
      · intro task lives
        exact ⟨congrArg some (only task lives).symm,.inl rfl⟩
      · intro task inside
        change task ∈ world.stops at inside
        rw [calm] at inside
        cases inside
      · intro turn message listed early place inside wanted
        rcases managed.kept turn message listed early place inside wanted with known | running
        · exact .inl known
        · obtain ⟨task,rest,flag,found,_⟩ := running
          exact absurd ⟨_,found,rfl⟩ (still task)

theorem stop_managed {world : World} (managed : Managed world) : Managed world.stop := by
  unfold World.stop
  cases owner : world.dispatchTask with
  | none =>
      have still : ∀ task, ¬ live world.loops task := by
        intro task lives
        have mine := (managed.owned task lives).1
        rw [owner] at mine
        cases mine
      exact ⟨managed.queued,managed.within,nofun,fun task lives => absurd lives (still task),managed.awaited,managed.kept⟩
  | some task =>
      -- A cancellation is noted on the loop, which goes on as it was.
      have flagged : ∀ (other : Nat) (loop : Loop), (world.loops.modify task fun loop => {loop with cancelled := true})[other]? = some loop →
          ∃ old, world.loops[other]? = some old ∧ old.phase = loop.phase := by
        intro other loop found
        rw [List.getElem?_modify,Option.map_eq_map,Option.map_eq_some_iff] at found
        obtain ⟨old,held,rfl⟩ := found
        refine ⟨old,held,?_⟩
        split <;> rfl
      have alive : ∀ other, live (world.loops.modify task fun loop => {loop with cancelled := true}) other →
          live world.loops other := by
        intro other lives
        obtain ⟨loop,found,moving⟩ := lives
        obtain ⟨old,held,same⟩ := flagged other loop found
        exact ⟨old,held,same ▸ moving⟩
      have only : ∀ other, live world.loops other → other = task := by
        intro other lives
        exact Option.some.inj ((managed.owned other lives).1.symm.trans owner)
      refine ⟨managed.queued,managed.within,nofun,?_,?_,?_⟩
      · intro other lives
        have same := only other (alive other lives)
        exact ⟨congrArg some same.symm,.inr (List.mem_append_right _ (List.mem_singleton.mpr same))⟩
      · intro awaited inside other lives
        rcases List.mem_append.mp inside with earlier | new
        · exact managed.awaited awaited earlier other (alive other lives)
        · exact (only other (alive other lives)).trans (List.mem_singleton.mp new).symm
      · intro turn message listed early place inside wanted
        rcases managed.kept turn message listed early place inside wanted with known | calling
        · exact .inl known
        · obtain ⟨other,rest,flag,found,later⟩ := calling
          refine .inr ⟨other,rest,if task = other then true else flag,?_,later⟩
          rw [List.getElem?_modify,found]
          by_cases same : task = other
          · simp [same]
          · simp [same]

theorem awaited_ended {world : World} (managed : Managed world) {task : Nat} {loop : Loop}
    (found : world.loops[task]? = some loop) (done : loop.phase.finished = true) (inside : task ∈ world.stops) (other : Nat) :
    ¬ live world.loops other := by
  intro lives
  have same := managed.awaited task inside other lives
  subst same
  obtain ⟨held,here,moving⟩ := lives
  rw [found,Option.some.injEq] at here
  subst here
  rw [done] at moving
  cases moving

theorem resumeStop_managed {world : World} (managed : Managed world) (task : Nat) : Managed (world.resumeStop task) := by
  unfold World.resumeStop
  have fewer : world.bus.running = true → world.stops.erase task = [] := by
    intro runs
    rw [managed.calm runs]
    rfl
  split
  next flag found =>
    split
    next inside =>
      have still := awaited_ended managed found rfl inside
      exact ⟨managed.queued,managed.within,fewer,fun other lives => absurd lives (still other),
        fun _ _ other lives => absurd lives (still other),managed.kept⟩
    next => exact managed
  next exc flag found =>
    split
    next inside =>
      have still := awaited_ended managed found rfl inside
      exact ⟨managed.queued,managed.within,fewer,fun other lives => absurd lives (still other),
        fun _ _ other lives => absurd lives (still other),managed.kept⟩
    next => exact managed
  next => exact managed

theorem publish_managed {world : World} (managed : Managed world) (message : Message) :
    Managed (world.step (.publish message)) := by
  refine ⟨?_,?_,managed.calm,managed.owned,managed.awaited,?_⟩
  · change world.bus.queue ++ [message] = (world.published ++ [message]).drop world.taken
    rw [List.drop_append_of_le_length managed.within,managed.queued]
  · change world.taken ≤ (world.published ++ [message]).length
    rw [List.length_append]
    exact Nat.le_add_right_of_le managed.within
  · intro turn held listed early
    change (world.published ++ [message])[turn]? = some held at listed
    rw [List.getElem?_append_left (Nat.lt_of_lt_of_le early managed.within)] at listed
    exact managed.kept turn held listed early

theorem ended_managed {world : World} (managed : Managed world) {task : Nat} {old : Loop} (flag : Bool)
    (found : world.loops[task]? = some old) (whole : ∀ turn message rest flag, old = ⟨.calling turn message rest,flag⟩ →
      ¬ unreached turn message rest) : Managed (world.update task ⟨.ended,flag⟩) := by
  refine update_managed managed found (fun moving => by cases moving) world.offered (fun _ inside => inside) ?_
  intro turn message rest flag shape place inside wanted
  exact absurd ⟨place,inside,wanted⟩ (whole turn message rest flag shape)

theorem step_managed (world : World) (label : Label) (managed : Managed world) (kept : KeepsMessages world label) :
    Managed (world.step label) := by
  cases label with
  | publish message => exact publish_managed managed message
  | start => exact start_managed managed kept
  | stop => exact stop_managed managed
  | begin task =>
      simp only [World.step]
      split
      next found =>
        refine update_managed managed found (fun _ => rfl) world.offered (fun _ inside => inside) ?_
        intro _ _ _ _ shape
        cases shape
      next => exact managed
  | take task => exact take_managed managed task kept
  | finish task =>
      simp only [World.step,World.finish]
      split
      next turn message rest found => exact advance_managed managed found (kept turn message rest found)
      next => exact managed
  | swallow task =>
      simp only [World.step]
      split
      next turn message rest found =>
        refine update_managed managed found (fun _ => rfl) world.offered (fun _ inside => inside) ?_
        intro _ _ _ _ shape place inside _
        cases shape
        exact .inr ⟨rest,false,rfl,inside⟩
      next => exact managed
  | cancelled task =>
      simp only [World.step,World.cancel]
      split
      next phase found =>
        split
        next => exact managed
        next =>
          refine ended_managed managed true found ?_
          intro turn message rest flag shape
          cases shape
          exact kept turn message rest found
      next => exact managed
  | escape task =>
      simp only [World.step]
      split
      next turn message rest flag found =>
        refine ended_managed managed flag found ?_
        intro _ _ _ _ shape
        cases shape
        exact kept turn message rest flag found
      next => exact managed
  | resumeStop task => exact resumeStop_managed managed task

theorem stopping_loses_nothing (bus : MessageBus) (labels : List Label)
    (kept : Steps World.step KeepsMessages (World.init bus) labels) :
    Throughout World.step (fun world => Stopped world → NothingLost world) (World.init bus) labels := by
  have always := throughout_invariant step_managed (World.init bus) labels (init_managed bus) kept
  intro front early stopped
  exact managed_stopped (always front early) stopped

def listener (subscriberId : Text) (bus : MessageBus) : MessageBus := bus.subscribe subscriberId ['*'] (fun _ _ => .ok ()) none

def greeting : Message := ⟨['t'],['s'],[],.system⟩

-- Stopped while the callback of its last subscription is suspended.
def stoppedInCallback : List Label :=
  [.start,.publish greeting,.begin 0,.take 0,.stop,.cancelled 0,.resumeStop 0]

theorem stopping_loses_nothing_alone :
    Steps World.step KeepsMessages (World.init (listener ['x'] .init)) stoppedInCallback ∧
      Throughout World.step (fun world => Stopped world → NothingLost world) (World.init (listener ['x'] .init))
        stoppedInCallback := by
  have kept : Steps World.step KeepsMessages (World.init (listener ['x'] .init)) stoppedInCallback := by
    refine ⟨.inr rfl,trivial,trivial,?_,trivial,?_,trivial,trivial⟩
    · intro _ message first broken
      obtain ⟨exc,rest,failed,place,inside,_⟩ := broken
      cases first
      cases failed
    · intro turn message rest found lost
      obtain ⟨place,inside,_⟩ := lost
      cases found
      cases inside
  exact ⟨kept,stopping_loses_nothing _ stoppedInCallback kept⟩

-- With a second subscription behind the first, the message never comes to it.
theorem stopping_loses_second : ¬ Throughout World.step (fun world => Stopped world → NothingLost world)
    (World.init (listener ['y'] (listener ['x'] .init))) stoppedInCallback := by
  intro always
  have ended := (throughout_end always ⟨rfl,rfl⟩).2 0 greeting rfl
  rcases ended with queued | offered
  · revert queued
    decide
  · have listed : Place.mk 1 ['*'] ⟨['y'],['*'],fun _ _ => .ok (),none⟩ ∈
        (World.init (listener ['y'] (listener ['x'] .init))).bus.places := List.mem_cons_of_mem _ List.mem_cons_self
    have lost := offered _ listed rfl
    revert lost
    decide

end Kryvaracode.Messages
