import Kryvaracode.StateReplay

namespace Kryvaracode.StateStore
open InsertionDict Runs

variable {objects : Objects}

-- What a task, or an observer in its turn, calls on the store: no time to live.
inductive Use (objects : Objects) where
  | set (key : Text) (value : objects.Value) (source : Text)
  | delete (key source : Text)
  | atomicUpdate (key : Text) (updaterFn : objects.Value → Result objects.Value) (source : Text)
  | compareAndSet (key : Text) (expected newValue : objects.Value) (source : Text)
  | get (key : Text)
  | getEntry (key : Text)
  | exists (key : Text)

def Use.op : Use objects → KeyOp objects
  | .set key value source => .set key value source none
  | .delete key source => .delete key source
  | .atomicUpdate key updaterFn source => .atomicUpdate key updaterFn source
  | .compareAndSet key expected newValue source => .compareAndSet key expected newValue source
  | .get key => .get key
  | .getEntry key => .getEntry key
  | .exists key => .exists key

def Use.kind : Use objects → StateChangeType
  | .delete _ _ => .delete
  | .set _ _ _ | .atomicUpdate _ _ _ | .compareAndSet _ _ _ _ | .get _ | .getEntry _ | .exists _ => .set

-- A mutation succeeds on what is held under its key.
def Use.Succeeds (held : Option (StateEntry objects)) : Use objects → Prop
  | .set _ _ _ => True
  | .delete _ _ => held ≠ none
  | .atomicUpdate _ updaterFn _ => ∃ entry newValue, held = some entry ∧ updaterFn entry.value = .ok newValue
  | .compareAndSet _ expected _ _ => ∃ entry, held = some entry ∧ objects.differs entry.value expected = .ok false
  | .get _ | .getEntry _ | .exists _ => False

def Change.event (key : Text) : Change objects → Option (StateChangeEvent objects)
  | .keep | .drop => none
  | .write entry oldValue source => some ⟨.set,key,entry.value,oldValue,entry.version,source⟩
  | .remove event => some event

-- A call past its lock: it awaits its observers one after the other.
inductive Progress (objects : Objects) where
  | notifying (event : StateChangeEvent objects) (rest : List Nat) (answer : Answer objects)
  | returned (answer : Answer objects)
  | cancelled

inductive Reaction where
  | returned
  | raised (exc : Failure)
  | cancelled

structure Traffic (objects : Objects) where
  shared : SharedState objects
  calls : List (Progress objects)

inductive Move (objects : Objects) where
  | call (use : Use objects) (check stamp : Int)
  | react (call : Nat) (reaction : Reaction)

namespace Traffic

def init (observers : List Nat) : Traffic objects := ⟨{SharedState.init with observers := observers},[]⟩

def notify (event : StateChangeEvent objects) (answer : Answer objects) : List Nat → Progress objects
  | [] => .returned answer
  | first :: rest => .notifying event (first :: rest) answer

def course (traffic : Traffic objects) (use : Use objects) (check stamp : Int) : Change objects × Answer objects :=
  StateStore.course use.op check stamp (traffic.shared.store.get use.op.key)

def call (traffic : Traffic objects) (use : Use objects) (check stamp : Int) : Traffic objects :=
  let done := perform use.op check stamp traffic.shared
  let progress := match (traffic.course use check stamp).1.event use.op.key with
    | none => .returned done.2
    | some event => notify event done.2 traffic.shared.observers
  ⟨done.1,traffic.calls ++ [progress]⟩

-- An exception of an observer is logged; a cancellation ends the call itself.
def react (traffic : Traffic objects) (call : Nat) (reaction : Reaction) : Traffic objects :=
  match traffic.calls[call]?,reaction with
  | some (.notifying _ _ _),.cancelled => {traffic with calls := traffic.calls.set call .cancelled}
  | some (.notifying event (_ :: rest) answer),.returned | some (.notifying event (_ :: rest) answer),.raised _ =>
      {traffic with calls := traffic.calls.set call (notify event answer rest)}
  | _,_ => traffic

def step (traffic : Traffic objects) : Move objects → Traffic objects
  | .call use check stamp => traffic.call use check stamp
  | .react call reaction => traffic.react call reaction

end Traffic

def extended (key : Text) (chain : List (StateChangeEvent objects)) (event : StateChangeEvent objects) :
    List (StateChangeEvent objects) :=
  if event.key = key then
    match event.changeType with
    | .set => chain ++ [event]
    | .delete => []
    | .expired => chain
  else chain

-- The SET events of a key since its last DELETE, in the order of the log.
def sinceDelete (key : Text) (log : List (StateChangeEvent objects)) : List (StateChangeEvent objects) :=
  log.foldl (extended key) []

structure Chained (chain : List (StateChangeEvent objects)) (held : Option (StateEntry objects)) : Prop where
  versions : chain.map StateChangeEvent.version = List.range' 1 chain.length
  previous : chain.map StateChangeEvent.oldValue = (objects.none :: chain.map StateChangeEvent.value).dropLast
  last : chain.getLast?.map (fun event => (event.value,event.version)) = held.map fun entry => (entry.value,entry.version)

def Linear (traffic : Traffic objects) : Prop :=
  traffic.shared.changeLog.length < SharedState.maxlen →
    ∀ key, Chained (sinceDelete key traffic.shared.changeLog) (traffic.shared.store.get key)

-- One event for a mutation that succeeds, and nothing at all of one that fails.
def Accounted (traffic : Traffic objects) : Move objects → Prop
  | .call use check stamp =>
      let after := (traffic.call use check stamp).shared
      let held := traffic.shared.store.get use.op.key
      (use.Succeeds held → after.changeLog.length < SharedState.maxlen → ∃ event : StateChangeEvent objects,
        event.key = use.op.key ∧ event.changeType = use.kind ∧ after.changeLog = traffic.shared.changeLog ++ [event]) ∧
        (¬ use.Succeeds held → after = traffic.shared)
  | .react call reaction => (traffic.react call reaction).shared = traffic.shared

def untimed (held : Option (StateEntry objects)) : Prop := ∀ entry, held = some entry → entry.ttlSeconds = none

-- What a mutation that succeeds comes to, with all a chain has to know of it.
inductive Effective (use : Use objects) (held : Option (StateEntry objects)) : Change objects → Prop where
  | write (source : Text) (kind : use.kind = .set) (entry : StateEntry objects)
      (next : entry.version = (held.map StateEntry.version).getD 0 + 1) (lasting : entry.ttlSeconds = none) :
      Effective use held (.write entry ((held.map StateEntry.value).getD objects.none) source)
  | remove (event : StateChangeEvent objects) (kind : use.kind = .delete) (same : event.changeType = .delete)
      (about : event.key = use.op.key) : Effective use held (.remove event)

theorem look_untimed (check : Int) (missing : Answer objects) (found : StateEntry objects → Change objects × Answer objects)
    (held : Option (StateEntry objects)) (lasting : untimed held) :
    look check missing found held = held.elim (.keep,missing) found := by
  cases held with
  | none => rfl
  | some entry =>
      have fresh : isExpired check entry = false := by simp [isExpired,lasting entry rfl]
      simp [look,fresh]

theorem failed_keeps (use : Use objects) (check stamp : Int) (held : Option (StateEntry objects)) (lasting : untimed held)
    (fails : ¬ use.Succeeds held) : (course use.op check stamp held).1 = .keep := by
  cases use with
  | set key value source => exact absurd trivial fails
  | delete key source =>
      cases held with
      | none => rfl
      | some entry => exact absurd (Option.some_ne_none entry) fails
  | atomicUpdate key updaterFn source =>
      simp only [Use.op,course,look_untimed check _ _ held lasting]
      cases held with
      | none => rfl
      | some entry =>
          dsimp only [Option.elim]
          cases outcome : updaterFn entry.value with
          | error exc => rfl
          | ok newValue => exact absurd ⟨entry,newValue,rfl,outcome⟩ fails
  | compareAndSet key expected newValue source =>
      simp only [Use.op,course,look_untimed check _ _ held lasting]
      cases held with
      | none => rfl
      | some entry =>
          dsimp only [Option.elim]
          cases outcome : objects.differs entry.value expected with
          | error exc => rfl
          | ok differs =>
              cases differs with
              | true => rfl
              | false => exact absurd ⟨entry,rfl,outcome⟩ fails
  | get key =>
      simp only [Use.op,course,look_untimed check _ _ held lasting]
      cases held <;> rfl
  | getEntry key =>
      simp only [Use.op,course,look_untimed check _ _ held lasting]
      cases held <;> rfl
  | «exists» key =>
      simp only [Use.op,course,look_untimed check _ _ held lasting]
      cases held <;> rfl

theorem succeeded_effective (use : Use objects) (check stamp : Int) (held : Option (StateEntry objects)) (lasting : untimed held)
    (succeeds : use.Succeeds held) : Effective use held (course use.op check stamp held).1 := by
  cases use with
  | set key value source =>
      cases held with
      | none => exact .write source rfl _ rfl rfl
      | some old => exact .write source rfl _ rfl (lasting old rfl)
  | delete key source =>
      cases held with
      | none => exact absurd rfl succeeds
      | some old => exact .remove _ rfl rfl rfl
  | atomicUpdate key updaterFn source =>
      obtain ⟨entry,newValue,rfl,outcome⟩ := succeeds
      simp only [Use.op,course,look_untimed check _ _ _ lasting,Option.elim,outcome]
      exact .write source rfl _ rfl (lasting entry rfl)
  | compareAndSet key expected newValue source =>
      obtain ⟨entry,rfl,outcome⟩ := succeeds
      simp only [Use.op,course,look_untimed check _ _ _ lasting,Option.elim,outcome]
      exact .write source rfl _ rfl (lasting entry rfl)
  | get key => exact succeeds.elim
  | getEntry key => exact succeeds.elim
  | «exists» key => exact succeeds.elim

theorem sinceDelete_append (key : Text) (log : List (StateChangeEvent objects)) (event : StateChangeEvent objects) :
    sinceDelete key (log ++ [event]) = extended key (sinceDelete key log) event := by
  rw [sinceDelete,List.foldl_append]
  rfl

section Chains
variable {chain : List (StateChangeEvent objects)} {held : Option (StateEntry objects)}

theorem chained_empty : Chained ([] : List (StateChangeEvent objects)) none := ⟨rfl,rfl,rfl⟩

theorem chained_version (chained : Chained chain held) : (held.map StateEntry.version).getD 0 = chain.length := by
  have last := congrArg (fun shown => (shown.map Prod.snd).getD 0) chained.last
  simp only [Option.map_map,Function.comp_def] at last
  rw [← last]
  cases chain using List.reverseRecOn with
  | nil => rfl
  | append_singleton front event =>
      have versions := chained.versions
      rw [List.map_append,List.length_append,List.length_singleton,List.range'_1_concat] at versions
      have final := (List.append_inj' versions rfl).2
      rw [List.map_singleton,List.singleton_inj] at final
      rw [List.getLast?_concat,Option.map_some,Option.getD_some,final,List.length_append,List.length_singleton,Nat.add_comm]

theorem chained_value (chained : Chained chain held) :
    (objects.none :: chain.map StateChangeEvent.value).getLast? = some ((held.map StateEntry.value).getD objects.none) := by
  have last := congrArg (fun shown => (shown.map Prod.fst).getD objects.none) chained.last
  simp only [Option.map_map,Function.comp_def] at last
  rw [List.getLast?_cons,List.getLast?_map,← last]

theorem chained_append (chained : Chained chain held) (event : StateChangeEvent objects) (entry : StateEntry objects)
    (next : event.version = (held.map StateEntry.version).getD 0 + 1)
    (old : event.oldValue = (held.map StateEntry.value).getD objects.none)
    (shown : (event.value,event.version) = (entry.value,entry.version)) : Chained (chain ++ [event]) (some entry) := by
  refine ⟨?_,?_,?_⟩
  · rw [List.map_append,chained.versions,List.length_append,List.length_singleton,List.range'_1_concat,List.map_singleton,
      next,chained_version chained,Nat.add_comm]
  · have whole := List.dropLast_append_getLast? _ (Option.mem_def.mpr (chained_value chained))
    rw [List.map_append,chained.previous,List.map_append,List.map_singleton,List.map_singleton,old,whole,
      ← List.cons_append,List.dropLast_concat]
  · rw [List.getLast?_concat,Option.map_some,Option.map_some,shown]
end Chains

section Calls
variable {traffic : Traffic objects}

theorem call_shared (traffic : Traffic objects) (use : Use objects) (check stamp : Int) :
    (traffic.call use check stamp).shared = (traffic.course use check stamp).1.apply traffic.shared use.op.key :=
  congrArg Prod.fst (perform_course traffic.shared use.op check stamp)

theorem call_get (traffic : Traffic objects) (use : Use objects) (check stamp : Int) (key : Text) :
    (traffic.call use check stamp).shared.store.get key =
      if key = use.op.key then (traffic.course use check stamp).1.result (traffic.shared.store.get use.op.key)
      else traffic.shared.store.get key := perform_get traffic.shared use.op check stamp key

theorem react_shared (call : Nat) (reaction : Reaction) : (traffic.react call reaction).shared = traffic.shared := by
  unfold Traffic.react
  split <;> rfl

-- What one call does to every chain, by what it does to the entry of its key.
theorem logged_linear (linear : Linear traffic) (after : SharedState objects) (key : Text) (event : StateChangeEvent objects)
    (about : event.key = key) (base : SharedState objects) (same : base.changeLog = traffic.shared.changeLog)
    (appended : after = base.append event)
    (others : ∀ other, other ≠ key → after.store.get other = traffic.shared.store.get other)
    (mine : ∀ chain, Chained chain (traffic.shared.store.get key) → Chained (extended key chain event) (after.store.get key))
    (calls : List (Progress objects)) : Linear ⟨after,calls⟩ := by
  intro short asked
  change after.changeLog.length < _ at short
  rw [appended] at short
  have log := append_short base event short
  rw [same] at log
  change Chained (sinceDelete asked after.changeLog) (after.store.get asked)
  rw [appended,log.1,sinceDelete_append,← appended]
  have before := linear log.2
  by_cases here : asked = key
  · rw [here]
    exact mine _ (before key)
  · rw [extended,if_neg (fun equal => here (equal.symm.trans about)),others asked here]
    exact before asked

theorem failed_shared (lasting : ∀ key, untimed (traffic.shared.store.get key)) (use : Use objects) (check stamp : Int)
    (fails : ¬ use.Succeeds (traffic.shared.store.get use.op.key)) : (traffic.call use check stamp).shared = traffic.shared := by
  rw [call_shared,Traffic.course,failed_keeps use check stamp _ (lasting _) fails]
  rfl

theorem succeeded_event (lasting : ∀ key, untimed (traffic.shared.store.get key)) (use : Use objects) (check stamp : Int)
    (succeeds : use.Succeeds (traffic.shared.store.get use.op.key)) : ∃ event : StateChangeEvent objects,
      event.key = use.op.key ∧ event.changeType = use.kind ∧ ∃ base : SharedState objects,
        base.changeLog = traffic.shared.changeLog ∧ (traffic.call use check stamp).shared = base.append event := by
  have effective := succeeded_effective use check stamp _ (lasting use.op.key) succeeds
  rw [call_shared,Traffic.course]
  generalize (course use.op check stamp (traffic.shared.store.get use.op.key)).1 = change at effective
  cases effective with
  | write source kind entry next lasting =>
      exact ⟨_,rfl,kind.symm,{traffic.shared with store := traffic.shared.store.set use.op.key entry},rfl,rfl⟩
  | remove event kind same about =>
      exact ⟨event,about,same.trans kind.symm,traffic.shared.deleteUnlocked use.op.key,rfl,rfl⟩

theorem call_linear (linear : Linear traffic) (lasting : ∀ key, untimed (traffic.shared.store.get key)) (use : Use objects)
    (check stamp : Int) (succeeds : use.Succeeds (traffic.shared.store.get use.op.key)) :
    Linear (traffic.call use check stamp) := by
  have effective := succeeded_effective use check stamp _ (lasting use.op.key) succeeds
  have shared := call_shared traffic use check stamp
  have stored := call_get traffic use check stamp
  have mine := (stored use.op.key).trans (if_pos rfl)
  have others : ∀ other, other ≠ use.op.key → (traffic.call use check stamp).shared.store.get other =
      traffic.shared.store.get other := fun other apart => (stored other).trans (if_neg apart)
  unfold Traffic.course at shared mine
  generalize (course use.op check stamp (traffic.shared.store.get use.op.key)).1 = change at effective shared mine
  cases effective with
  | write source kind entry next lasting =>
      refine logged_linear linear _ use.op.key _ rfl
        {traffic.shared with store := traffic.shared.store.set use.op.key entry} rfl shared others ?_ _
      intro chain chained
      rw [mine,extended,if_pos rfl]
      exact chained_append chained _ entry next rfl rfl
  | remove event kind same about =>
      refine logged_linear linear _ use.op.key event about (traffic.shared.deleteUnlocked use.op.key) rfl shared others ?_ _
      intro chain chained
      rw [mine,extended,if_pos about,same]
      exact chained_empty

theorem call_untimed (lasting : ∀ key, untimed (traffic.shared.store.get key)) (use : Use objects) (check stamp : Int)
    (succeeds : use.Succeeds (traffic.shared.store.get use.op.key)) (key : Text) :
    untimed ((traffic.call use check stamp).shared.store.get key) := by
  have effective := succeeded_effective use check stamp _ (lasting use.op.key) succeeds
  rw [call_get,Traffic.course]
  split
  next =>
    generalize (course use.op check stamp (traffic.shared.store.get use.op.key)).1 = change at effective
    intro held found
    cases effective with
    | write source kind entry next lasting => exact Option.some.inj found ▸ lasting
    | remove event kind same about => cases found
  next => exact lasting key
end Calls

structure Lawful (traffic : Traffic objects) : Prop where
  linear : Linear traffic
  lasting : ∀ key, untimed (traffic.shared.store.get key)

theorem lawful_shared {traffic : Traffic objects} (lawful : Lawful traffic) (after : Traffic objects)
    (same : after.shared = traffic.shared) : Lawful after := by
  refine ⟨?_,same ▸ lawful.lasting⟩
  unfold Linear
  rw [same]
  exact lawful.linear

theorem step_lawful (traffic : Traffic objects) (move : Move objects) (lawful : Lawful traffic) : Lawful (traffic.step move) := by
  cases move with
  | call use check stamp =>
      by_cases succeeds : use.Succeeds (traffic.shared.store.get use.op.key)
      · exact ⟨call_linear lawful.linear lawful.lasting use check stamp succeeds,
          call_untimed lawful.lasting use check stamp succeeds⟩
      · exact lawful_shared lawful _ (failed_shared lawful.lasting use check stamp succeeds)
  | react call reaction => exact lawful_shared lawful _ (react_shared call reaction)

theorem step_accounted (traffic : Traffic objects) (move : Move objects) (lawful : Lawful traffic) : Accounted traffic move := by
  cases move with
  | call use check stamp =>
      refine ⟨?_,failed_shared lawful.lasting use check stamp⟩
      intro succeeds short
      obtain ⟨event,about,kind,base,same,appended⟩ := succeeded_event lawful.lasting use check stamp succeeds
      rw [appended] at short
      exact ⟨event,about,kind,by rw [appended,(append_short base event short).1,same]⟩
  | react call reaction => exact react_shared call reaction

theorem init_lawful (observers : List Nat) : Lawful (Traffic.init observers : Traffic objects) :=
  ⟨fun _ _ => chained_empty,fun _ _ found => by cases found⟩

theorem no_lost_update (observers : List Nat) (moves : List (Move objects)) :
    Throughout Traffic.step Linear (Traffic.init observers) moves ∧
      Steps Traffic.step Accounted (Traffic.init observers) moves := by
  have always := steps_invariant step_lawful (Traffic.init observers) moves (init_lawful observers)
  have lawful := throughout_invariant (fun traffic move lawful (_ : True) => step_lawful traffic move lawful)
    (Traffic.init observers) moves (init_lawful observers) (steps_forall (fun _ _ _ => trivial) _)
  refine ⟨fun front early => (lawful front early).linear,?_⟩
  exact (steps_congr (fun traffic move fits => iff_of_true (step_accounted traffic move fits) trivial) always).mpr
    (steps_forall (fun _ _ _ => trivial) _)

end Kryvaracode.StateStore
