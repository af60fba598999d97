import Kryvaracode.BusLifecycle
import Kryvaracode.RecentItems
import Kryvaracode.StateReplay

namespace Kryvaracode.StateStore
open RecentItems Runs

variable {objects : Objects}

def SharedState.getChangeHistory (state : SharedState objects) (limit : Int) : List (StateChangeEvent objects) :=
  sliceFrom (-limit) state.changeLog

def SharedState.recorded (events : List (StateChangeEvent objects)) : SharedState objects := events.foldl append .init

-- The latest changes, among the last thousand.
def ChangeWindow (events : List (StateChangeEvent objects)) (limit : Nat) : Prop := ∃ retained,
  Window SharedState.maxlen events retained ∧ Window limit retained ((SharedState.recorded events).getChangeHistory limit)

def Change.events (key : Text) : Change objects → List (StateChangeEvent objects)
  | .write entry oldValue source => [⟨.set,key,entry.value,oldValue,entry.version,source⟩]
  | .remove event => [event]
  | .keep | .drop => []

-- What a step writes to the log.
def logged (world : World objects) : Label objects → List (StateChangeEvent objects)
  | .call op check stamp => (course op check stamp (world.shared.store.get op.key)).1.events op.key
  | .cleanupExpired readings => ((world.shared.expiredEntries readings).take 1).map SharedState.expiry
  | .resume task => (((world.pending[task]?).getD []).take 1).map SharedState.expiry
  | .keys _ | .items _ | .clear | .abort _ => []

theorem append_push (state : SharedState objects) (event : StateChangeEvent objects) :
    (state.append event).changeLog = push SharedState.maxlen state.changeLog event := by
  simp only [SharedState.append,push]

theorem append_rtake (state : SharedState objects) (event : StateChangeEvent objects) :
    (state.append event).changeLog = (state.changeLog ++ [event]).rtake SharedState.maxlen := by
  rw [append_push,push_rtake]

theorem recorded_log (events : List (StateChangeEvent objects)) :
    (SharedState.recorded events).changeLog = events.rtake SharedState.maxlen := by
  have pushes : ∀ state : SharedState objects, (events.foldl SharedState.append state).changeLog =
      events.foldl (push SharedState.maxlen) state.changeLog := by
    induction events with
    | nil => exact fun _ => rfl
    | cons event rest ih =>
        intro state
        rw [List.foldl_cons,ih (state.append event),append_push,List.foldl_cons]
  rw [SharedState.recorded,pushes]
  exact pushes_rtake SharedState.maxlen [] events (Nat.zero_le _)

theorem apply_log (state : SharedState objects) (key : Text) (change : Change objects)
    (within : state.changeLog.length ≤ SharedState.maxlen) :
    (change.apply state key).changeLog = (state.changeLog ++ change.events key).rtake SharedState.maxlen := by
  cases change with
  | keep | drop => rw [Change.events,List.append_nil,rtake_all within]; rfl
  | write entry oldValue source => exact append_rtake {state with store := state.store.set key entry} _
  | remove event => exact append_rtake (state.deleteUnlocked key) event

theorem step_log (world : World objects) (label : Label objects)
    (within : world.shared.changeLog.length ≤ SharedState.maxlen) :
    (world.step label).shared.changeLog = (world.shared.changeLog ++ logged world label).rtake SharedState.maxlen := by
  have unchanged : world.shared.changeLog = (world.shared.changeLog ++ []).rtake SharedState.maxlen := by
    rw [List.append_nil,rtake_all within]
  cases label with
  | call op check stamp =>
      change (perform op check stamp world.shared).1.changeLog = _
      rw [perform_course]
      exact apply_log world.shared op.key _ within
  | keys readings => exact unchanged
  | items readings => exact unchanged
  | clear => exact unchanged
  | abort task => exact unchanged
  | cleanupExpired readings =>
      rw [World.step,World.cleanupExpired,logged]
      cases world.shared.expiredEntries readings with
      | nil => exact unchanged
      | cons first rest => exact append_rtake (world.shared.sweepExpiredUnlocked readings) _
  | resume task =>
      rw [World.step,World.resume,logged]
      cases world.pending[task]? with
      | none => exact unchanged
      | some entries =>
          cases entries with
          | nil => exact unchanged
          | cons entry rest => exact append_rtake world.shared _

-- A run keeps the log of what it recorded.
theorem run_log (labels : List (Label objects)) : (run World.step World.init labels).shared.changeLog =
    (SharedState.recorded (addedBy World.step logged World.init labels)).changeLog := by
  rw [recorded_log]
  exact run_retained (fun world => world.shared.changeLog) step_log World.init labels (Nat.zero_le _)

theorem changeWindow_exact (events : List (StateChangeEvent objects)) (limit : Nat) :
    ChangeWindow events limit ↔ 1 ≤ limit ∨ events = [] := by
  rw [ChangeWindow,exists_window,SharedState.getChangeHistory,recorded_log,slice_window]
  apply or_congr_right
  rw [rtake_eq_nil]
  exact or_iff_right (by decide)

end Kryvaracode.StateStore

namespace Kryvaracode.Messages
open RecentItems Runs

def ofTopic (topic : Option Text) (msgs : List Message) : List Message :=
  match topic with
  | some topic => msgs.filter fun m => decide (m.topic = topic)
  | none => msgs

def MessageBus.getHistory (bus : MessageBus) (topic : Option Text) (limit : Int) : List Message :=
  sliceFrom (-limit) (ofTopic topic bus.history)

def MessageBus.recorded (messages : List Message) : MessageBus := messages.foldl record .init

-- The latest messages of a topic, among the last thousand of all topics.
def MessageWindow (messages : List Message) (topic : Option Text) (limit : Nat) : Prop := ∃ retained,
  Window MessageBus.maxlen messages retained ∧
    Window limit (ofTopic topic retained) ((MessageBus.recorded messages).getHistory topic limit)

theorem record_push (bus : MessageBus) (message : Message) :
    (bus.record message).history = push MessageBus.maxlen bus.history message := by
  simp only [MessageBus.record,push]

theorem recorded_history (messages : List Message) :
    (MessageBus.recorded messages).history = messages.rtake MessageBus.maxlen := by
  have pushes : ∀ bus : MessageBus, (messages.foldl MessageBus.record bus).history =
      messages.foldl (push MessageBus.maxlen) bus.history := by
    induction messages with
    | nil => exact fun _ => rfl
    | cons message rest ih =>
        intro bus
        rw [List.foldl_cons,ih (bus.record message),record_push,List.foldl_cons]
  rw [MessageBus.recorded,pushes]
  exact pushes_rtake MessageBus.maxlen [] messages (Nat.zero_le _)

-- Messages leave the queue in the order of their publication, and each is recorded.
structure Recorded (world : World) : Prop where
  queued : world.bus.queue = world.published.drop world.taken
  within : world.taken ≤ world.published.length
  history : world.bus.history = (MessageBus.recorded (world.published.take world.taken)).history

theorem advance_recorded {world : World} (recorded : Recorded world) (task turn : Nat) (message : Message)
    (places : List Place) : Recorded (world.advance task turn message places) := by
  unfold World.advance
  cases seek turn message places with
  | done | broken exc rest => exact ⟨recorded.queued,recorded.within,recorded.history⟩
  | found place rest => exact ⟨recorded.queued,recorded.within,recorded.history⟩

theorem popped_recorded {world : World} (recorded : Recorded world) {message : Message} {rest : List Message}
    (queue : world.bus.queue = message :: rest) : Recorded (world.popped message rest) := by
  have first := recorded.queued.symm.trans queue
  have bound : world.taken < world.published.length := by
    by_contra past
    rw [List.drop_eq_nil_of_le (not_lt.mp past)] at first
    cases first
  rw [List.drop_eq_getElem_cons bound,List.cons.injEq] at first
  have grown : world.published.take (world.taken + 1) = world.published.take world.taken ++ [message] := by
    rw [List.take_add_one,List.getElem?_eq_getElem bound,first.1]
    rfl
  refine ⟨?_,?_,?_⟩
  · rw [World.popped]
    exact first.2.symm
  · rw [World.popped]
    exact bound
  · simp only [World.popped]
    rw [record_push,push_rtake,recorded.history.trans (recorded_history _),rtake_rtake_append,grown,recorded_history]

theorem publish_recorded {world : World} (recorded : Recorded world) (message : Message) :
    Recorded (world.step (.publish message)) := by
  refine ⟨?_,?_,?_⟩
  · change world.bus.queue ++ [message] = (world.published ++ [message]).drop world.taken
    rw [recorded.queued,List.drop_append_of_le_length recorded.within]
  · change world.taken ≤ (world.published ++ [message]).length
    rw [List.length_append]
    exact Nat.le_add_right_of_le recorded.within
  · change world.bus.history = (MessageBus.recorded ((world.published ++ [message]).take world.taken)).history
    rw [List.take_append_of_le_length recorded.within]
    exact recorded.history

theorem step_recorded (world : World) (label : Label) (recorded : Recorded world) : Recorded (world.step label) := by
  have kept : ∀ other : World, other.bus.queue = world.bus.queue → other.bus.history = world.bus.history →
      other.published = world.published → other.taken = world.taken → Recorded other := by
    intro other queue history published taken
    refine ⟨?_,?_,?_⟩
    · rw [queue,published,taken]
      exact recorded.queued
    · rw [published,taken]
      exact recorded.within
    · rw [history,published,taken]
      exact recorded.history
  cases label with
  | publish message => exact publish_recorded recorded message
  | start =>
      simp only [World.step,World.start]
      split <;> exact kept _ rfl rfl rfl rfl
  | stop =>
      simp only [World.step,World.stop]
      split <;> exact kept _ rfl rfl rfl rfl
  | begin task =>
      simp only [World.step]
      split <;> exact kept _ rfl rfl rfl rfl
  | take task =>
      simp only [World.step,World.take]
      split
      next message rest _ queue => exact advance_recorded (popped_recorded recorded queue) task _ message _
      next => exact recorded
  | finish task =>
      simp only [World.step,World.finish]
      split
      next turn message rest _ => exact advance_recorded recorded task turn message rest
      next => exact recorded
  | swallow task =>
      simp only [World.step]
      split <;> exact kept _ rfl rfl rfl rfl
  | cancelled task =>
      simp only [World.step,World.cancel]
      split
      next =>
        split
        next => exact recorded
        next => exact kept _ rfl rfl rfl rfl
      next => exact recorded
  | escape task =>
      simp only [World.step]
      split <;> exact kept _ rfl rfl rfl rfl
  | resumeStop task =>
      simp only [World.step,World.resumeStop]
      split
      · split
        · exact kept _ rfl rfl rfl rfl
        · exact recorded
      · split
        · exact kept _ rfl rfl rfl rfl
        · exact recorded
      · exact recorded

theorem run_recorded (labels : List Label) : Throughout World.step Recorded (World.init .init) labels := by
  have kept : ∀ world label, Recorded world → True → Recorded (world.step label) := by
    intro world label recorded _
    exact step_recorded world label recorded
  exact throughout_invariant kept _ labels ⟨rfl,Nat.zero_le _,rfl⟩ (steps_forall (fun _ _ _ => trivial) _)

theorem messageWindow_exact (messages : List Message) (topic : Option Text) (limit : Nat) :
    MessageWindow messages topic limit ↔ 1 ≤ limit ∨ ofTopic topic (messages.rtake MessageBus.maxlen) = [] := by
  rw [MessageWindow,exists_window,MessageBus.getHistory,recorded_history,slice_window]

end Kryvaracode.Messages

namespace Kryvaracode.RecentHistory
open StateStore Messages

theorem history_windows_exact {objects : Objects} (events : List (StateChangeEvent objects)) (messages : List Message)
    (topic : Option Text) (limit : Nat) :
    (ChangeWindow events limit ↔ 1 ≤ limit ∨ events = []) ∧
      (MessageWindow messages topic limit ↔ 1 ≤ limit ∨ ofTopic topic (messages.rtake MessageBus.maxlen) = []) :=
  ⟨changeWindow_exact events limit,messageWindow_exact messages topic limit⟩

-- Asked for none, both hand out everything.
theorem history_unlimited : ¬ ChangeWindow [(⟨.set,['k'],some 1,none,1,[]⟩ : StateChangeEvent plainObjects)] 0 ∧
    ¬ MessageWindow [⟨['t'],['s'],[],.system⟩] none 0 := by
  refine ⟨?_,?_⟩
  · rintro ⟨_,_,window⟩
    have size := window.size.trans (Nat.zero_min _)
    exact absurd size (by decide)
  · rintro ⟨_,_,window⟩
    have size := window.size.trans (Nat.zero_min _)
    exact absurd size (by decide)

end Kryvaracode.RecentHistory
