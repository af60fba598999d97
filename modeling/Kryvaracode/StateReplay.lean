import Kryvaracode.StateStore
import Kryvaracode.Runs

namespace Kryvaracode.StateStore
open InsertionDict Runs

variable {objects : Objects}

def replayed (held : Dict Text objects.Value) (event : StateChangeEvent objects) : Dict Text objects.Value :=
  match event.changeType with
  | .set => held.set event.key event.value
  | .delete | .expired => held.erase event.key

def replay (log : List (StateChangeEvent objects)) : Dict Text objects.Value := log.foldl replayed Dict.empty

-- A cleanup removes what has expired at once and logs it entry by entry, with an
-- await after each: what it has still to log is its part of the state.
structure World (objects : Objects) where
  shared : SharedState objects
  pending : List (List (StateEntry objects))

inductive Label (objects : Objects) where
  | call (op : KeyOp objects) (check stamp : Int)
  | keys (readings : Text → Int)
  | items (readings : Text → Int)
  | clear
  | cleanupExpired (readings : Text → Int)
  | resume (task : Nat)
  | abort (task : Nat)

def World.init : World objects := ⟨SharedState.init,[]⟩

def World.cleanupExpired (world : World objects) (readings : Text → Int) : World objects :=
  let swept := world.shared.sweepExpiredUnlocked readings
  match world.shared.expiredEntries readings with
  | [] => {world with shared := swept}
  | first :: rest => ⟨swept.append (SharedState.expiry first),world.pending ++ [rest]⟩

def World.resume (world : World objects) (task : Nat) : World objects :=
  match world.pending[task]? with
  | some (entry :: rest) => ⟨world.shared.append (SharedState.expiry entry),world.pending.set task rest⟩
  | some [] | none => world

def World.step (world : World objects) : Label objects → World objects
  | .call op check stamp => {world with shared := (perform op check stamp world.shared).1}
  | .keys readings => {world with shared := (world.shared.keys readings).1}
  | .items readings => {world with shared := (world.shared.items readings).1}
  | .clear => {world with shared := world.shared.clear.1}
  | .cleanupExpired readings => world.cleanupExpired readings
  | .resume task => world.resume task
  | .abort task => {world with pending := world.pending.set task []}

-- Resumed each time at once, the task is the uninterrupted cleanup.
theorem resumes_shared (entries : List (StateEntry objects)) (world : World objects) (task : Nat)
    (found : world.pending[task]? = some entries) :
    (run World.step world (List.replicate entries.length (.resume task))).shared =
      entries.foldl (fun state entry => state.append (SharedState.expiry entry)) world.shared := by
  induction entries generalizing world with
  | nil => rfl
  | cons entry rest ih =>
      have bound := (List.getElem?_eq_some_iff.mp found).1
      have resumed : world.step (.resume task) =
          ⟨world.shared.append (SharedState.expiry entry),world.pending.set task rest⟩ := by
        simp only [World.step,World.resume,found]
      rw [List.length_cons,List.replicate_succ,run_cons,resumed,ih _ (by simp [bound]),List.foldl_cons]

theorem cleanup_uninterrupted (world : World objects) (readings : Text → Int) :
    (run World.step (world.step (.cleanupExpired readings))
      (List.replicate ((world.shared.expiredEntries readings).length - 1) (.resume world.pending.length))).shared =
      world.shared.cleanupExpired readings := by
  simp only [World.step,World.cleanupExpired,SharedState.cleanupExpired]
  cases found : world.shared.expiredEntries readings with
  | nil => rfl
  | cons first rest =>
      rw [List.length_cons,Nat.add_sub_cancel,resumes_shared rest _ _ (by simp),List.foldl_cons]

def Quiet (world : World objects) : Prop := ∀ task ∈ world.pending, task = []

def Sourced (world : World objects) : Prop :=
  Quiet world → world.shared.changeLog.length < SharedState.maxlen →
    ∀ key, (replay world.shared.changeLog).get key = (world.shared.store.get key).map StateEntry.value

-- The expiry of the key is still to be logged.
def waiting (world : World objects) (key : Text) : Prop := ∃ task ∈ world.pending, ∃ entry ∈ task, entry.key = key

def KeepsLog (world : World objects) : Label objects → Prop
  | .call op check _ =>
      (op.checks = true → unexpired world.shared op.key check) ∧ (op.sets = true → ¬ waiting world op.key)
  | .keys readings | .items readings => ∀ key, unexpired world.shared key (readings key)
  | .clear => ∀ key, world.shared.store.get key = none
  | .cleanupExpired _ | .resume _ => True
  | .abort task => ∀ entries, world.pending[task]? = some entries → entries = []

structure Consistent (world : World objects) : Prop where
  keyed : ∀ key entry, world.shared.store.get key = some entry → entry.key = key
  absent : ∀ key, waiting world key → world.shared.store.get key = none
  faithful : world.shared.changeLog.length < SharedState.maxlen → ∀ key, waiting world key ∨
    (replay world.shared.changeLog).get key = (world.shared.store.get key).map StateEntry.value

theorem init_consistent : Consistent (World.init : World objects) := by
  refine ⟨?_,?_,?_⟩
  · intro key entry found
    cases found
  · intro key asked
    obtain ⟨task,inside,_⟩ := asked
    cases inside
  · intro _ key
    exact .inr rfl

theorem consistent_sourced {world : World objects} (consistent : Consistent world) : Sourced world := by
  intro quiet short key
  rcases consistent.faithful short key with asked | same
  · obtain ⟨task,listed,entry,inside,_⟩ := asked
    rw [quiet task listed] at inside
    cases inside
  · exact same

-- Where the log is not yet full nothing has fallen out of it.
theorem append_short (state : SharedState objects) (event : StateChangeEvent objects)
    (short : (state.append event).changeLog.length < SharedState.maxlen) :
    (state.append event).changeLog = state.changeLog ++ [event] ∧ state.changeLog.length < SharedState.maxlen := by
  simp only [SharedState.append,List.length_drop,List.length_append,List.length_singleton] at short ⊢
  have none : state.changeLog.length + 1 - SharedState.maxlen = 0 := by omega
  exact ⟨by rw [none,List.drop_zero],by omega⟩

theorem replay_append (log : List (StateChangeEvent objects)) (event : StateChangeEvent objects) :
    replay (log ++ [event]) = replayed (replay log) event := by
  rw [replay,List.foldl_append]
  rfl

theorem replayed_get (held : Dict Text objects.Value) (event : StateChangeEvent objects) (key : Text) :
    (replayed held event).get key =
      if key = event.key then if event.changeType = .set then some event.value else none else held.get key := by
  unfold replayed
  cases kind : event.changeType with
  | set => simp [get_set]
  | delete => simp [get_erase]
  | expired => simp [get_erase]

-- One event on a key brings the replayed store where the event says.
theorem append_faithful (state : SharedState objects) (event : StateChangeEvent objects) (key : Text) (now : Option objects.Value)
    (told : now = if event.changeType = .set then some event.value else none) (about : event.key = key)
    (short : (state.append event).changeLog.length < SharedState.maxlen) (other : Text) :
    (replay (state.append event).changeLog).get other = if other = key then now else (replay state.changeLog).get other := by
  rw [(append_short state event short).1,replay_append,replayed_get,about,told]

theorem look_cases (check : Int) (missing : Answer objects) (found : StateEntry objects → Change objects × Answer objects)
    (held : Option (StateEntry objects)) : (look check missing found held).1 = .keep ∨
      (∃ entry, held = some entry ∧ isExpired check entry = true ∧ (look check missing found held).1 = .drop) ∨
      ∃ entry, held = some entry ∧ (look check missing found held).1 = (found entry).1 := by
  cases held with
  | none => exact .inl rfl
  | some entry =>
      cases past : isExpired check entry with
      | true => exact .inr (.inl ⟨entry,rfl,past,by simp [look,past]⟩)
      | false => exact .inr (.inr ⟨entry,rfl,by simp [look,past]⟩)

-- What a course can be, with all that the log has to know of it.
inductive Kept (op : KeyOp objects) (check : Int) (held : Option (StateEntry objects)) : Change objects → Prop where
  | keep : Kept op check held .keep
  | drop (checks : op.checks = true) (found : held = some entry) (past : isExpired check entry = true) :
      Kept op check held .drop
  | write (oldValue : objects.Value) (source : Text) (named : (∀ old, held = some old → old.key = op.key) → entry.key = op.key)
      (known : op.sets = true ∨ ∃ old, held = some old) : Kept op check held (.write entry oldValue source)
  | remove (kind : event.changeType = .delete) (about : event.key = op.key) : Kept op check held (.remove event)

theorem look_kept (op : KeyOp objects) (checks : op.checks = true) (check : Int) (missing : Answer objects)
    (found : StateEntry objects → Change objects × Answer objects) (held : Option (StateEntry objects))
    (inner : ∀ entry, held = some entry → Kept op check held (found entry).1) :
    Kept op check held (look check missing found held).1 := by
  rcases look_cases check missing found held with same | ⟨entry,here,past,same⟩ | ⟨entry,here,same⟩
  · exact same ▸ .keep
  · exact same ▸ .drop checks here past
  · exact same ▸ inner entry here

theorem course_kept (op : KeyOp objects) (check stamp : Int) (held : Option (StateEntry objects)) :
    Kept op check held (course op check stamp held).1 := by
  cases op with
  | set key value source ttlSeconds =>
      cases held with
      | none => exact .write _ _ (fun _ => rfl) (.inl rfl)
      | some old => exact .write _ _ (fun named => named old rfl) (.inl rfl)
  | delete key source =>
      cases held with
      | none => exact .keep
      | some old => exact .remove rfl rfl
  | get key => exact look_kept _ rfl check _ _ held fun _ _ => .keep
  | getEntry key => exact look_kept _ rfl check _ _ held fun _ _ => .keep
  | «exists» key => exact look_kept _ rfl check _ _ held fun _ _ => .keep
  | atomicUpdate key updaterFn source =>
      refine look_kept _ rfl check _ _ held ?_
      intro entry here
      cases updaterFn entry.value with
      | error exc => exact .keep
      | ok newValue => exact .write _ _ (fun named => named entry here) (.inr ⟨entry,here⟩)
  | compareAndSet key expected newValue source =>
      refine look_kept _ rfl check _ _ held ?_
      intro entry here
      cases objects.differs entry.value expected with
      | error exc => exact .keep
      | ok differs =>
          cases differs with
          | true => exact .keep
          | false => exact .write _ _ (fun named => named entry here) (.inr ⟨entry,here⟩)

theorem consistent_same {world : World objects} {state : SharedState objects} (consistent : Consistent world)
    (same : ∀ key, state.store.get key = world.shared.store.get key) (log : state.changeLog = world.shared.changeLog) :
    Consistent {world with shared := state} := by
  refine ⟨?_,?_,?_⟩
  · intro key entry found
    exact consistent.keyed key entry (same key ▸ found)
  · intro key asked
    exact (same key).trans (consistent.absent key asked)
  · intro short key
    rw [log] at short ⊢
    rw [same key]
    exact consistent.faithful short key

theorem write_consistent {world : World objects} (consistent : Consistent world) (key : Text) (entry : StateEntry objects)
    (oldValue : objects.Value) (source : Text) (named : entry.key = key) (free : ¬ waiting world key) :
    Consistent {world with shared := world.shared.replace key entry oldValue source} := by
  have stored : ∀ other, (world.shared.replace key entry oldValue source).store.get other =
      if other = key then some entry else world.shared.store.get other := get_set world.shared.store key entry
  refine ⟨?_,?_,?_⟩
  · intro other held found
    rw [stored] at found
    split at found
    next same =>
      cases found
      rw [same,named]
    next => exact consistent.keyed other held found
  · intro other asked
    have apart : other ≠ key := fun same => free (same ▸ asked)
    rw [stored,if_neg apart]
    exact consistent.absent other asked
  · intro short other
    have told := append_faithful _ _ key (some entry.value) rfl rfl short other
    by_cases same : other = key
    · refine .inr (told.trans ?_)
      rw [stored,if_pos same,if_pos same]
      rfl
    · refine (consistent.faithful (append_short _ _ short).2 other).imp_right fun faithful => ?_
      rw [stored,if_neg same]
      exact (told.trans (if_neg same)).trans faithful

theorem remove_consistent {world : World objects} (consistent : Consistent world) (key : Text)
    (event : StateChangeEvent objects) (kind : event.changeType = .delete) (about : event.key = key) :
    Consistent {world with shared := (world.shared.deleteUnlocked key).append event} := by
  have stored : ∀ other, ((world.shared.deleteUnlocked key).append event).store.get other =
      if other = key then none else world.shared.store.get other := get_erase world.shared.store key
  refine ⟨?_,?_,?_⟩
  · intro other held found
    rw [stored] at found
    split at found
    next => cases found
    next => exact consistent.keyed other held found
  · intro other asked
    rw [stored]
    split
    next => rfl
    next => exact consistent.absent other asked
  · intro short other
    rw [append_faithful _ _ key none (by simp [kind]) about short,stored]
    by_cases same : other = key
    · exact .inr (by simp [same])
    · rw [if_neg same,if_neg same]
      exact consistent.faithful (append_short _ _ short).2 other

theorem call_consistent {world : World objects} (consistent : Consistent world) (op : KeyOp objects) (check stamp : Int)
    (kept : KeepsLog world (.call op check stamp)) : Consistent (world.step (.call op check stamp)) := by
  have courses := course_kept op check stamp (world.shared.store.get op.key)
  rw [World.step,perform_course]
  generalize (course op check stamp (world.shared.store.get op.key)).1 = change at courses
  cases courses with
  | keep => exact consistent
  | drop checks found past =>
      rw [kept.1 checks _ found] at past
      cases past
  | write oldValue source named known =>
      refine write_consistent consistent op.key _ oldValue source (named fun old found => consistent.keyed _ old found) ?_
      intro asked
      rcases known with sets | ⟨old,found⟩
      · exact kept.2 sets asked
      · rw [consistent.absent op.key asked] at found
        cases found
  | remove kind about => exact remove_consistent consistent op.key _ kind about

theorem sweep_consistent {world : World objects} (consistent : Consistent world) (readings : Text → Int)
    (fresh : ∀ key, unexpired world.shared key (readings key)) :
    Consistent {world with shared := world.shared.sweepExpiredUnlocked readings} := by
  refine consistent_same consistent ?_ rfl
  intro key
  rw [sweepExpired_get]
  cases found : world.shared.store.get key with
  | none => rfl
  | some entry => simp [fresh key entry found]

theorem mem_expiredEntries (state : SharedState objects) (readings : Text → Int) (entry : StateEntry objects) :
    entry ∈ state.expiredEntries readings ↔ ∃ key, state.store.get key = some entry ∧ isExpired (readings key) entry = true := by
  simp only [SharedState.expiredEntries,List.mem_map,List.mem_filter]
  refine ⟨?_,?_⟩
  · intro found
    obtain ⟨⟨key,held⟩,⟨inside,past⟩,rfl⟩ := found
    exact ⟨key,(mem_entries state.store key held).mp inside,past⟩
  · intro found
    obtain ⟨key,held,past⟩ := found
    exact ⟨(key,entry),⟨(mem_entries state.store key entry).mpr held,past⟩,rfl⟩

theorem waiting_append (world : World objects) (shared : SharedState objects) (rest : List (StateEntry objects)) (key : Text) :
    waiting ⟨shared,world.pending ++ [rest]⟩ key ↔ waiting world key ∨ ∃ entry ∈ rest, entry.key = key := by
  simp [waiting,or_and_right,exists_or]

-- A sweep leaves what a key holds, or has its expiry to log.
theorem kept_or_swept {world : World objects} (consistent : Consistent world) (readings : Text → Int) (key : Text) :
    (world.shared.sweepExpiredUnlocked readings).store.get key = world.shared.store.get key ∨
      ∃ entry ∈ world.shared.expiredEntries readings, entry.key = key := by
  rw [sweepExpired_get]
  cases held : world.shared.store.get key with
  | none => exact .inl rfl
  | some entry =>
      cases past : isExpired (readings key) entry with
      | false => exact .inl (by simp [past])
      | true =>
          have inside := (mem_expiredEntries world.shared readings entry).mpr ⟨key,held,past⟩
          exact .inr ⟨entry,inside,consistent.keyed key entry held⟩

theorem cleanup_consistent {world : World objects} (consistent : Consistent world) (readings : Text → Int) :
    Consistent (world.cleanupExpired readings) := by
  unfold World.cleanupExpired
  have stored := sweepExpired_get world.shared readings
  have swept := kept_or_swept consistent readings
  have gone : ∀ entry ∈ world.shared.expiredEntries readings,
      (world.shared.sweepExpiredUnlocked readings).store.get entry.key = none := by
    intro entry inside
    obtain ⟨key,found,past⟩ := (mem_expiredEntries world.shared readings entry).mp inside
    rw [consistent.keyed key entry found,stored,found]
    simp [past]
  cases found : world.shared.expiredEntries readings with
  | nil =>
      refine consistent_same consistent ?_ rfl
      intro key
      rcases swept key with kept | ⟨entry,inside,_⟩
      · exact kept
      · rw [found] at inside
        cases inside
  | cons first rest =>
      rw [found] at swept gone
      refine ⟨?_,?_,?_⟩
      · intro key entry held
        change (world.shared.sweepExpiredUnlocked readings).store.get key = some entry at held
        rw [stored,Option.filter_eq_some_iff] at held
        exact consistent.keyed key entry held.1
      · intro key asked
        rcases (waiting_append world _ rest key).mp asked with earlier | ⟨entry,inside,rfl⟩
        · change (world.shared.sweepExpiredUnlocked readings).store.get key = none
          rw [stored,consistent.absent key earlier]
          rfl
        · exact gone entry (List.mem_cons_of_mem first inside)
      · intro short key
        rw [waiting_append,append_faithful _ _ first.key none (by simp [SharedState.expiry]) rfl short]
        by_cases same : key = first.key
        · rw [if_pos same,same]
          exact .inr (by simp [gone first List.mem_cons_self])
        rw [if_neg same]
        rcases consistent.faithful (append_short _ _ short).2 key with asked | faithful
        · exact .inl (.inl asked)
        -- Not waiting before: either the sweep leaves the key or it waits now.
        rcases swept key with kept | ⟨entry,inside,named⟩
        · exact .inr (faithful.trans (congrArg (Option.map StateEntry.value) kept.symm))
        · rcases List.mem_cons.mp inside with equal | later
          · exact absurd (named.symm.trans (congrArg StateEntry.key equal)) same
          · exact .inl (.inr ⟨entry,later,named⟩)

theorem waiting_before (world : World objects) (shared : SharedState objects) (task : Nat) (entry : StateEntry objects)
    (rest : List (StateEntry objects)) (found : world.pending[task]? = some (entry :: rest)) (key : Text)
    (asked : waiting ⟨shared,world.pending.set task rest⟩ key) : waiting world key := by
  obtain ⟨other,listed,held,inside,named⟩ := asked
  rcases List.mem_or_eq_of_mem_set listed with earlier | same
  · exact ⟨other,earlier,held,inside,named⟩
  · exact ⟨entry :: rest,List.mem_of_getElem? found,held,List.mem_cons_of_mem _ (same ▸ inside),named⟩

theorem waiting_after (world : World objects) (shared : SharedState objects) (task : Nat) (entry : StateEntry objects)
    (rest : List (StateEntry objects)) (found : world.pending[task]? = some (entry :: rest)) (key : Text)
    (different : key ≠ entry.key) (asked : waiting world key) : waiting ⟨shared,world.pending.set task rest⟩ key := by
  obtain ⟨bound,at_task⟩ := List.getElem?_eq_some_iff.mp found
  obtain ⟨other,listed,held,inside,named⟩ := asked
  obtain ⟨index,place,same⟩ := List.getElem_of_mem listed
  by_cases here : index = task
  · subst here
    rw [at_task] at same
    subst same
    rcases List.mem_cons.mp inside with equal | later
    · exact absurd (named.symm.trans (congrArg StateEntry.key equal)) different
    · exact ⟨rest,List.mem_set place rest,held,later,named⟩
  · refine ⟨other,?_,held,inside,named⟩
    have kept : (world.pending.set task rest)[index]? = some other := by
      rw [List.getElem?_set_ne (Ne.symm here),List.getElem?_eq_getElem place,same]
    exact List.mem_of_getElem? kept

theorem resume_consistent {world : World objects} (consistent : Consistent world) (task : Nat) :
    Consistent (world.resume task) := by
  unfold World.resume
  cases found : world.pending[task]? with
  | none => exact consistent
  | some entries =>
      cases entries with
      | nil => exact consistent
      | cons entry rest =>
          have mine : waiting world entry.key :=
            ⟨entry :: rest,List.mem_of_getElem? found,entry,List.mem_cons_self,rfl⟩
          dsimp only
          refine ⟨?_,?_,?_⟩
          · intro key held stored
            rw [append_store] at stored
            exact consistent.keyed key held stored
          · intro key asked
            rw [append_store]
            apply consistent.absent key
            exact waiting_before world _ task entry rest found key asked
          intro short key
          rw [append_faithful _ _ entry.key none (by simp [SharedState.expiry]) rfl short]
          by_cases same : key = entry.key
          · rw [if_pos same,same]
            exact .inr (by simp [consistent.absent entry.key mine])
          · rw [if_neg same,append_store]
            exact (consistent.faithful (append_short _ _ short).2 key).imp_left
              (waiting_after world _ task entry rest found key same)

theorem step_consistent (world : World objects) (label : Label objects) (consistent : Consistent world)
    (kept : KeepsLog world label) : Consistent (world.step label) := by
  cases label with
  | call op check stamp => exact call_consistent consistent op check stamp kept
  | keys readings => exact sweep_consistent consistent readings kept
  | items readings => exact sweep_consistent consistent readings kept
  | clear =>
      refine consistent_same consistent ?_ rfl
      intro key
      exact (kept key).symm
  | cleanupExpired readings => exact cleanup_consistent consistent readings
  | resume task => exact resume_consistent consistent task
  | abort task =>
      have idle : world.pending.set task [] = world.pending := by
        by_cases inside : task < world.pending.length
        · have done := kept _ (List.getElem?_eq_getElem inside)
          rw [← done,List.set_getElem_self]
        · exact List.set_eq_of_length_le (not_lt.mp inside)
      simpa only [World.step,idle] using consistent

theorem replay_holds (labels : List (Label objects)) (kept : Steps World.step KeepsLog World.init labels) :
    Throughout World.step Sourced World.init labels := by
  have always := throughout_invariant step_consistent World.init labels init_consistent kept
  intro front early
  exact consistent_sourced (always front early)

def sweptLabels : List (Label plainObjects) :=
  [.call (.set ['k'] (some 1) [] (some (3 : Int))) 0 0,.cleanupExpired fun _ => 5000000,.resume 0]

theorem replay_holds_swept : Steps World.step KeepsLog World.init sweptLabels ∧
    Throughout World.step Sourced World.init sweptLabels := by
  have kept : Steps World.step KeepsLog World.init sweptLabels := by
    refine ⟨⟨by simp [KeyOp.checks],?_⟩,trivial,trivial,trivial⟩
    intro _ asked
    obtain ⟨task,inside,_⟩ := asked
    cases inside
  exact ⟨kept,replay_holds sweptLabels kept⟩

-- Clearing leaves no trace in the log.
theorem cleared_store_replayed : ¬ Throughout World.step Sourced (World.init : World plainObjects)
    [.call (.set ['k'] (some 1) [] none) 0 0,.clear] := by
  intro always
  have same := throughout_end always (by intro task inside; cases inside) (by decide) ['k']
  have lost : some (some (1 : Int)) = none := same
  cases lost

end Kryvaracode.StateStore
