import Kryvaracode.Exceptions
import Kryvaracode.InsertionDict

namespace Kryvaracode.StateStore
open InsertionDict

-- What the store is handed from outside: values with their comparison, and how
-- long a lapse of microseconds outlasts a time to live.
structure Objects where
  Value : Type
  none : Value
  differs : Value → Value → Result Bool
  Ttl : Type
  exceeds : Int → Ttl → Bool
  later : ∀ {shorter longer : Int} {ttl : Ttl}, shorter ≤ longer → exceeds shorter ttl = true → exceeds longer ttl = true

-- Numbers or None as values, and times to live in whole seconds.
def plainObjects : Objects where
  Value := Option Int
  none := none
  differs first second := .ok (decide (first ≠ second))
  Ttl := Int
  exceeds lapse ttl := decide (ttl * 1000000 < lapse)
  later := by
    intro shorter longer ttl order past
    simp only [decide_eq_true_eq] at past ⊢
    omega

variable {objects : Objects}

structure StateEntry (objects : Objects) where
  key : Text
  value : objects.Value
  version : Nat
  counted : 0 < version
  createdAt : Int
  updatedAt : Int
  ttlSeconds : Option objects.Ttl
  createdBy : Text

inductive StateChangeType where
  | set
  | delete
  | expired
  deriving DecidableEq, Repr

structure StateChangeEvent (objects : Objects) where
  changeType : StateChangeType
  key : Text
  value : objects.Value
  oldValue : objects.Value
  version : Nat
  source : Text

-- Observers are kept by their identity.
structure SharedState (objects : Objects) where
  store : Dict Text (StateEntry objects)
  changeLog : List (StateChangeEvent objects)
  observers : List Nat

def isExpired (now : Int) (entry : StateEntry objects) : Bool :=
  match entry.ttlSeconds with
  | none => false
  | some ttl => objects.exceeds (now - entry.updatedAt) ttl

inductive Answer (objects : Objects) where
  | entry (entry : StateEntry objects)
  | absent
  | value (value : objects.Value)
  | flag (truth : Bool)
  | keys (keys : List Text)
  | items (items : List (Text × objects.Value))
  | count (count : Nat)
  | raised (exc : Failure)

namespace SharedState

def init : SharedState objects := ⟨Dict.empty,[],[]⟩

-- A deque that holds the last thousand.
def maxlen : Nat := 1000

variable (state : SharedState objects)

def append (event : StateChangeEvent objects) : SharedState objects :=
  {state with changeLog := (state.changeLog ++ [event]).drop (state.changeLog.length + 1 - maxlen)}

def deleteUnlocked (key : Text) : SharedState objects := {state with store := state.store.erase key}

-- The first lines of five methods: an expired entry is dropped and not found.
def fetch (key : Text) (now : Int) : SharedState objects × Option (StateEntry objects) :=
  match state.store.get key with
  | none => (state,none)
  | some entry => if isExpired now entry then (state.deleteUnlocked key,none) else (state,some entry)

def revised (entry : StateEntry objects) (value : objects.Value) (source : Text) (now : Int) : StateEntry objects :=
  {entry with
    value := value,version := entry.version + 1,counted := Nat.succ_pos _,updatedAt := now,createdBy := source}

def replace (key : Text) (entry : StateEntry objects) (oldValue : objects.Value) (source : Text) : SharedState objects :=
  append {state with store := state.store.set key entry} ⟨.set,key,entry.value,oldValue,entry.version,source⟩

-- An entry under the key is kept in use, whether or not it has expired.
def set (key : Text) (value : objects.Value) (source : Text) (ttlSeconds : Option objects.Ttl) (now : Int) :
    SharedState objects × Answer objects :=
  match state.store.get key with
  | some old =>
      let entry := {revised old value source now with ttlSeconds := ttlSeconds <|> old.ttlSeconds}
      (state.replace key entry old.value source,.entry entry)
  | none =>
      let entry := ⟨key,value,1,Nat.one_pos,now,now,ttlSeconds,source⟩
      (state.replace key entry objects.none source,.entry entry)

def get (key : Text) (now : Int) : SharedState objects × Answer objects :=
  match state.fetch key now with
  | (after,none) => (after,.value objects.none)
  | (after,some entry) => (after,.value entry.value)

def getEntry (key : Text) (now : Int) : SharedState objects × Answer objects :=
  match state.fetch key now with
  | (after,none) => (after,.absent)
  | (after,some entry) => (after,.entry entry)

def delete (key source : Text) : SharedState objects × Answer objects :=
  match state.store.get key with
  | none => (state,.flag false)
  | some old =>
      ((state.deleteUnlocked key).append ⟨.delete,key,objects.none,old.value,old.version,source⟩,.flag true)

def «exists» (key : Text) (now : Int) : SharedState objects × Answer objects :=
  match state.fetch key now with
  | (after,none) => (after,.flag false)
  | (after,some _) => (after,.flag true)

def sweepExpiredUnlocked (readings : Text → Int) : SharedState objects :=
  {state with store := state.store.filter fun key entry => !isExpired (readings key) entry}

def keys (readings : Text → Int) : SharedState objects × Answer objects :=
  let after := state.sweepExpiredUnlocked readings
  (after,.keys after.store.keys)

def items (readings : Text → Int) : SharedState objects × Answer objects :=
  let after := state.sweepExpiredUnlocked readings
  (after,.items (after.store.entries.map fun entry => (entry.1,entry.2.value)))

def clear : SharedState objects × Answer objects := ({state with store := Dict.empty},.count state.store.size)

def atomicUpdate (key : Text) (updaterFn : objects.Value → Result objects.Value) (source : Text) (check stamp : Int) :
    SharedState objects × Answer objects :=
  match state.fetch key check with
  | (after,none) => (after,.value objects.none)
  | (after,some entry) =>
      match updaterFn entry.value with
      | .error exc => (after,.raised exc)
      | .ok newValue => (after.replace key (revised entry newValue source stamp) entry.value source,.value newValue)

def compareAndSet (key : Text) (expected newValue : objects.Value) (source : Text) (check stamp : Int) :
    SharedState objects × Answer objects :=
  match state.fetch key check with
  | (after,none) => (after,.flag false)
  | (after,some entry) =>
      match objects.differs entry.value expected with
      | .error exc => (after,.raised exc)
      | .ok true => (after,.flag false)
      | .ok false => (after.replace key (revised entry newValue source stamp) entry.value source,.flag true)

def expiredEntries (readings : Text → Int) : List (StateEntry objects) :=
  (state.store.entries.filter fun entry => isExpired (readings entry.1) entry.2).map Prod.snd

def expiry (entry : StateEntry objects) : StateChangeEvent objects :=
  ⟨.expired,entry.key,objects.none,entry.value,entry.version,"ttl_cleanup".toList⟩

-- The whole cleanup where no observer lets another task in between.
def cleanupExpired (readings : Text → Int) : SharedState objects :=
  (state.expiredEntries readings).foldl (fun state entry => state.append (expiry entry)) (state.sweepExpiredUnlocked readings)

def observe (callback : Nat) : SharedState objects := {state with observers := state.observers ++ [callback]}

def unobserve (callback : Nat) : SharedState objects :=
  {state with observers := state.observers.filter fun other => decide (other ≠ callback)}

def getStats (readings : Text → Int) : List (Text × Nat) :=
  [("total_keys".toList,state.store.size),
    ("expired_pending".toList,state.store.entries.countP fun entry => isExpired (readings entry.1) entry.2),
    ("total_changes".toList,state.changeLog.length),
    ("observer_count".toList,state.observers.length)]

end SharedState

def unexpired (state : SharedState objects) (key : Text) (now : Int) : Prop :=
  ∀ entry, state.store.get key = some entry → isExpired now entry = false

-- The operations on one key.
inductive KeyOp (objects : Objects) where
  | set (key : Text) (value : objects.Value) (source : Text) (ttlSeconds : Option objects.Ttl)
  | get (key : Text)
  | getEntry (key : Text)
  | delete (key source : Text)
  | exists (key : Text)
  | atomicUpdate (key : Text) (updaterFn : objects.Value → Result objects.Value) (source : Text)
  | compareAndSet (key : Text) (expected newValue : objects.Value) (source : Text)

def KeyOp.key : KeyOp objects → Text
  | .set key _ _ _ | .get key | .getEntry key | .delete key _ | .exists key | .atomicUpdate key _ _
  | .compareAndSet key _ _ _ => key

-- The operations that look whether what they find has expired.
def KeyOp.checks : KeyOp objects → Bool
  | .set _ _ _ _ | .delete _ _ => false
  | .get _ | .getEntry _ | .exists _ | .atomicUpdate _ _ _ | .compareAndSet _ _ _ _ => true

def KeyOp.sets : KeyOp objects → Bool
  | .set _ _ _ _ => true
  | .get _ | .getEntry _ | .delete _ _ | .exists _ | .atomicUpdate _ _ _ | .compareAndSet _ _ _ _ => false

-- The clock is read once, or once more when the entry is stamped.
def perform (op : KeyOp objects) (check stamp : Int) (state : SharedState objects) : SharedState objects × Answer objects :=
  match op with
  | .set key value source ttlSeconds => state.set key value source ttlSeconds check
  | .get key => state.get key check
  | .getEntry key => state.getEntry key check
  | .delete key source => state.delete key source
  | .exists key => state.exists key check
  | .atomicUpdate key updaterFn source => state.atomicUpdate key updaterFn source check stamp
  | .compareAndSet key expected newValue source => state.compareAndSet key expected newValue source check stamp

-- What one operation does to its key, read off from the entry under it alone.
inductive Change (objects : Objects) where
  | keep
  | drop
  | write (entry : StateEntry objects) (oldValue : objects.Value) (source : Text)
  | remove (event : StateChangeEvent objects)

def Change.apply (state : SharedState objects) (key : Text) : Change objects → SharedState objects
  | .keep => state
  | .drop => state.deleteUnlocked key
  | .write entry oldValue source => state.replace key entry oldValue source
  | .remove event => (state.deleteUnlocked key).append event

def Change.result (held : Option (StateEntry objects)) : Change objects → Option (StateEntry objects)
  | .keep => held
  | .write entry _ _ => some entry
  | .drop | .remove _ => none

def look (check : Int) (missing : Answer objects) (found : StateEntry objects → Change objects × Answer objects) :
    Option (StateEntry objects) → Change objects × Answer objects
  | none => (.keep,missing)
  | some entry => if isExpired check entry then (.drop,missing) else found entry

def course (op : KeyOp objects) (check stamp : Int) (held : Option (StateEntry objects)) :
    Change objects × Answer objects :=
  match op with
  | .set key value source ttlSeconds =>
      match held with
      | some old =>
          let entry := {SharedState.revised old value source check with ttlSeconds := ttlSeconds <|> old.ttlSeconds}
          (.write entry old.value source,.entry entry)
      | none =>
          let entry := ⟨key,value,1,Nat.one_pos,check,check,ttlSeconds,source⟩
          (.write entry objects.none source,.entry entry)
  | .delete key source =>
      match held with
      | some old => (.remove ⟨.delete,key,objects.none,old.value,old.version,source⟩,.flag true)
      | none => (.keep,.flag false)
  | .get _ => look check (.value objects.none) (fun entry => (.keep,.value entry.value)) held
  | .getEntry _ => look check .absent (fun entry => (.keep,.entry entry)) held
  | .exists _ => look check (.flag false) (fun _ => (.keep,.flag true)) held
  | .atomicUpdate _ updaterFn source => look check (.value objects.none) (fun entry =>
      match updaterFn entry.value with
      | .error exc => (.keep,.raised exc)
      | .ok newValue => (.write (SharedState.revised entry newValue source stamp) entry.value source,.value newValue)) held
  | .compareAndSet _ expected newValue source => look check (.flag false) (fun entry =>
      match objects.differs entry.value expected with
      | .error exc => (.keep,.raised exc)
      | .ok true => (.keep,.flag false)
      | .ok false => (.write (SharedState.revised entry newValue source stamp) entry.value source,.flag true)) held

section Courses
variable (state : SharedState objects)

@[simp] theorem append_store (event : StateChangeEvent objects) : (state.append event).store = state.store := by
  simp only [SharedState.append]

theorem fetch_look (key : Text) (check : Int) (missing : Answer objects)
    (found : StateEntry objects → Change objects × Answer objects) :
    (match state.fetch key check with
      | (after,none) => (after,missing)
      | (after,some entry) => ((found entry).1.apply after key,(found entry).2)) =
    ((look check missing found (state.store.get key)).1.apply state key,
      (look check missing found (state.store.get key)).2) := by
  cases held : state.store.get key with
  | none => simp only [SharedState.fetch,held,look,Change.apply]
  | some entry =>
      cases past : isExpired check entry with
      | true => simp only [SharedState.fetch,held,past,look,if_true,Change.apply]
      | false => simp only [SharedState.fetch,held,past,look,Bool.false_eq_true,if_false]

theorem perform_course (op : KeyOp objects) (check stamp : Int) : perform op check stamp state =
    ((course op check stamp (state.store.get op.key)).1.apply state op.key,
      (course op check stamp (state.store.get op.key)).2) := by
  cases op with
  | set key value source ttlSeconds =>
      simp only [perform,SharedState.set,course,KeyOp.key]
      cases state.store.get key <;> rfl
  | delete key source =>
      simp only [perform,SharedState.delete,course,KeyOp.key]
      cases state.store.get key <;> rfl
  | get key =>
      refine Eq.trans ?_ (fetch_look state key check _ _)
      simp only [perform,SharedState.get]
      cases state.fetch key check with
      | mk after held => cases held <;> rfl
  | getEntry key =>
      refine Eq.trans ?_ (fetch_look state key check _ _)
      simp only [perform,SharedState.getEntry]
      cases state.fetch key check with
      | mk after held => cases held <;> rfl
  | «exists» key =>
      refine Eq.trans ?_ (fetch_look state key check _ _)
      simp only [perform,SharedState.exists]
      cases state.fetch key check with
      | mk after held => cases held <;> rfl
  | atomicUpdate key updaterFn source =>
      refine Eq.trans ?_ (fetch_look state key check _ _)
      simp only [perform,SharedState.atomicUpdate]
      cases state.fetch key check with
      | mk after held =>
          cases held with
          | none => rfl
          | some entry =>
              dsimp only
              cases updaterFn entry.value <;> rfl
  | compareAndSet key expected newValue source =>
      refine Eq.trans ?_ (fetch_look state key check _ _)
      simp only [perform,SharedState.compareAndSet]
      cases state.fetch key check with
      | mk after held =>
          cases held with
          | none => rfl
          | some entry =>
              dsimp only
              cases objects.differs entry.value expected with
              | error exc => rfl
              | ok differs => cases differs <;> rfl

theorem apply_get (change : Change objects) (key other : Text) : (change.apply state key).store.get other =
    if other = key then change.result (state.store.get key) else state.store.get other := by
  cases change with
  | keep =>
      by_cases same : other = key
      · simp [Change.apply,Change.result,same]
      · simp [Change.apply,same]
  | drop => exact get_erase state.store key other
  | write entry oldValue source => exact get_set state.store key entry other
  | remove event => exact get_erase state.store key other

theorem perform_get (op : KeyOp objects) (check stamp : Int) (other : Text) :
    (perform op check stamp state).1.store.get other =
      if other = op.key then (course op check stamp (state.store.get op.key)).1.result (state.store.get op.key)
      else state.store.get other := by
  rw [perform_course,apply_get]

theorem sweepExpired_get (readings : Text → Int) (key : Text) : (state.sweepExpiredUnlocked readings).store.get key =
    (state.store.get key).filter fun entry => !isExpired (readings key) entry :=
  get_filter state.store (fun key entry => !isExpired (readings key) entry) key
end Courses

end Kryvaracode.StateStore
