import Kryvaracode.MessageBus
import Kryvaracode.Runs

-- One message, handed to callbacks that subscribe and unsubscribe as they run.
namespace Kryvaracode.Reentrancy
open InsertionDict Messages Runs

-- A Subscription object by its number, and the pattern it is kept under.
structure Subscription where
  number : Nat
  topicPattern : Text
  deriving DecidableEq

-- The table holds its lists by reference: one of them may still be iterated
-- over when the table has another in its place.
structure Subscribers where
  table : Dict Text Nat
  lists : List (List Subscription)
  made : Nat

inductive Action where
  | subscribe (topicPattern : Text)
  | unsubscribe (subscription : Subscription)

namespace Subscribers

def empty : Subscribers := ⟨Dict.empty,[],0⟩

variable (subscribers : Subscribers)

def list (reference : Nat) : List Subscription := subscribers.lists.getD reference []

-- `setdefault(topic_pattern, []).append(sub)`: the list grows in place.
def subscribe (topicPattern : Text) : Subscribers :=
  let sub := ⟨subscribers.made,topicPattern⟩
  match subscribers.table.get topicPattern with
  | some reference => {subscribers with
      lists := subscribers.lists.modify reference (· ++ [sub])
      made := subscribers.made + 1}
  | none => {subscribers with
      table := subscribers.table.set topicPattern subscribers.lists.length
      lists := subscribers.lists ++ [[sub]]
      made := subscribers.made + 1}

-- The list is replaced by a new one, and its key removed if that is empty.
def unsubscribe (subscription : Subscription) : Subscribers :=
  let subs := ((subscribers.table.get subscription.topicPattern).map subscribers.list).getD []
  let kept := subs.filter fun sub => decide (sub.number ≠ subscription.number)
  if kept = [] then {subscribers with table := subscribers.table.erase subscription.topicPattern}
  else {subscribers with
    table := subscribers.table.set subscription.topicPattern subscribers.lists.length
    lists := subscribers.lists ++ [kept]}

def act : Action → Subscribers
  | .subscribe topicPattern => subscribers.subscribe topicPattern
  | .unsubscribe subscription => subscribers.unsubscribe subscription

def existing : List (Text × Subscription) :=
  subscribers.table.entries.flatMap fun entry => (subscribers.list entry.2).map fun sub => (entry.1,sub)

end Subscribers

inductive Event where
  | called (subscription : Subscription)
  | unsubscribed (subscription : Subscription)
  deriving DecidableEq

-- What the filters say of the message, and what each callback does with it,
-- which may depend on all that has happened before.
structure Callbacks where
  topic : Text
  filterFn : Subscription → Result Bool
  react : List Event → Subscription → List Action

-- The loop at a place of the list whose turn it is, with the lists to come. A
-- filter's exception leaves it.
structure Dispatch where
  subscribers : Subscribers
  lists : List (Text × Nat)
  index : Nat
  events : List Event
  escaped : Option Failure

def unsubscriptions : List Action → List Event
  | [] => []
  | .subscribe _ :: rest => unsubscriptions rest
  | .unsubscribe subscription :: rest => .unsubscribed subscription :: unsubscriptions rest

namespace Dispatch

def start (subscribers : Subscribers) : Dispatch := ⟨subscribers,subscribers.table.entries,0,[],none⟩

def finished (dispatch : Dispatch) : Prop := dispatch.lists = [] ∧ dispatch.escaped = none

variable (callbacks : Callbacks)

def visit (dispatch : Dispatch) (pattern : Text) (sub : Subscription) : Dispatch :=
  let next := {dispatch with index := dispatch.index + 1}
  if topicMatches callbacks.topic pattern then
    match callbacks.filterFn sub with
    | .error exc => {dispatch with escaped := some exc}
    | .ok false => next
    | .ok true =>
        let actions := callbacks.react dispatch.events sub
        {next with
          subscribers := run Subscribers.act dispatch.subscribers actions
          events := dispatch.events ++ .called sub :: unsubscriptions actions}
  else next

def step (dispatch : Dispatch) : Dispatch :=
  match dispatch.escaped,dispatch.lists with
  | none,(pattern,reference) :: later =>
      match (dispatch.subscribers.list reference)[dispatch.index]? with
      | none => {dispatch with lists := later,index := 0}
      | some sub => dispatch.visit callbacks pattern sub
  | _,_ => dispatch

-- The loop after so many steps.
def after (subscribers : Subscribers) (steps : Nat) : Dispatch := (step callbacks)^[steps] (start subscribers)

end Dispatch

def wanted (callbacks : Callbacks) (entry : Text × Subscription) : Bool :=
  topicMatches callbacks.topic entry.1 && match callbacks.filterFn entry.2 with
    | .ok passes => passes
    | .error _ => false

-- The message reaches those who were subscribed when it was taken and are still
-- when their turn comes, and no one else.
structure Delivers (callbacks : Callbacks) (subscribers : Subscribers) (last : Dispatch) : Prop where
  finished : last.finished
  reached : ∀ entry ∈ subscribers.existing, wanted callbacks entry = true →
    .called entry.2 ∈ last.events ∨ .unsubscribed entry.2 ∈ last.events
  entitled : ∀ before sub later, before ++ .called sub :: later = last.events →
    (∃ pattern, (pattern,sub) ∈ subscribers.existing) ∧ .unsubscribed sub ∉ before

def Reentrant (callbacks : Callbacks) (subscribers : Subscribers) : Prop :=
  ∃ steps, Delivers callbacks subscribers (Dispatch.after callbacks subscribers steps)

-- What the loop would come to if the lists stayed as they are.
def ahead (subscribers : Subscribers) : List (Text × Nat) → Nat → List (Text × Subscription)
  | [],_ => []
  | entry :: later,index => ((subscribers.list entry.2).drop index).map (fun sub => (entry.1,sub)) ++
      later.flatMap fun entry => (subscribers.list entry.2).map fun sub => (entry.1,sub)

-- Nothing that concerns the message is added to a list the loop still holds, and
-- no one is unsubscribed whose turn is still to come.
def CalmAction (callbacks : Callbacks) (lists : List (Text × Nat)) (index : Nat) (subscribers : Subscribers) : Action → Prop
  | .subscribe topicPattern => ∀ entry ∈ lists, subscribers.table.get topicPattern = some entry.2 →
      topicMatches callbacks.topic entry.1 = true → callbacks.filterFn ⟨subscribers.made,topicPattern⟩ = .ok false
  | .unsubscribe subscription => ∀ entry ∈ ahead subscribers lists index, entry.2 = subscription → wanted callbacks entry = false

-- The filter that is asked answers, and the callback that is called is calm.
def CalmTurn (callbacks : Callbacks) (dispatch : Dispatch) : Prop :=
  dispatch.escaped = none → ∀ pattern reference later, dispatch.lists = (pattern,reference) :: later →
    ∀ sub, (dispatch.subscribers.list reference)[dispatch.index]? = some sub →
      topicMatches callbacks.topic pattern = true → ∃ passes, callbacks.filterFn sub = .ok passes ∧
        (passes = true → Steps Subscribers.act (CalmAction callbacks dispatch.lists (dispatch.index + 1))
          dispatch.subscribers (callbacks.react dispatch.events sub))

def Calm (callbacks : Callbacks) (subscribers : Subscribers) : Prop :=
  ∀ steps, CalmTurn callbacks (Dispatch.after callbacks subscribers steps)

theorem wanted_iff (callbacks : Callbacks) (entry : Text × Subscription) : wanted callbacks entry = true ↔
    topicMatches callbacks.topic entry.1 = true ∧ callbacks.filterFn entry.2 = .ok true := by
  unfold wanted
  rw [Bool.and_eq_true]
  cases callbacks.filterFn entry.2 <;> simp

-- Every number has been given out, and every reference points to a list.
structure Sound (subscribers : Subscribers) : Prop where
  numbered : ∀ reference, ∀ sub ∈ subscribers.list reference, sub.number < subscribers.made
  placed : ∀ pattern reference, subscribers.table.get pattern = some reference → reference < subscribers.lists.length

section Lists
variable {subscribers : Subscribers}

-- What an action appends to a list that is there.
def grown (subscribers : Subscribers) (reference : Nat) : Action → List Subscription
  | .subscribe topicPattern =>
      if subscribers.table.get topicPattern = some reference then [⟨subscribers.made,topicPattern⟩] else []
  | .unsubscribe _ => []

theorem getD_append {lists : List (List Subscription)} {reference : Nat} (inside : reference < lists.length)
    (other : List Subscription) : (lists ++ [other]).getD reference [] = lists.getD reference [] := by
  rw [List.getD_eq_getElem?_getD,List.getD_eq_getElem?_getD,List.getElem?_append_left inside]

theorem subscribe_list {reference : Nat} (inside : reference < subscribers.lists.length) (topicPattern : Text) :
    (subscribers.subscribe topicPattern).list reference = subscribers.list reference ++
      if subscribers.table.get topicPattern = some reference then [⟨subscribers.made,topicPattern⟩] else [] := by
  unfold Subscribers.subscribe Subscribers.list
  cases found : subscribers.table.get topicPattern with
  | none => simpa using getD_append inside _
  | some there =>
      dsimp only
      rw [List.getD_eq_getElem?_getD,List.getElem?_modify,List.getD_eq_getElem?_getD,List.getElem?_eq_getElem inside]
      by_cases same : there = reference <;> simp [same]

theorem act_list {reference : Nat} (inside : reference < subscribers.lists.length) (action : Action) :
    (subscribers.act action).list reference = subscribers.list reference ++ grown subscribers reference action := by
  cases action with
  | subscribe topicPattern => exact subscribe_list inside topicPattern
  | unsubscribe subscription =>
      change (subscribers.unsubscribe subscription).list reference = subscribers.list reference ++ []
      unfold Subscribers.unsubscribe Subscribers.list
      dsimp only
      rw [List.append_nil]
      split
      · rfl
      · exact getD_append inside _

theorem act_length (subscribers : Subscribers) (action : Action) :
    subscribers.lists.length ≤ (subscribers.act action).lists.length := by
  cases action with
  | subscribe topicPattern =>
      change _ ≤ (subscribers.subscribe topicPattern).lists.length
      unfold Subscribers.subscribe
      cases subscribers.table.get topicPattern <;> simp
  | unsubscribe subscription =>
      change _ ≤ (subscribers.unsubscribe subscription).lists.length
      unfold Subscribers.unsubscribe
      dsimp only
      split <;> simp

theorem act_made (subscribers : Subscribers) (action : Action) : subscribers.made ≤ (subscribers.act action).made := by
  cases action with
  | subscribe topicPattern =>
      change _ ≤ (subscribers.subscribe topicPattern).made
      unfold Subscribers.subscribe
      cases subscribers.table.get topicPattern <;> simp
  | unsubscribe subscription =>
      change _ ≤ (subscribers.unsubscribe subscription).made
      unfold Subscribers.unsubscribe
      dsimp only
      split <;> exact Nat.le_refl _

theorem unsubscribe_parts (subscribers : Subscribers) (subscription : Subscription) :
    (subscribers.unsubscribe subscription).made = subscribers.made ∧
      ∀ pattern reference, (subscribers.unsubscribe subscription).table.get pattern = some reference →
        subscribers.table.get pattern = some reference ∨
          (reference = subscribers.lists.length ∧ reference < (subscribers.unsubscribe subscription).lists.length) := by
  unfold Subscribers.unsubscribe
  dsimp only
  split
  · refine ⟨rfl,fun pattern reference found => .inl ?_⟩
    rw [get_erase] at found
    split at found
    · cases found
    · exact found
  · refine ⟨rfl,fun pattern reference found => ?_⟩
    rw [get_set] at found
    split at found
    · cases found
      exact .inr ⟨rfl,by simp⟩
    · exact .inl found

-- Past the lists that were there only the one added is found.
theorem mem_added {lists : List (List Subscription)} {reference : Nat} (new : lists.length ≤ reference)
    {added : List Subscription} {sub : Subscription} (member : sub ∈ (lists ++ [added]).getD reference []) : sub ∈ added := by
  rw [List.getD_eq_getElem?_getD,List.getElem?_append_right new] at member
  cases gap : reference - lists.length with
  | zero =>
      rw [gap] at member
      exact member
  | succ more =>
      rw [gap] at member
      cases member

theorem nothing_past {lists : List (List Subscription)} {reference : Nat} (new : lists.length ≤ reference) :
    lists.getD reference [] = [] := by
  rw [List.getD_eq_getElem?_getD,List.getElem?_eq_none new]
  rfl

theorem subscribe_new {reference : Nat} (new : subscribers.lists.length ≤ reference) (topicPattern : Text) (sub : Subscription)
    (member : sub ∈ (subscribers.subscribe topicPattern).list reference) :
    sub.number < (subscribers.subscribe topicPattern).made := by
  unfold Subscribers.subscribe Subscribers.list at member
  unfold Subscribers.subscribe
  cases found : subscribers.table.get topicPattern with
  | none =>
      rw [found] at member
      cases List.mem_singleton.mp (mem_added new member)
      exact Nat.lt_succ_self _
  | some there =>
      rw [found] at member
      dsimp only at member
      rw [nothing_past (by rwa [List.length_modify])] at member
      cases member

theorem unsubscribe_new {reference : Nat} (new : subscribers.lists.length ≤ reference) (subscription sub : Subscription)
    (member : sub ∈ (subscribers.unsubscribe subscription).list reference) : ∃ other, sub ∈ subscribers.list other := by
  unfold Subscribers.unsubscribe Subscribers.list at member
  dsimp only at member
  split at member
  next =>
    rw [nothing_past new] at member
    cases member
  next =>
    have old := List.mem_of_mem_filter (mem_added new member)
    cases found : subscribers.table.get subscription.topicPattern with
    | none =>
        rw [found] at old
        cases old
    | some there =>
        rw [found] at old
        exact ⟨there,old⟩

-- A list made by an action holds the new subscription, or old ones.
theorem act_new {reference : Nat} (new : subscribers.lists.length ≤ reference) (action : Action) (sub : Subscription)
    (member : sub ∈ (subscribers.act action).list reference) :
    sub.number < (subscribers.act action).made ∨ ∃ other, sub ∈ subscribers.list other := by
  cases action with
  | subscribe topicPattern => exact .inl (subscribe_new new topicPattern sub member)
  | unsubscribe subscription => exact .inr (unsubscribe_new new subscription sub member)

theorem grown_made {reference : Nat} (action : Action) (sub : Subscription)
    (new : sub ∈ grown subscribers reference action) : sub.number < (subscribers.act action).made := by
  cases action with
  | subscribe topicPattern =>
      change sub ∈ (if subscribers.table.get topicPattern = some reference then _ else _) at new
      split at new
      next found =>
        cases List.mem_singleton.mp new
        change _ < (subscribers.subscribe topicPattern).made
        rw [Subscribers.subscribe,found]
        exact Nat.lt_succ_self _
      next => cases new
  | unsubscribe subscription => cases new

theorem subscribe_placed {pattern : Text} {reference : Nat} (topicPattern : Text)
    (placed : ∀ other, subscribers.table.get pattern = some other → other < subscribers.lists.length)
    (found : (subscribers.subscribe topicPattern).table.get pattern = some reference) :
    reference < (subscribers.subscribe topicPattern).lists.length := by
  unfold Subscribers.subscribe at found ⊢
  cases there : subscribers.table.get topicPattern with
  | none =>
      rw [there] at found
      dsimp only at found ⊢
      rw [get_set] at found
      rw [List.length_append,List.length_singleton]
      split at found
      · cases found
        exact Nat.lt_succ_self _
      · exact Nat.lt_succ_of_lt (placed reference found)
  | some other =>
      rw [there] at found
      dsimp only at found ⊢
      rw [List.length_modify]
      exact placed reference found

theorem act_sound (sound : Sound subscribers) (action : Action) : Sound (subscribers.act action) := by
  have more := act_made subscribers action
  refine ⟨?_,?_⟩
  · intro reference sub member
    by_cases inside : reference < subscribers.lists.length
    · rw [act_list inside,List.mem_append] at member
      rcases member with old | new
      · exact Nat.lt_of_lt_of_le (sound.numbered reference sub old) more
      · exact grown_made action sub new
    · rcases act_new (not_lt.mp inside) action sub member with new | ⟨other,old⟩
      · exact new
      · exact Nat.lt_of_lt_of_le (sound.numbered other sub old) more
  · intro pattern reference found
    cases action with
    | subscribe topicPattern => exact subscribe_placed topicPattern (sound.placed pattern) found
    | unsubscribe subscription =>
        rcases (unsubscribe_parts subscribers subscription).2 pattern reference found with old | ⟨_,inside⟩
        · exact Nat.lt_of_lt_of_le (sound.placed pattern reference old) (act_length subscribers (.unsubscribe subscription))
        · exact inside

theorem empty_sound : Sound Subscribers.empty := by
  refine ⟨?_,?_⟩
  · intro reference sub member
    cases member
  · intro pattern reference found
    cases found

theorem run_made (subscribers : Subscribers) (actions : List Action) :
    subscribers.made ≤ (run Subscribers.act subscribers actions).made := by
  induction actions generalizing subscribers with
  | nil => exact Nat.le_refl _
  | cons action rest ih => exact Nat.le_trans (act_made subscribers action) (ih _)

theorem run_sound (sound : Sound subscribers) (actions : List Action) : Sound (run Subscribers.act subscribers actions) :=
  throughout_end (throughout_invariant (fun _ action sound (_ : True) => act_sound sound action) _ actions sound
    (steps_forall (fun _ _ _ => trivial) _))

theorem reached_sound (history : List Action) : Sound (run Subscribers.act Subscribers.empty history) :=
  run_sound empty_sound history

end Lists

-- The lists the loop holds are there, and it is within the first of them.
structure Placed (subscribers : Subscribers) (lists : List (Text × Nat)) (index : Nat) : Prop where
  inside : ∀ entry ∈ lists, entry.2 < subscribers.lists.length
  within : ∀ entry later, lists = entry :: later → index ≤ (subscribers.list entry.2).length

section Ahead
variable {subscribers : Subscribers} {lists : List (Text × Nat)} {index : Nat}

theorem ahead_start (entries : List (Text × Nat)) : ahead subscribers entries 0 =
    entries.flatMap fun entry => (subscribers.list entry.2).map fun sub => (entry.1,sub) := by
  cases entries with
  | nil => rfl
  | cons entry later => rw [ahead,List.drop_zero,List.flatMap_cons]

theorem ahead_none {entry : Text × Nat} {later : List (Text × Nat)} (passed : (subscribers.list entry.2)[index]? = none) :
    ahead subscribers (entry :: later) index = ahead subscribers later 0 := by
  rw [ahead,List.drop_eq_nil_of_le (List.getElem?_eq_none_iff.mp passed),ahead_start]
  rfl

theorem ahead_some {entry : Text × Nat} {later : List (Text × Nat)} {sub : Subscription}
    (here : (subscribers.list entry.2)[index]? = some sub) :
    ahead subscribers (entry :: later) index = (entry.1,sub) :: ahead subscribers (entry :: later) (index + 1) := by
  obtain ⟨inside,rfl⟩ := List.getElem?_eq_some_iff.mp here
  rw [ahead,ahead,List.drop_eq_getElem_cons inside]
  rfl

theorem placed_act (placed : Placed subscribers lists index) (action : Action) :
    Placed (subscribers.act action) lists index := by
  refine ⟨?_,?_⟩
  · intro entry member
    exact Nat.lt_of_lt_of_le (placed.inside entry member) (act_length subscribers action)
  · intro entry later whole
    have inside := placed.inside entry (by rw [whole]; exact List.mem_cons_self)
    rw [act_list inside,List.length_append]
    exact Nat.le_add_right_of_le (placed.within entry later whole)

-- What an action adds to what is ahead.
theorem mem_ahead_act (placed : Placed subscribers lists index) (action : Action) (found : Text × Subscription) :
    found ∈ ahead (subscribers.act action) lists index ↔ found ∈ ahead subscribers lists index ∨
      ∃ entry ∈ lists, entry.1 = found.1 ∧ found.2 ∈ grown subscribers entry.2 action := by
  have mapped : ∀ (pattern : Text) (subs : List Subscription), found ∈ subs.map (fun sub => (pattern,sub)) ↔
      pattern = found.1 ∧ found.2 ∈ subs := by
    intro pattern subs
    rw [List.mem_map]
    constructor
    · rintro ⟨sub,member,rfl⟩
      exact ⟨rfl,member⟩
    · rintro ⟨rfl,member⟩
      exact ⟨found.2,member,rfl⟩
  cases lists with
  | nil => simp [ahead]
  | cons entry later =>
      have first := placed.inside entry List.mem_cons_self
      simp only [ahead,List.mem_append,List.mem_flatMap,mapped,act_list first,
        List.drop_append_of_le_length (placed.within entry later rfl)]
      have others : (∃ other ∈ later, other.1 = found.1 ∧ found.2 ∈ (subscribers.act action).list other.2) ↔
          (∃ other ∈ later, other.1 = found.1 ∧ found.2 ∈ subscribers.list other.2) ∨
            ∃ other ∈ later, other.1 = found.1 ∧ found.2 ∈ grown subscribers other.2 action := by
        constructor
        · rintro ⟨other,member,same,held⟩
          rw [act_list (placed.inside other (List.mem_cons_of_mem _ member)),List.mem_append] at held
          exact held.imp (fun old => ⟨other,member,same,old⟩) fun new => ⟨other,member,same,new⟩
        · intro either
          have kept : ∀ other ∈ later, found.2 ∈ subscribers.list other.2 ∨ found.2 ∈ grown subscribers other.2 action →
              found.2 ∈ (subscribers.act action).list other.2 := by
            intro other member held
            rw [act_list (placed.inside other (List.mem_cons_of_mem _ member)),List.mem_append]
            exact held
          rcases either with ⟨other,member,same,old⟩ | ⟨other,member,same,new⟩
          · exact ⟨other,member,same,kept other member (.inl old)⟩
          · exact ⟨other,member,same,kept other member (.inr new)⟩
      rw [others]
      simp only [List.mem_cons,exists_eq_or_imp,and_or_left]
      exact or_or_or_comm

variable {callbacks : Callbacks}

theorem calm_grown {action : Action} (calm : CalmAction callbacks lists index subscribers action) {entry : Text × Nat}
    (member : entry ∈ lists) (sub : Subscription) (new : sub ∈ grown subscribers entry.2 action) :
    wanted callbacks (entry.1,sub) = false := by
  cases action with
  | subscribe topicPattern =>
      change sub ∈ (if subscribers.table.get topicPattern = some entry.2 then _ else _) at new
      split at new
      next found =>
        cases List.mem_singleton.mp new
        rw [Bool.eq_false_iff]
        intro wants
        obtain ⟨topic,passes⟩ := (wanted_iff callbacks _).mp wants
        cases passes.symm.trans (calm entry member found topic)
      next => cases new
  | unsubscribe subscription => cases new

-- A calm action leaves the wanted ones ahead as they are.
theorem calm_ahead (placed : Placed subscribers lists index) {action : Action}
    (calm : CalmAction callbacks lists index subscribers action) :
    (ahead (subscribers.act action) lists index).filter (wanted callbacks) =
      (ahead subscribers lists index).filter (wanted callbacks) := by
  have none : ∀ entry ∈ lists, ((grown subscribers entry.2 action).map fun sub => (entry.1,sub)).filter (wanted callbacks) = [] := by
    intro entry member
    rw [List.filter_eq_nil_iff]
    intro found inside
    obtain ⟨sub,new,rfl⟩ := List.mem_map.mp inside
    rw [calm_grown calm member sub new]
    exact Bool.false_ne_true
  cases lists with
  | nil => rfl
  | cons entry later =>
      rw [ahead,ahead,act_list (placed.inside entry List.mem_cons_self),
        List.drop_append_of_le_length (placed.within entry later rfl),List.map_append]
      simp only [List.filter_append,none entry List.mem_cons_self,List.append_nil,List.filter_flatMap]
      refine congrArg _ (List.flatMap_congr fun other member => ?_)
      have there := List.mem_cons_of_mem entry member
      rw [act_list (placed.inside other there),List.map_append,List.filter_append,none other there,List.append_nil]

theorem calm_run (placed : Placed subscribers lists index) {actions : List Action}
    (calm : Steps Subscribers.act (CalmAction callbacks lists index) subscribers actions) :
    (ahead (run Subscribers.act subscribers actions) lists index).filter (wanted callbacks) =
      (ahead subscribers lists index).filter (wanted callbacks) := by
  induction actions generalizing subscribers with
  | nil => rfl
  | cons action rest ih => exact (ih (placed_act placed action) calm.2).trans (calm_ahead placed calm.1)

theorem calm_unsubscribed (placed : Placed subscribers lists index) {actions : List Action}
    (calm : Steps Subscribers.act (CalmAction callbacks lists index) subscribers actions) {entry : Text × Subscription}
    (here : entry ∈ ahead subscribers lists index) (wants : wanted callbacks entry = true) :
    .unsubscribed entry.2 ∉ unsubscriptions actions := by
  induction actions generalizing subscribers with
  | nil => exact List.not_mem_nil
  | cons action rest ih =>
      have later := ih (placed_act placed action) calm.2 ((mem_ahead_act placed action entry).mpr (.inl here))
      cases action with
      | subscribe topicPattern => exact later
      | unsubscribe subscription =>
          rw [unsubscriptions,List.mem_cons,not_or]
          refine ⟨?_,later⟩
          intro same
          cases wants.symm.trans (calm.1 entry here (Event.unsubscribed.inj same))

theorem placed_run (placed : Placed subscribers lists index) (actions : List Action) :
    Placed (run Subscribers.act subscribers actions) lists index := by
  induction actions generalizing subscribers with
  | nil => exact placed
  | cons action rest ih => exact ih (placed_act placed action)

theorem ahead_run (placed : Placed subscribers lists index) (actions : List Action) {entry : Text × Subscription}
    (here : entry ∈ ahead subscribers lists index) : entry ∈ ahead (run Subscribers.act subscribers actions) lists index := by
  induction actions generalizing subscribers with
  | nil => exact here
  | cons action rest ih => exact ih (placed_act placed action) ((mem_ahead_act placed action entry).mpr (.inl here))

theorem unsubscriptions_events (actions : List Action) (sub : Subscription) : .called sub ∉ unsubscriptions actions := by
  induction actions with
  | nil => exact List.not_mem_nil
  | cons action rest ih =>
      cases action with
      | subscribe topicPattern => exact ih
      | unsubscribe subscription =>
          rw [unsubscriptions,List.mem_cons,not_or]
          exact ⟨nofun,ih⟩

end Ahead

theorem called_split {before later events tail : List Event} {one sub : Subscription} (quiet : ∀ other, .called other ∉ tail)
    (same : before ++ .called one :: later = events ++ .called sub :: tail) :
    (∃ rest, before ++ .called one :: rest = events) ∨ (before = events ∧ one = sub) := by
  rcases List.append_eq_append_iff.mp same with ⟨middle,rfl,whole⟩ | ⟨middle,rfl,whole⟩
  · cases middle with
    | nil =>
        obtain ⟨head,_⟩ := List.cons.inj whole
        exact .inr ⟨(List.append_nil before).symm,Event.called.inj head⟩
    | cons first rest =>
        obtain ⟨rfl,_⟩ := List.cons.inj whole
        exact .inl ⟨rest,rfl⟩
  · cases middle with
    | nil =>
        obtain ⟨head,_⟩ := List.cons.inj whole
        exact .inr ⟨List.append_nil events,(Event.called.inj head).symm⟩
    | cons first rest =>
        obtain ⟨_,inside⟩ := List.cons.inj whole
        refine absurd ?_ (quiet one)
        rw [inside]
        exact List.mem_append_right _ List.mem_cons_self

-- The loop under way: whom it still wants to call, and whom it has called.
structure Course (callbacks : Callbacks) (subscribers : Subscribers) (dispatch : Dispatch) : Prop where
  goes : dispatch.escaped = none
  placed : Placed dispatch.subscribers dispatch.lists dispatch.index
  due : ∀ entry ∈ ahead dispatch.subscribers dispatch.lists dispatch.index, wanted callbacks entry = true →
    (∃ pattern, (pattern,entry.2) ∈ subscribers.existing) ∧ .unsubscribed entry.2 ∉ dispatch.events
  entitled : ∀ before sub later, before ++ .called sub :: later = dispatch.events →
    (∃ pattern, (pattern,sub) ∈ subscribers.existing) ∧ .unsubscribed sub ∉ before
  reached : ∀ entry ∈ subscribers.existing, wanted callbacks entry = true →
    entry ∈ ahead dispatch.subscribers dispatch.lists dispatch.index ∨ .called entry.2 ∈ dispatch.events

namespace Dispatch
variable {callbacks : Callbacks} {dispatch : Dispatch}

def remaining (dispatch : Dispatch) : List (Text × Subscription) := ahead dispatch.subscribers dispatch.lists dispatch.index

-- First by the calls to come, then by the places and lists.
def rank (callbacks : Callbacks) (dispatch : Dispatch) : ℕ ×ₗ ℕ :=
  toLex ((dispatch.remaining.filter (wanted callbacks)).length,dispatch.remaining.length + dispatch.lists.length)

theorem rank_same {next : Dispatch} (same : next.remaining.filter (wanted callbacks) = dispatch.remaining.filter (wanted callbacks))
    (less : next.remaining.length + next.lists.length < dispatch.remaining.length + dispatch.lists.length) :
    rank callbacks next < rank callbacks dispatch := by
  unfold rank
  rw [same]
  exact Prod.Lex.right _ less

theorem rank_fewer {next : Dispatch} (less : (next.remaining.filter (wanted callbacks)).length <
    (dispatch.remaining.filter (wanted callbacks)).length) : rank callbacks next < rank callbacks dispatch :=
  Prod.Lex.left _ _ less

def calling (callbacks : Callbacks) (dispatch : Dispatch) (sub : Subscription) : Dispatch :=
  let actions := callbacks.react dispatch.events sub
  {dispatch with
    index := dispatch.index + 1
    subscribers := run Subscribers.act dispatch.subscribers actions
    events := dispatch.events ++ .called sub :: unsubscriptions actions}

-- The place the loop is at.
structure Here (dispatch : Dispatch) (entry : Text × Nat) (later : List (Text × Nat)) (sub : Subscription) : Prop where
  goes : dispatch.escaped = none
  lists : dispatch.lists = entry :: later
  place : (dispatch.subscribers.list entry.2)[dispatch.index]? = some sub

-- All that one step can do.
inductive Turn (callbacks : Callbacks) (dispatch : Dispatch) : Dispatch → Prop where
  | ended (halted : dispatch.lists = [] ∨ dispatch.escaped ≠ none) : Turn callbacks dispatch dispatch
  | passed (entry : Text × Nat) (later : List (Text × Nat)) (goes : dispatch.escaped = none)
      (lists : dispatch.lists = entry :: later) (passed : (dispatch.subscribers.list entry.2)[dispatch.index]? = none) :
      Turn callbacks dispatch {dispatch with lists := later,index := 0}
  | skipped (entry : Text × Nat) (later : List (Text × Nat)) (sub : Subscription) (here : dispatch.Here entry later sub)
      (refused : topicMatches callbacks.topic entry.1 = true → callbacks.filterFn sub = .ok false) :
      Turn callbacks dispatch {dispatch with index := dispatch.index + 1}
  | raised (entry : Text × Nat) (later : List (Text × Nat)) (sub : Subscription) (here : dispatch.Here entry later sub)
      (exc : Failure) (topic : topicMatches callbacks.topic entry.1 = true) (raises : callbacks.filterFn sub = .error exc) :
      Turn callbacks dispatch {dispatch with escaped := some exc}
  | called (entry : Text × Nat) (later : List (Text × Nat)) (sub : Subscription) (here : dispatch.Here entry later sub)
      (wants : wanted callbacks (entry.1,sub) = true) : Turn callbacks dispatch (dispatch.calling callbacks sub)

theorem turn (callbacks : Callbacks) (dispatch : Dispatch) : Turn callbacks dispatch (dispatch.step callbacks) := by
  cases goes : dispatch.escaped with
  | some exc =>
      rw [show dispatch.step callbacks = dispatch by simp only [step,goes]]
      exact .ended (.inr (by rw [goes]; exact Option.some_ne_none exc))
  | none =>
      cases lists : dispatch.lists with
      | nil =>
          rw [show dispatch.step callbacks = dispatch by simp only [step,goes,lists]]
          exact .ended (.inl lists)
      | cons entry later =>
          cases place : (dispatch.subscribers.list entry.2)[dispatch.index]? with
          | none =>
              rw [show dispatch.step callbacks = {dispatch with lists := later,index := 0} by simp only [step,goes,lists,place]]
              exact .passed entry later goes lists place
          | some sub =>
              rw [show dispatch.step callbacks = dispatch.visit callbacks entry.1 sub by simp only [step,goes,lists,place]]
              have here : dispatch.Here entry later sub := ⟨goes,lists,place⟩
              cases topic : topicMatches callbacks.topic entry.1 with
              | false =>
                  rw [visit,topic]
                  exact .skipped entry later sub here fun matched => absurd (topic.symm.trans matched) Bool.false_ne_true
              | true =>
                  rw [visit,topic]
                  cases answer : callbacks.filterFn sub with
                  | error exc => exact .raised entry later sub here exc topic answer
                  | ok passes =>
                      cases passes with
                      | false => exact .skipped entry later sub here fun _ => answer
                      | true => exact .called entry later sub here ((wanted_iff callbacks _).mpr ⟨topic,answer⟩)

theorem next_placed (placed : Placed dispatch.subscribers dispatch.lists dispatch.index) {entry : Text × Nat}
    {later : List (Text × Nat)} {sub : Subscription} (here : dispatch.Here entry later sub) :
    Placed dispatch.subscribers dispatch.lists (dispatch.index + 1) := by
  obtain ⟨inside,_⟩ := List.getElem?_eq_some_iff.mp here.place
  refine ⟨placed.inside,?_⟩
  intro other rest whole
  cases here.lists.symm.trans whole
  exact inside

theorem here_ahead {entry : Text × Nat} {later : List (Text × Nat)} {sub : Subscription} (here : dispatch.Here entry later sub) :
    dispatch.remaining = (entry.1,sub) :: ahead dispatch.subscribers dispatch.lists (dispatch.index + 1) := by
  rw [remaining,here.lists]
  exact ahead_some here.place

theorem later_placed (placed : Placed dispatch.subscribers dispatch.lists dispatch.index) {entry : Text × Nat}
    {later : List (Text × Nat)} (lists : dispatch.lists = entry :: later) : Placed dispatch.subscribers later 0 := by
  refine ⟨?_,fun _ _ _ => Nat.zero_le _⟩
  intro other member
  exact placed.inside other (by rw [lists]; exact List.mem_cons_of_mem _ member)

-- A place passed over, since its subscription is not wanted.
theorem course_skipped {subscribers : Subscribers} (course : Course callbacks subscribers dispatch) {entry : Text × Nat}
    {later : List (Text × Nat)} {sub : Subscription} (here : dispatch.Here entry later sub)
    (unwanted : wanted callbacks (entry.1,sub) = false) :
    Course callbacks subscribers {dispatch with index := dispatch.index + 1} ∧
      rank callbacks {dispatch with index := dispatch.index + 1} < rank callbacks dispatch := by
  have whole := here_ahead here
  refine ⟨⟨course.goes,next_placed course.placed here,?_,course.entitled,?_⟩,?_⟩
  · intro found member
    apply course.due found
    change found ∈ dispatch.remaining
    rw [whole]
    exact List.mem_cons_of_mem _ member
  · intro found existing wants
    refine (course.reached found existing wants).imp_left fun member => ?_
    change found ∈ dispatch.remaining at member
    rw [whole,List.mem_cons] at member
    refine member.resolve_left ?_
    rintro rfl
    exact Bool.false_ne_true (unwanted.symm.trans wants)
  · apply rank_same
    · rw [whole,List.filter_cons_of_neg (by rw [unwanted]; exact Bool.false_ne_true)]
      rfl
    · rw [whole]
      exact Nat.add_lt_add_right (Nat.lt_succ_self _) _

theorem course_called {subscribers : Subscribers} (course : Course callbacks subscribers dispatch) {entry : Text × Nat}
    {later : List (Text × Nat)} {sub : Subscription} (here : dispatch.Here entry later sub)
    (wants : wanted callbacks (entry.1,sub) = true)
    (calm : Steps Subscribers.act (CalmAction callbacks dispatch.lists (dispatch.index + 1)) dispatch.subscribers
      (callbacks.react dispatch.events sub)) :
    Course callbacks subscribers (dispatch.calling callbacks sub) ∧
      rank callbacks (dispatch.calling callbacks sub) < rank callbacks dispatch := by
  have whole := here_ahead here
  have placed := next_placed course.placed here
  have same := calm_run placed calm
  have head : (entry.1,sub) ∈ dispatch.remaining := by
    rw [whole]
    exact List.mem_cons_self
  have tail : ∀ found ∈ ahead dispatch.subscribers dispatch.lists (dispatch.index + 1), found ∈ dispatch.remaining := by
    intro found member
    rw [whole]
    exact List.mem_cons_of_mem _ member
  refine ⟨⟨course.goes,placed_run placed _,?_,?_,?_⟩,?_⟩
  · intro found member desired
    have old : found ∈ ahead dispatch.subscribers dispatch.lists (dispatch.index + 1) := by
      change found ∈ ahead (run Subscribers.act _ _) dispatch.lists (dispatch.index + 1) at member
      have kept := List.mem_filter.mpr ⟨member,desired⟩
      rw [same] at kept
      exact (List.mem_filter.mp kept).1
    obtain ⟨existing,before⟩ := course.due found (tail found old) desired
    refine ⟨existing,?_⟩
    change _ ∉ dispatch.events ++ _
    rw [List.mem_append,List.mem_cons,not_or,not_or]
    exact ⟨before,Event.noConfusion,calm_unsubscribed placed calm old desired⟩
  · intro before one rest events
    rcases called_split (unsubscriptions_events _) events with ⟨after,old⟩ | ⟨rfl,rfl⟩
    · exact course.entitled before one after old
    · exact course.due _ head wants
  · intro found existing desired
    change found ∈ ahead (run Subscribers.act _ _) _ _ ∨ _ ∈ dispatch.events ++ _
    rcases course.reached found existing desired with member | called
    · change found ∈ dispatch.remaining at member
      rw [whole,List.mem_cons] at member
      rcases member with rfl | member
      · exact .inr (List.mem_append_right _ List.mem_cons_self)
      · exact .inl (ahead_run placed _ member)
    · exact .inr (List.mem_append_left _ called)
  · apply rank_fewer
    rw [whole,List.filter_cons_of_pos wants,List.length_cons,← same]
    exact Nat.lt_succ_self _

theorem course_step {subscribers : Subscribers} (course : Course callbacks subscribers dispatch)
    (calm : CalmTurn callbacks dispatch) (more : dispatch.lists ≠ []) {next : Dispatch} (turned : Turn callbacks dispatch next) :
    Course callbacks subscribers next ∧ rank callbacks next < rank callbacks dispatch := by
  cases turned with
  | ended halted => exact absurd course.goes (halted.resolve_left more)
  | passed entry later goes lists passed =>
      have same : ahead dispatch.subscribers dispatch.lists dispatch.index = ahead dispatch.subscribers later 0 := by
        rw [lists]
        exact ahead_none passed
      refine ⟨⟨course.goes,later_placed course.placed lists,?_,course.entitled,?_⟩,?_⟩
      · rw [← same]
        exact course.due
      · rw [← same]
        exact course.reached
      · apply rank_same
        · exact congrArg _ same.symm
        · rw [remaining,remaining,same,lists]
          exact Nat.lt_succ_self _
  | skipped entry later sub here refused =>
      apply course_skipped course here
      rw [Bool.eq_false_iff]
      intro wants
      obtain ⟨topic,passes⟩ := (wanted_iff callbacks _).mp wants
      cases passes.symm.trans (refused topic)
  | raised entry later sub here exc topic raises =>
      obtain ⟨passes,answer,_⟩ := calm here.goes entry.1 entry.2 later here.lists sub here.place topic
      cases raises.symm.trans answer
  | called entry later sub here wants =>
      obtain ⟨topic,answer⟩ := (wanted_iff callbacks _).mp wants
      obtain ⟨passes,given,actions⟩ := calm here.goes entry.1 entry.2 later here.lists sub here.place topic
      apply course_called course here wants
      exact actions (Except.ok.inj (given.symm.trans answer))

theorem start_placed {subscribers : Subscribers} (sound : Sound subscribers) :
    Placed subscribers subscribers.table.entries 0 := by
  refine ⟨?_,fun _ _ _ => Nat.zero_le _⟩
  intro entry member
  exact sound.placed entry.1 entry.2 ((mem_entries subscribers.table _ _).mp member)

theorem course_start {subscribers : Subscribers} (sound : Sound subscribers) : Course callbacks subscribers (start subscribers) := by
  have existing : ahead subscribers subscribers.table.entries 0 = subscribers.existing := ahead_start _
  refine ⟨rfl,start_placed sound,?_,?_,?_⟩
  · intro entry member _
    change entry ∈ ahead subscribers subscribers.table.entries 0 at member
    rw [existing] at member
    exact ⟨⟨entry.1,member⟩,List.not_mem_nil⟩
  · intro before sub later whole
    cases before <;> cases whole
  · intro entry member _
    refine .inl ?_
    change entry ∈ ahead subscribers subscribers.table.entries 0
    rw [existing]
    exact member

-- The rank comes down until no list is left.
theorem course_ends {subscribers : Subscribers} {dispatch : Dispatch} (course : Course callbacks subscribers dispatch)
    (calm : ∀ steps, CalmTurn callbacks ((step callbacks)^[steps] dispatch)) :
    ∃ steps, ((step callbacks)^[steps] dispatch).lists = [] ∧ Course callbacks subscribers ((step callbacks)^[steps] dispatch) := by
  by_cases ended : dispatch.lists = []
  · exact ⟨0,ended,course⟩
  · obtain ⟨next,_⟩ := course_step course (calm 0) ended (turn callbacks dispatch)
    obtain ⟨steps,ends⟩ := course_ends next fun steps => calm (steps + 1)
    exact ⟨steps + 1,ends⟩
termination_by rank callbacks dispatch
decreasing_by exact (course_step course (calm 0) ended (turn callbacks dispatch)).2

theorem step_fixed (halted : dispatch.lists = [] ∨ dispatch.escaped ≠ none) : dispatch.step callbacks = dispatch := by
  cases goes : dispatch.escaped with
  | some exc => simp only [step,goes]
  | none =>
      have ended := halted.resolve_right (not_not_intro goes)
      simp only [step,goes,ended]

-- What holds of every step, calm or not.
structure Onward (dispatch next : Dispatch) : Prop where
  sound : Sound next.subscribers
  placed : Placed next.subscribers next.lists next.index
  made : dispatch.subscribers.made ≤ next.subscribers.made
  events : dispatch.events <+: next.events

theorem step_onward (sound : Sound dispatch.subscribers) (placed : Placed dispatch.subscribers dispatch.lists dispatch.index)
    {next : Dispatch} (turned : Turn callbacks dispatch next) : Onward dispatch next := by
  cases turned with
  | ended halted => exact ⟨sound,placed,Nat.le_refl _,List.prefix_rfl⟩
  | passed entry later goes lists passed => exact ⟨sound,later_placed placed lists,Nat.le_refl _,List.prefix_rfl⟩
  | skipped entry later sub here refused => exact ⟨sound,next_placed placed here,Nat.le_refl _,List.prefix_rfl⟩
  | raised entry later sub here exc topic raises => exact ⟨sound,placed,Nat.le_refl _,List.prefix_rfl⟩
  | called entry later sub here wants =>
      exact ⟨run_sound sound _,placed_run (next_placed placed here) _,run_made _ _,List.prefix_append _ _⟩

-- One that is ahead is visited, or still ahead.
theorem step_ahead (placed : Placed dispatch.subscribers dispatch.lists dispatch.index) {found : Text × Subscription}
    (member : found ∈ dispatch.remaining) {next : Dispatch} (turned : Turn callbacks dispatch next) :
    found ∈ next.remaining ∨ (wanted callbacks found = true ∧ next = dispatch.calling callbacks found.2) ∨
      (topicMatches callbacks.topic found.1 = true → callbacks.filterFn found.2 = .ok false) := by
  cases turned with
  | ended halted => exact .inl member
  | passed entry later goes lists passed =>
      rw [remaining,lists,ahead_none passed] at member
      exact .inl member
  | skipped entry later sub here refused =>
      rw [here_ahead here,List.mem_cons] at member
      rcases member with rfl | member
      · exact .inr (.inr refused)
      · exact .inl member
  | raised entry later sub here exc topic raises => exact .inl member
  | called entry later sub here wants =>
      rw [here_ahead here,List.mem_cons] at member
      rcases member with rfl | member
      · exact .inr (.inl ⟨wants,rfl⟩)
      · exact .inl (ahead_run (next_placed placed here) _ member)

theorem step_called {entry : Text × Nat} {later : List (Text × Nat)} {sub : Subscription} (here : dispatch.Here entry later sub)
    (wants : wanted callbacks (entry.1,sub) = true) : dispatch.step callbacks = dispatch.calling callbacks sub := by
  obtain ⟨topic,passes⟩ := (wanted_iff callbacks _).mp wants
  simp only [step,here.goes,here.lists,here.place,visit,topic,passes,calling,if_true]

theorem onward_after {subscribers : Subscribers} (sound : Sound subscribers) (steps : Nat) :
    Onward (start subscribers) (after callbacks subscribers steps) := by
  induction steps with
  | zero => exact ⟨sound,start_placed sound,Nat.le_refl _,List.prefix_rfl⟩
  | succ steps ih =>
      have next := step_onward ih.sound ih.placed (turn callbacks (after callbacks subscribers steps))
      rw [after,Function.iterate_succ_apply']
      exact ⟨next.sound,next.placed,ih.made.trans next.made,ih.events.trans next.events⟩

theorem onward_events (sound : Sound dispatch.subscribers) (placed : Placed dispatch.subscribers dispatch.lists dispatch.index)
    (steps : Nat) : dispatch.events <+: ((step callbacks)^[steps] dispatch).events := by
  induction steps generalizing dispatch with
  | zero => exact List.prefix_rfl
  | succ steps ih =>
      have next := step_onward sound placed (turn callbacks dispatch)
      exact next.events.trans (ih next.sound next.placed)

theorem finished_ahead (finished : dispatch.finished) : dispatch.remaining = [] := by
  rw [remaining,finished.1]
  rfl

-- One that is wanted and ahead is called before the loop finishes.
theorem called_later (sound : Sound dispatch.subscribers) (placed : Placed dispatch.subscribers dispatch.lists dispatch.index)
    {found : Text × Subscription} (member : found ∈ dispatch.remaining) (wants : wanted callbacks found = true) (steps : Nat)
    (finished : ((step callbacks)^[steps] dispatch).finished) :
    ∃ before later, before ++ .called found.2 :: later = ((step callbacks)^[steps] dispatch).events ∧
      dispatch.events <+: before := by
  induction steps generalizing dispatch with
  | zero =>
      have none := finished_ahead finished
      rw [Function.iterate_zero_apply] at none
      rw [none] at member
      cases member
  | succ steps ih =>
      have turned := turn callbacks dispatch
      have next := step_onward sound placed turned
      rcases step_ahead placed member turned with still | ⟨_,called⟩ | refused
      · obtain ⟨before,later,whole,early⟩ := ih next.sound next.placed still finished
        exact ⟨before,later,whole,next.events.trans early⟩
      · obtain ⟨rest,whole⟩ := onward_events next.sound next.placed steps
        rw [called] at whole
        refine ⟨dispatch.events,unsubscriptions (callbacks.react dispatch.events found.2) ++ rest,?_,List.prefix_rfl⟩
        rw [Function.iterate_succ_apply,called,← whole]
        exact (List.append_assoc dispatch.events (_ :: _) rest).symm
      · obtain ⟨topic,passes⟩ := (wanted_iff callbacks _).mp wants
        cases passes.symm.trans (refused topic)

-- One whose filter raises keeps the loop from finishing.
theorem answers (placed : Placed dispatch.subscribers dispatch.lists dispatch.index) (sound : Sound dispatch.subscribers)
    {found : Text × Subscription} (member : found ∈ dispatch.remaining) (topic : topicMatches callbacks.topic found.1 = true)
    (steps : Nat) (finished : ((step callbacks)^[steps] dispatch).finished) : ∃ passes, callbacks.filterFn found.2 = .ok passes := by
  induction steps generalizing dispatch with
  | zero =>
      have none := finished_ahead finished
      rw [Function.iterate_zero_apply] at none
      rw [none] at member
      cases member
  | succ steps ih =>
      have turned := turn callbacks dispatch
      have next := step_onward sound placed turned
      rcases step_ahead placed member turned with still | ⟨wants,_⟩ | refused
      · exact ih next.placed next.sound still finished
      · exact ⟨true,((wanted_iff callbacks _).mp wants).2⟩
      · exact ⟨false,refused topic⟩

end Dispatch

theorem mem_unsubscriptions (actions : List Action) (sub : Subscription) (member : .unsubscribe sub ∈ actions) :
    .unsubscribed sub ∈ unsubscriptions actions := by
  induction actions with
  | nil => cases member
  | cons action rest ih =>
      rcases List.mem_cons.mp member with rfl | later
      · exact List.mem_cons_self
      · cases action with
        | subscribe topicPattern => exact ih later
        | unsubscribe subscription => exact List.mem_cons_of_mem _ (ih later)

theorem existing_numbered {subscribers : Subscribers} (sound : Sound subscribers) {pattern : Text} {sub : Subscription}
    (existing : (pattern,sub) ∈ subscribers.existing) : sub.number < subscribers.made := by
  obtain ⟨entry,_,member⟩ := List.mem_flatMap.mp existing
  obtain ⟨_,held,same⟩ := List.mem_map.mp member
  obtain ⟨rfl,rfl⟩ := Prod.mk.inj same
  exact sound.numbered entry.2 _ held

theorem calm_delivers {callbacks : Callbacks} {subscribers : Subscribers} (sound : Sound subscribers)
    (calm : Calm callbacks subscribers) : Reentrant callbacks subscribers := by
  obtain ⟨steps,ended,course⟩ := Dispatch.course_ends (Dispatch.course_start sound) calm
  refine ⟨steps,⟨ended,course.goes⟩,?_,course.entitled⟩
  intro entry existing wants
  refine .inl ((course.reached entry existing wants).resolve_left ?_)
  rw [ended]
  exact List.not_mem_nil

section Delivered
variable {callbacks : Callbacks} {subscribers : Subscribers} {dispatch last : Dispatch} {entry : Text × Nat}
  {later : List (Text × Nat)} {sub : Subscription}

-- A callback's actions, in a loop that delivers as it should.
theorem delivered_calm (sound : Sound subscribers) (onward : Dispatch.Onward (Dispatch.start subscribers) dispatch)
    (here : dispatch.Here entry later sub) (wants : wanted callbacks (entry.1,sub) = true) (steps : Nat)
    (delivers : Delivers callbacks subscribers ((Dispatch.step callbacks)^[steps] (dispatch.calling callbacks sub))) :
    Steps Subscribers.act (CalmAction callbacks dispatch.lists (dispatch.index + 1)) dispatch.subscribers
      (callbacks.react dispatch.events sub) := by
  by_contra unmet
  obtain ⟨front,action,rest,whole,failed⟩ := steps_failure unmet
  have placed := Dispatch.next_placed onward.placed here
  have next := Dispatch.step_onward onward.sound onward.placed (.called entry later sub here wants)
  have acted := placed_act (placed_run placed front) action
  have final : (dispatch.calling callbacks sub).remaining = ahead (run Subscribers.act ((run Subscribers.act dispatch.subscribers
      front).act action) rest) dispatch.lists (dispatch.index + 1) := by
    change ahead (run Subscribers.act dispatch.subscribers (callbacks.react dispatch.events sub)) dispatch.lists
      (dispatch.index + 1) = _
    rw [whole,run_append,run_cons]
  cases action with
  | subscribe topicPattern =>
      apply failed
      intro other member found topic
      have ahead : (other.1,⟨(run Subscribers.act dispatch.subscribers front).made,topicPattern⟩) ∈
          (dispatch.calling callbacks sub).remaining := by
        rw [final]
        apply ahead_run acted
        refine (mem_ahead_act (placed_run placed front) _ _).mpr (.inr ⟨other,member,rfl,?_⟩)
        rw [grown,if_pos found]
        exact List.mem_singleton_self _
      obtain ⟨passes,answer⟩ := Dispatch.answers next.placed next.sound ahead topic steps delivers.finished
      cases passes with
      | false => exact answer
      | true =>
          have desired := (wanted_iff callbacks (other.1,_)).mpr ⟨topic,answer⟩
          obtain ⟨before,rest,events,_⟩ := Dispatch.called_later next.sound next.placed ahead desired steps delivers.finished
          obtain ⟨⟨pattern,existing⟩,_⟩ := delivers.entitled before _ rest events
          have old := existing_numbered sound existing
          have new := onward.made.trans (run_made dispatch.subscribers front)
          exact absurd old (not_lt.mpr new)
  | unsubscribe subscription =>
      apply failed
      rintro found member rfl
      rw [Bool.eq_false_iff]
      intro desired
      have ahead : found ∈ (dispatch.calling callbacks sub).remaining := by
        rw [final]
        apply ahead_run acted
        exact (mem_ahead_act (placed_run placed front) _ _).mpr (.inl member)
      obtain ⟨before,rest,events,early⟩ := Dispatch.called_later next.sound next.placed ahead desired steps delivers.finished
      apply (delivers.entitled before _ rest events).2
      apply early.subset
      refine List.mem_append_right _ (List.mem_cons_of_mem _ (mem_unsubscriptions _ _ ?_))
      rw [whole]
      exact List.mem_append_right _ List.mem_cons_self

theorem delivered_turn (sound : Sound subscribers) (onward : Dispatch.Onward (Dispatch.start subscribers) dispatch) (steps : Nat)
    (delivers : Delivers callbacks subscribers ((Dispatch.step callbacks)^[steps] dispatch)) : CalmTurn callbacks dispatch := by
  intro goes pattern reference later lists sub place topic
  have here : dispatch.Here (pattern,reference) later sub := ⟨goes,lists,place⟩
  have head : (pattern,sub) ∈ dispatch.remaining := by
    rw [Dispatch.here_ahead here]
    exact List.mem_cons_self
  obtain ⟨passes,answer⟩ := Dispatch.answers onward.placed onward.sound head topic steps delivers.finished
  refine ⟨passes,answer,?_⟩
  rintro rfl
  have wants := (wanted_iff callbacks (pattern,sub)).mpr ⟨topic,answer⟩
  refine delivered_calm sound onward here wants steps ?_
  rw [← Dispatch.step_called here wants,← Function.iterate_succ_apply,Function.iterate_succ_apply',
    Dispatch.step_fixed (.inl delivers.finished.1)]
  exact delivers

theorem delivers_calm (sound : Sound subscribers) (reentrant : Reentrant callbacks subscribers) : Calm callbacks subscribers := by
  obtain ⟨steps,delivers⟩ := reentrant
  intro turns
  apply delivered_turn sound (Dispatch.onward_after sound turns) steps
  rw [Dispatch.after,← Function.iterate_add_apply,Nat.add_comm,Function.iterate_add_apply]
  change Delivers callbacks subscribers ((Dispatch.step callbacks)^[turns] (Dispatch.after callbacks subscribers steps))
  rw [Function.iterate_fixed (Dispatch.step_fixed (.inl delivers.finished.1))]
  exact delivers

end Delivered

theorem reentrant_exact (callbacks : Callbacks) (history : List Action) :
    Reentrant callbacks (run Subscribers.act .empty history) ↔ Calm callbacks (run Subscribers.act .empty history) :=
  ⟨delivers_calm (reached_sound history),calm_delivers (reached_sound history)⟩

-- The first subscriber's callback subscribes another to the topic it is told of.
def inviting : Callbacks where
  topic := ['j','o','b']
  filterFn := fun _ => .ok true
  react := fun _ sub => if sub.number = 0 then [.subscribe ['j','o','b']] else []

theorem newcomer_called : ¬ Reentrant inviting (run Subscribers.act .empty [.subscribe ['j','o','b']]) := by
  intro reentrant
  have calm := delivers_calm (reached_sound _) reentrant 0
  obtain ⟨passes,answer,actions⟩ := calm rfl ['j','o','b'] 0 [] rfl ⟨0,['j','o','b']⟩ rfl (by decide)
  cases answer
  have refused := (actions rfl).1 (['j','o','b'],0) List.mem_cons_self (by decide) (by decide)
  cases refused

end Kryvaracode.Reentrancy
