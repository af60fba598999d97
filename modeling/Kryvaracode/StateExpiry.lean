import Kryvaracode.StateStore
import Kryvaracode.Runs

namespace Kryvaracode.StateStore
open InsertionDict Runs

variable {objects : Objects}

-- One awaited operation, with the readings of the clock it makes.
structure Call (objects : Objects) where
  op : KeyOp objects
  check : Int
  stamp : Int

inductive Sweep where
  | keys
  | cleanupExpired
  deriving DecidableEq, Repr

inductive Turn (objects : Objects) where
  | call (call : Call objects)
  | sweep (kind : Sweep) (readings : Text → Int) (start stop : Int)

def Turn.start : Turn objects → Int
  | .call made => made.check
  | .sweep _ _ start _ => start

def Turn.stop : Turn objects → Int
  | .call made => made.stamp
  | .sweep _ _ _ stop => stop

def Turn.timed : Turn objects → Prop
  | .call made => made.check ≤ made.stamp
  | .sweep _ readings start stop => start ≤ stop ∧ ∀ key, start ≤ readings key ∧ readings key ≤ stop

-- The clock does not run backwards.
def OrderedFrom (floor : Int) : List (Turn objects) → Prop
  | [] => True
  | turn :: rest => floor ≤ turn.start ∧ turn.timed ∧ OrderedFrom turn.stop rest

def finish (floor : Int) : List (Turn objects) → Int
  | [] => floor
  | turn :: rest => finish turn.stop rest

def called (state : SharedState objects) (call : Call objects) : SharedState objects :=
  (perform call.op call.check call.stamp state).1

def taken (state : SharedState objects) : Turn objects → SharedState objects
  | .call call => called state call
  | .sweep .keys readings _ _ => (state.keys readings).1
  | .sweep .cleanupExpired readings _ _ => state.cleanupExpired readings

-- The value, boolean or version a caller gets to see.
def Answer.seen : Answer objects → Answer objects
  | .entry shown => .entry {shown with createdAt := 0,updatedAt := 0,ttlSeconds := none,createdBy := []}
  | other => other

def answers : SharedState objects → List (Turn objects) → List (Answer objects)
  | _,[] => []
  | state,.call call :: rest => (perform call.op call.check call.stamp state).2.seen :: answers (called state call) rest
  | state,.sweep kind readings start stop :: rest => answers (taken state (.sweep kind readings start stop)) rest

def callsOf : List (Turn objects) → List (Call objects)
  | [] => []
  | .call call :: rest => call :: callsOf rest
  | .sweep _ _ _ _ :: rest => callsOf rest

def unswept (calls : List (Call objects)) : List (Turn objects) := calls.map .call

def live (state : SharedState objects) (now : Int) (key : Text) : Option (objects.Value × Nat) :=
  ((state.store.get key).filter fun entry => !isExpired now entry).map fun entry => (entry.value,entry.version)

structure Schedule (objects : Objects) where
  floor : Int
  calls : List (Call objects)
  ordered : OrderedFrom floor (unswept calls)

def SweepsUnobservable (schedule : Schedule objects) : Prop :=
  ∀ turns, OrderedFrom schedule.floor turns → callsOf turns = schedule.calls →
    answers SharedState.init turns = answers SharedState.init (unswept schedule.calls) ∧
      ∀ now key, finish schedule.floor turns ≤ now → live (run taken SharedState.init turns) now key =
        live (run taken SharedState.init (unswept schedule.calls)) now key

-- The two operations that look at no clock meet nothing that has expired.
def MeetsLive (state : SharedState objects) (call : Call objects) : Prop :=
  call.op.checks = true ∨ unexpired state call.op.key call.check

-- The store that was swept lacks some of what has expired in the other.
def Lag (now : Int) (swept lazy : SharedState objects) : Prop :=
  ∀ key, swept.store.get key = lazy.store.get key ∨
    (swept.store.get key = none ∧ ∃ entry, lazy.store.get key = some entry ∧ isExpired now entry = true)

theorem isExpired_later {first second : Int} (order : first ≤ second) (entry : StateEntry objects)
    (past : isExpired first entry = true) : isExpired second entry = true := by
  unfold isExpired at past ⊢
  cases ttl : entry.ttlSeconds with
  | none => simp [ttl] at past
  | some duration =>
      simp only [ttl] at past ⊢
      exact objects.later (by omega) past

theorem lag_later {first second : Int} (order : first ≤ second) {swept lazy : SharedState objects}
    (lag : Lag first swept lazy) : Lag second swept lazy := by
  intro key
  refine (lag key).imp_right ?_
  intro missed
  obtain ⟨missing,entry,found,past⟩ := missed
  exact ⟨missing,entry,found,isExpired_later order entry past⟩

theorem cleanup_get (state : SharedState objects) (readings : Text → Int) (key : Text) :
    (state.cleanupExpired readings).store.get key = (state.sweepExpiredUnlocked readings).store.get key := by
  unfold SharedState.cleanupExpired
  generalize state.sweepExpiredUnlocked readings = swept
  induction state.expiredEntries readings generalizing swept with
  | nil => rfl
  | cons entry rest ih => rw [List.foldl_cons,ih,append_store]

theorem taken_sweep (state : SharedState objects) (kind : Sweep) (readings : Text → Int) (start stop : Int) (key : Text) :
    (taken state (.sweep kind readings start stop)).store.get key =
      (state.store.get key).filter fun entry => !isExpired (readings key) entry := by
  cases kind with
  | keys => exact sweepExpired_get state readings key
  | cleanupExpired => exact (cleanup_get state readings key).trans (sweepExpired_get state readings key)

theorem lag_sweep {now : Int} {swept lazy : SharedState objects} (lag : Lag now swept lazy) (kind : Sweep)
    (readings : Text → Int) (start stop : Int) (early : now ≤ start) (timed : (Turn.sweep kind readings start stop : Turn objects).timed) :
    Lag stop (taken swept (.sweep kind readings start stop)) lazy := by
  intro key
  rw [taken_sweep]
  rcases lag key with same | ⟨missing,entry,found,past⟩
  · cases held : swept.store.get key with
    | none => exact .inl (by simpa [held] using same)
    | some entry =>
        cases past : isExpired (readings key) entry with
        | false => exact .inl (by simp [past,← same,held])
        | true =>
            refine .inr ⟨by simp [past],entry,same ▸ held,?_⟩
            exact isExpired_later (timed.2 key).2 entry past
  · refine .inr ⟨by simp [missing],entry,found,?_⟩
    exact isExpired_later (early.trans timed.1) entry past

theorem course_past (op : KeyOp objects) (checks : op.checks = true) (check stamp : Int) (entry : StateEntry objects)
    (past : isExpired check entry = true) : (course op check stamp (some entry)).1 = .drop ∧
      (course op check stamp none).1 = .keep ∧
      (course op check stamp (some entry)).2 = (course op check stamp none).2 := by
  cases op with
  | set => cases checks
  | delete => cases checks
  | get => simp [course,look,past]
  | getEntry => simp [course,look,past]
  | «exists» => simp [course,look,past]
  | atomicUpdate => simp [course,look,past]
  | compareAndSet => simp [course,look,past]

theorem lag_call {now : Int} {swept lazy : SharedState objects} (lag : Lag now swept lazy) (call : Call objects)
    (early : now ≤ call.check) (timed : call.check ≤ call.stamp) (meets : MeetsLive lazy call) :
    (perform call.op call.check call.stamp swept).2 = (perform call.op call.check call.stamp lazy).2 ∧
      Lag call.stamp (called swept call) (called lazy call) := by
  have stays : ∀ key, key ≠ call.op.key → (called swept call).store.get key = (called lazy call).store.get key ∨
      ((called swept call).store.get key = none ∧
        ∃ entry, (called lazy call).store.get key = some entry ∧ isExpired call.stamp entry = true) := by
    intro key apart
    rw [called,called,perform_get,perform_get,if_neg apart,if_neg apart]
    exact lag_later (early.trans timed) lag key
  rcases lag call.op.key with same | ⟨missing,entry,found,past⟩
  · refine ⟨?_,?_⟩
    · rw [perform_course,perform_course,same]
    · intro key
      by_cases here : key = call.op.key
      · rw [called,called,perform_get,perform_get,if_pos here,if_pos here,same]
        exact .inl rfl
      · exact stays key here
  · have gone := isExpired_later early entry past
    have checks : call.op.checks = true := by
      refine meets.resolve_right ?_
      intro fresh
      rw [fresh entry found] at gone
      cases gone
    obtain ⟨dropped,kept,answered⟩ := course_past call.op checks call.check call.stamp entry gone
    refine ⟨?_,?_⟩
    · rw [perform_course,perform_course,missing,found,answered]
    · intro key
      by_cases here : key = call.op.key
      · rw [called,called,perform_get,perform_get,if_pos here,if_pos here,missing,found,dropped,kept]
        exact .inl rfl
      · exact stays key here

theorem lag_run {floor : Int} {swept lazy : SharedState objects} (lag : Lag floor swept lazy) (turns : List (Turn objects))
    (ordered : OrderedFrom floor turns) (meets : Steps called MeetsLive lazy (callsOf turns)) :
    answers swept turns = answers lazy (unswept (callsOf turns)) ∧
      Lag (finish floor turns) (run taken swept turns) (run taken lazy (unswept (callsOf turns))) := by
  induction turns generalizing floor swept lazy with
  | nil => exact ⟨rfl,lag⟩
  | cons turn rest ih =>
      obtain ⟨early,timed,later⟩ := ordered
      cases turn with
      | call call =>
          obtain ⟨answered,after⟩ := lag_call lag call early timed meets.1
          obtain ⟨same,ended⟩ := ih after later meets.2
          refine ⟨?_,ended⟩
          simp only [callsOf,unswept,List.map_cons,answers,answered] at same ⊢
          rw [same]
      | sweep kind readings start stop => exact ih (lag_sweep lag kind readings start stop early timed) later meets

theorem lag_live {now : Int} {swept lazy : SharedState objects} (lag : Lag now swept lazy) (key : Text) :
    live swept now key = live lazy now key := by
  unfold live
  rcases lag key with same | ⟨missing,entry,found,past⟩
  · rw [same]
  · simp [missing,found,past]

theorem lag_refl (now : Int) (state : SharedState objects) : Lag now state state := fun _ => .inl rfl

theorem orderedFrom_append (floor : Int) (front rest : List (Turn objects)) :
    OrderedFrom floor (front ++ rest) ↔ OrderedFrom floor front ∧ OrderedFrom (finish floor front) rest := by
  induction front generalizing floor with
  | nil => simp [OrderedFrom,finish]
  | cons turn front ih => simp only [List.cons_append,OrderedFrom,finish,ih,and_assoc]

theorem callsOf_append (front rest : List (Turn objects)) : callsOf (front ++ rest) = callsOf front ++ callsOf rest := by
  induction front with
  | nil => rfl
  | cons turn front ih =>
      cases turn with
      | call call => exact congrArg (call :: ·) ih
      | sweep => exact ih

theorem callsOf_unswept (calls : List (Call objects)) : callsOf (unswept calls) = calls := by
  induction calls with
  | nil => rfl
  | cons call rest ih => exact congrArg (call :: ·) ih

theorem answers_append (state : SharedState objects) (front rest : List (Turn objects)) :
    answers state (front ++ rest) = answers state front ++ answers (run taken state front) rest := by
  induction front generalizing state with
  | nil => rfl
  | cons turn front ih =>
      cases turn with
      | call call => exact congrArg (_ :: ·) (ih (called state call))
      | sweep => exact ih _

theorem run_unswept (state : SharedState objects) (calls : List (Call objects)) :
    run taken state (unswept calls) = run called state calls := by
  induction calls generalizing state with
  | nil => rfl
  | cons call rest ih => exact ih (called state call)

-- Swept just before, the entry under the key is gone, and the answer tells.
theorem swept_differs (state : SharedState objects) (call : Call objects) (unmet : ¬ MeetsLive state call) :
    (perform call.op call.check call.stamp (taken state (.sweep .keys (fun _ => call.check) call.check call.check))).2.seen ≠
      (perform call.op call.check call.stamp state).2.seen := by
  simp only [MeetsLive,unexpired,not_or,not_forall,Bool.not_eq_true,Bool.not_eq_false] at unmet
  obtain ⟨unchecked,entry,found,past⟩ := unmet
  have gone : (taken state (.sweep .keys (fun _ => call.check) call.check call.check)).store.get call.op.key = none := by
    rw [taken_sweep,found]
    simp [past]
  rw [perform_course,perform_course,gone,found]
  have counted := entry.counted
  cases op : call.op with
  | set key value source ttlSeconds =>
      simp only [course,Answer.seen,SharedState.revised,ne_eq,Answer.entry.injEq,StateEntry.mk.injEq]
      omega
  | delete key source => simp [course,Answer.seen]
  | get => simp [op,KeyOp.checks] at unchecked
  | getEntry => simp [op,KeyOp.checks] at unchecked
  | «exists» => simp [op,KeyOp.checks] at unchecked
  | atomicUpdate => simp [op,KeyOp.checks] at unchecked
  | compareAndSet => simp [op,KeyOp.checks] at unchecked

theorem swept_ordered {floor : Int} {front rest : List (Call objects)} {call : Call objects}
    (ordered : OrderedFrom floor (unswept (front ++ call :: rest))) :
    OrderedFrom floor (unswept front ++ .sweep .keys (fun _ => call.check) call.check call.check :: unswept (call :: rest)) := by
  rw [unswept,List.map_append,orderedFrom_append] at ordered
  obtain ⟨before,early,timed,later⟩ := ordered
  refine (orderedFrom_append floor _ _).mpr ⟨before,early,⟨le_rfl,fun _ => ⟨le_rfl,le_rfl⟩⟩,?_⟩
  exact ⟨le_rfl,timed,later⟩

theorem sweeps_unobservable_exact (schedule : Schedule objects) :
    SweepsUnobservable schedule ↔ Steps called MeetsLive SharedState.init schedule.calls := by
  refine ⟨?_,?_⟩
  · intro unobservable
    by_contra unmet
    obtain ⟨front,call,rest,whole,surprised⟩ := steps_failure unmet
    have ordered := schedule.ordered
    rw [whole] at ordered
    have listed : callsOf (unswept front ++
        .sweep .keys (fun _ => call.check) call.check call.check :: unswept (call :: rest)) = schedule.calls := by
      rw [callsOf_append,callsOf,callsOf_unswept,callsOf_unswept,whole]
    have same := (unobservable _ (swept_ordered ordered) listed).1
    have parts : unswept (front ++ call :: rest) = unswept front ++ unswept (call :: rest) := List.map_append
    rw [whole,parts,answers_append,answers_append,run_unswept] at same
    exact swept_differs _ call surprised (List.cons.inj (List.append_cancel_left same)).1
  · intro meets turns ordered same
    obtain ⟨answered,lag⟩ := lag_run (lag_refl schedule.floor SharedState.init) turns ordered (same ▸ meets)
    rw [same] at answered lag
    refine ⟨answered,?_⟩
    intro now key late
    exact lag_live (lag_later late lag) key

-- The key is set again after its three seconds: the version goes on counting
-- unless a sweep came between.
def renewedAfterExpiry : Schedule plainObjects where
  floor := 0
  calls := [⟨.set ['k'] (some 1) [] (some (3 : Int)),0,0⟩,⟨.set ['k'] (some 2) [] none,5000000,5000000⟩]
  ordered := by simp [unswept,OrderedFrom,Turn.start,Turn.stop,Turn.timed]

theorem renewed_after_expiry_seen : ¬ SweepsUnobservable renewedAfterExpiry := by
  intro unobservable
  have same := (unobservable
    [.call ⟨.set ['k'] (some 1) [] (some (3 : Int)),0,0⟩,.sweep .keys (fun _ => 4000000) 4000000 4000000,
      .call ⟨.set ['k'] (some 2) [] none,5000000,5000000⟩]
    (by simp [OrderedFrom,Turn.start,Turn.stop,Turn.timed,renewedAfterExpiry]) rfl).1
  have versions := congrArg (List.map fun answer => match answer with | .entry entry => entry.version | _ => 0) same
  revert versions
  decide

end Kryvaracode.StateStore
