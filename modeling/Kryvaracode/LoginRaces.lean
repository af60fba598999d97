import Kryvaracode.Lockout
import Kryvaracode.ReadCommitted

namespace Kryvaracode.LoginRaces
open Accounts Lockout InsertionDict Runs ReadCommitted

-- The ORM sends only those values that differ from what it has loaded.
def dirty (columns : Columns) (loaded : User) : Columns where
  failedLoginAttempts := columns.failedLoginAttempts.filter fun attempts => decide (attempts ≠ loaded.failedLoginAttempts)
  lockUntil := columns.lockUntil.filter fun lock => decide (lock ≠ loaded.lockUntil)

def Columns.clean (columns : Columns) : Bool := columns.failedLoginAttempts.isNone && columns.lockUntil.isNone

-- A call of `authenticate_user` on the account by what it does next. The instant of an
-- evaluation is the one from which the new lock is computed.
inductive Stage where
  | reading
  | verifying (read : User) (checked : Int)
  | writing (read : User) (evaluation : Evaluation)
  | committing (read : User) (evaluation : Evaluation)
  | finished

structure Call where
  password : Text
  stage : Stage

-- The connection may be lost at any point.
inductive Act where
  | read (now : Int)
  | verify (elapsed : Nat)
  | write
  | commit
  | abort

structure Effect where
  store : Store Text User
  stage : Stage
  committed : Option Evaluation

structure World where
  store : Store Text User
  calls : List Call
  events : List Evaluation

inductive Label where
  | authenticate (password : Text)
  | act (call : Nat) (act : Act)

section Calls
variable (hashing : Hashing) (timestamps : Timestamps) (account : Text)

def assigned (read : User) (evaluation : Evaluation) : Columns :=
  if evaluation.verified then success else Accounts.failure timestamps read evaluation.instant

def updates (read : User) (evaluation : Evaluation) : Columns := dirty (assigned timestamps read evaluation) read

def check (now : Int) : Option User → Stage
  | none => .finished
  | some user => if user.locked now then .finished else .verifying user now

-- With nothing to send there is no UPDATE.
def verify (password : Text) (read : User) (now : Int) : Stage :=
  let evaluation : Evaluation := ⟨now,hashing.verifyPassword password read.hashedPassword⟩
  if Columns.clean (updates timestamps read evaluation) then .committing read evaluation else .writing read evaluation

-- The UPDATE waits while the row is locked.
def write (store : Store Text User) (call : Nat) (read : User) (evaluation : Evaluation) : Effect :=
  if store.free call account then
    match store.view call account with
    | none => ⟨store.rollback call,.finished,none⟩
    | some row => ⟨store.write call account ((updates timestamps read evaluation).apply row),.committing read evaluation,none⟩
  else ⟨store,.writing read evaluation,none⟩

def act (store : Store Text User) (call : Nat) (password : Text) : Stage → Act → Effect
  | .finished,_ => ⟨store,.finished,none⟩
  | _,.abort => ⟨store.rollback call,.finished,none⟩
  | .reading,.read now => ⟨store,check now (store.view call account),none⟩
  | .verifying read checked,.verify elapsed => ⟨store,verify hashing timestamps password read (checked + elapsed),none⟩
  | .writing read evaluation,.write => write timestamps account store call read evaluation
  | .committing _ evaluation,.commit => ⟨store.commit call,.finished,some evaluation⟩
  | stage,_ => ⟨store,stage,none⟩

def World.init (user : User) : World := ⟨.init (Dict.empty.set account user),[],[]⟩

def World.settle (world : World) (call : Nat) (password : Text) (effect : Effect) : World :=
  ⟨effect.store,world.calls.set call ⟨password,effect.stage⟩,world.events ++ effect.committed.toList⟩

def World.step (world : World) : Label → World
  | .authenticate password => {world with store := world.store.start,calls := world.calls ++ [⟨password,.reading⟩]}
  | .act call does =>
      match world.calls[call]? with
      | none => world
      | some called => world.settle call called.password (act hashing timestamps account world.store call called.password called.stage does)

-- The counter is the number of failures since the last success, and the last failure
-- of five or more has locked the account.
def Tells (user : User) (events : List Evaluation) : Prop :=
  user.failedLoginAttempts = failures events ∧ (maxAttempts ≤ failures events →
    ∃ lock, user.lockUntil = some lock ∧ ∀ front last, events = front ++ [last] → lock.moment = last.instant + lockTime)

def World.quiet (world : World) : Prop := ∀ call ∈ world.calls, call.stage = .finished

def LosesNoFailure (world : World) : Prop :=
  world.quiet → ∃ user, world.store.committed.get account = some user ∧ Tells user world.events

-- A commit finds the counter as the call has read it, or sets it to 0 whatever it is.
def Unraced (world : World) : Label → Prop
  | .authenticate _ => True
  | .act call does => ∀ password read evaluation, world.calls[call]? = some ⟨password,.committing read evaluation⟩ →
      does = .commit → ∀ row, world.store.committed.get account = some row →
        row.failedLoginAttempts = read.failedLoginAttempts ∨
          (evaluation.verified = true ∧ read.failedLoginAttempts ≠ 0)

-- A lock that the call has seen is over when it verifies the password.
def Stage.timely : Stage → Prop
  | .reading | .finished => True
  | .verifying read checked => ∀ lock, read.lockUntil = some lock → lock.moment ≤ checked
  | .writing read evaluation | .committing read evaluation =>
      ∀ lock, read.lockUntil = some lock → lock.moment ≤ evaluation.instant

-- What a call has staged are its own values over the row as it is committed.
structure Sound (world : World) : Prop where
  sized : world.store.staged.length = world.calls.length
  apart : Apart world.store
  present : ∃ user, world.store.committed.get account = some user ∧ Tells user world.events
  timely : ∀ (call : Nat) called, world.calls[call]? = some called → called.stage.timely
  staged : ∀ (call : Nat) called row, world.calls[call]? = some called →
    (world.store.pending call).get account = some row → ∃ read evaluation held, called.stage = .committing read evaluation ∧
      world.store.committed.get account = some held ∧ row = (updates timestamps read evaluation).apply held
  unsent : ∀ (call : Nat) password read evaluation, world.calls[call]? = some ⟨password,.committing read evaluation⟩ →
    (world.store.pending call).get account = none → Columns.clean (updates timestamps read evaluation) = true
end Calls

section Values
variable (timestamps : Timestamps)

theorem dirty_attempts (columns : Columns) (loaded held : User) (attempts : Int)
    (assigns : columns.failedLoginAttempts = some attempts) : ((dirty columns loaded).apply held).failedLoginAttempts =
      if attempts ≠ loaded.failedLoginAttempts then attempts else held.failedLoginAttempts := by
  unfold dirty Columns.apply
  rw [assigns,Option.filter_some]
  by_cases differs : attempts ≠ loaded.failedLoginAttempts
  · rw [if_pos (decide_eq_true differs),if_pos differs]
    rfl
  · rw [if_neg (by simpa using differs),if_neg differs]
    rfl

theorem updates_right (read held : User) (instant : Int) :
    ((updates timestamps read ⟨instant,true⟩).apply held).failedLoginAttempts =
      if (0 : Int) ≠ read.failedLoginAttempts then 0 else held.failedLoginAttempts :=
  dirty_attempts success read held 0 rfl

theorem updates_wrong (read held : User) (instant : Int) :
    ((updates timestamps read ⟨instant,false⟩).apply held).failedLoginAttempts = read.failedLoginAttempts + 1 := by
  rw [updates,assigned,if_neg Bool.false_ne_true,dirty_attempts _ read held _ rfl,if_pos (by omega)]

-- The new lock is later than the one read, so that it is sent.
theorem updates_lock (read held : User) (instant : Int) (many : maxAttempts ≤ read.failedLoginAttempts + 1)
    (past : ∀ lock, read.lockUntil = some lock → lock.moment ≤ instant) :
    ((updates timestamps read ⟨instant,false⟩).apply held).lockUntil = some (timestamps.stored (instant + lockTime)) := by
  have differs : some (timestamps.stored (instant + lockTime)) ≠ read.lockUntil := by
    intro same
    have early := past _ same.symm
    rw [timestamps.stored_moment] at early
    have positive : (0 : Int) < lockTime := by decide
    omega
  rw [updates,assigned,if_neg Bool.false_ne_true]
  unfold Accounts.failure dirty Columns.apply
  dsimp only
  rw [if_pos many,Option.filter_some,if_pos (decide_eq_true differs)]
  rfl

theorem tells_last {read held : User} {events : List Evaluation} (tells : Tells held events) (evaluation : Evaluation)
    (past : ∀ lock, read.lockUntil = some lock → lock.moment ≤ evaluation.instant)
    (unraced : held.failedLoginAttempts = read.failedLoginAttempts ∨
      (evaluation.verified = true ∧ read.failedLoginAttempts ≠ 0)) :
    Tells ((updates timestamps read evaluation).apply held) (events ++ [evaluation]) := by
  obtain ⟨instant,verified⟩ := evaluation
  cases verified with
  | true =>
      unfold Tells
      rw [failures_right,updates_right]
      refine ⟨?_,fun many => absurd many (by decide)⟩
      split
      next => rfl
      next unread =>
        rw [not_not] at unread
        rcases unraced with same | ⟨_,sent⟩
        · rw [same,← unread]
          rfl
        · exact absurd unread.symm sent
  | false =>
      have same := unraced.resolve_right (by simp)
      unfold Tells
      rw [failures_wrong,updates_wrong,Nat.cast_succ,← same,tells.1]
      refine ⟨rfl,?_⟩
      intro many
      rw [← tells.1,same] at many
      refine ⟨_,updates_lock timestamps read held instant many past,?_⟩
      intro front last whole
      obtain ⟨_,mine⟩ := List.append_inj' whole rfl
      rw [List.singleton_inj] at mine
      rw [← mine,timestamps.stored_moment]

theorem clean_apply {columns : Columns} (clean : Columns.clean columns = true) (user : User) : columns.apply user = user := by
  unfold Columns.clean at clean
  rw [Bool.and_eq_true,Option.isNone_iff_eq_none,Option.isNone_iff_eq_none] at clean
  unfold Columns.apply
  rw [clean.1,clean.2]
  rfl
end Values

theorem init_sound (timestamps : Timestamps) (account : Text) (user : User) (fresh : user.failedLoginAttempts = 0) :
    Sound timestamps account (World.init account user) := by
  refine ⟨rfl,?_,⟨user,get_set_same _ _ _,fresh,fun many => absurd many (show ¬ maxAttempts ≤ ((0 : Nat) : Int) by decide)⟩,?_,?_,?_⟩
  · intro key first second held
    exact absurd rfl held
  · intro call called found
    cases found
  · intro call called row found
    cases found
  · intro call password read evaluation found
    cases found

section Steps
variable {timestamps : Timestamps} {account : Text} {world : World} (sound : Sound timestamps account world)
include sound

theorem arrive_sound (password : Text) :
    Sound timestamps account {world with store := world.store.start,calls := world.calls ++ [⟨password,.reading⟩]} := by
  have pending : ∀ call, world.store.start.pending call = world.store.pending call := start_pending world.store
  refine ⟨?_,?_,sound.present,?_,?_,?_⟩
  · simp [Store.start,sound.sized]
  · intro key first second
    change (world.store.start.pending first).get key ≠ none → _
    rw [pending,pending]
    exact sound.apart key first second
  · intro call called found
    rcases append_cases found with earlier | ⟨_,rfl⟩
    · exact sound.timely call called earlier
    · trivial
  · intro call called row found written
    change (world.store.start.pending call).get account = some row at written
    rw [pending] at written
    rcases append_cases found with earlier | ⟨rfl,_⟩
    · exact sound.staged call called row earlier written
    · rw [pending_outside world.store _ sound.sized.le] at written
      cases written
  · intro call password read evaluation found unwritten
    change (world.store.start.pending call).get account = none at unwritten
    rw [pending] at unwritten
    rcases append_cases found with earlier | ⟨_,same⟩
    · exact sound.unsent call password read evaluation earlier unwritten
    · cases same

-- A statement that commits nothing.
theorem kept_sound {call : Nat} {password : Text} (store : Store Text User) (next : Stage)
    (committed : store.committed = world.store.committed) (sized : store.staged.length = world.store.staged.length)
    (apart : Apart store) (others : ∀ other, other ≠ call → store.pending other = world.store.pending other)
    (timely : next.timely)
    (mine : ∀ row, (store.pending call).get account = some row → ∃ read evaluation held, next = .committing read evaluation ∧
      world.store.committed.get account = some held ∧ row = (updates timestamps read evaluation).apply held)
    (unsent : ∀ read evaluation, next = .committing read evaluation → (store.pending call).get account = none →
      Columns.clean (updates timestamps read evaluation) = true) :
    Sound timestamps account (world.settle call password ⟨store,next,none⟩) := by
  have events : (world.settle call password ⟨store,next,none⟩).events = world.events := List.append_nil _
  refine ⟨?_,apart,?_,?_,?_,?_⟩
  · exact (sized.trans sound.sized).trans (List.length_set).symm
  · rw [events]
    change ∃ user, store.committed.get account = some user ∧ _
    rw [committed]
    exact sound.present
  · intro other asked listed
    rcases set_cases listed with ⟨rfl,rfl⟩ | ⟨_,earlier⟩
    · exact timely
    · exact sound.timely other asked earlier
  · intro other asked row listed written
    change ∃ read evaluation held, _ ∧ store.committed.get account = some held ∧ _
    rw [committed]
    rcases set_cases listed with ⟨rfl,rfl⟩ | ⟨different,earlier⟩
    · exact mine row written
    · exact sound.staged other asked row earlier (others other different ▸ written)
  · intro other password read evaluation listed unwritten
    rcases set_cases listed with ⟨rfl,same⟩ | ⟨different,earlier⟩
    · exact unsent read evaluation (congrArg Call.stage same).symm unwritten
    · exact sound.unsent other password read evaluation earlier (others other different ▸ unwritten)

theorem same_sound {call : Nat} {called : Call} (found : world.calls[call]? = some called) :
    Sound timestamps account (world.settle call called.password ⟨world.store,called.stage,none⟩) := by
  refine kept_sound sound world.store called.stage rfl rfl sound.apart (fun _ _ => rfl) (sound.timely call called found)
    (fun row => sound.staged call called row found) ?_
  intro read evaluation stage unwritten
  refine sound.unsent call called.password read evaluation ?_ unwritten
  rw [found,← stage]

-- A call that has not come to its commit has written nothing.
theorem move_sound {call : Nat} {called : Call} (found : world.calls[call]? = some called)
    (before : ∀ read evaluation, called.stage ≠ .committing read evaluation) (next : Stage) (timely : next.timely)
    (unsent : ∀ read evaluation, next = .committing read evaluation → Columns.clean (updates timestamps read evaluation) = true) :
    Sound timestamps account (world.settle call called.password ⟨world.store,next,none⟩) := by
  refine kept_sound sound world.store next rfl rfl sound.apart (fun _ _ => rfl) timely ?_ fun read evaluation stage _ =>
    unsent read evaluation stage
  intro row written
  obtain ⟨read,evaluation,_,stage,_⟩ := sound.staged call called row found written
  exact absurd stage (before read evaluation)

theorem back_sound {call : Nat} {called : Call} (found : world.calls[call]? = some called) :
    Sound timestamps account (world.settle call called.password ⟨world.store.rollback call,.finished,none⟩) := by
  have inside : call < world.store.staged.length := sound.sized ▸ (List.getElem?_eq_some_iff.mp found).1
  have pending := rollback_pending world.store call inside
  refine kept_sound sound _ _ rfl List.length_set (ended_apart sound.apart _ call pending)
    (fun other different => (pending other).trans (if_neg different)) trivial ?_ fun _ _ stage => nomatch stage
  intro row written
  rw [pending,if_pos rfl] at written
  cases written

theorem write_sound {call : Nat} {password : Text} {read : User} {evaluation : Evaluation}
    (found : world.calls[call]? = some ⟨password,.writing read evaluation⟩) :
    Sound timestamps account (world.settle call password (write timestamps account world.store call read evaluation)) := by
  have inside : call < world.store.staged.length := sound.sized ▸ (List.getElem?_eq_some_iff.mp found).1
  unfold write
  split
  next unlocked =>
    cases seen : world.store.view call account with
    | none => exact back_sound sound found
    | some row =>
        have pending := write_pending world.store call account ((updates timestamps read evaluation).apply row) inside
        have held : world.store.committed.get account = some row := by
          unfold Store.view at seen
          cases staged : (world.store.pending call).get account with
          | none =>
              rw [staged] at seen
              exact seen
          | some own =>
              obtain ⟨_,_,_,stage,_⟩ := sound.staged call _ own found staged
              cases stage
        refine kept_sound sound _ _ rfl List.length_set
          (write_apart sound.apart call account _ inside unlocked)
          (fun other different => (pending other).trans (if_neg different)) (sound.timely call _ found) ?_ ?_
        · intro own written
          rw [pending,if_pos rfl,get_set,if_pos rfl,Option.some.injEq] at written
          exact ⟨read,evaluation,row,rfl,held,written.symm⟩
        · intro _ _ _ unwritten
          rw [pending,if_pos rfl,get_set,if_pos rfl] at unwritten
          cases unwritten
  next => exact same_sound sound found

theorem commit_sound {call : Nat} {password : Text} {read : User} {evaluation : Evaluation}
    (found : world.calls[call]? = some ⟨password,.committing read evaluation⟩)
    (unraced : ∀ row, world.store.committed.get account = some row → row.failedLoginAttempts = read.failedLoginAttempts ∨
      (evaluation.verified = true ∧ read.failedLoginAttempts ≠ 0)) :
    Sound timestamps account (world.settle call password ⟨world.store.commit call,.finished,some evaluation⟩) := by
  have inside : call < world.store.staged.length := sound.sized ▸ (List.getElem?_eq_some_iff.mp found).1
  have pending := commit_pending world.store call inside
  obtain ⟨held,shown,tells⟩ := sound.present
  have after : (world.store.commit call).committed.get account = some ((updates timestamps read evaluation).apply held) := by
    rw [commit_get,Store.view]
    cases staged : (world.store.pending call).get account with
    | none =>
        rw [clean_apply (sound.unsent call password read evaluation found staged)]
        exact shown
    | some own =>
        obtain ⟨_,_,row,stage,committed,same⟩ := sound.staged call _ own found staged
        cases stage
        rw [shown] at committed
        cases committed
        rw [same]
        rfl
  refine ⟨?_,ended_apart sound.apart _ call pending,⟨_,after,?_⟩,?_,?_,?_⟩
  · exact (List.length_set.trans sound.sized).trans (List.length_set).symm
  · exact tells_last timestamps tells evaluation (sound.timely call _ found) (unraced held shown)
  · intro other asked listed
    rcases set_cases listed with ⟨_,rfl⟩ | ⟨_,earlier⟩
    · trivial
    · exact sound.timely other asked earlier
  · intro other asked row listed written
    change ((world.store.commit call).pending other).get account = some row at written
    change ∃ read evaluation held, _ ∧ (world.store.commit call).committed.get account = some held ∧ _
    rw [pending] at written
    split at written
    next => cases written
    next different =>
      rw [commit_other sound.apart call other account different (by simp [written])]
      rcases set_cases listed with ⟨same,_⟩ | ⟨_,earlier⟩
      · exact absurd same different
      · exact sound.staged other asked row earlier written
  · intro other name seen evaluated listed unwritten
    change ((world.store.commit call).pending other).get account = none at unwritten
    rw [pending] at unwritten
    rcases set_cases listed with ⟨_,same⟩ | ⟨different,earlier⟩
    · cases same
    · rw [if_neg different] at unwritten
      exact sound.unsent other name seen evaluated earlier unwritten
end Steps

theorem check_timely (now : Int) (row : Option User) :
    (check now row).timely ∧ ∀ read evaluation, check now row ≠ .committing read evaluation := by
  unfold check
  cases row with
  | none => exact ⟨trivial,fun _ _ stage => nomatch stage⟩
  | some user =>
      dsimp only
      split
      next => exact ⟨trivial,fun _ _ stage => nomatch stage⟩
      next free =>
        refine ⟨?_,fun _ _ stage => nomatch stage⟩
        intro lock held
        rw [User.locked,held] at free
        have past : ¬ now < lock.moment := by simpa using free
        exact not_lt.mp past

theorem verify_timely (hashing : Hashing) (timestamps : Timestamps) (password : Text) {read : User} {checked now : Int}
    (timely : (Stage.verifying read checked).timely) (later : checked ≤ now) :
    (verify hashing timestamps password read now).timely := by
  unfold verify
  dsimp only
  split <;> exact fun lock held => (timely lock held).trans later

theorem verify_unsent {hashing : Hashing} {timestamps : Timestamps} {password : Text} {read loaded : User} {now : Int}
    {evaluation : Evaluation} (committing : verify hashing timestamps password read now = .committing loaded evaluation) :
    Columns.clean (updates timestamps loaded evaluation) = true := by
  unfold verify at committing
  dsimp only at committing
  split at committing
  next clean =>
    cases committing
    exact clean
  next => cases committing

theorem step_sound (hashing : Hashing) (timestamps : Timestamps) (account : Text) (world : World) (label : Label)
    (sound : Sound timestamps account world) (unraced : Unraced account world label) :
    Sound timestamps account (world.step hashing timestamps account label) := by
  cases label with
  | authenticate password => exact arrive_sound sound password
  | act call does =>
      unfold World.step
      dsimp only
      cases found : world.calls[call]? with
      | none => exact sound
      | some called =>
          obtain ⟨password,stage⟩ := called
          have same := same_sound sound found
          have back := back_sound sound found
          have timely := sound.timely call _ found
          dsimp only at same back timely ⊢
          cases stage with
          | reading =>
              have checked := fun now => check_timely now (world.store.view call account)
              cases does with
              | read now =>
                  exact move_sound sound found (fun _ _ stage => nomatch stage) _ (checked now).1
                    fun read evaluation stage => absurd stage ((checked now).2 read evaluation)
              | abort => exact back
              | _ => exact same
          | verifying read checked =>
              cases does with
              | verify elapsed =>
                  refine move_sound sound found (fun _ _ stage => nomatch stage) _ ?_ fun _ _ stage => verify_unsent stage
                  exact verify_timely hashing timestamps password timely (by omega)
              | abort => exact back
              | _ => exact same
          | writing read evaluation =>
              cases does with
              | write => exact write_sound sound found
              | abort => exact back
              | _ => exact same
          | committing read evaluation =>
              cases does with
              | commit => exact commit_sound sound found (unraced password read evaluation found rfl)
              | abort => exact back
              | _ => exact same
          | finished => exact same

-- Where no commit comes upon a counter that is not the one read, no failure is lost.
theorem unraced_counted (hashing : Hashing) (timestamps : Timestamps) (account : Text) (user : User)
    (fresh : user.failedLoginAttempts = 0) (labels : List Label)
    (met : Steps (World.step hashing timestamps account) (Unraced account) (World.init account user) labels) :
    Throughout (World.step hashing timestamps account) (LosesNoFailure account) (World.init account user) labels := by
  have always := throughout_invariant (step_sound hashing timestamps account) _ labels
    (init_sound timestamps account user fresh) met
  intro front early _
  exact (always front early).present

def created : User := .created 1 ['m'] ['u'] ['p'] none

def oneAfterTheOther : List Label :=
  [.authenticate ['x'],.act 0 (.read 0),.act 0 (.verify 0),.act 0 .write,.act 0 .commit,
    .authenticate ['y'],.act 1 (.read 1),.act 1 (.verify 0),.act 1 .write,.act 1 .commit]

-- Both read the counter before either has committed.
def twoGuesses : List Label :=
  [.authenticate ['x'],.authenticate ['y'],.act 0 (.read 0),.act 1 (.read 0),.act 0 (.verify 0),.act 1 (.verify 0),
    .act 0 .write,.act 0 .commit,.act 1 .write,.act 1 .commit]

theorem one_after_the_other : Steps (World.step plainHashing utcTimestamps ['u']) (Unraced ['u'])
    (World.init ['u'] created) oneAfterTheOther := by
  have other : ∀ {world call act}, act ≠ Act.commit → Unraced ['u'] world (.act call act) := by
    intro world call act apart _ _ _ _ commits
    exact absurd commits apart
  refine ⟨trivial,other nofun,other nofun,other nofun,?_,trivial,other nofun,other nofun,other nofun,?_,trivial⟩
  · intro password read evaluation found _ row held
    cases found
    cases held
    exact .inl rfl
  · intro password read evaluation found _ row held
    cases found
    cases held
    exact .inl rfl

theorem unraced_counted_two : Throughout (World.step plainHashing utcTimestamps ['u']) (LosesNoFailure ['u'])
    (World.init ['u'] created) oneAfterTheOther :=
  unraced_counted plainHashing utcTimestamps ['u'] created rfl oneAfterTheOther one_after_the_other

theorem guess_not_counted : ¬ Throughout (World.step plainHashing utcTimestamps ['u']) (LosesNoFailure ['u'])
    (World.init ['u'] created) twoGuesses := by
  intro always
  have quiet : (run (World.step plainHashing utcTimestamps ['u']) (World.init ['u'] created) twoGuesses).quiet := by
    intro call listed
    have ended : (run (World.step plainHashing utcTimestamps ['u']) (World.init ['u'] created) twoGuesses).calls =
        [⟨['x'],.finished⟩,⟨['y'],.finished⟩] := rfl
    rw [ended] at listed
    simp only [List.mem_cons,List.not_mem_nil,or_false] at listed
    rcases listed with rfl | rfl <;> rfl
  obtain ⟨user,held,counted,_⟩ := throughout_end always quiet
  have shown : ((run (World.step plainHashing utcTimestamps ['u']) (World.init ['u'] created)
      twoGuesses).store.committed.get ['u']).map User.failedLoginAttempts = some 1 := by decide
  have events : failures (run (World.step plainHashing utcTimestamps ['u']) (World.init ['u'] created) twoGuesses).events = 2 :=
    by decide
  rw [held,Option.map_some,counted,events] at shown
  exact absurd shown (by decide)

end Kryvaracode.LoginRaces
