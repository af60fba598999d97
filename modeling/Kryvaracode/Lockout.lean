import Kryvaracode.Accounts
import Kryvaracode.Runs

namespace Kryvaracode.Lockout
open Accounts Runs

-- A password that was verified: when, and whether it was right.
structure Evaluation where
  instant : Int
  verified : Bool
  deriving DecidableEq, Repr

-- The wrong passwords since the last right one.
def failures (log : List Evaluation) : Nat := (log.reverse.takeWhile fun evaluation => !evaluation.verified).length

section Attempts
variable (hashing : Hashing) (timestamps : Timestamps)

def step (users : Users) (login : Login) : Users := (authenticateUser hashing timestamps users login).users

def evaluation (users : Users) (login : Login) : List Evaluation :=
  ((authenticateUser hashing timestamps users login).verified.map fun verified => ⟨login.evaluated,verified⟩).toList

def evaluations (account : Text) : Users → List Login → List Evaluation
  | _,[] => []
  | users,login :: rest =>
      (if login.username = account then evaluation hashing timestamps users login else []) ++
        evaluations account (step hashing timestamps users login) rest
end Attempts

-- Once there are five failures the next evaluation is half an hour after the last.
def Spaced (log : List Evaluation) : Prop :=
  ∀ front last next rest, log = front ++ last :: next :: rest → maxAttempts ≤ failures (front ++ [last]) →
    last.instant + lockTime ≤ next.instant

-- While the lock lasts nothing is verified and nothing changes.
def LockedOut (hashing : Hashing) (timestamps : Timestamps) (account : Text) (users : Users) (logins : List Login) : Prop :=
  ∀ front login rest user lock, logins = front ++ login :: rest → login.username = account →
    (run (step hashing timestamps) users front).getUserByUsername account = some user → user.lockUntil = some lock →
    login.checked < lock.moment →
      authenticateUser hashing timestamps (run (step hashing timestamps) users front) login =
        ⟨run (step hashing timestamps) users front,none,none⟩

-- With fewer than five failures since the last success a password is verified.
def Budgeted (hashing : Hashing) (timestamps : Timestamps) (account : Text) (users : Users) (logins : List Login) : Prop :=
  ∀ front login rest, logins = front ++ login :: rest → login.username = account →
    failures (evaluations hashing timestamps account users front) < maxAttempts →
      (authenticateUser hashing timestamps (run (step hashing timestamps) users front) login).verified ≠ none

theorem failures_right (log : List Evaluation) (instant : Int) : failures (log ++ [⟨instant,true⟩]) = 0 := by
  rw [failures,List.reverse_concat,List.takeWhile_cons_of_neg (by simp)]
  rfl

theorem failures_wrong (log : List Evaluation) (instant : Int) : failures (log ++ [⟨instant,false⟩]) = failures log + 1 := by
  rw [failures,List.reverse_concat,List.takeWhile_cons_of_pos (by simp)]
  rfl

theorem spaced_append {log : List Evaluation} (spaced : Spaced log) (evaluation : Evaluation)
    (later : ∀ front last, log = front ++ [last] → maxAttempts ≤ failures log → last.instant + lockTime ≤ evaluation.instant) :
    Spaced (log ++ [evaluation]) := by
  intro front last next rest whole many
  rcases List.eq_nil_or_concat rest with rfl | ⟨middle,final,rfl⟩
  · have parts : log ++ [evaluation] = (front ++ [last]) ++ [next] := by simpa using whole
    obtain ⟨rfl,same⟩ := List.append_inj' parts rfl
    rw [List.singleton_inj] at same
    exact same ▸ later front last rfl many
  · have parts : log ++ [evaluation] = (front ++ last :: next :: middle) ++ [final] := by simpa using whole
    exact spaced front last next middle (List.append_inj' parts rfl).1 many

-- What the row of an account knows of its evaluations up to now.
structure Knows (user : User) (log : List Evaluation) : Prop where
  counted : user.failedLoginAttempts = failures log
  unlocked : (failures log : Int) < maxAttempts → user.lockUntil = none
  locked : maxAttempts ≤ failures log → ∃ lock, user.lockUntil = some lock ∧
    ∀ front last, log = front ++ [last] → last.instant + lockTime ≤ lock.moment

section Rows
variable (hashing : Hashing) (timestamps : Timestamps)

def outcome (user : User) (login : Login) : Option Bool :=
  if user.locked login.checked then none else some (hashing.verifyPassword login.password user.hashedPassword)

def after (user : User) (login : Login) : User :=
  match outcome hashing user login with
  | none => user
  | some true => success.apply user
  | some false => (failure timestamps user login.written).apply user

theorem attempt_row {users : Users} {login : Login} {user : User}
    (found : users.getUserByUsername login.username = some user) :
    (authenticateUser hashing timestamps users login).verified = outcome hashing user login ∧
      (step hashing timestamps users login).getUserByUsername login.username = some (after hashing timestamps user login) := by
  unfold step authenticateUser after outcome
  rw [found]
  dsimp only
  by_cases locked : user.locked login.checked = true
  · rw [if_pos locked,if_pos locked]
    exact ⟨rfl,found⟩
  · rw [if_neg locked,if_neg locked]
    cases right : hashing.verifyPassword login.password user.hashedPassword with
    | true =>
        rw [if_pos rfl]
        refine ⟨rfl,?_⟩
        rw [users.getUserByUsername_update,found,Option.map_some,if_pos rfl]
        rfl
    | false =>
        rw [if_neg Bool.false_ne_true]
        refine ⟨rfl,?_⟩
        rw [users.getUserByUsername_update,found,Option.map_some,if_pos rfl]
        rfl

theorem update_other {users : Users} {account : Text} {user other : User}
    (found : users.getUserByUsername account = some user) (listed : other ∈ users.rows) (apart : other.username ≠ account)
    (change : Change) : (users.update other.id change).getUserByUsername account = some user := by
  obtain ⟨present,named⟩ := users.getUserByUsername_some found
  have different : user.id ≠ other.id := by
    intro same
    rw [users.one_row present listed same] at named
    exact apart named
  rw [users.getUserByUsername_update,found,Option.map_some,if_neg different]

theorem step_other {users : Users} {login : Login} {account : Text} {user : User}
    (found : users.getUserByUsername account = some user) (apart : login.username ≠ account) :
    (step hashing timestamps users login).getUserByUsername account = some user := by
  unfold step authenticateUser
  cases asked : users.getUserByUsername login.username with
  | none => exact found
  | some other =>
      obtain ⟨listed,named⟩ := users.getUserByUsername_some asked
      rw [← named] at apart
      dsimp only
      split
      · exact found
      · split
        · exact update_other found listed apart _
        · exact update_other found listed apart _

theorem outcome_checked {user : User} {login : Login} {verified : Bool} (reached : outcome hashing user login = some verified)
    {lock : Scheduling.Stamp} (held : user.lockUntil = some lock) : lock.moment ≤ login.evaluated := by
  unfold outcome at reached
  split at reached
  · cases reached
  · rename_i free
    rw [User.locked,held] at free
    have past : ¬ login.checked < lock.moment := by simpa using free
    exact (not_lt.mp past).trans login.ordered.1

theorem knows_right {user : User} {log : List Evaluation} (instant : Int) :
    Knows (success.apply user) (log ++ [⟨instant,true⟩]) where
  counted := by rw [failures_right]; rfl
  unlocked _ := rfl
  locked many := by rw [failures_right] at many; exact absurd many (by decide)

theorem knows_wrong {user : User} {log : List Evaluation} (knows : Knows user log) (login : Login) :
    Knows ((failure timestamps user login.written).apply user) (log ++ [⟨login.evaluated,false⟩]) where
  counted := by
    rw [failures_wrong,Nat.cast_succ,← knows.counted]
    rfl
  unlocked few := by
    rw [failures_wrong,Nat.cast_succ,← knows.counted] at few
    unfold Accounts.failure Columns.apply
    dsimp only
    rw [if_neg (not_le.mpr few)]
    exact knows.unlocked (by rw [← knows.counted]; exact lt_of_le_of_lt (Int.le_add_one le_rfl) few)
  locked many := by
    rw [failures_wrong,Nat.cast_succ,← knows.counted] at many
    refine ⟨timestamps.stored (login.written + lockTime),?_,?_⟩
    · unfold Accounts.failure Columns.apply
      dsimp only
      rw [if_pos many]
      rfl
    · intro front last whole
      obtain ⟨_,same⟩ := List.append_inj' whole rfl
      rw [List.singleton_inj] at same
      rw [← same,timestamps.stored_moment]
      exact Int.add_le_add_right login.ordered.2 lockTime

theorem evaluations_append (account : Text) (users : Users) (front rest : List Login) :
    evaluations hashing timestamps account users (front ++ rest) =
      evaluations hashing timestamps account users front ++
        evaluations hashing timestamps account (run (step hashing timestamps) users front) rest := by
  induction front generalizing users with
  | nil => rfl
  | cons login front ih =>
      rw [List.cons_append,evaluations,evaluations,ih,run_cons,List.append_assoc]

theorem evaluations_last (account : Text) (users : Users) (front : List Login) (login : Login) :
    evaluations hashing timestamps account users (front ++ [login]) = evaluations hashing timestamps account users front ++
      (if login.username = account then evaluation hashing timestamps (run (step hashing timestamps) users front) login
        else []) := by
  rw [evaluations_append,evaluations,evaluations,List.append_nil]

-- Along any attempts the row knows the log, and the log is spaced.
theorem run_knows {users : Users} {account : Text} {user : User} (found : users.getUserByUsername account = some user)
    (fresh : user.failedLoginAttempts = 0 ∧ user.lockUntil = none) (logins : List Login) :
    ∃ current, (run (step hashing timestamps) users logins).getUserByUsername account = some current ∧
      Knows current (evaluations hashing timestamps account users logins) ∧
      Spaced (evaluations hashing timestamps account users logins) := by
  induction logins using List.reverseRecOn with
  | nil =>
      refine ⟨user,found,⟨fresh.1,fun _ => fresh.2,fun many => absurd many (show ¬ maxAttempts ≤ ((0 : Nat) : Int) by decide)⟩,?_⟩
      intro front last next rest whole
      cases front <;> cases whole
  | append_singleton front login ih =>
      obtain ⟨current,present,knows,spaced⟩ := ih
      rw [evaluations_last,run_append]
      change ∃ _, (step hashing timestamps (run _ users front) login).getUserByUsername account = some _ ∧ _
      by_cases its : login.username = account
      · subst its
        obtain ⟨reached,row⟩ := attempt_row hashing timestamps present
        rw [if_pos rfl,evaluation,reached]
        refine ⟨_,row,?_⟩
        unfold after
        cases answered : outcome hashing current login with
        | none => simpa using ⟨knows,spaced⟩
        | some verified =>
            have later : ∀ before last, evaluations hashing timestamps login.username users front = before ++ [last] →
                maxAttempts ≤ failures (evaluations hashing timestamps login.username users front) →
                last.instant + lockTime ≤ login.evaluated := by
              intro before last whole many
              obtain ⟨lock,held,after_⟩ := knows.locked many
              exact (after_ before last whole).trans (outcome_checked hashing answered held)
            refine ⟨?_,spaced_append spaced ⟨login.evaluated,verified⟩ later⟩
            cases verified with
            | true => exact knows_right login.evaluated
            | false => exact knows_wrong timestamps knows login
      · rw [if_neg its,List.append_nil]
        exact ⟨current,step_other hashing timestamps present its,knows,spaced⟩

theorem outcome_unlocked {user : User} (login : Login) (free : user.lockUntil = none) : outcome hashing user login ≠ none := by
  simp [outcome,User.locked,free]

theorem outcome_locked {user : User} {login : Login} {lock : Scheduling.Stamp} (held : user.lockUntil = some lock)
    (early : login.checked < lock.moment) : user.locked login.checked = true := by
  rw [User.locked,held]
  exact decide_eq_true early

theorem guess_budget (users : Users) (account : Text) (user : User) (found : users.getUserByUsername account = some user)
    (fresh : user.failedLoginAttempts = 0 ∧ user.lockUntil = none) (logins : List Login) :
    Spaced (evaluations hashing timestamps account users logins) ∧ LockedOut hashing timestamps account users logins ∧
      Budgeted hashing timestamps account users logins := by
  refine ⟨?_,?_,?_⟩
  · obtain ⟨_,_,_,spaced⟩ := run_knows hashing timestamps found fresh logins
    exact spaced
  · intro front login rest current lock _ its present held early
    subst its
    rw [authenticateUser,present]
    dsimp only
    rw [if_pos (outcome_locked held early)]
  · intro front login rest _ its few
    obtain ⟨current,present,knows,_⟩ := run_knows hashing timestamps found fresh front
    subst its
    rw [(attempt_row hashing timestamps present).1]
    exact outcome_unlocked hashing login (knows.unlocked few)
end Rows

def loginAt (password : Char) (instant : Int) : Login := ⟨['u'],[password],instant,instant,instant,le_rfl,le_rfl⟩

-- Five wrong passwords, the right one while the account is locked, and again.
def sevenLogins : List Login :=
  [loginAt 'x' 0,loginAt 'x' 1,loginAt 'x' 2,loginAt 'x' 3,loginAt 'x' 4,loginAt 'p' 5,loginAt 'p' (minutes 31)]

theorem guess_budget_seven :
    Spaced (evaluations plainHashing utcTimestamps ['u'] oneUser sevenLogins) ∧
      LockedOut plainHashing utcTimestamps ['u'] oneUser sevenLogins ∧
      Budgeted plainHashing utcTimestamps ['u'] oneUser sevenLogins ∧
      evaluations plainHashing utcTimestamps ['u'] oneUser sevenLogins =
        [⟨0,false⟩,⟨1,false⟩,⟨2,false⟩,⟨3,false⟩,⟨4,false⟩,⟨minutes 31,true⟩] := by
  obtain ⟨spaced,locked,budgeted⟩ := guess_budget plainHashing utcTimestamps oneUser ['u'] _ rfl ⟨rfl,rfl⟩ sevenLogins
  exact ⟨spaced,locked,budgeted,by decide⟩

end Kryvaracode.Lockout
