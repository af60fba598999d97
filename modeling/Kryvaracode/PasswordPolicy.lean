import Kryvaracode.PasswordReset
import Kryvaracode.RateLimiter

namespace Kryvaracode.PasswordPolicy
open Accounts InsertionDict Runs PasswordReset RateLimits
open Models (Order)

-- The character database: any tests that agree with ASCII.
structure CharTests where
  isdigit : Char → Bool
  islower : Char → Bool
  isupper : Char → Bool
  isdigit_ascii : ∀ c, c.toNat < 128 → isdigit c = c.isDigit
  islower_ascii : ∀ c, c.toNat < 128 → islower c = c.isLower
  isupper_ascii : ∀ c, c.toNat < 128 → isupper c = c.isUpper

theorem test_itself (test : Char → Bool) (c : Char) (_ : c.toNat < 128) : test c = test c := rfl

def asciiTests : CharTests :=
  ⟨Char.isDigit,Char.isLower,Char.isUpper,test_itself Char.isDigit,test_itself Char.isLower,test_itself Char.isUpper⟩

def minLength : Nat := 8
def maxLength : Nat := 128
def specialChars : Text := "!@#$%^&*()-_=+[]\x7b\x7d|;:'\\\",.<>?/`~".toList

section Policy
variable (chars : CharTests)

-- The requirements of the policy, each with the error of a password that misses it.
def rules : List ((Text → Bool) × Text) :=
  [(fun password => decide (minLength ≤ password.length),s!"Password must be at least {minLength} characters".toList),
    (fun password => decide (password.length ≤ maxLength),s!"Password must be at most {maxLength} characters".toList),
    (fun password => password.any chars.isdigit,"Password must contain at least one digit".toList),
    (fun password => password.any chars.islower,"Password must contain at least one lowercase letter".toList),
    (fun password => password.any chars.isupper,"Password must contain at least one uppercase letter".toList),
    (fun password => password.any specialChars.contains,
      "Password must contain at least one special character: ".toList ++ specialChars)]

def validatePasswordPolicy (password : Text) : List Text :=
  (rules chars).filterMap fun rule => if rule.1 password then none else some rule.2

theorem policy_met (password : Text) : validatePasswordPolicy chars password = [] ↔ ∀ rule ∈ rules chars, rule.1 password = true := by
  unfold validatePasswordPolicy
  rw [List.filterMap_eq_nil_iff]
  refine forall₂_congr fun rule _ => ?_
  cases rule.1 password <;> simp

def usernameChar (c : Char) : Bool := c.isAlphanum || c = '_' || c = '.' || c = '-'

-- A body that the schema has accepted.
structure UserCreate where
  email : Text
  username : Text
  password : Text
  fullName : Option Text
  username_fits : 3 ≤ username.length ∧ username.length ≤ 50 ∧ username.all usernameChar = true
  full_name_fits : ∀ name ∈ fullName, name.length ≤ 100
  password_fits : minLength ≤ password.length ∧ password.length ≤ maxLength
  meets_policy : validatePasswordPolicy chars password = []

-- `emailStr` gives an address in its normal form, or none where it is not one.
def UserCreate.parse (emailStr : Text → Option Text) (email username password : Text) (fullName : Option Text) :
    Option (UserCreate chars) :=
  match emailStr email with
  | none => none
  | some normal =>
      if username_fits : 3 ≤ username.length ∧ username.length ≤ 50 ∧ username.all usernameChar = true then
        if full_name_fits : ∀ name ∈ fullName, name.length ≤ 100 then
          if password_fits : minLength ≤ password.length ∧ password.length ≤ maxLength then
            if meets_policy : validatePasswordPolicy chars password = [] then
              some ⟨normal,username,password,fullName,username_fits,full_name_fits,password_fits,meets_policy⟩
            else none
          else none
        else none
      else none

theorem parse_password {emailStr : Text → Option Text} {email username password : Text} {fullName : Option Text}
    {user : UserCreate chars} (parsed : UserCreate.parse chars emailStr email username password fullName = some user) :
    user.password = password := by
  unfold UserCreate.parse at parsed
  split at parsed
  · cases parsed
  · split_ifs at parsed
    cases parsed
    rfl
end Policy

inductive Body where
  | createUser (email username password : Text) (fullName : Option Text) (id : Int) (salt : Text)
  | requestReset (email token : Text) (now : Int)
  | reset (token newPassword salt : Text) (now : Int)
  | login (login : Login)

-- The limiter is asked twice, by the middleware and by the endpoint.
structure Arrival where
  clientIp : Text
  dispatched : Int
  handled : Int
  body : Body

-- `origins` holds the password that the hash of each user was computed from.
structure World where
  users : Users
  limiter : Option (RateLimiter Int)
  origins : Dict Int Text

def allows (limiter : Option (RateLimiter Int)) (key : Text) (now : Int) : Bool := limiter.all fun limiter => (limiter.allow key now).2

def spend (limiter : Option (RateLimiter Int)) (key : Text) (now : Int) : Option (RateLimiter Int) :=
  limiter.map fun limiter => (limiter.allow key now).1

def authKey (clientIp : Text) : Text := "auth:".toList ++ clientIp

def World.spent (world : World) (key : Text) (now : Int) : World := {world with limiter := spend world.limiter key now}

section Router
variable (chars : CharTests) (emailStr : Text → Option Text) (hashing : Hashing) (timestamps : Timestamps) (order : Order User)

def rateLimited : Failure := HTTPException "HTTP_429_TOO_MANY_REQUESTS" "Too many requests. Try again shortly."

def World.createUser (world : World) (user : UserCreate chars) (id : Int) (salt : Text) : World × Result Text :=
  if (world.users.getUserByEmail user.email).isSome then (world,.error (ConflictError "Email already registered".toList))
  else if (world.users.getUserByUsername user.username).isSome then (world,.error (ConflictError "Username already taken".toList))
  else
    match Accounts.createUser hashing world.users id user.email user.username user.password salt user.fullName with
    | (_,.error exc) => (world,.error exc)
    | (users,.ok created) => ({world with users := users,origins := world.origins.set id user.password},.ok created.email)

def World.resetPassword (world : World) (token newPassword salt : Text) (now : Int) : World × Result Text :=
  let reply := PasswordReset.resetPassword hashing order world.users token newPassword salt now
  match reply.wrote with
  | none => ({world with users := reply.users},reply.answer)
  | some user => ({world with users := reply.users,origins := world.origins.set user newPassword},reply.answer)

def World.login (world : World) (login : Login) : World × Result Text :=
  let attempt := authenticateUser hashing timestamps world.users login
  ({world with users := attempt.users},
    if attempt.user.isSome then .ok "bearer".toList
    else .error ⟨.other "UnauthorizedError".toList,"Incorrect username or password".toList⟩)

-- A body is validated before the endpoint asks the limiter.
def World.endpoint (world : World) (clientIp : Text) (now : Int) (run : World → World × Result Text) : World × Result Text :=
  if allows world.limiter (authKey clientIp) now then run (world.spent (authKey clientIp) now)
  else (world.spent (authKey clientIp) now,.error rateLimited)

def World.route (world : World) (clientIp : Text) (now : Int) : Body → World × Result Text
  | .createUser email username password fullName id salt =>
      match UserCreate.parse chars emailStr email username password fullName with
      | none => (world,.error ⟨.other "RequestValidationError".toList,[]⟩)
      | some user => world.endpoint clientIp now fun world => world.createUser chars hashing user id salt
  | .requestReset email token issued =>
      world.endpoint clientIp now fun world =>
        let reply := requestPasswordReset hashing timestamps world.users email token issued
        ({world with users := reply.users},reply.answer)
  | .reset token newPassword salt asked =>
      world.endpoint clientIp now fun world => world.resetPassword hashing order token newPassword salt asked
  | .login login => world.endpoint clientIp now fun world => world.login hashing timestamps login

def World.dispatch (world : World) (arrival : Arrival) : World × Result Text :=
  if allows world.limiter arrival.clientIp arrival.dispatched then
    (world.spent arrival.clientIp arrival.dispatched).route chars emailStr hashing timestamps order arrival.clientIp
      arrival.handled arrival.body
  else (world.spent arrival.clientIp arrival.dispatched,.error rateLimited)

def World.step (world : World) (arrival : Arrival) : World :=
  (world.dispatch chars emailStr hashing timestamps order arrival).1

def World.init (limiter : Option (RateLimiter Int)) : World := ⟨⟨[],.nil,.nil,.nil⟩,limiter,Dict.empty⟩

-- Each stored hash was computed from a password that meets the policy.
def Conforming (world : World) : Prop :=
  ∀ user ∈ world.users.rows, ∃ password, world.origins.get user.id = some password ∧ validatePasswordPolicy chars password = []

-- The limiter lets the request pass twice.
def Admitted (world : World) (arrival : Arrival) : Prop :=
  allows world.limiter arrival.clientIp arrival.dispatched = true ∧
    allows (world.spent arrival.clientIp arrival.dispatched).limiter (authKey arrival.clientIp) arrival.handled = true

-- A reset that is admitted, has a valid token and does not repeat the current
-- password brings one that meets the policy.
def KeepsPolicy (world : World) (arrival : Arrival) : Prop :=
  ∀ token newPassword salt now user, arrival.body = .reset token newPassword salt now → Admitted world arrival →
    (order.arrange (world.users.rows.filter (valid (hashing.hashResetToken token) now))).head? = some user →
      hashing.verifyPassword newPassword user.hashedPassword = false → validatePasswordPolicy chars newPassword = []
end Router

-- Only the users' ids and the origins matter.
theorem conforming_same {chars : CharTests} {before after : World}
    (ids : after.users.rows.map User.id = before.users.rows.map User.id) (origins : after.origins = before.origins) :
    Conforming chars after ↔ Conforming chars before := by
  have mapped : ∀ world : World, Conforming chars world ↔ ∀ id ∈ world.users.rows.map User.id,
      ∃ password, world.origins.get id = some password ∧ validatePasswordPolicy chars password = [] := by
    intro world
    rw [List.forall_mem_map]
    rfl
  rw [mapped,mapped,ids,origins]

theorem update_ids (users : Users) (id : Int) (change : Change) :
    (users.update id change).rows.map User.id = users.rows.map User.id := Users.keys_update _ _ _ _ change.id

section Steps
variable {chars : CharTests} {hashing : Hashing} {timestamps : Timestamps} {order : Order User}

theorem create_conforming {world : World} (conforming : Conforming chars world) (user : UserCreate chars) (id : Int) (salt : Text) :
    Conforming chars (world.createUser chars hashing user id salt).1 := by
  unfold World.createUser
  split
  · exact conforming
  · split
    · exact conforming
    · unfold Accounts.createUser
      dsimp only
      by_cases admitted : world.users.admits
          (.created id user.email user.username (hashing.getPasswordHash user.password salt) user.fullName)
      · rw [dif_pos admitted]
        intro other listed
        change other ∈ world.users.rows ++ [_] at listed
        dsimp only
        rw [get_set]
        rcases List.mem_append.mp listed with earlier | last
        · have apart : other.id ≠ id := fun same => admitted.1 (List.mem_map.mpr ⟨other,earlier,same⟩)
          rw [if_neg apart]
          exact conforming other earlier
        · rw [List.mem_singleton.mp last]
          exact ⟨user.password,if_pos rfl,user.meets_policy⟩
      · rw [dif_neg admitted]
        exact conforming

theorem request_conforming (world : World) (email token : Text) (issued : Int) :
    Conforming chars {world with users := (requestPasswordReset hashing timestamps world.users email token issued).users} ↔
      Conforming chars world := by
  refine conforming_same ?_ rfl
  rcases request_cases timestamps world.users email token issued with ⟨_,reply⟩ | ⟨user,_,_,reply⟩
  · rw [reply]
  · rw [reply]
    exact update_ids _ _ _

theorem login_conforming (world : World) (login : Login) :
    Conforming chars (world.login hashing timestamps login).1 ↔ Conforming chars world := by
  refine conforming_same ?_ rfl
  unfold World.login authenticateUser
  dsimp only
  split
  · rfl
  · split
    · rfl
    · split
      · exact update_ids _ _ _
      · exact update_ids _ _ _

theorem reset_conforming {world : World} (conforming : Conforming chars world) (token newPassword salt : Text) (now : Int) :
    Conforming chars (world.resetPassword hashing order token newPassword salt now).1 ↔
      ∀ user, (order.arrange (world.users.rows.filter (valid (hashing.hashResetToken token) now))).head? = some user →
        hashing.verifyPassword newPassword user.hashedPassword = false → validatePasswordPolicy chars newPassword = [] := by
  unfold World.resetPassword
  cases found : (order.arrange (world.users.rows.filter (valid (hashing.hashResetToken token) now))).head? with
  | none =>
      rw [reset_unfound order found]
      exact iff_of_true conforming fun _ same => nomatch same
  | some user =>
      obtain ⟨listed,reply⟩ := reset_found order found newPassword salt
      rw [reply]
      by_cases reused : hashing.verifyPassword newPassword user.hashedPassword = true
      · rw [if_pos reused]
        refine iff_of_true conforming ?_
        intro other same differs
        cases same
        rw [reused] at differs
        cases differs
      · rw [if_neg reused]
        refine ⟨?_,?_⟩
        · intro after other same _
          cases same
          have ids := update_ids world.users user.id (rekey (hashing.getPasswordHash newPassword salt))
          have present : user.id ∈ (world.users.update user.id (rekey (hashing.getPasswordHash newPassword salt))).rows.map User.id :=
            ids ▸ List.mem_map_of_mem listed
          obtain ⟨row,kept,its⟩ := List.mem_map.mp present
          obtain ⟨password,held,met⟩ := after row kept
          dsimp only at held
          rw [its,get_set_same] at held
          cases held
          exact met
        · intro met
          have policy := met user rfl (by simpa using reused)
          intro row kept
          have present : row.id ∈ world.users.rows.map User.id :=
            update_ids world.users user.id (rekey (hashing.getPasswordHash newPassword salt)) ▸ List.mem_map_of_mem kept
          obtain ⟨before,earlier,same⟩ := List.mem_map.mp present
          dsimp only
          rw [get_set]
          split
          · exact ⟨newPassword,rfl,policy⟩
          · rw [← same]
            exact conforming before earlier

theorem endpoint_conforming {world : World} (clientIp : Text) (now : Int) (run : World → World × Result Text)
    (kept : Conforming chars (run (world.spent (authKey clientIp) now)).1) (conforming : Conforming chars world) :
    Conforming chars (world.endpoint clientIp now run).1 := by
  unfold World.endpoint
  split
  · exact kept
  · exact conforming

theorem step_conforming (emailStr : Text → Option Text) (world : World) (arrival : Arrival)
    (conforming : Conforming chars world) :
    Conforming chars (world.step chars emailStr hashing timestamps order arrival) ↔
      KeepsPolicy chars hashing order world arrival := by
  obtain ⟨clientIp,dispatched,handled,body⟩ := arrival
  unfold World.step World.dispatch
  by_cases passes : allows world.limiter clientIp dispatched = true
  · rw [if_pos passes]
    have start : Conforming chars (world.spent clientIp dispatched) := conforming
    have twice : Conforming chars ((world.spent clientIp dispatched).spent (authKey clientIp) handled) := conforming
    cases body with
    | createUser email username password fullName id salt =>
        refine iff_of_true ?_ fun _ _ _ _ _ same => nomatch same
        unfold World.route
        dsimp only
        cases UserCreate.parse chars emailStr email username password fullName with
        | none => exact start
        | some user => exact endpoint_conforming clientIp handled _ (create_conforming twice user id salt) start
    | requestReset email token issued =>
        refine iff_of_true ?_ fun _ _ _ _ _ same => nomatch same
        unfold World.route
        exact endpoint_conforming clientIp handled _ ((request_conforming _ email token issued).mpr start) start
    | reset token newPassword salt asked =>
        unfold World.route World.endpoint
        dsimp only
        by_cases again : allows (world.spent clientIp dispatched).limiter (authKey clientIp) handled = true
        · rw [if_pos again,reset_conforming twice]
          refine ⟨?_,?_⟩
          · intro met _ _ _ _ user same _ found differs
            cases same
            exact met user found differs
          · intro met user found differs
            exact met token newPassword salt asked user rfl ⟨passes,again⟩ found differs
        · rw [if_neg again]
          exact iff_of_true start fun _ _ _ _ _ _ admitted => absurd admitted.2 again
    | login login =>
        refine iff_of_true ?_ fun _ _ _ _ _ same => nomatch same
        unfold World.route
        exact endpoint_conforming clientIp handled _ ((login_conforming _ login).mpr start) start
  · rw [if_neg passes]
    exact iff_of_true conforming fun _ _ _ _ _ _ admitted => absurd admitted.1 passes
end Steps

theorem password_policy_exact (chars : CharTests) (emailStr : Text → Option Text) (hashing : Hashing) (timestamps : Timestamps)
    (order : Order User) (limiter : Option (RateLimiter Int)) (arrivals : List Arrival) :
    Throughout (World.step chars emailStr hashing timestamps order) (Conforming chars) (World.init limiter) arrivals ↔
      Steps (World.step chars emailStr hashing timestamps order) (KeepsPolicy chars hashing order) (World.init limiter) arrivals := by
  have fits : Steps (World.step chars emailStr hashing timestamps order) (fun _ _ => True) (World.init limiter) arrivals :=
    steps_forall (fun _ _ _ => trivial) _
  rw [throughout_exact (fun world arrival _ => step_conforming emailStr world arrival) _ arrivals fits]
  exact and_iff_right fun _ listed => nomatch listed

def resetToX : List Arrival :=
  [⟨['h'],0,0,.createUser ['m'] "user".toList "Correct-1".toList none 1 []⟩,⟨['h'],1,1,.requestReset ['m'] ['t'] 1⟩,
    ⟨['h'],2,2,.reset ['t'] ['x'] [] 2⟩]

theorem weak_password_set : ¬ Throughout (World.step asciiTests some plainHashing utcTimestamps .asIs) (Conforming asciiTests)
    (World.init none) resetToX := by
  intro always
  have stored : (run (World.step asciiTests some plainHashing utcTimestamps .asIs) (World.init none) resetToX).users.rows.map
      User.id = [1] := by decide
  have origin : (run (World.step asciiTests some plainHashing utcTimestamps .asIs) (World.init none) resetToX).origins.get 1 =
      some ['x'] := by decide
  have last := throughout_end always
  obtain ⟨user,listed,its⟩ := List.mem_map.mp (stored ▸ List.mem_singleton.mpr rfl :
    (1 : Int) ∈ (run (World.step asciiTests some plainHashing utcTimestamps .asIs) (World.init none) resetToX).users.rows.map User.id)
  obtain ⟨password,held,met⟩ := last user listed
  rw [its,origin] at held
  cases held
  exact absurd met (by decide)

end Kryvaracode.PasswordPolicy
