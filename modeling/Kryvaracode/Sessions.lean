import Kryvaracode.PasswordReset
import Kryvaracode.RateGrammar
import Kryvaracode.RefreshTokens
import Kryvaracode.Tickets

namespace Kryvaracode.Sessions
open InsertionDict Runs Tickets Accounts RateLimits Scheduling
open Models (Order)
open RefreshTokens (UnauthorizedError IntegrityError)

def days (count : Int) : Int := hours (24 * count)

-- The claims that are read. One that is missing or of another type is none.
structure Claims where
  sub : Option Text
  exp : Option Int
  type : Option Text
  jti : Option Text
  deriving DecidableEq

-- Signing with the private key, and checking a signature with the public one.
structure Jose where
  encode : Claims → Text
  verify : Text → Option Claims
  verified : ∀ claims, verify (encode claims) = some claims

-- A token counts time in whole seconds.
def seconds (moment : Int) : Int := moment / 1000000

namespace Jose
variable (jose : Jose)

-- None for whatever is a JWTError. A token is good up to its last second.
def decode (token : Text) (now : Int) : Option Claims :=
  (jose.verify token).filter fun claims => claims.exp.all fun exp => decide (seconds now ≤ exp)

-- `expires_delta or default`: no time at all is the default as well.
def lifetime (expiresDelta : Option Int) (default : Int) : Int := (expiresDelta.filter fun delta => decide (delta ≠ 0)).getD default

def accessClaims (subject : Text) (now : Int) (expiresDelta : Option Int) : Claims where
  sub := some subject
  exp := some (seconds (now + lifetime expiresDelta (minutes 30)))
  type := some "access".toList
  jti := none

def createAccessToken (subject : Text) (now : Int) (expiresDelta : Option Int) : Text :=
  jose.encode (accessClaims subject now expiresDelta)

def decodeAccessToken (token : Text) (now : Int) : Option Claims :=
  (jose.decode token now).filter fun payload => decide (payload.type = some "access".toList)

def createRefreshTokenPayload (subject : Text) (now : Int) (jti : Text) (expiresDelta : Option Int) : Claims where
  sub := some subject
  exp := some (seconds (now + lifetime expiresDelta (days 7)))
  type := some "refresh".toList
  jti := some jti

def createRefreshToken (subject : Text) (now : Int) (jti : Text) (expiresDelta : Option Int) : Text :=
  jose.encode (createRefreshTokenPayload subject now jti expiresDelta)

def decodeRefreshToken (token : Text) (now : Int) : Option Claims :=
  (jose.decode token now).filter fun payload => decide (payload.type = some "refresh".toList)

end Jose

def subject (userId : Int) : Text := (toString userId).toList

def credentialsExc : Failure := UnauthorizedError "Could not validate credentials".toList

section Bearer
variable (jose : Jose) (numerals : Numerals) (users : Users)

def getCurrentUser (token : Text) (now : Int) : Result User :=
  match jose.decodeAccessToken token now with
  | none => .error credentialsExc
  | some payload =>
      match payload.sub with
      | none => .error credentialsExc
      | some sub =>
          match int numerals.digit sub with
          | none => .error (ValueError (numerals.refusal sub))
          | some userId =>
              match users.getUser userId with
              | none => .error credentialsExc
              | some user => .ok user

def getCurrentActiveUser (token : Text) (now : Int) : Result User :=
  match getCurrentUser jose numerals users token now with
  | .error exc => .error exc
  | .ok user => if user.isActive then .ok user else .error (ForbiddenError "Inactive user".toList)

end Bearer

-- A row of the table, under its token, which is unique.
structure RefreshToken where
  userId : Int
  expiresAt : Int
  revoked : Bool
  deriving DecidableEq

-- What an answer with tokens reads off the clock, and the random part.
structure Draw where
  accessAt : Int
  refreshAt : Int
  storedAt : Int
  jti : Text

-- A pair of tokens with what it was made from.
structure Grant where
  user : Int
  access : Text
  accessAt : Int
  refresh : Text
  refreshAt : Int
  storedAt : Int
  deriving DecidableEq

structure Token where
  accessToken : Text
  refreshToken : Text
  tokenType : Text
  deriving DecidableEq

def Grant.token (grant : Grant) : Token := ⟨grant.access,grant.refresh,"bearer".toList⟩
def Grant.row (grant : Grant) (revoked : Bool) : RefreshToken := ⟨grant.user,grant.storedAt + days 7,revoked⟩

-- What has been granted and given up, in order.
inductive Entry where
  | opened (grant : Grant)
  | exchanged (token : Text) (grant : Grant)
  | ended (user : Int) (token : Text)
  deriving DecidableEq

def Entry.grant : Entry → Option Grant
  | .opened grant | .exchanged _ grant => some grant
  | .ended _ _ => none

def Entry.spent : Entry → Option Text
  | .opened _ => none
  | .exchanged token _ | .ended _ token => some token

def Entry.opens (user : Int) : Entry → Bool
  | .opened grant => decide (grant.user = user)
  | .exchanged _ _ | .ended _ _ => false

def Entry.ends (user : Int) : Entry → Bool
  | .ended holder _ => decide (holder = user)
  | .opened _ | .exchanged _ _ => false

def granted (log : List Entry) : List (Text × Grant) :=
  (log.filterMap Entry.grant).map fun grant => (grant.refresh,grant)

def spent (log : List Entry) : List Text := log.filterMap Entry.spent

-- Where a request comes from and when, on the limiter's clock.
structure Client (α : Type) where
  ip : Text
  tick : α

inductive Request (α : Type) where
  | login (client : Client α) (login : Login) (draw : Draw)
  | readUsersMe (token : Text) (now : Int)
  | createUser (client : Client α) (id : Int) (email username password salt : Text) (fullName : Option Text)
  | requestPasswordReset (client : Client α) (email token : Text) (now : Int)
  | resetPassword (client : Client α) (token newPassword salt : Text) (now : Int)
  | checkVerificationStatus (token : Text) (now : Int)
  | verifyEmail (token : Text) (now : Int)
  | refresh (client : Client α) (refreshToken : Text) (looked decoded : Int) (draw : Draw)
  | logout (refreshToken : Text)

def Request.client : Request α → Option (Client α)
  | .login client _ _ | .createUser client _ _ _ _ _ _ | .requestPasswordReset client _ _ _ | .resetPassword client _ _ _ _
  | .refresh client _ _ _ _ => some client
  | .readUsersMe _ _ | .checkVerificationStatus _ _ | .verifyEmail _ _ | .logout _ => none

inductive Response where
  | token (token : Token)
  | user (user : User)
  | message (message : Text)
  | verified (message : Text) (isVerified : Bool)
  | status (isVerified : Bool) (email : Text)
  | noContent

structure World (α : Type) where
  rateLimiter : Option (RateLimiter α)
  users : Users
  tokens : Dict Text RefreshToken
  log : List Entry

def World.init (rateLimiter : Option (RateLimiter α)) (users : Users) : World α := ⟨rateLimiter,users,Dict.empty,[]⟩

structure Reply where
  users : Users
  tokens : Dict Text RefreshToken
  entry : Option Entry
  answer : Result Response

section Routes
variable (hashing : Hashing) (timestamps : Timestamps) (order : Order User) (jose : Jose) (numerals : Numerals)

def issue (user : Int) (draw : Draw) : Grant where
  user := user
  access := jose.createAccessToken (subject user) draw.accessAt none
  accessAt := draw.accessAt
  refresh := jose.createRefreshToken (subject user) draw.refreshAt draw.jti none
  refreshAt := draw.refreshAt
  storedAt := draw.storedAt

-- None where the table has the token already.
def addToken (tokens : Dict Text RefreshToken) (grant : Grant) : Option (Dict Text RefreshToken) :=
  match tokens.get grant.refresh with
  | some _ => none
  | none => some (tokens.set grant.refresh (grant.row false))

-- A login that fails to store its token has still reset the lockout.
def loginForAccessToken (users : Users) (tokens : Dict Text RefreshToken) (login : Login) (draw : Draw) : Reply :=
  let attempt := authenticateUser hashing timestamps users login
  match attempt.user with
  | none => ⟨attempt.users,tokens,none,.error (UnauthorizedError "Incorrect username or password".toList)⟩
  | some user =>
      let grant := issue jose user.id draw
      match addToken tokens grant with
      | none => ⟨attempt.users,tokens,none,.error (IntegrityError grant.refresh)⟩
      | some stored => ⟨attempt.users,stored,some (.opened grant),.ok (.token grant.token)⟩

def createUser (users : Users) (tokens : Dict Text RefreshToken) (id : Int) (email username password salt : Text)
    (fullName : Option Text) : Reply :=
  match users.getUserByEmail email with
  | some _ => ⟨users,tokens,none,.error (ConflictError "Email already registered".toList)⟩
  | none =>
      match users.getUserByUsername username with
      | some _ => ⟨users,tokens,none,.error (ConflictError "Username already taken".toList)⟩
      | none =>
          let created := Accounts.createUser hashing users id email username password salt fullName
          ⟨created.1,tokens,none,created.2.map .user⟩

def verifyEmail (users : Users) (tokens : Dict Text RefreshToken) (token : Text) (now : Int) : Reply :=
  match getCurrentActiveUser jose numerals users token now with
  | .error exc => ⟨users,tokens,none,.error exc⟩
  | .ok user => ⟨(updateUser hashing timestamps users user.id {isVerified := some true}).1,tokens,none,
      .ok (.verified "Email verified successfully".toList true)⟩

def refreshTokens (users : Users) (tokens : Dict Text RefreshToken) (refreshToken : Text) (looked decoded : Int)
    (draw : Draw) : Reply :=
  match tokens.get refreshToken with
  | none => ⟨users,tokens,none,.error (UnauthorizedError "Invalid or expired refresh token".toList)⟩
  | some row =>
      if row.revoked || decide (row.expiresAt ≤ looked) then
        ⟨users,tokens,none,.error (UnauthorizedError "Invalid or expired refresh token".toList)⟩
      else if (jose.decodeRefreshToken refreshToken decoded).bind Claims.sub ≠ some (subject row.userId) then
        ⟨users,tokens,none,.error (UnauthorizedError "Invalid refresh token".toList)⟩
      else
        let grant := issue jose row.userId draw
        match addToken (tokens.set refreshToken {row with revoked := true}) grant with
        | none => ⟨users,tokens,none,.error (IntegrityError grant.refresh)⟩
        | some stored => ⟨users,stored,some (.exchanged refreshToken grant),.ok (.token grant.token)⟩

def logout (users : Users) (tokens : Dict Text RefreshToken) (refreshToken : Text) : Reply :=
  match tokens.get refreshToken with
  | none => ⟨users,tokens,none,.ok .noContent⟩
  | some row => ⟨users,tokens.set refreshToken {row with revoked := true},
      if row.revoked then none else some (.ended row.userId refreshToken),.ok .noContent⟩

def reset (users : Users) (tokens : Dict Text RefreshToken) (request : PasswordReset.Request) : Reply :=
  let reply := PasswordReset.handle hashing timestamps order users request
  ⟨reply.users,tokens,none,reply.answer.map .message⟩

def handle (users : Users) (tokens : Dict Text RefreshToken) : Request α → Reply
  | .login _ login draw => loginForAccessToken hashing timestamps jose users tokens login draw
  | .readUsersMe token now => ⟨users,tokens,none,(getCurrentActiveUser jose numerals users token now).map .user⟩
  | .createUser _ id email username password salt fullName =>
      createUser hashing users tokens id email username password salt fullName
  | .requestPasswordReset _ email token now => reset hashing timestamps order users tokens (.requestReset email token now)
  | .resetPassword _ token newPassword salt now =>
      reset hashing timestamps order users tokens (.reset token newPassword salt now)
  | .checkVerificationStatus token now => ⟨users,tokens,none,
      (getCurrentActiveUser jose numerals users token now).map fun user => .status user.isVerified user.email⟩
  | .verifyEmail token now => verifyEmail hashing timestamps jose numerals users tokens token now
  | .refresh _ refreshToken looked decoded draw => refreshTokens jose users tokens refreshToken looked decoded draw
  | .logout refreshToken => logout users tokens refreshToken

variable [AddCommGroup α] [LinearOrder α]

-- No limiter, no limit.
def enforceAuthRateLimit (rateLimiter : Option (RateLimiter α)) (client : Client α) : Option (RateLimiter α) × Bool :=
  match rateLimiter with
  | none => (none,true)
  | some limiter =>
      let asked := limiter.allow ("auth:".toList ++ client.ip) client.tick
      (some asked.1,asked.2)

def throttle (rateLimiter : Option (RateLimiter α)) (request : Request α) : Option (RateLimiter α) × Bool :=
  match request.client with
  | none => (rateLimiter,true)
  | some client => enforceAuthRateLimit rateLimiter client

def answer (world : World α) (request : Request α) : Result Response :=
  if (throttle world.rateLimiter request).2 then
    (handle hashing timestamps order jose numerals world.users world.tokens request).answer
  else .error (HTTPException "HTTP_429_TOO_MANY_REQUESTS" "Too many requests. Try again shortly.")

def step (world : World α) (request : Request α) : World α :=
  let admitted := throttle world.rateLimiter request
  if admitted.2 then
    let reply := handle hashing timestamps order jose numerals world.users world.tokens request
    ⟨admitted.1,reply.users,reply.tokens,world.log ++ reply.entry.toList⟩
  else {world with rateLimiter := admitted.1}

end Routes
-- What the id column of a table counts up through.
def Assigned (id : Int) : Prop := 0 < id ∧ id < 2 ^ 31

def Request.assigns : Request α → Prop
  | .createUser _ id _ _ _ _ _ => Assigned id
  | .login _ _ _ | .readUsersMe _ _ | .requestPasswordReset _ _ _ _ | .resetPassword _ _ _ _ _
  | .checkVerificationStatus _ _ | .verifyEmail _ _ | .refresh _ _ _ _ _ | .logout _ => True

-- Nobody else can sign.
def Genuine (jose : Jose) (log : List Entry) (token : Text) : Prop :=
  ∀ payload, jose.verify token = some payload → ∃ grant ∈ log.filterMap Entry.grant, token = grant.access ∨ token = grant.refresh

-- The token was issued as an access token to the user, at most half an hour ago.
def Bears (log : List Entry) (token : Text) (now user : Int) : Prop :=
  ∃ grant ∈ log.filterMap Entry.grant, grant.access = token ∧ grant.user = user ∧
    seconds now ≤ seconds (grant.accessAt + minutes 30)

-- The token was issued as a refresh token, less than a week ago, and not given up.
def Renewable (log : List Entry) (token : Text) (looked decoded : Int) (grant : Grant) : Prop :=
  (token,grant) ∈ live (granted log) (spent log) ∧ looked < grant.storedAt + days 7 ∧
    seconds decoded ≤ seconds (grant.refreshAt + days 7)

section Claims
variable (hashing : Hashing) (timestamps : Timestamps) (order : Order User) (jose : Jose) (numerals : Numerals)
variable [AddCommGroup α] [LinearOrder α]

structure Correct (world : World α) : Prop where
  bearers : ∀ token now user, Genuine jose world.log token →
    ((∃ row, getCurrentUser jose numerals world.users token now = .ok row ∧ row.id = user) ↔ Bears world.log token now user)
  refused : ∀ token now exc, Genuine jose world.log token →
    getCurrentUser jose numerals world.users token now = .error exc → exc = credentialsExc
  renewals : ∀ client refreshToken looked decoded draw response,
    answer hashing timestamps order jose numerals world (.refresh client refreshToken looked decoded draw) = .ok response ↔
      (enforceAuthRateLimit world.rateLimiter client).2 = true ∧ ∃ grant, Renewable world.log refreshToken looked decoded grant ∧
        (issue jose grant.user draw).refresh ∉ keys (granted world.log) ∧ response = .token (issue jose grant.user draw).token
  sessions : ∀ user, (live (granted world.log) (spent world.log)).countP (fun ticket => decide (ticket.2.user = user)) +
    world.log.countP (Entry.ends user) = world.log.countP (Entry.opens user)

end Claims

section Tokens
variable (jose : Jose) (numerals : Numerals)

theorem decode_encode (claims : Claims) (now : Int) (name : Text) :
    ((jose.decode (jose.encode claims) now).filter fun payload => decide (payload.type = some name)) =
      if (∀ exp, claims.exp = some exp → seconds now ≤ exp) ∧ claims.type = some name then some claims else none := by
  have unexpired : (claims.exp.all fun exp => decide (seconds now ≤ exp)) = true ↔ ∀ exp, claims.exp = some exp → seconds now ≤ exp := by
    cases claims.exp <;> simp
  rw [Jose.decode,jose.verified,Option.filter_some]
  by_cases early : ∀ exp, claims.exp = some exp → seconds now ≤ exp
  · rw [if_pos (unexpired.mpr early),Option.filter_some]
    exact if_congr (decide_eq_true_iff.trans (and_iff_right early).symm) rfl rfl
  · rw [if_neg fun held => early (unexpired.mp held),if_neg fun both => early both.1,Option.filter_none]

theorem access_decodes (userId made now : Int) :
    jose.decodeAccessToken (jose.createAccessToken (subject userId) made none) now =
      if seconds now ≤ seconds (made + minutes 30) then some (Jose.accessClaims (subject userId) made none) else none := by
  rw [Jose.decodeAccessToken,Jose.createAccessToken,decode_encode]
  refine if_congr ⟨?_,?_⟩ rfl rfl
  · intro held
    exact held.1 _ rfl
  · intro early
    refine ⟨?_,rfl⟩
    intro exp made
    cases made
    exact early

theorem refresh_decodes (userId made now : Int) (jti : Text) :
    jose.decodeRefreshToken (jose.createRefreshToken (subject userId) made jti none) now =
      if seconds now ≤ seconds (made + days 7) then some (Jose.createRefreshTokenPayload (subject userId) made jti none)
      else none := by
  rw [Jose.decodeRefreshToken,Jose.createRefreshToken,decode_encode]
  refine if_congr ⟨?_,?_⟩ rfl rfl
  · intro held
    exact held.1 _ rfl
  · intro early
    refine ⟨?_,rfl⟩
    intro exp made
    cases made
    exact early

-- A refresh token is no access token.
theorem refresh_refused (userId made now : Int) (jti : Text) :
    jose.decodeAccessToken (jose.createRefreshToken (subject userId) made jti none) now = none := by
  rw [Jose.decodeAccessToken,Jose.createRefreshToken,decode_encode]
  refine if_neg fun held => ?_
  have kinds : some "refresh".toList = some "access".toList := held.2
  revert kinds
  decide

theorem assigned_digits {id : Int} (assigned : Assigned id) : subject id = Nat.toDigits 10 id.toNat ∧
    (Nat.toDigits 10 id.toNat).length ≤ longest := by
  refine ⟨?_,?_⟩
  · rw [subject,Int.toString_eq_repr,Int.repr_eq_if,if_pos assigned.1.le,Nat.toList_repr]
  · have few : (Nat.toDigits 10 id.toNat).length ≤ 10 := by
      refine (Nat.length_toDigits_le_iff (by decide) (by decide)).mpr ?_
      have small := assigned.2
      omega
    exact few.trans (by decide)

theorem decimal_digits (n : Nat) : decimal (Nat.toDigits 10 n) = n := by
  have read := @Nat.ofDigitChars_ten_toDigits n
  rw [Nat.ofDigitChars_eq_foldl] at read
  exact read

-- `int(str(user.id))`
theorem int_subject {id : Int} (assigned : Assigned id) : int numerals.digit (subject id) = some id := by
  obtain ⟨text,short⟩ := assigned_digits assigned
  have plain : Plain (Nat.toDigits 10 id.toNat) := fun c inside => Nat.isDigit_of_mem_toDigits (by decide) (by decide) inside
  rw [text,plain_number numerals plain assigned.1,decimal_digits]
  exact ⟨(Int.toNat_of_nonneg assigned.1.le).symm,short⟩

end Tokens
def ids (users : Users) : List Int := users.rows.map User.id

theorem update_ids (users : Users) (id : Int) (change : Change) : ids (users.update id change) = ids users :=
  Users.keys_update _ _ _ _ change.id

theorem found_ids {users : Users} {id : Int} {user : User} (found : users.getUser id = some user) : user.id ∈ ids users :=
  List.mem_map_of_mem (users.getUser_some found).1

-- No user is lost, and the new ones have ids that a table gives.
def Grows (users after : Users) : Prop :=
  (∀ id ∈ ids users, id ∈ ids after) ∧ ∀ id ∈ ids after, id ∈ ids users ∨ Assigned id

theorem grows_same {users after : Users} (same : ids after = ids users) : Grows users after := by
  refine ⟨?_,?_⟩
  · intro id inside
    rw [same]
    exact inside
  · intro id inside
    rw [same] at inside
    exact .inl inside

section Growth
variable (hashing : Hashing) (timestamps : Timestamps) (order : Order User)

theorem update_user_ids (users : Users) (userId : Int) (args : UserUpdate) :
    ids (updateUser hashing timestamps users userId args).1 = ids users := by
  unfold updateUser
  split
  next => rfl
  next => exact update_ids users userId _

theorem attempt_ids (users : Users) (login : Login) : ids (authenticateUser hashing timestamps users login).users = ids users := by
  unfold authenticateUser
  split
  next => rfl
  next user found =>
    split
    next => rfl
    next =>
      split
      next => exact update_ids users _ _
      next => exact update_ids users _ _

theorem attempt_known (users : Users) (login : Login) {user : User}
    (passed : (authenticateUser hashing timestamps users login).user = some user) : user.id ∈ ids users := by
  have same := attempt_ids hashing timestamps users login
  unfold authenticateUser at passed same
  split at passed
  next => cases passed
  next row found =>
    split at passed
    next => cases passed
    next unlocked =>
      split at passed
      next verified =>
        rw [found] at same
        dsimp only at same
        rw [if_neg unlocked,if_pos verified] at same
        rw [← same]
        exact found_ids passed
      next => cases passed

theorem reset_ids (users : Users) (request : PasswordReset.Request) :
    ids (PasswordReset.handle hashing timestamps order users request).users = ids users := by
  rcases PasswordReset.handle_cases timestamps order hashing users request with ⟨exc,same⟩ | ⟨user,listed,message,same⟩
  · rw [same]
  · rw [same]
    exact update_ids users _ _

theorem create_grows (users : Users) {id : Int} (assigned : Assigned id) (email username password salt : Text)
    (fullName : Option Text) : Grows users (Accounts.createUser hashing users id email username password salt fullName).1 := by
  unfold Accounts.createUser
  dsimp only
  split
  next admitted =>
    have rows : ids (users.insert _ admitted) = ids users ++ [id] := List.map_append
    refine ⟨fun other inside => ?_,fun other inside => ?_⟩
    · rw [rows]
      exact List.mem_append_left [id] inside
    · rw [rows] at inside
      rcases List.mem_append.mp inside with earlier | now
      · exact .inl earlier
      · exact .inr (List.mem_singleton.mp now ▸ assigned)
  next => exact grows_same rfl

end Growth

-- All that one request can do to the tokens.
inductive Turns (jose : Jose) (known : List Int) (tokens : Dict Text RefreshToken) : Dict Text RefreshToken → Option Entry → Prop where
  | stay (after : Dict Text RefreshToken) (same : ∀ key, after.get key = tokens.get key) : Turns jose known tokens after none
  | opened (user : Int) (draw : Draw) (listed : user ∈ known) (fresh : tokens.get (issue jose user draw).refresh = none) :
      Turns jose known tokens (tokens.set (issue jose user draw).refresh ((issue jose user draw).row false))
        (some (.opened (issue jose user draw)))
  | exchanged (token : Text) (row : RefreshToken) (draw : Draw) (held : tokens.get token = some row) (unspent : row.revoked = false)
      (fresh : (tokens.set token {row with revoked := true}).get (issue jose row.userId draw).refresh = none) :
      Turns jose known tokens ((tokens.set token {row with revoked := true}).set (issue jose row.userId draw).refresh
        ((issue jose row.userId draw).row false)) (some (.exchanged token (issue jose row.userId draw)))
  | ended (token : Text) (row : RefreshToken) (held : tokens.get token = some row) (unspent : row.revoked = false) :
      Turns jose known tokens (tokens.set token {row with revoked := true}) (some (.ended row.userId token))

section Turning
variable (hashing : Hashing) (timestamps : Timestamps) (order : Order User) (jose : Jose) (numerals : Numerals)

theorem add_fresh {tokens stored : Dict Text RefreshToken} {grant : Grant} (added : addToken tokens grant = some stored) :
    tokens.get grant.refresh = none ∧ stored = tokens.set grant.refresh (grant.row false) := by
  unfold addToken at added
  split at added
  next => cases added
  next absent =>
    cases added
    exact ⟨absent,rfl⟩

theorem login_turns (users : Users) (tokens : Dict Text RefreshToken) (login : Login) (draw : Draw) :
    Turns jose (ids users) tokens (loginForAccessToken hashing timestamps jose users tokens login draw).tokens
      (loginForAccessToken hashing timestamps jose users tokens login draw).entry := by
  unfold loginForAccessToken
  dsimp only
  split
  next => exact .stay tokens fun _ => rfl
  next user passed =>
    split
    next => exact .stay tokens fun _ => rfl
    next stored added =>
      obtain ⟨fresh,rfl⟩ := add_fresh added
      exact .opened user.id draw (attempt_known hashing timestamps users login passed) fresh

theorem refresh_turns (users : Users) (tokens : Dict Text RefreshToken) (refreshToken : Text) (looked decoded : Int)
    (draw : Draw) : Turns jose (ids users) tokens (refreshTokens jose users tokens refreshToken looked decoded draw).tokens
      (refreshTokens jose users tokens refreshToken looked decoded draw).entry := by
  unfold refreshTokens
  split
  next => exact .stay tokens fun _ => rfl
  next row held =>
    split
    next => exact .stay tokens fun _ => rfl
    next valid =>
      have unspent : row.revoked = false := by
        rw [Bool.or_eq_true,not_or,Bool.not_eq_true] at valid
        exact valid.1
      split
      next => exact .stay tokens fun _ => rfl
      next =>
        dsimp only
        split
        next => exact .stay tokens fun _ => rfl
        next stored added =>
          obtain ⟨fresh,rfl⟩ := add_fresh added
          exact .exchanged refreshToken row draw held unspent fresh

theorem logout_turns (users : Users) (tokens : Dict Text RefreshToken) (refreshToken : Text) :
    Turns jose (ids users) tokens (logout users tokens refreshToken).tokens (logout users tokens refreshToken).entry := by
  unfold logout
  split
  next => exact .stay tokens fun _ => rfl
  next row held =>
    dsimp only
    split
    next revoked =>
      refine .stay _ fun key => ?_
      rw [get_set]
      split
      next same =>
        rw [same,held,← revoked]
      next => rfl
    next unspent => exact .ended refreshToken row held (Bool.not_eq_true _ ▸ unspent)

-- Registering and verifying leave the tokens alone.
theorem create_reply (users : Users) (tokens : Dict Text RefreshToken) (id : Int) (email username password salt : Text)
    (fullName : Option Text) :
    (createUser hashing users tokens id email username password salt fullName).tokens = tokens ∧
      (createUser hashing users tokens id email username password salt fullName).entry = none ∧
      ((createUser hashing users tokens id email username password salt fullName).users = users ∨
        (createUser hashing users tokens id email username password salt fullName).users =
          (Accounts.createUser hashing users id email username password salt fullName).1) := by
  unfold createUser
  split
  next => exact ⟨rfl,rfl,.inl rfl⟩
  next =>
    split
    next => exact ⟨rfl,rfl,.inl rfl⟩
    next => exact ⟨rfl,rfl,.inr rfl⟩

theorem verify_reply (users : Users) (tokens : Dict Text RefreshToken) (token : Text) (now : Int) :
    (verifyEmail hashing timestamps jose numerals users tokens token now).tokens = tokens ∧
      (verifyEmail hashing timestamps jose numerals users tokens token now).entry = none ∧
      ids (verifyEmail hashing timestamps jose numerals users tokens token now).users = ids users := by
  unfold verifyEmail
  split
  next => exact ⟨rfl,rfl,rfl⟩
  next => exact ⟨rfl,rfl,update_user_ids hashing timestamps users _ _⟩

theorem login_ids (users : Users) (tokens : Dict Text RefreshToken) (login : Login) (draw : Draw) :
    ids (loginForAccessToken hashing timestamps jose users tokens login draw).users = ids users := by
  rw [← attempt_ids hashing timestamps users login]
  unfold loginForAccessToken
  dsimp only
  split
  next => rfl
  next => split <;> rfl

theorem refresh_users (users : Users) (tokens : Dict Text RefreshToken) (refreshToken : Text) (looked decoded : Int)
    (draw : Draw) : (refreshTokens jose users tokens refreshToken looked decoded draw).users = users := by
  unfold refreshTokens
  split
  next => rfl
  next =>
    dsimp only
    split
    next => rfl
    next =>
      split
      next => rfl
      next => split <;> rfl

theorem logout_users (users : Users) (tokens : Dict Text RefreshToken) (refreshToken : Text) :
    (logout users tokens refreshToken).users = users := by
  unfold logout
  split <;> rfl

theorem handle_turns (users : Users) (tokens : Dict Text RefreshToken) (request : Request α) :
    Turns jose (ids users) tokens (handle hashing timestamps order jose numerals users tokens request).tokens
      (handle hashing timestamps order jose numerals users tokens request).entry := by
  cases request with
  | login client login draw => exact login_turns hashing timestamps jose users tokens login draw
  | refresh client refreshToken looked decoded draw => exact refresh_turns jose users tokens refreshToken looked decoded draw
  | logout refreshToken => exact logout_turns jose users tokens refreshToken
  | createUser client id email username password salt fullName =>
      obtain ⟨same,quiet,_⟩ := create_reply hashing users tokens id email username password salt fullName
      rw [handle,same,quiet]
      exact .stay tokens fun _ => rfl
  | verifyEmail token now =>
      obtain ⟨same,quiet,_⟩ := verify_reply hashing timestamps jose numerals users tokens token now
      rw [handle,same,quiet]
      exact .stay tokens fun _ => rfl
  | readUsersMe | requestPasswordReset | resetPassword | checkVerificationStatus => exact .stay tokens fun _ => rfl

theorem handle_grows (users : Users) (tokens : Dict Text RefreshToken) (request : Request α) (assigned : request.assigns) :
    Grows users (handle hashing timestamps order jose numerals users tokens request).users := by
  cases request with
  | login client login draw => exact grows_same (login_ids hashing timestamps jose users tokens login draw)
  | createUser client id email username password salt fullName =>
      obtain ⟨_,_,same | created⟩ := create_reply hashing users tokens id email username password salt fullName
      · exact grows_same (congrArg ids same)
      · rw [handle,created]
        exact create_grows hashing users assigned email username password salt fullName
  | verifyEmail token now => exact grows_same (verify_reply hashing timestamps jose numerals users tokens token now).2.2
  | requestPasswordReset client email token now => exact grows_same (reset_ids hashing timestamps order users _)
  | resetPassword client token newPassword salt now => exact grows_same (reset_ids hashing timestamps order users _)
  | refresh client refreshToken looked decoded draw =>
      exact grows_same (congrArg ids (refresh_users jose users tokens refreshToken looked decoded draw))
  | logout refreshToken => exact grows_same (congrArg ids (logout_users users tokens refreshToken))
  | readUsersMe | checkVerificationStatus => exact grows_same rfl

end Turning
theorem granted_append (log : List Entry) (entry : Entry) :
    granted (log ++ [entry]) = granted log ++ entry.grant.toList.map fun grant => (grant.refresh,grant) := by
  unfold granted
  cases entry <;> simp [Entry.grant]

theorem spent_append (log : List Entry) (entry : Entry) : spent (log ++ [entry]) = spent log ++ entry.spent.toList := by
  unfold spent
  cases entry <;> simp [Entry.spent]

theorem mem_granted (log : List Entry) (token : Text) (grant : Grant) :
    (token,grant) ∈ granted log ↔ grant ∈ log.filterMap Entry.grant ∧ grant.refresh = token := by
  rw [granted,List.mem_map]
  constructor
  · rintro ⟨other,listed,same⟩
    cases same
    exact ⟨listed,rfl⟩
  · rintro ⟨listed,rfl⟩
    exact ⟨grant,listed,rfl⟩

def of (user : Int) (grant : Grant) : Bool := decide (grant.user = user)

-- The table shows what was granted and given up, and all of it was issued to users.
structure Kept (jose : Jose) (known : List Int) (tokens : Dict Text RefreshToken) (log : List Entry) : Prop where
  sound : Sound (granted log) (spent log)
  shows_ : Shows Grant.row tokens (granted log) (spent log)
  issued : ∀ grant ∈ log.filterMap Entry.grant, grant.user ∈ known ∧ ∃ draw, grant = issue jose grant.user draw
  assigned : ∀ id ∈ known, Assigned id
  counted : ∀ user, (live (granted log) (spent log)).countP (fun ticket => of user ticket.2) + log.countP (Entry.ends user) =
    log.countP (Entry.opens user)

theorem init_kept (jose : Jose) {known : List Int} (assigned : ∀ id ∈ known, Assigned id) : Kept jose known Dict.empty [] :=
  ⟨sound_nil,shows_nil,fun _ inside => absurd inside List.not_mem_nil,assigned,fun _ => rfl⟩

section Keeping
variable {jose : Jose} {known : List Int} {tokens : Dict Text RefreshToken} {log : List Entry}

theorem held_live (kept : Kept jose known tokens log) {token : Text} {row : RefreshToken} (held : tokens.get token = some row)
    (unspent : row.revoked = false) : ∃ grant, (token,grant) ∈ live (granted log) (spent log) ∧ row = grant.row false := by
  obtain ⟨grant,gone,listed,rfl,marks⟩ := shows_row kept.shows_ kept.sound held
  refine ⟨grant,(mem_live _).mpr ⟨listed,fun inside => ?_⟩,congrArg grant.row unspent⟩
  exact Bool.false_ne_true (unspent.symm.trans (marks.mpr inside))

theorem live_held (kept : Kept jose known tokens log) {token : Text} {grant : Grant}
    (lives : (token,grant) ∈ live (granted log) (spent log)) : tokens.get token = some (grant.row false) :=
  shows_live kept.shows_ kept.sound lives

theorem opened_kept (kept : Kept jose known tokens log) {user : Int} (draw : Draw) (listed : user ∈ known)
    (fresh : tokens.get (issue jose user draw).refresh = none) :
    Kept jose known (tokens.set (issue jose user draw).refresh ((issue jose user draw).row false))
      (log ++ [.opened (issue jose user draw)]) := by
  have new := (shows_absent kept.shows_).mp fresh
  have unspent : (issue jose user draw).refresh ∉ spent log := fun inside => new (kept.sound.known _ inside)
  refine ⟨?_,?_,?_,kept.assigned,?_⟩
  · rw [granted_append,spent_append]
    simpa [Entry.grant,Entry.spent] using sound_grant (issue jose user draw) kept.sound new
  · rw [granted_append,spent_append]
    simpa [Entry.grant,Entry.spent] using shows_grant (issue jose user draw) kept.shows_ kept.sound new
  · intro grant inside
    rw [List.filterMap_append] at inside
    rcases List.mem_append.mp inside with earlier | now
    · exact kept.issued grant earlier
    · cases List.mem_singleton.mp now
      exact ⟨listed,draw,rfl⟩
  · intro other
    have before := kept.counted other
    rw [granted_append,spent_append,List.countP_append,List.countP_append]
    change (live (granted log ++ [(_,issue jose user draw)]) (spent log ++ [])).countP _ + (_ + 0) = _
    rw [List.append_nil,live_grant unspent,List.countP_append,List.countP_singleton,List.countP_singleton]
    change _ + (if decide (user = other) = true then 1 else 0) + _ = _ + (if decide (user = other) = true then 1 else 0)
    omega

theorem ended_kept (kept : Kept jose known tokens log) {token : Text} {grant : Grant}
    (held : (token,grant) ∈ live (granted log) (spent log)) :
    Kept jose known (tokens.set token (grant.row true)) (log ++ [.ended grant.user token]) := by
  obtain ⟨listed,unspent⟩ := (mem_live _).mp held
  have key : token ∈ keys (granted log) := List.mem_map_of_mem (f := Prod.fst) listed
  refine ⟨?_,?_,?_,kept.assigned,?_⟩
  · rw [granted_append,spent_append]
    simpa [Entry.grant,Entry.spent] using sound_spend kept.sound key unspent
  · rw [granted_append,spent_append]
    simpa [Entry.grant,Entry.spent] using shows_spend kept.shows_ ((lookup_granted kept.sound).mpr listed)
  · intro other inside
    rw [List.filterMap_append] at inside
    refine kept.issued other ((List.mem_append.mp inside).resolve_right fun now => ?_)
    cases now
  · intro user
    have before := kept.counted user
    rw [spend_count kept.sound listed unspent (of user)] at before
    rw [granted_append,spent_append,List.countP_append,List.countP_append]
    change (live (granted log ++ []) (spent log ++ [token])).countP _ + (_ + List.countP _ [_]) = _ + 0
    rw [List.append_nil,List.countP_singleton]
    change _ + (_ + if decide (grant.user = user) = true then 1 else 0) = _
    change _ + (if decide (grant.user = user) = true then 1 else 0) + _ = _ at before
    omega

-- An exchange gives one token up and grants another to the same user.
theorem exchanged_kept (kept : Kept jose known tokens log) {token : Text} {grant : Grant}
    (held : (token,grant) ∈ live (granted log) (spent log)) (draw : Draw)
    (fresh : (tokens.set token (grant.row true)).get (issue jose grant.user draw).refresh = none) :
    Kept jose known ((tokens.set token (grant.row true)).set (issue jose grant.user draw).refresh
      ((issue jose grant.user draw).row false)) (log ++ [.exchanged token (issue jose grant.user draw)]) := by
  obtain ⟨listed,unspent⟩ := (mem_live _).mp held
  have key : token ∈ keys (granted log) := List.mem_map_of_mem (f := Prod.fst) listed
  have sound := sound_spend kept.sound key unspent
  have shown := shows_spend kept.shows_ ((lookup_granted kept.sound).mpr listed)
  have new := (shows_absent shown).mp fresh
  have outside : (issue jose grant.user draw).refresh ∉ spent log ++ [token] := fun inside => new (sound.known _ inside)
  refine ⟨?_,?_,?_,kept.assigned,?_⟩
  · rw [granted_append,spent_append]
    simpa [Entry.grant,Entry.spent] using sound_grant (issue jose grant.user draw) sound new
  · rw [granted_append,spent_append]
    simpa [Entry.grant,Entry.spent] using shows_grant (issue jose grant.user draw) shown sound new
  · intro other inside
    rw [List.filterMap_append] at inside
    rcases List.mem_append.mp inside with earlier | now
    · exact kept.issued other earlier
    · cases List.mem_singleton.mp now
      exact ⟨(kept.issued grant ((mem_granted log token grant).mp listed).1).1,draw,rfl⟩
  · intro user
    have before := kept.counted user
    rw [spend_count kept.sound listed unspent (of user)] at before
    rw [granted_append,spent_append,List.countP_append,List.countP_append]
    change (live (granted log ++ [(_,issue jose grant.user draw)]) (spent log ++ [token])).countP _ + (_ + 0) = _ + 0
    rw [live_grant outside,List.countP_append,List.countP_singleton]
    change _ + (if decide (grant.user = user) = true then 1 else 0) + _ = _
    change _ + (if decide (grant.user = user) = true then 1 else 0) + _ = _ at before
    omega

theorem turn_kept (kept : Kept jose known tokens log) {after : Dict Text RefreshToken} {entry : Option Entry}
    (turns : Turns jose known tokens after entry) : Kept jose known after (log ++ entry.toList) := by
  cases turns with
  | stay after same =>
      rw [Option.toList_none,List.append_nil]
      exact ⟨kept.sound,fun key => (same key).trans (kept.shows_ key),kept.issued,kept.assigned,kept.counted⟩
  | opened user draw listed fresh => exact opened_kept kept draw listed fresh
  | exchanged token row draw held unspent fresh =>
      obtain ⟨grant,lives,rfl⟩ := held_live kept held unspent
      exact exchanged_kept kept lives draw fresh
  | ended token row held unspent =>
      obtain ⟨grant,lives,rfl⟩ := held_live kept held unspent
      exact ended_kept kept lives

theorem grown_kept (kept : Kept jose known tokens log) {more : List Int} (grows : ∀ id ∈ known, id ∈ more)
    (assigned : ∀ id ∈ more, Assigned id) : Kept jose more tokens log :=
  ⟨kept.sound,kept.shows_,fun grant listed => ⟨grows _ (kept.issued grant listed).1,(kept.issued grant listed).2⟩,assigned,
    kept.counted⟩

end Keeping
section Answers
variable {jose : Jose} (numerals : Numerals) {users : Users} {tokens : Dict Text RefreshToken} {log : List Entry}

theorem access_verified {token : Text} {now : Int} {payload : Claims} (decoded : jose.decodeAccessToken token now = some payload) :
    jose.verify token = some payload :=
  (Option.filter_eq_some_iff.mp (Option.filter_eq_some_iff.mp decoded).1).1

-- What is accepted as an access token was issued as one.
theorem access_issued (kept : Kept jose (ids users) tokens log) {token : Text} (genuine : Genuine jose log token) {now : Int}
    {payload : Claims} (decoded : jose.decodeAccessToken token now = some payload) :
    ∃ grant ∈ log.filterMap Entry.grant, grant.access = token ∧ payload.sub = some (subject grant.user) ∧
      seconds now ≤ seconds (grant.accessAt + minutes 30) := by
  obtain ⟨grant,listed,own⟩ := genuine payload (access_verified decoded)
  obtain ⟨_,draw,made⟩ := kept.issued grant listed
  rcases own with rfl | rfl
  · refine ⟨grant,listed,rfl,?_⟩
    rw [made] at decoded ⊢
    change jose.decodeAccessToken (jose.createAccessToken (subject grant.user) draw.accessAt none) now = _ at decoded
    rw [access_decodes] at decoded
    split at decoded
    next early =>
      cases decoded
      exact ⟨rfl,early⟩
    next => cases decoded
  · rw [made] at decoded
    change jose.decodeAccessToken (jose.createRefreshToken (subject grant.user) draw.refreshAt draw.jti none) now = _ at decoded
    rw [refresh_refused] at decoded
    cases decoded

theorem known_user (kept : Kept jose (ids users) tokens log) {grant : Grant} (listed : grant ∈ log.filterMap Entry.grant) :
    ∃ row, users.getUser grant.user = some row ∧ row.id = grant.user := by
  obtain ⟨row,present,same⟩ := List.mem_map.mp (kept.issued grant listed).1
  refine ⟨row,?_,same⟩
  rw [← same]
  exact users.getUser_listed present

theorem current_user (kept : Kept jose (ids users) tokens log) {grant : Grant} (listed : grant ∈ log.filterMap Entry.grant)
    {token : Text} {now : Int} {payload : Claims} (decoded : jose.decodeAccessToken token now = some payload)
    (about : payload.sub = some (subject grant.user)) :
    ∃ row, getCurrentUser jose numerals users token now = .ok row ∧ row.id = grant.user := by
  obtain ⟨row,found,same⟩ := known_user kept listed
  refine ⟨row,?_,same⟩
  unfold getCurrentUser
  rw [decoded]
  dsimp only
  rw [about]
  dsimp only
  rw [int_subject numerals (kept.assigned _ (kept.issued grant listed).1)]
  dsimp only
  rw [found]

theorem bearers_exact (kept : Kept jose (ids users) tokens log) {token : Text} (genuine : Genuine jose log token) (now user : Int) :
    (∃ row, getCurrentUser jose numerals users token now = .ok row ∧ row.id = user) ↔ Bears log token now user := by
  constructor
  · rintro ⟨row,accepted,rfl⟩
    cases decoded : jose.decodeAccessToken token now with
    | none =>
        unfold getCurrentUser at accepted
        rw [decoded] at accepted
        cases accepted
    | some payload =>
        obtain ⟨grant,listed,own,about,early⟩ := access_issued kept genuine decoded
        obtain ⟨other,also,same⟩ := current_user numerals kept listed decoded about
        rw [accepted] at also
        cases also
        exact ⟨grant,listed,own,same.symm,early⟩
  · rintro ⟨grant,listed,rfl,rfl,early⟩
    obtain ⟨_,draw,made⟩ := kept.issued grant listed
    have decoded : jose.decodeAccessToken grant.access now = some (Jose.accessClaims (subject grant.user) grant.accessAt none) := by
      rw [made] at early ⊢
      exact (access_decodes jose grant.user draw.accessAt now).trans (if_pos early)
    exact current_user numerals kept listed decoded rfl

theorem bearers_refused (kept : Kept jose (ids users) tokens log) {token : Text} (genuine : Genuine jose log token) (now : Int)
    {exc : Failure} (refused : getCurrentUser jose numerals users token now = .error exc) : exc = credentialsExc := by
  cases decoded : jose.decodeAccessToken token now with
  | none =>
      unfold getCurrentUser at refused
      rw [decoded] at refused
      cases refused
      rfl
  | some payload =>
      obtain ⟨grant,listed,_,about,_⟩ := access_issued kept genuine decoded
      obtain ⟨row,accepted,_⟩ := current_user numerals kept listed decoded about
      rw [accepted] at refused
      cases refused

-- What has a row that is not revoked decodes as long as it is young enough.
theorem live_decodes (kept : Kept jose (ids users) tokens log) {token : Text} {grant : Grant}
    (lives : (token,grant) ∈ live (granted log) (spent log)) (decoded : Int) :
    (jose.decodeRefreshToken token decoded).bind Claims.sub =
      if seconds decoded ≤ seconds (grant.refreshAt + days 7) then some (subject grant.user) else none := by
  obtain ⟨listed,rfl⟩ := (mem_granted log token grant).mp ((mem_live _).mp lives).1
  obtain ⟨_,draw,made⟩ := kept.issued grant listed
  rw [made]
  change (jose.decodeRefreshToken (jose.createRefreshToken (subject grant.user) draw.refreshAt draw.jti none) decoded).bind _ = _
  rw [refresh_decodes]
  split
  next early => exact (if_pos early).symm
  next late => exact (if_neg late).symm

theorem live_one (kept : Kept jose (ids users) tokens log) {token : Text} {first second : Grant}
    (lives : (token,first) ∈ live (granted log) (spent log)) (also : (token,second) ∈ live (granted log) (spent log)) :
    first = second := by
  have listed := (lookup_granted kept.sound).mpr ((mem_live _).mp lives).1
  rw [(lookup_granted kept.sound).mpr ((mem_live _).mp also).1] at listed
  cases listed
  rfl

theorem add_exact (kept : Kept jose (ids users) tokens log) {token : Text} {grant : Grant}
    (lives : (token,grant) ∈ live (granted log) (spent log)) (next : Grant) :
    (addToken (tokens.set token (grant.row true)) next = none) ↔ next.refresh ∈ keys (granted log) := by
  have shown := shows_spend kept.shows_ ((lookup_granted kept.sound).mpr ((mem_live _).mp lives).1)
  rw [← not_iff_not,← shows_absent shown]
  unfold addToken
  cases (tokens.set token (grant.row true)).get next.refresh <;> simp

theorem renewals_exact (kept : Kept jose (ids users) tokens log) (refreshToken : Text) (looked decoded : Int) (draw : Draw)
    (response : Response) : (refreshTokens jose users tokens refreshToken looked decoded draw).answer = .ok response ↔
      ∃ grant, Renewable log refreshToken looked decoded grant ∧
        (issue jose grant.user draw).refresh ∉ keys (granted log) ∧ response = .token (issue jose grant.user draw).token := by
  unfold refreshTokens
  cases held : tokens.get refreshToken with
  | none =>
      refine iff_of_false (by rintro ⟨⟩) ?_
      rintro ⟨grant,⟨lives,_⟩,_⟩
      rw [live_held kept lives] at held
      cases held
  | some row =>
      dsimp only
      split
      next invalid =>
        refine iff_of_false (by rintro ⟨⟩) ?_
        rintro ⟨grant,⟨lives,young,_⟩,_⟩
        rw [live_held kept lives] at held
        cases held
        rw [Bool.or_eq_true,decide_eq_true_eq] at invalid
        rcases invalid with revoked | old
        · cases revoked
        · exact absurd young (not_lt.mpr old)
      next valid =>
        rw [Bool.or_eq_true,not_or,Bool.not_eq_true,decide_eq_true_eq,not_le] at valid
        obtain ⟨grant,lives,rfl⟩ := held_live kept held valid.1
        have one : ∀ other, (refreshToken,other) ∈ live (granted log) (spent log) → other = grant := fun other also =>
          live_one kept also lives
        rw [live_decodes kept lives]
        by_cases early : seconds decoded ≤ seconds (grant.refreshAt + days 7)
        · have its : ¬ some (subject grant.user) ≠ some (subject (grant.row false).userId) := not_not_intro rfl
          rw [if_pos early,if_neg its]
          have taken := add_exact kept lives (issue jose grant.user draw)
          change (match addToken (tokens.set refreshToken (grant.row true)) (issue jose grant.user draw) with
            | none => Reply.mk users tokens none (.error (IntegrityError (issue jose grant.user draw).refresh))
            | some stored => ⟨users,stored,some (.exchanged refreshToken (issue jose grant.user draw)),
                .ok (.token (issue jose grant.user draw).token)⟩).answer = _ ↔ _
          cases added : addToken (tokens.set refreshToken (grant.row true)) (issue jose grant.user draw) with
          | none =>
              refine iff_of_false (by rintro ⟨⟩) ?_
              rintro ⟨other,⟨also,_⟩,fresh,_⟩
              cases one other also
              exact fresh (taken.mp added)
          | some stored =>
              constructor
              · rintro ⟨⟩
                refine ⟨grant,⟨lives,valid.2,early⟩,fun inside => ?_,rfl⟩
                rw [taken.mpr inside] at added
                cases added
              · rintro ⟨other,⟨also,_⟩,_,rfl⟩
                cases one other also
                rfl
        · have none_its : none ≠ some (subject (grant.row false).userId) := nofun
          rw [if_neg early,if_pos none_its]
          refine iff_of_false (by rintro ⟨⟩) ?_
          rintro ⟨other,⟨also,_,timely⟩,_⟩
          cases one other also
          exact early timely

end Answers
section Systems
variable (hashing : Hashing) (timestamps : Timestamps) (order : Order User) (jose : Jose) (numerals : Numerals)
variable [AddCommGroup α] [LinearOrder α]

theorem step_kept {world : World α} (kept : Kept jose (ids world.users) world.tokens world.log) {request : Request α}
    (assigned : request.assigns) :
    Kept jose (ids (step hashing timestamps order jose numerals world request).users)
      (step hashing timestamps order jose numerals world request).tokens
      (step hashing timestamps order jose numerals world request).log := by
  unfold step
  dsimp only
  split
  next =>
    have grows := handle_grows hashing timestamps order jose numerals world.users world.tokens request assigned
    have turns := handle_turns hashing timestamps order jose numerals world.users world.tokens request
    refine grown_kept (turn_kept kept turns) grows.1 fun id inside => ?_
    exact (grows.2 id inside).elim (kept.assigned id) fun new => new
  next => exact kept

theorem kept_correct {world : World α} (kept : Kept jose (ids world.users) world.tokens world.log) :
    Correct hashing timestamps order jose numerals world := by
  refine ⟨?_,?_,?_,kept.counted⟩
  · intro token now user genuine
    exact bearers_exact numerals kept genuine now user
  · intro token now exc genuine refused
    exact bearers_refused numerals kept genuine now refused
  · intro client refreshToken looked decoded draw response
    unfold answer
    change (if (enforceAuthRateLimit world.rateLimiter client).2 = true then
      (refreshTokens jose world.users world.tokens refreshToken looked decoded draw).answer else _) = _ ↔ _
    by_cases admitted : (enforceAuthRateLimit world.rateLimiter client).2 = true
    · rw [if_pos admitted,renewals_exact kept]
      exact (and_iff_right admitted).symm
    · rw [if_neg admitted]
      exact iff_of_false (by rintro ⟨⟩) fun both => admitted both.1

-- Over every run that starts with no tokens, however often the limiter refuses:
-- an access token stands for its user for half an hour and no longer, whatever is
-- logged out or reset; a refresh token is good once and for a week; and the tokens
-- that a user still has are as many as the logins that were not logged out.
theorem sessions_correct (rateLimiter : Option (RateLimiter α)) (users : Users) (requests : List (Request α))
    (assigned : ∀ user ∈ users.rows, Assigned user.id) (assigns : ∀ request ∈ requests, request.assigns) :
    Throughout (step hashing timestamps order jose numerals) (Correct hashing timestamps order jose numerals)
      (World.init rateLimiter users) requests := by
  have start : Kept jose (ids users) Dict.empty [] := by
    refine init_kept jose fun id inside => ?_
    obtain ⟨user,listed,rfl⟩ := List.mem_map.mp inside
    exact assigned user listed
  have always := throughout_invariant (P := fun world : World α => Kept jose (ids world.users) world.tokens world.log)
    (fun world request kept given => step_kept hashing timestamps order jose numerals kept given) (World.init rateLimiter users) requests start
    (steps_forall (fun request listed _ => assigns request listed) _)
  exact fun front early => kept_correct hashing timestamps order jose numerals (always front early)

end Systems

-- Claims written out unsigned.
def packed : Option Text → Text
  | none => ['-']
  | some text => text.flatMap (fun c => ['+',c]) ++ ['.']

def characters : Text → Option (Text × Text)
  | '+' :: c :: rest => (characters rest).map fun read => (c :: read.1,read.2)
  | '.' :: rest => some ([],rest)
  | _ => none

def unpacked : Text → Option (Option Text × Text)
  | '-' :: rest => some (none,rest)
  | text => (characters text).map fun read => (some read.1,read.2)

theorem characters_packed (text rest : Text) : characters (text.flatMap (fun c => ['+',c]) ++ '.' :: rest) = some (text,rest) := by
  induction text with
  | nil => rfl
  | cons c text ih =>
      change (characters (text.flatMap (fun c => ['+',c]) ++ '.' :: rest)).map _ = _
      rw [ih]
      rfl

theorem unpacked_packed (field : Option Text) (rest : Text) : unpacked (packed field ++ rest) = some (field,rest) := by
  cases field with
  | none => rfl
  | some text =>
      have read := characters_packed text rest
      rw [packed,List.append_assoc,List.singleton_append]
      cases text with
      | nil => rfl
      | cons c text =>
          change (characters ((c :: text).flatMap (fun c => ['+',c]) ++ '.' :: rest)).map _ = _
          rw [read]
          rfl

def numbered (exp : Int) : Text := (if exp < 0 then '-' else '+') :: Nat.toDigits 10 exp.natAbs

def number : Text → Int
  | '-' :: digits => -decimal digits
  | _ :: digits => decimal digits
  | [] => 0

theorem number_numbered (exp : Int) : number (numbered exp) = exp := by
  unfold numbered
  split
  next negative =>
    rw [number,decimal_digits]
    omega
  next =>
    rw [number,decimal_digits]
    · omega
    · decide

def plainEncode (claims : Claims) : Text :=
  packed claims.sub ++ (packed (claims.exp.map numbered) ++ (packed claims.type ++ packed claims.jti))

def plainVerify (token : Text) : Option Claims := do
  let (sub,rest) ← unpacked token
  let (exp,rest) ← unpacked rest
  let (type,rest) ← unpacked rest
  let (jti,_) ← unpacked rest
  pure ⟨sub,exp.map number,type,jti⟩

theorem plain_verified (claims : Claims) : plainVerify (plainEncode claims) = some claims := by
  have last := unpacked_packed claims.jti []
  rw [List.append_nil] at last
  unfold plainVerify plainEncode
  simp only [unpacked_packed,last,Option.bind_eq_bind,Option.bind_some,Option.pure_def,Option.map_map]
  have same : number ∘ numbered = id := funext number_numbered
  rw [same,Option.map_id_apply]

def plainJose : Jose := ⟨plainEncode,plainVerify,plain_verified⟩

def visitor : Client Int := ⟨"::1".toList,0⟩

-- In at the start, on after a minute, out after two.
def visit : List (Request Int) :=
  [.login visitor ⟨['u'],['p'],0,0,0,⟨le_rfl,le_rfl⟩⟩ ⟨0,0,0,['a']⟩,
   .refresh visitor (issue plainJose 1 ⟨0,0,0,['a']⟩).refresh (minutes 1) (minutes 1) ⟨minutes 1,minutes 1,minutes 1,['b']⟩,
   .verifyEmail (issue plainJose 1 ⟨0,0,0,['a']⟩).access (minutes 1),
   .logout (issue plainJose 1 ⟨minutes 1,minutes 1,minutes 1,['b']⟩).refresh]

def visited : World Int := run (step plainHashing utcTimestamps Order.asIs plainJose asciiNumerals)
  (World.init none oneUser) visit

theorem visit_correct : Throughout (step plainHashing utcTimestamps Order.asIs plainJose asciiNumerals)
    (Correct plainHashing utcTimestamps Order.asIs plainJose asciiNumerals) (World.init (some (RateLimiter.init 100 60)) oneUser) visit := by
  refine sessions_correct plainHashing utcTimestamps .asIs plainJose asciiNumerals _ _ _ ?_ ?_
  · intro user listed
    cases List.mem_singleton.mp listed
    exact ⟨by decide,by decide⟩
  · intro request listed
    simp only [visit,List.mem_cons,List.not_mem_nil,or_false] at listed
    rcases listed with rfl | rfl | rfl | rfl <;> trivial

example : (visited.users.rows.map User.isVerified,visited.log.map fun entry => (entry.grant.map Grant.accessAt,entry.spent.isSome)) =
    ([true],[(some 0,false),(some (minutes 1),true),(none,true)]) := by decide +kernel
end Kryvaracode.Sessions
