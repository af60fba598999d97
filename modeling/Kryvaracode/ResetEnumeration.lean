import Kryvaracode.PasswordPolicy
import Kryvaracode.JsonText

namespace Kryvaracode.PasswordPolicy
open Accounts PasswordReset RateLimits JsonText
open Models (Order)

-- What a client is shown.
structure Response where
  status : Nat
  body : Json

-- The one exception that the middleware answers by itself.
def limitExceeded : Response := ⟨429,.obj [("detail".toList,.str "Rate limit exceeded. Try again shortly.".toList),
  ("error_code".toList,.str "rate_limit_exceeded".toList),("status_code".toList,.int 429)]⟩

def httpStatus (name : Text) : Nat :=
  if name = "HTTP_404_NOT_FOUND".toList then 404
  else if name = "HTTP_429_TOO_MANY_REQUESTS".toList then 429
  else 400

-- The default handler of an HTTPException.
def httpError (exc : Failure) : Response := ⟨httpStatus exc.kind.name,.obj [("detail".toList,.str exc.detail)]⟩

def shown : Result Text → Response
  | .ok message => ⟨202,.obj [("message".toList,.str message)]⟩
  | .error exc => httpError exc

-- One request for a reset: who asks, when each limiter is asked, and the token that is made.
structure ResetRequest where
  clientIp : Text
  dispatched : Int
  handled : Int
  token : Text
  issued : Int

def ResetRequest.arrival (request : ResetRequest) (email : Text) : Arrival :=
  ⟨request.clientIp,request.dispatched,request.handled,.requestReset email request.token request.issued⟩

def Registered (users : Users) (email : Text) : Prop := ∃ user ∈ users.rows, user.email = email

section Requests
variable (chars : CharTests) (emailStr : Text → Option Text) (hashing : Hashing) (timestamps : Timestamps) (order : Order User)

-- The middleware, and behind it the route.
def World.respond (world : World) (request : ResetRequest) (email : Text) : Response :=
  if allows world.limiter request.clientIp request.dispatched then
    shown ((world.spent request.clientIp request.dispatched).route chars emailStr hashing timestamps order request.clientIp
      request.handled (request.arrival email).body).2
  else limitExceeded

theorem reset_answer (users : Users) (email token : Text) (now : Int) :
    (Registered users email ∧ (requestPasswordReset hashing timestamps users email token now).answer =
        .ok "If the email exists, a reset link has been sent".toList) ∨
      (¬ Registered users email ∧ (requestPasswordReset hashing timestamps users email token now).answer =
        .error (HTTPException "HTTP_404_NOT_FOUND" "User with this email not found")) := by
  unfold requestPasswordReset
  cases found : users.getUserByEmail email with
  | some user => exact .inl ⟨⟨user,users.getUserByEmail_some found⟩,rfl⟩
  | none =>
      refine .inr ⟨?_,rfl⟩
      rintro ⟨user,listed,rfl⟩
      rw [users.getUserByEmail_listed listed] at found
      cases found

variable {chars emailStr hashing timestamps order}

-- The limiter decides before the address is looked at.
theorem respond_parts (world : World) (request : ResetRequest) (email : Text) :
    world.respond chars emailStr hashing timestamps order request email =
      if allows world.limiter request.clientIp request.dispatched then
        if allows (world.spent request.clientIp request.dispatched).limiter (authKey request.clientIp) request.handled then
          shown (requestPasswordReset hashing timestamps world.users email request.token request.issued).answer
        else shown (.error rateLimited)
      else limitExceeded := by
  unfold World.respond
  by_cases passes : allows world.limiter request.clientIp request.dispatched = true
  · rw [if_pos passes,if_pos passes]
    change shown (World.endpoint _ _ _ _).2 = _
    unfold World.endpoint
    split <;> rfl
  · rw [if_neg passes,if_neg passes]

theorem answers_differ (known : Text) (detail : String) :
    shown (.ok known) ≠ shown (.error (HTTPException "HTTP_404_NOT_FOUND" detail)) := by
  intro same
  have code : httpStatus "HTTP_404_NOT_FOUND".toList = 404 := if_pos rfl
  have codes : 202 = httpStatus "HTTP_404_NOT_FOUND".toList := congrArg Response.status same
  rw [code] at codes
  cases codes

theorem answers_same (users : Users) (first second token : Text) (now : Int) :
    shown (requestPasswordReset hashing timestamps users first token now).answer =
        shown (requestPasswordReset hashing timestamps users second token now).answer ↔
      (Registered users first ↔ Registered users second) := by
  rcases reset_answer hashing timestamps users first token now with ⟨one,known⟩ | ⟨one,unknown⟩
  · rcases reset_answer hashing timestamps users second token now with ⟨two,also⟩ | ⟨two,other⟩
    · rw [known,also]
      exact iff_of_true rfl (iff_of_true one two)
    · rw [known,other]
      exact iff_of_false (answers_differ _ _) fun same => two (same.mp one)
  · rcases reset_answer hashing timestamps users second token now with ⟨two,other⟩ | ⟨two,also⟩
    · rw [unknown,other]
      exact iff_of_false (Ne.symm (answers_differ _ _)) fun same => one (same.mpr two)
    · rw [unknown,also]
      exact iff_of_true rfl (iff_of_false one two)

end Requests

theorem reset_response_exact (chars : CharTests) (emailStr : Text → Option Text) (hashing : Hashing) (timestamps : Timestamps)
    (order : Order User) (world : World) (request : ResetRequest) (first second : Text) :
    world.respond chars emailStr hashing timestamps order request first =
        world.respond chars emailStr hashing timestamps order request second ↔
      ¬ Admitted world (request.arrival first) ∨ (Registered world.users first ↔ Registered world.users second) := by
  rw [respond_parts,respond_parts]
  by_cases passes : allows world.limiter request.clientIp request.dispatched = true
  · rw [if_pos passes,if_pos passes]
    by_cases again : allows (world.spent request.clientIp request.dispatched).limiter (authKey request.clientIp)
        request.handled = true
    · have admitted : Admitted world (request.arrival first) := ⟨passes,again⟩
      rw [if_pos again,if_pos again,or_iff_right (not_not.mpr admitted)]
      exact answers_same world.users first second request.token request.issued
    · rw [if_neg again,if_neg again]
      exact iff_of_true rfl (.inl fun admitted => again admitted.2)
  · rw [if_neg passes,if_neg passes]
    exact iff_of_true rfl (.inl fun admitted => passes admitted.1)

-- One user, and no limiter: the other address is answered by a 404.
theorem reset_tells_registered : ¬ ∀ first second : Text,
    (⟨oneUser,none,InsertionDict.Dict.empty⟩ : World).respond asciiTests some plainHashing utcTimestamps .asIs
        ⟨['i'],0,0,['t'],0⟩ first =
      (⟨oneUser,none,InsertionDict.Dict.empty⟩ : World).respond asciiTests some plainHashing utcTimestamps .asIs
        ⟨['i'],0,0,['t'],0⟩ second := by
  intro same
  exact answers_differ _ _ (same ['m'] ['n'])

end Kryvaracode.PasswordPolicy
