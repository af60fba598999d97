import Kryvaracode.Accounts
import Kryvaracode.Runs

namespace Kryvaracode.PasswordReset
open Accounts Runs
open Models (Order)

-- The requests with what they draw and read: a fresh token, a salt, the clock.
inductive Request where
  | requestReset (email token : Text) (now : Int)
  | reset (token newPassword salt : Text) (now : Int)

def Request.issues : Request → Option Text
  | .requestReset _ token _ => some token
  | .reset _ _ _ _ => none

-- What a request leaves and answers, and the user whose row it has written.
structure Reply where
  users : Users
  answer : Result Text
  wrote : Option Int

-- What has been issued and redeemed, in order.
inductive Entry where
  | issued (user : Int) (token : Text) (now : Int)
  | redeemed (user : Int)

def Entry.user : Entry → Int
  | .issued user _ _ => user
  | .redeemed user => user

def Entry.token : Entry → Option Text
  | .issued _ token _ => some token
  | .redeemed _ => none

def Entry.left : Entry → Option (Text × Int)
  | .issued _ token now => some (token,now)
  | .redeemed _ => none

-- The token most recently issued to a user, with the time, unless redeemed since.
def outstanding (log : List Entry) (user : Int) : Option (Text × Int) :=
  (log.reverse.find? fun entry => decide (entry.user = user)).bind Entry.left

structure World where
  users : Users
  log : List Entry

section Requests
variable (hashing : Hashing) (timestamps : Timestamps) (order : Order User)

def requestPasswordReset (users : Users) (email token : Text) (now : Int) : Reply :=
  match users.getUserByEmail email with
  | none => ⟨users,.error (HTTPException "HTTP_404_NOT_FOUND" "User with this email not found"),none⟩
  | some user =>
      let updated := updateUser hashing timestamps users user.id
        {passwordResetToken := some token,passwordResetExpires := some (now + hours 24)}
      ⟨updated.1,.ok "If the email exists, a reset link has been sent".toList,some user.id⟩

-- A comparison with NULL is not true.
def valid (tokenHash : Text) (now : Int) (user : User) : Bool :=
  decide (user.hashedResetToken = some tokenHash) && user.passwordResetExpires.any fun expires => decide (now < expires.moment)

def resetPassword (users : Users) (token newPassword salt : Text) (now : Int) : Reply :=
  match (order.arrange (users.rows.filter (valid (hashing.hashResetToken token) now))).head? with
  | none => ⟨users,.error (HTTPException "HTTP_400_BAD_REQUEST" "Invalid or expired reset token"),none⟩
  | some user =>
      match changePassword hashing users user.id newPassword salt with
      | (after,.error exc) => ⟨after,.error exc,none⟩
      | (after,.ok none) => ⟨after,.error (HTTPException "HTTP_404_NOT_FOUND" "User not found"),none⟩
      | (after,.ok (some _)) => ⟨after,.ok "Password successfully reset".toList,some user.id⟩

def handle (users : Users) : Request → Reply
  | .requestReset email token now => requestPasswordReset hashing timestamps users email token now
  | .reset token newPassword salt now => resetPassword hashing order users token newPassword salt now

def entry (user : Int) : Request → Entry
  | .requestReset _ token now => .issued user token now
  | .reset _ _ _ _ => .redeemed user

def step (world : World) (request : Request) : World :=
  let reply := handle hashing timestamps order world.users request
  ⟨reply.users,world.log ++ (reply.wrote.map fun user => entry user request).toList⟩

-- The token is the user's, was not redeemed since and is less than a day old.
def Redeemable (log : List Entry) (user : User) (token : Text) (now : Int) : Prop :=
  ∃ issued, outstanding log user.id = some (token,issued) ∧ now < issued + hours 24

-- A success gives one row its new hash and no token, a refusal changes nothing.
def Correct (world : World) (request : Request) : Prop :=
  (∀ exc, (handle hashing timestamps order world.users request).answer = .error exc →
    (handle hashing timestamps order world.users request).users = world.users) ∧
  ∀ token newPassword salt now, request = .reset token newPassword salt now →
    ((∃ message, (handle hashing timestamps order world.users request).answer = .ok message) ↔
      ∃ user ∈ world.users.rows, Redeemable world.log user token now ∧
        hashing.verifyPassword newPassword user.hashedPassword = false) ∧
    ∀ user ∈ world.users.rows, Redeemable world.log user token now →
      hashing.verifyPassword newPassword user.hashedPassword = false →
        (handle hashing timestamps order world.users request).users.rows = world.users.rows.map fun row =>
          if row.id = user.id then
            {row with hashedPassword := hashing.getPasswordHash newPassword salt,hashedResetToken := none,
                      passwordResetToken := none,passwordResetExpires := none}
          else row
end Requests

theorem outstanding_append (log : List Entry) (entry : Entry) (user : Int) :
    outstanding (log ++ [entry]) user = if entry.user = user then entry.left else outstanding log user := by
  unfold outstanding
  rw [List.reverse_concat,List.find?_cons]
  by_cases its : entry.user = user <;> simp [its]

theorem outstanding_listed {log : List Entry} {user : Int} {token : Text} {issued : Int}
    (left : outstanding log user = some (token,issued)) : .issued user token issued ∈ log := by
  unfold outstanding at left
  rw [Option.bind_eq_some_iff] at left
  obtain ⟨entry,found,leaves⟩ := left
  have listed := List.mem_reverse.mp (List.mem_of_find?_eq_some found)
  have its : entry.user = user := by simpa using List.find?_some found
  cases entry with
  | issued holder name now =>
      cases its
      cases leaves
      exact listed
  | redeemed holder => cases leaves

-- A token that was issued once is outstanding for one user.
theorem outstanding_one {log : List Entry} (distinct : (log.filterMap Entry.token).Nodup) {first second : Int} {token : Text}
    {issued again : Int} (left : outstanding log first = some (token,issued))
    (also : outstanding log second = some (token,again)) : first = second := by
  have apart := List.pairwise_filterMap.mp distinct
  by_contra different
  have symmetric : Std.Symm fun before after : Entry => ∀ name, before.token = some name → ∀ other,
      after.token = some other → name ≠ other := ⟨fun _ _ unequal name held other also => (unequal other also name held).symm⟩
  refine apart.forall (outstanding_listed left) (outstanding_listed also) ?_ token rfl token rfl rfl
  intro same
  cases same
  exact different rfl

-- The row of a user shows what is outstanding for the user.
def Shows (hashing : Hashing) (log : List Entry) (user : User) : Prop :=
  match outstanding log user.id with
  | none => user.hashedResetToken = none
  | some (token,issued) => user.hashedResetToken = some (hashing.hashResetToken token) ∧
      user.passwordResetExpires.map Scheduling.Stamp.moment = some (issued + hours 24)

structure Kept (hashing : Hashing) (requests : List Request) (world : World) : Prop where
  tokens : (world.log.filterMap Entry.token).Sublist (requests.filterMap Request.issues)
  shows_ : ∀ user ∈ world.users.rows, Shows hashing world.log user

theorem kept_distinct {hashing : Hashing} {requests : List Request} {world : World} (kept : Kept hashing requests world)
    (fresh : (requests.filterMap Request.issues).Nodup) : (world.log.filterMap Entry.token).Nodup := fresh.sublist kept.tokens

theorem valid_exact (tokenHash : Text) (now : Int) (user : User) : valid tokenHash now user = true ↔
    user.hashedResetToken = some tokenHash ∧ ∃ expires, user.passwordResetExpires.map Scheduling.Stamp.moment = some expires ∧
      now < expires := by
  unfold valid
  rw [Bool.and_eq_true,decide_eq_true_eq]
  refine and_congr_right fun _ => ?_
  cases user.passwordResetExpires with
  | none => simp
  | some expires => simp

-- A row passes the filter exactly where its user may redeem the token.
theorem valid_redeemable {hashing : Hashing} (injective : Function.Injective hashing.sha256) {log : List Entry} {user : User}
    (shown : Shows hashing log user) (token : Text) (now : Int) :
    valid (hashing.hashResetToken token) now user = true ↔ Redeemable log user token now := by
  have exactly : ∀ other, hashing.hashResetToken other = hashing.hashResetToken token → other = token :=
    fun other same => encode_injective (injective same)
  rw [valid_exact]
  unfold Shows at shown
  unfold Redeemable
  cases left : outstanding log user.id with
  | none =>
      rw [left] at shown
      refine iff_of_false ?_ ?_
      · intro held
        have none := held.1.symm.trans shown
        cases none
      · intro held
        obtain ⟨_,same,_⟩ := held
        cases same
  | some pair =>
      obtain ⟨name,issued⟩ := pair
      rw [left] at shown
      rw [shown.1,shown.2,Option.some.injEq]
      refine ⟨?_,?_⟩
      · intro held
        obtain ⟨same,_,until_,early⟩ := held
        cases until_
        exact ⟨issued,by rw [exactly name same],early⟩
      · intro held
        obtain ⟨_,same,early⟩ := held
        cases same
        exact ⟨rfl,_,rfl,early⟩

-- However the rows are ordered, the one found is that of the user who holds the token.
theorem found_exact {hashing : Hashing} (order : Order User) (injective : Function.Injective hashing.sha256) {world : World}
    (shown : ∀ user ∈ world.users.rows, Shows hashing world.log user) (distinct : (world.log.filterMap Entry.token).Nodup)
    (token : Text) (now : Int) (user : User) :
    (order.arrange (world.users.rows.filter (valid (hashing.hashResetToken token) now))).head? = some user ↔
      user ∈ world.users.rows ∧ Redeemable world.log user token now := by
  have passes : ∀ other, other ∈ order.arrange (world.users.rows.filter (valid (hashing.hashResetToken token) now)) ↔
      other ∈ world.users.rows ∧ Redeemable world.log other token now := by
    intro other
    rw [order.mem_arrange,List.mem_filter]
    exact and_congr_right fun listed => valid_redeemable injective (shown other listed) token now
  refine ⟨fun found => (passes user).mp (List.mem_of_head? found),?_⟩
  intro holds
  cases found : (order.arrange (world.users.rows.filter (valid (hashing.hashResetToken token) now))).head? with
  | none =>
      have listed := (passes user).mpr holds
      rw [List.head?_eq_none_iff.mp found] at listed
      cases listed
  | some other =>
      obtain ⟨listed,issued,left,_⟩ := (passes other).mp (List.mem_of_head? found)
      obtain ⟨present,again,also,_⟩ := holds
      rw [world.users.one_row listed present (outstanding_one distinct left also)]

theorem change_listed (hashing : Hashing) {users : Users} {user : User} (listed : user ∈ users.rows) (newPassword salt : Text) :
    changePassword hashing users user.id newPassword salt =
      if hashing.verifyPassword newPassword user.hashedPassword = true then
        (users,.error (ValidationFailedError "New password must be different from the current password".toList))
      else
        (users.update user.id (rekey (hashing.getPasswordHash newPassword salt)),
          .ok (some (user.rekeyed (hashing.getPasswordHash newPassword salt)))) := by
  unfold changePassword
  rw [users.getUser_listed listed]
  dsimp only
  rw [users.getUser_update,users.getUser_listed listed,Option.map_some,if_pos rfl]
  rfl

-- What a request writes to a row where it goes through.
def written (hashing : Hashing) (timestamps : Timestamps) : Request → Change
  | .requestReset _ token now => UserUpdate.change hashing timestamps
      {passwordResetToken := some token,passwordResetExpires := some (now + hours 24)}
  | .reset _ newPassword salt _ => rekey (hashing.getPasswordHash newPassword salt)

theorem entry_token (user : Int) (request : Request) : (entry user request).token = request.issues := by
  cases request <;> rfl

theorem entry_user (user : Int) (request : Request) : (entry user request).user = user := by
  cases request <;> rfl

theorem written_shows (hashing : Hashing) (timestamps : Timestamps) (log : List Entry) (user : User) (request : Request) :
    Shows hashing (log ++ [entry user.id request]) ((written hashing timestamps request).change user) := by
  unfold Shows
  rw [(written hashing timestamps request).id,outstanding_append,entry_user,if_pos rfl]
  cases request with
  | requestReset email token now =>
      refine ⟨rfl,?_⟩
      change some (timestamps.stored (now + hours 24)).moment = _
      rw [timestamps.stored_moment]
  | reset token newPassword salt now => rfl

-- A write to the row of one user says nothing about the others.
theorem update_shows {hashing : Hashing} {users : Users} {log : List Entry} (shown : ∀ user ∈ users.rows, Shows hashing log user)
    (entry : Entry) (change : Change)
    (written : ∀ user ∈ users.rows, user.id = entry.user → Shows hashing (log ++ [entry]) (change.change user)) :
    ∀ user ∈ (users.update entry.user change).rows, Shows hashing (log ++ [entry]) user := by
  intro user listed
  rw [users.update_rows] at listed
  obtain ⟨before,present,rfl⟩ := List.mem_map.mp listed
  by_cases its : before.id = entry.user
  · rw [if_pos its]
    exact written before present its
  · rw [if_neg its]
    have earlier := shown before present
    unfold Shows at earlier ⊢
    rw [outstanding_append,if_neg (Ne.symm its)]
    exact earlier

section Steps
variable {hashing : Hashing} (timestamps : Timestamps) (order : Order User)

theorem request_cases (users : Users) (email token : Text) (now : Int) :
    (∃ exc, requestPasswordReset hashing timestamps users email token now = ⟨users,.error exc,none⟩) ∨
      ∃ user ∈ users.rows, ∃ message, requestPasswordReset hashing timestamps users email token now =
        ⟨users.update user.id (written hashing timestamps (.requestReset email token now)),.ok message,some user.id⟩ := by
  unfold requestPasswordReset
  cases found : users.getUserByEmail email with
  | none => exact .inl ⟨_,rfl⟩
  | some user =>
      have listed := (users.getUserByEmail_some found).1
      refine .inr ⟨user,listed,"If the email exists, a reset link has been sent".toList,?_⟩
      unfold updateUser
      dsimp only
      rw [users.getUser_listed listed]
      rfl

theorem reset_found {users : Users} {token : Text} {now : Int} {user : User}
    (found : (order.arrange (users.rows.filter (valid (hashing.hashResetToken token) now))).head? = some user)
    (newPassword salt : Text) : user ∈ users.rows ∧ resetPassword hashing order users token newPassword salt now =
      if hashing.verifyPassword newPassword user.hashedPassword = true then
        ⟨users,.error (ValidationFailedError "New password must be different from the current password".toList),none⟩
      else
        ⟨users.update user.id (rekey (hashing.getPasswordHash newPassword salt)),
          .ok "Password successfully reset".toList,some user.id⟩ := by
  have listed := List.mem_of_head? found
  rw [order.mem_arrange,List.mem_filter] at listed
  refine ⟨listed.1,?_⟩
  unfold resetPassword
  rw [found]
  dsimp only
  rw [change_listed hashing listed.1]
  by_cases reused : hashing.verifyPassword newPassword user.hashedPassword = true
  · rw [if_pos reused,if_pos reused]
  · rw [if_neg reused,if_neg reused]

theorem reset_unfound {users : Users} {token : Text} {now : Int}
    (unfound : (order.arrange (users.rows.filter (valid (hashing.hashResetToken token) now))).head? = none)
    (newPassword salt : Text) : resetPassword hashing order users token newPassword salt now =
      ⟨users,.error (HTTPException "HTTP_400_BAD_REQUEST" "Invalid or expired reset token"),none⟩ := by
  unfold resetPassword
  rw [unfound]

theorem reset_cases (users : Users) (token newPassword salt : Text) (now : Int) :
    (∃ exc, resetPassword hashing order users token newPassword salt now = ⟨users,.error exc,none⟩) ∨
      ∃ user ∈ users.rows, ∃ message, resetPassword hashing order users token newPassword salt now =
        ⟨users.update user.id (written hashing timestamps (.reset token newPassword salt now)),.ok message,some user.id⟩ := by
  cases found : (order.arrange (users.rows.filter (valid (hashing.hashResetToken token) now))).head? with
  | none => exact .inl ⟨_,reset_unfound order found newPassword salt⟩
  | some user =>
      obtain ⟨listed,reply⟩ := reset_found order found newPassword salt
      rw [reply]
      by_cases reused : hashing.verifyPassword newPassword user.hashedPassword = true
      · rw [if_pos reused]
        exact .inl ⟨_,rfl⟩
      · rw [if_neg reused]
        exact .inr ⟨user,listed,_,rfl⟩

-- All that a request can do.
theorem handle_cases (hashing : Hashing) (users : Users) (request : Request) :
    (∃ exc, handle hashing timestamps order users request = ⟨users,.error exc,none⟩) ∨
      ∃ user ∈ users.rows, ∃ message, handle hashing timestamps order users request =
        ⟨users.update user.id (written hashing timestamps request),.ok message,some user.id⟩ := by
  cases request with
  | requestReset email token now => exact request_cases timestamps users email token now
  | reset token newPassword salt now => exact reset_cases timestamps order users token newPassword salt now

theorem step_kept {requests : List Request} {world : World} (kept : Kept hashing requests world) (request : Request) :
    Kept hashing (requests ++ [request]) (step hashing timestamps order world request) := by
  unfold step
  rcases handle_cases timestamps order hashing world.users request with ⟨exc,reply⟩ | ⟨user,listed,message,reply⟩
  · rw [reply]
    refine ⟨?_,?_⟩
    · rw [List.filterMap_append,List.filterMap_append]
      exact kept.tokens.append (List.nil_sublist _)
    · change ∀ user ∈ world.users.rows, Shows hashing (world.log ++ []) user
      rw [List.append_nil]
      exact kept.shows_
  · rw [reply]
    refine ⟨?_,?_⟩
    · rw [List.filterMap_append,List.filterMap_append]
      refine kept.tokens.append ?_
      change (List.filterMap Entry.token [entry user.id request]).Sublist _
      rw [List.filterMap_cons,List.filterMap_cons,entry_token]
      exact List.Sublist.refl _
    · have after := update_shows kept.shows_ (entry user.id request) (written hashing timestamps request) (by
        intro before _ its
        rw [entry_user] at its
        exact its ▸ written_shows hashing timestamps world.log before request)
      rw [entry_user] at after
      exact after

theorem run_kept {users : Users} (unissued : ∀ user ∈ users.rows, user.hashedResetToken = none) (requests : List Request) :
    Kept hashing requests (run (step hashing timestamps order) ⟨users,[]⟩ requests) := by
  induction requests using List.reverseRecOn with
  | nil => exact ⟨List.Sublist.refl _,unissued⟩
  | append_singleton front request ih =>
      rw [run_append]
      exact step_kept timestamps order ih request

theorem reset_exact (injective : Function.Injective hashing.sha256) {world : World}
    (shown : ∀ user ∈ world.users.rows, Shows hashing world.log user) (distinct : (world.log.filterMap Entry.token).Nodup)
    (token newPassword salt : Text) (now : Int) :
    ((∃ message, (resetPassword hashing order world.users token newPassword salt now).answer = .ok message) ↔
      ∃ user ∈ world.users.rows, Redeemable world.log user token now ∧
        hashing.verifyPassword newPassword user.hashedPassword = false) ∧
    ∀ user ∈ world.users.rows, Redeemable world.log user token now →
      hashing.verifyPassword newPassword user.hashedPassword = false →
        (resetPassword hashing order world.users token newPassword salt now).users =
          world.users.update user.id (rekey (hashing.getPasswordHash newPassword salt)) := by
  have found := found_exact order injective shown distinct token now
  cases first : (order.arrange (world.users.rows.filter (valid (hashing.hashResetToken token) now))).head? with
  | none =>
      rw [first] at found
      rw [reset_unfound order first]
      have nobody : ∀ user ∈ world.users.rows, ¬ Redeemable world.log user token now := fun user listed redeemable =>
        nomatch (found user).mpr ⟨listed,redeemable⟩
      refine ⟨iff_of_false ?_ ?_,fun user listed redeemable => absurd redeemable (nobody user listed)⟩
      · intro answered
        obtain ⟨_,same⟩ := answered
        cases same
      · intro held
        obtain ⟨user,listed,redeemable,_⟩ := held
        exact nobody user listed redeemable
  | some user =>
      rw [first] at found
      obtain ⟨listed,redeemable⟩ := (found user).mp rfl
      rw [(reset_found order first newPassword salt).2]
      have only : ∀ other ∈ world.users.rows, Redeemable world.log other token now → other = user := fun other present also =>
        (Option.some.inj ((found other).mpr ⟨present,also⟩)).symm
      by_cases reused : hashing.verifyPassword newPassword user.hashedPassword = true
      · rw [if_pos reused]
        refine ⟨iff_of_false ?_ ?_,?_⟩
        · intro answered
          obtain ⟨_,same⟩ := answered
          cases same
        · intro held
          obtain ⟨other,present,also,differs⟩ := held
          rw [only other present also,reused] at differs
          cases differs
        · intro other present also differs
          rw [only other present also,reused] at differs
          cases differs
      · rw [if_neg reused]
        refine ⟨iff_of_true ⟨_,rfl⟩ ⟨user,listed,redeemable,by simpa using reused⟩,?_⟩
        intro other present also _
        rw [only other present also]

theorem refused_same (users : Users) (request : Request) (exc : Failure)
    (refused : (handle hashing timestamps order users request).answer = .error exc) :
    (handle hashing timestamps order users request).users = users := by
  rcases handle_cases timestamps order hashing users request with ⟨_,reply⟩ | ⟨user,_,message,reply⟩
  · rw [reply]
  · rw [reply] at refused
    cases refused
end Steps

theorem reset_tokens_exact (hashing : Hashing) (timestamps : Timestamps) (order : Order User)
    (injective : Function.Injective hashing.sha256) (users : Users)
    (unissued : ∀ user ∈ users.rows, user.hashedResetToken = none) (requests : List Request)
    (fresh : (requests.filterMap Request.issues).Nodup) :
    ∀ front request rest, requests = front ++ request :: rest →
      Correct hashing timestamps order (run (step hashing timestamps order) ⟨users,[]⟩ front) request := by
  intro front request rest whole
  have kept : Kept hashing front _ := run_kept timestamps order unissued front
  have before : (front.filterMap Request.issues).Nodup := by
    rw [whole,List.filterMap_append,List.nodup_append] at fresh
    exact fresh.1
  refine ⟨fun exc refused => refused_same timestamps order _ request exc refused,?_⟩
  intro token newPassword salt now same
  subst same
  obtain ⟨succeeds,changes⟩ := reset_exact order injective kept.shows_ (kept_distinct kept before) token newPassword salt now
  refine ⟨succeeds,?_⟩
  intro user listed redeemable differs
  exact congrArg Users.rows (changes user listed redeemable differs)

def threeRequests : List Request :=
  [.requestReset ['m'] ['t'] 0,.reset ['t'] ['p'] [] 5,.reset ['t'] ['q'] [] 6]

-- The current password is refused and the token lives on.
theorem reset_tokens_three :
    (∀ front request rest, threeRequests = front ++ request :: rest → Correct plainHashing utcTimestamps .asIs
      (run (step plainHashing utcTimestamps .asIs) ⟨oneUser,[]⟩ front) request) ∧
    (run (step plainHashing utcTimestamps .asIs) ⟨oneUser,[]⟩ threeRequests).users.rows.map User.hashedPassword = [['q']] :=
  ⟨reset_tokens_exact plainHashing utcTimestamps .asIs plain_injective oneUser (by decide) threeRequests (by decide),by decide⟩

end Kryvaracode.PasswordReset
