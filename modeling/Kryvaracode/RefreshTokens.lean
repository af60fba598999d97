import Kryvaracode.ReadCommitted
import Kryvaracode.Runs
import Kryvaracode.Exceptions

namespace Kryvaracode.RefreshTokens
open InsertionDict Runs ReadCommitted

def UnauthorizedError (detail : Text) : Failure := ⟨.other "UnauthorizedError".toList,detail⟩
def IntegrityError (detail : Text) : Failure := ⟨.other "IntegrityError".toList,detail⟩
def StaleDataError : Failure := ⟨.other "StaleDataError".toList,[]⟩

-- A row of the table, under its token, which is unique.
structure RefreshToken where
  userId : Nat
  expiresAt : Int
  revoked : Bool

-- A request by the statement it comes to next: the first six of a refresh, the
-- others of a logout.
inductive Stage where
  | reading
  | marking (row : RefreshToken)
  | inserting (row : RefreshToken)
  | committing (next : Text)
  | exchanged (next : Text)
  | refused (exc : Failure)
  | finding
  | revoking
  | ending
  | left

structure Request where
  token : Text
  stage : Stage

-- What has been committed, in order.
inductive Event where
  | exchanged (token : Text)
  | loggedOut (token : Text)
  deriving DecidableEq, Repr

def Event.token : Event → Text
  | .exchanged token | .loggedOut token => token

-- One statement to the database, with the clock or the random token it needs. The
-- connection may also be lost at any point.
inductive Act where
  | read (now : Int)
  | mark
  | insert (next : Text) (expiresAt : Int)
  | commit
  | abort

structure Effect where
  store : Store Text RefreshToken
  stage : Stage
  event : Option Event

-- `UPDATE refresh_tokens SET revoked = true`, which waits while the row is locked.
def revoke (store : Store Text RefreshToken) (request : Nat) (token : Text) (stage next : Stage) : Effect :=
  if store.free request token then
    match store.view request token with
    | none => ⟨store.rollback request,.refused StaleDataError,none⟩
    | some row => ⟨store.write request token {row with revoked := true},next,none⟩
  else ⟨store,stage,none⟩

-- A second row with one token waits for the first, and fails where that is there.
def rotate (store : Store Text RefreshToken) (request : Nat) (row : RefreshToken) (next : Text) (expiresAt : Int) : Effect :=
  if store.free request next then
    match store.view request next with
    | some _ => ⟨store.rollback request,.refused (IntegrityError next),none⟩
    | none => ⟨store.write request next ⟨row.userId,expiresAt,false⟩,.committing next,none⟩
  else ⟨store,.inserting row,none⟩

section Requests
variable (decode : Text → Option Text)

-- `decode` gives the subject of a token that is valid as a refresh token.
def accept (store : Store Text RefreshToken) (token : Text) (now : Int) : Option RefreshToken → Effect
  | none => ⟨store,.refused (UnauthorizedError "Invalid or expired refresh token".toList),none⟩
  | some row =>
      if row.revoked || decide (row.expiresAt ≤ now) then
        ⟨store,.refused (UnauthorizedError "Invalid or expired refresh token".toList),none⟩
      else if decode token = some (toString row.userId).toList then ⟨store,.marking row,none⟩
      else ⟨store,.refused (UnauthorizedError "Invalid refresh token".toList),none⟩

-- Setting what is set already leaves nothing to write.
def found : Option RefreshToken → Stage
  | none => .left
  | some row => if row.revoked then .ending else .revoking

def act (store : Store Text RefreshToken) (request : Nat) (token : Text) : Stage → Act → Effect
  | .reading,.read now => accept decode store token now (store.view request token)
  | .marking row,.mark => revoke store request token (.marking row) (.inserting row)
  | .inserting row,.insert next expiresAt => rotate store request row next expiresAt
  | .committing next,.commit => ⟨store.commit request,.exchanged next,some (.exchanged token)⟩
  | .finding,.read _ => ⟨store,found (store.view request token),none⟩
  | .revoking,.mark => revoke store request token .revoking .ending
  | .ending,.commit => ⟨store.commit request,.left,some (.loggedOut token)⟩
  | .exchanged next,_ => ⟨store,.exchanged next,none⟩
  | .refused exc,_ => ⟨store,.refused exc,none⟩
  | .left,_ => ⟨store,.left,none⟩
  | _,.abort => ⟨store.rollback request,.refused (RuntimeError []),none⟩
  | stage,_ => ⟨store,stage,none⟩

structure World where
  store : Store Text RefreshToken
  requests : List Request
  events : List Event

inductive Label where
  | refresh (token : Text)
  | logout (token : Text)
  | act (request : Nat) (act : Act)

def World.init (table : Dict Text RefreshToken) : World := ⟨.init table,[],[]⟩

def World.arrive (world : World) (token : Text) (stage : Stage) : World :=
  {world with store := world.store.start,requests := world.requests ++ [⟨token,stage⟩]}

def World.settle (world : World) (request : Nat) (token : Text) (effect : Effect) : World :=
  ⟨effect.store,world.requests.set request ⟨token,effect.stage⟩,world.events ++ effect.event.toList⟩

def World.perform (world : World) (request : Nat) (does : Act) : World :=
  match world.requests[request]? with
  | none => world
  | some asked => world.settle request asked.token (act decode world.store request asked.token asked.stage does)

def World.step (world : World) : Label → World
  | .refresh token => world.arrive token .reading
  | .logout token => world.arrive token .finding
  | .act request does => world.perform decode request does

end Requests

-- An exchange comes after no exchange and no logout of its token.
def SingleUse (world : World) : Prop :=
  ∀ front token rest, world.events = front ++ .exchanged token :: rest → token ∉ front.map Event.token

-- A refresh that comes to commit finds its row not revoked by another.
def KeepsSingleUse (world : World) : Label → Prop
  | .refresh _ | .logout _ => True
  | .act request does => ∀ token next, world.requests[request]? = some ⟨token,.committing next⟩ → does = .commit →
      ∀ row, world.store.committed.get token = some row → row.revoked = false

-- The stages of a refresh that has seen its row not revoked.
def Stage.exchanging : Stage → Prop
  | .marking _ | .inserting _ | .committing _ => True
  | .reading | .exchanged _ | .refused _ | .finding | .revoking | .ending | .left => False

-- The stages at which a request's own row is revoked as far as it can see.
def Stage.marked : Stage → Prop
  | .inserting _ | .committing _ | .ending => True
  | .reading | .marking _ | .exchanged _ | .refused _ | .finding | .revoking | .left => False

-- All that one statement can do.
inductive Does (store : Store Text RefreshToken) (request : Nat) (token : Text) (stage : Stage) : Effect → Prop where
  | stay (next : Stage)
      (sees : next.exchanging → stage.exchanging ∨ ∃ row, store.view request token = some row ∧ row.revoked = false)
      (marks : next.marked → stage.marked ∨ ∃ row, store.view request token = some row ∧ row.revoked = true) :
      Does store request token stage ⟨store,next,none⟩
  | back (exc : Failure) : Does store request token stage ⟨store.rollback request,.refused exc,none⟩
  | revoke (row : RefreshToken) (next : Stage) (unlocked : store.free request token = true)
      (sees : next.exchanging → stage.exchanging) :
      Does store request token stage ⟨store.write request token {row with revoked := true},next,none⟩
  | insert (row : RefreshToken) (name : Text) (unlocked : store.free request name = true)
      (absent : store.view request name = none) (fresh : row.revoked = false) (inserting : stage.exchanging ∧ stage.marked) :
      Does store request token stage ⟨store.write request name row,.committing name,none⟩
  | commit (next : Stage) (event : Event) (about : event.token = token) (marked : stage.marked)
      (ended : ¬ next.exchanging ∧ ¬ next.marked) : Does store request token stage ⟨store.commit request,next,some event⟩

theorem accept_does (decode : Text → Option Text) (store : Store Text RefreshToken) (request : Nat) (token : Text) (now : Int) :
    Does store request token .reading (accept decode store token now (store.view request token)) := by
  unfold accept
  cases seen : store.view request token with
  | none => exact .stay _ False.elim False.elim
  | some row =>
      dsimp only
      split
      next => exact .stay _ False.elim False.elim
      next valid =>
        split
        next =>
          refine .stay _ (fun _ => .inr ⟨row,seen,?_⟩) False.elim
          rw [Bool.or_eq_true,not_or,Bool.not_eq_true] at valid
          exact valid.1
        next => exact .stay _ False.elim False.elim

theorem found_does (store : Store Text RefreshToken) (request : Nat) (token : Text) :
    Does store request token .finding ⟨store,found (store.view request token),none⟩ := by
  unfold found
  cases seen : store.view request token with
  | none => exact .stay _ False.elim False.elim
  | some row =>
      dsimp only
      split
      next revoked => exact .stay _ False.elim fun _ => .inr ⟨row,seen,revoked⟩
      next => exact .stay _ False.elim False.elim

theorem same_does (store : Store Text RefreshToken) (request : Nat) (token : Text) (stage : Stage) :
    Does store request token stage ⟨store,stage,none⟩ := .stay stage .inl .inl

theorem revoke_does (store : Store Text RefreshToken) (request : Nat) (token : Text) (stage next : Stage)
    (sees : next.exchanging → stage.exchanging) : Does store request token stage (revoke store request token stage next) := by
  unfold revoke
  split
  next unlocked =>
    cases store.view request token with
    | none => exact .back _
    | some row => exact .revoke row next unlocked sees
  next => exact same_does store request token stage

theorem rotate_does (store : Store Text RefreshToken) (request : Nat) (token : Text) (row : RefreshToken) (next : Text)
    (expiresAt : Int) : Does store request token (.inserting row) (rotate store request row next expiresAt) := by
  unfold rotate
  split
  next unlocked =>
    cases absent : store.view request next with
    | none => exact .insert _ next unlocked absent rfl ⟨trivial,trivial⟩
    | some other => exact .back _
  next => exact same_does store request token (.inserting row)

theorem act_does (decode : Text → Option Text) (store : Store Text RefreshToken) (request : Nat) (token : Text)
    (stage : Stage) (does : Act) : Does store request token stage (act decode store request token stage does) := by
  have same := same_does store request token
  cases stage with
  | reading =>
      cases does with
      | read now => exact accept_does decode store request token now
      | abort => exact .back _
      | _ => exact same _
  | marking row =>
      cases does with
      | mark => exact revoke_does store request token _ _ fun _ => trivial
      | abort => exact .back _
      | _ => exact same _
  | inserting row =>
      cases does with
      | insert next expiresAt => exact rotate_does store request token row next expiresAt
      | abort => exact .back _
      | _ => exact same _
  | committing next =>
      cases does with
      | commit => exact .commit _ _ rfl trivial ⟨id,id⟩
      | abort => exact .back _
      | _ => exact same _
  | finding =>
      cases does with
      | read now => exact found_does store request token
      | abort => exact .back _
      | _ => exact same _
  | revoking =>
      cases does with
      | mark => exact revoke_does store request token _ _ False.elim
      | abort => exact .back _
      | _ => exact same _
  | ending =>
      cases does with
      | commit => exact .commit _ _ rfl trivial ⟨id,id⟩
      | abort => exact .back _
      | _ => exact same _
  | exchanged next => exact same _
  | refused exc => exact same _
  | left => exact same _

-- What a request has written revokes its own row or makes a new one; a row that is
-- revoked after it was seen was revoked by a request that is on record.
structure Traced (world : World) : Prop where
  sized : world.store.staged.length = world.requests.length
  apart : Apart world.store
  staged : ∀ (request : Nat) asked key row, world.requests[request]? = some asked →
    (world.store.pending request).get key = some row →
      (row.revoked = true ∧ key = asked.token) ∨ (row.revoked = false ∧ world.store.committed.get key = none)
  marked : ∀ (request : Nat) asked, world.requests[request]? = some asked → asked.stage.marked →
    ∃ row, world.store.view request asked.token = some row ∧ row.revoked = true
  seen : ∀ (request : Nat) asked, world.requests[request]? = some asked → asked.stage.exchanging →
    ∀ row, world.store.committed.get asked.token = some row → row.revoked = true → asked.token ∈ world.events.map Event.token
  lasting : ∀ token ∈ world.events.map Event.token, ∃ row, world.store.committed.get token = some row ∧ row.revoked = true

theorem init_traced (table : Dict Text RefreshToken) : Traced (World.init table) := by
  refine ⟨rfl,?_,?_,?_,?_,?_⟩
  · intro key first second held
    exact absurd rfl held
  · intro request asked key row found
    cases found
  · intro request asked found
    cases found
  · intro request asked found
    cases found
  · intro token inside
    cases inside

section Traces
variable {world : World} (traced : Traced world)
include traced

theorem view_revoked {request : Nat} {asked : Request} (found : world.requests[request]? = some asked) {key : Text}
    {row : RefreshToken} (held : world.store.committed.get key = some row) (revoked : row.revoked = true) :
    ∃ row, world.store.view request key = some row ∧ row.revoked = true := by
  unfold Store.view
  cases written : (world.store.pending request).get key with
  | none => exact ⟨row,held,revoked⟩
  | some mine =>
      rcases traced.staged request asked key mine found written with ⟨set,_⟩ | ⟨_,absent⟩
      · exact ⟨mine,rfl,set⟩
      · rw [absent] at held
        cases held

theorem view_fresh {request : Nat} {asked : Request} (found : world.requests[request]? = some asked) {key : Text}
    {row : RefreshToken} (shown : world.store.view request key = some row) (fresh : row.revoked = false)
    (held : RefreshToken) (stored : world.store.committed.get key = some held) : held.revoked = false := by
  by_contra revoked
  obtain ⟨other,same,set⟩ := view_revoked traced found stored (Bool.not_eq_false _ ▸ revoked)
  rw [shown] at same
  cases same
  rw [fresh] at set
  cases set

theorem arrive_traced (token : Text) (stage : Stage) (quiet : ¬ stage.marked ∧ ¬ stage.exchanging) :
    Traced (world.arrive token stage) := by
  have pending : ∀ request, (world.arrive token stage).store.pending request = world.store.pending request :=
    start_pending world.store
  have before : ∀ (request : Nat) asked, (world.arrive token stage).requests[request]? = some asked →
      world.requests[request]? = some asked ∨ (asked.stage = stage ∧ world.store.pending request = Dict.empty) := by
    intro request asked found
    change (world.requests ++ [_])[request]? = some asked at found
    rcases append_cases found with earlier | ⟨rfl,rfl⟩
    · exact .inl earlier
    · exact .inr ⟨rfl,pending_outside world.store _ traced.sized.le⟩
  refine ⟨?_,?_,?_,?_,?_,traced.lasting⟩
  · simp [World.arrive,Store.start,traced.sized]
  · intro key first second
    rw [pending,pending]
    exact traced.apart key first second
  · intro request asked key row found written
    rw [pending] at written
    rcases before request asked found with earlier | ⟨_,empty⟩
    · exact traced.staged request asked key row earlier written
    · rw [empty] at written
      cases written
  · intro request asked found marked
    rcases before request asked found with earlier | ⟨same,_⟩
    · unfold Store.view
      rw [pending]
      exact traced.marked request asked earlier marked
    · exact absurd (same ▸ marked) quiet.1
  · intro request asked found exchanging
    rcases before request asked found with earlier | ⟨same,_⟩
    · exact traced.seen request asked earlier exchanging
    · exact absurd (same ▸ exchanging) quiet.2

-- A statement that commits nothing.
theorem kept_traced {request : Nat} {token : Text} {stage : Stage} (found : world.requests[request]? = some ⟨token,stage⟩)
    (store : Store Text RefreshToken) (next : Stage) (committed : store.committed = world.store.committed)
    (sized : store.staged.length = world.store.staged.length) (apart : Apart store)
    (others : ∀ other, other ≠ request → store.pending other = world.store.pending other)
    (mine : ∀ key row, (store.pending request).get key = some row →
      (row.revoked = true ∧ key = token) ∨ (row.revoked = false ∧ world.store.committed.get key = none))
    (marks : next.marked → ∃ row, store.view request token = some row ∧ row.revoked = true)
    (sees : next.exchanging → ∀ row, world.store.committed.get token = some row → row.revoked = true →
      token ∈ world.events.map Event.token) : Traced (world.settle request token ⟨store,next,none⟩) := by
  have events : (world.settle request token ⟨store,next,none⟩).events = world.events := List.append_nil _
  refine ⟨?_,apart,?_,?_,?_,?_⟩
  · exact (sized.trans traced.sized).trans (List.length_set).symm
  · intro other asked key row listed written
    change _ ∨ (_ ∧ store.committed.get key = none)
    rw [committed]
    rcases set_cases listed with ⟨rfl,rfl⟩ | ⟨different,earlier⟩
    · exact mine key row written
    · exact traced.staged other asked key row earlier (others other different ▸ written)
  · intro other asked listed marked
    rcases set_cases listed with ⟨rfl,rfl⟩ | ⟨different,earlier⟩
    · exact marks marked
    · change ∃ row, store.view other asked.token = some row ∧ _
      rw [Store.view,others other different,committed]
      exact traced.marked other asked earlier marked
  · intro other asked listed exchanging
    rw [events]
    change ∀ row, store.committed.get asked.token = some row → _
    rw [committed]
    rcases set_cases listed with ⟨rfl,rfl⟩ | ⟨different,earlier⟩
    · exact sees exchanging
    · exact traced.seen other asked earlier exchanging
  · rw [events]
    change ∀ token ∈ _, ∃ row, store.committed.get token = some row ∧ _
    rw [committed]
    exact traced.lasting

theorem stay_traced {request : Nat} {token : Text} {stage : Stage} (found : world.requests[request]? = some ⟨token,stage⟩)
    (next : Stage)
    (sees : next.exchanging → stage.exchanging ∨ ∃ row, world.store.view request token = some row ∧ row.revoked = false)
    (marks : next.marked → stage.marked ∨ ∃ row, world.store.view request token = some row ∧ row.revoked = true) :
    Traced (world.settle request token ⟨world.store,next,none⟩) := by
  refine kept_traced traced found world.store next rfl rfl traced.apart (fun _ _ => rfl)
    (fun key row => traced.staged request _ key row found) ?_ ?_
  · intro marked
    exact (marks marked).elim (traced.marked request _ found) id
  · intro exchanging row held revoked
    rcases sees exchanging with before | ⟨shown,same,fresh⟩
    · exact traced.seen request _ found before row held revoked
    · rw [view_fresh traced found same fresh row held] at revoked
      cases revoked

theorem back_traced {request : Nat} {token : Text} {stage : Stage} (found : world.requests[request]? = some ⟨token,stage⟩)
    (exc : Failure) : Traced (world.settle request token ⟨world.store.rollback request,.refused exc,none⟩) := by
  have inside : request < world.store.staged.length := traced.sized ▸ (List.getElem?_eq_some_iff.mp found).1
  have pending := rollback_pending world.store request inside
  refine kept_traced traced found _ _ rfl List.length_set (ended_apart traced.apart _ request pending)
    (fun other different => (pending other).trans (if_neg different)) ?_ False.elim False.elim
  intro key row written
  rw [pending,if_pos rfl] at written
  cases written

theorem write_traced {request : Nat} {token : Text} {stage : Stage} (found : world.requests[request]? = some ⟨token,stage⟩)
    (key : Text) (row : RefreshToken) (next : Stage) (unlocked : world.store.free request key = true)
    (allowed : (row.revoked = true ∧ key = token) ∨ (row.revoked = false ∧ world.store.committed.get key = none))
    (marks : next.marked → ∃ row', (if token = key then some row else world.store.view request token) = some row' ∧
      row'.revoked = true)
    (sees : next.exchanging → stage.exchanging) : Traced (world.settle request token ⟨world.store.write request key row,next,none⟩) := by
  have inside : request < world.store.staged.length := traced.sized ▸ (List.getElem?_eq_some_iff.mp found).1
  have pending := write_pending world.store request key row inside
  refine kept_traced traced found _ _ rfl List.length_set (write_apart traced.apart request key row inside unlocked)
    (fun other different => (pending other).trans (if_neg different)) ?_ ?_ ?_
  · intro asked other written
    rw [pending,if_pos rfl,get_set] at written
    split at written
    next same =>
      cases written
      exact same ▸ allowed
    next => exact traced.staged request _ asked other found written
  · intro marked
    obtain ⟨mine,same,revoked⟩ := marks marked
    refine ⟨mine,?_,revoked⟩
    rw [← same,Store.view,pending,if_pos rfl,get_set]
    split <;> rfl
  · intro exchanging
    exact traced.seen request _ found (sees exchanging)

theorem commit_revoked {request : Nat} {asked : Request} (found : world.requests[request]? = some asked) {key : Text}
    {row : RefreshToken} (held : (world.store.commit request).committed.get key = some row) (revoked : row.revoked = true) :
    world.store.committed.get key = some row ∨ key = asked.token := by
  rw [commit_get,Store.view] at held
  cases written : (world.store.pending request).get key with
  | none =>
      rw [written] at held
      exact .inl held
  | some own =>
      rw [written] at held
      cases held
      rcases traced.staged request asked key row found written with ⟨_,mine⟩ | ⟨fresh,_⟩
      · exact .inr mine
      · rw [fresh] at revoked
        cases revoked

theorem commit_view {request other : Nat} {asked : Request} (found : world.requests[request]? = some asked)
    (different : other ≠ request) {key : Text} {row : RefreshToken} (shown : world.store.view other key = some row)
    (revoked : row.revoked = true) : ∃ row, (world.store.commit request).view other key = some row ∧ row.revoked = true := by
  have inside : request < world.store.staged.length := traced.sized ▸ (List.getElem?_eq_some_iff.mp found).1
  unfold Store.view at shown ⊢
  rw [commit_pending world.store request inside,if_neg different]
  cases written : (world.store.pending other).get key with
  | some own =>
      rw [written] at shown
      exact ⟨row,shown,revoked⟩
  | none =>
      rw [written] at shown
      obtain ⟨later,same,set⟩ := view_revoked traced found shown revoked
      exact ⟨later,(commit_get world.store request key).trans same,set⟩

theorem commit_traced {request : Nat} {token : Text} {stage : Stage} (found : world.requests[request]? = some ⟨token,stage⟩)
    (next : Stage) (event : Event) (about : event.token = token) (marked : stage.marked)
    (ended : ¬ next.exchanging ∧ ¬ next.marked) :
    Traced (world.settle request token ⟨world.store.commit request,next,some event⟩) := by
  have inside : request < world.store.staged.length := traced.sized ▸ (List.getElem?_eq_some_iff.mp found).1
  have pending := commit_pending world.store request inside
  have mem_events : ∀ name, name ∈ (world.events ++ [event]).map Event.token ↔
      name ∈ world.events.map Event.token ∨ name = token := by
    intro name
    rw [List.map_append,List.map_singleton,List.mem_append,List.mem_singleton,about]
  refine ⟨?_,ended_apart traced.apart _ request pending,?_,?_,?_,?_⟩
  · exact (List.length_set.trans traced.sized).trans (List.length_set).symm
  · intro other asked key row listed written
    change ((world.store.commit request).pending other).get key = some row at written
    change _ ∨ (_ ∧ (world.store.commit request).committed.get key = none)
    rw [pending] at written
    split at written
    next => cases written
    next different =>
      rw [commit_other traced.apart request other key different (by simp [written])]
      rcases set_cases listed with ⟨same,_⟩ | ⟨_,earlier⟩
      · exact absurd same different
      · exact traced.staged other asked key row earlier written
  · intro other asked listed mine
    rcases set_cases listed with ⟨_,rfl⟩ | ⟨different,earlier⟩
    · exact absurd mine ended.2
    · obtain ⟨row,shown,revoked⟩ := traced.marked other asked earlier mine
      exact commit_view traced found different shown revoked
  · intro other asked listed exchanging row held revoked
    rcases set_cases listed with ⟨_,rfl⟩ | ⟨_,earlier⟩
    · exact absurd exchanging ended.1
    · refine (mem_events asked.token).mpr ((commit_revoked traced found held revoked).imp_left ?_)
      intro before
      exact traced.seen other asked earlier exchanging row before revoked
  · intro name listed
    change ∃ row, (world.store.commit request).committed.get name = some row ∧ _
    rw [commit_get]
    rcases (mem_events name).mp listed with earlier | rfl
    · obtain ⟨row,held,revoked⟩ := traced.lasting name earlier
      exact view_revoked traced found held revoked
    · exact traced.marked request _ found marked
end Traces

theorem step_traced (decode : Text → Option Text) (world : World) (label : Label) (traced : Traced world) :
    Traced (world.step decode label) := by
  cases label with
  | refresh token => exact arrive_traced traced token .reading ⟨id,id⟩
  | logout token => exact arrive_traced traced token .finding ⟨id,id⟩
  | act request does =>
      change Traced (world.perform decode request does)
      unfold World.perform
      cases found : world.requests[request]? with
      | none => exact traced
      | some asked =>
          obtain ⟨token,stage⟩ := asked
          have did := act_does decode world.store request token stage does
          dsimp only
          generalize act decode world.store request token stage does = effect at did
          cases did with
          | stay next sees marks => exact stay_traced traced found next sees marks
          | back exc => exact back_traced traced found exc
          | revoke row next unlocked sees =>
              refine write_traced traced found token _ next unlocked (.inl ⟨rfl,rfl⟩) ?_ sees
              intro _
              exact ⟨_,if_pos rfl,rfl⟩
          | insert row name unlocked absent fresh inserting =>
              have missing : world.store.committed.get name = none := ((view_none world.store request name).mp absent).2
              refine write_traced traced found name row _ unlocked (.inr ⟨fresh,missing⟩) ?_ fun _ => inserting.1
              intro _
              obtain ⟨mine,shown,revoked⟩ := traced.marked request _ found inserting.2
              refine ⟨mine,?_,revoked⟩
              rw [if_neg]
              · exact shown
              · intro same
                change world.store.view request token = some mine at shown
                rw [same,absent] at shown
                cases shown
          | commit next event about marked ended => exact commit_traced traced found next event about marked ended

theorem init_single (table : Dict Text RefreshToken) : SingleUse (World.init table) := by
  intro front token rest whole
  cases front <;> cases whole

theorem single_append {events : List Event} {event : Event} {before after : World} (first : before.events = events)
    (second : after.events = events ++ [event]) (single : SingleUse before) :
    SingleUse after ↔ ∀ token, event = .exchanged token → token ∉ events.map Event.token := by
  refine ⟨?_,?_⟩
  · intro kept token same
    exact kept events token [] (by rw [second,same])
  · intro new front token rest whole
    rw [second] at whole
    cases rest using List.reverseRecOn with
    | nil =>
        obtain ⟨same,last⟩ := List.append_inj' whole rfl
        exact same ▸ new token (List.singleton_inj.mp last)
    | append_singleton rest last =>
        rw [← List.cons_append,← List.append_assoc] at whole
        exact single front token rest (first.trans (List.append_inj' whole rfl).1)

theorem accept_event (decode : Text → Option Text) (store : Store Text RefreshToken) (token : Text) (now : Int)
    (row : Option RefreshToken) : (accept decode store token now row).event = none := by
  unfold accept
  cases row with
  | none => rfl
  | some row =>
      dsimp only
      split_ifs <;> rfl

theorem revoke_event (store : Store Text RefreshToken) (request : Nat) (token : Text) (stage next : Stage) :
    (revoke store request token stage next).event = none := by
  unfold revoke
  split_ifs
  · cases store.view request token <;> rfl
  · rfl

theorem rotate_event (store : Store Text RefreshToken) (request : Nat) (row : RefreshToken) (next : Text) (expiresAt : Int) :
    (rotate store request row next expiresAt).event = none := by
  unfold rotate
  split_ifs
  · cases store.view request next <;> rfl
  · rfl

theorem act_event (decode : Text → Option Text) (store : Store Text RefreshToken) (request : Nat) (token : Text)
    (stage : Stage) (does : Act) (name : Text) (exchanges : (act decode store request token stage does).event =
      some (.exchanged name)) : name = token ∧ (∃ next, stage = .committing next) ∧ does = .commit := by
  cases stage with
  | reading => cases does <;> simp [act,accept_event] at exchanges
  | marking row => cases does <;> simp [act,revoke_event] at exchanges
  | inserting row => cases does <;> simp [act,rotate_event] at exchanges
  | committing next =>
      cases does with
      | commit =>
          cases exchanges
          exact ⟨rfl,⟨next,rfl⟩,rfl⟩
      | _ => cases exchanges
  | revoking => cases does <;> simp [act,revoke_event] at exchanges
  | finding => cases does <;> cases exchanges
  | ending => cases does <;> cases exchanges
  | exchanged next => cases exchanges
  | refused exc => cases exchanges
  | left => cases exchanges

-- A commit of a refresh comes first for its token exactly where the row is not revoked.
theorem unrecorded_exact {world : World} (traced : Traced world) {request : Nat} {token next : Text}
    (found : world.requests[request]? = some ⟨token,.committing next⟩) : token ∉ world.events.map Event.token ↔
      ∀ row, world.store.committed.get token = some row → row.revoked = false := by
  refine ⟨?_,?_⟩
  · intro new row held
    by_contra revoked
    exact new (traced.seen request _ found trivial row held (Bool.not_eq_false _ ▸ revoked))
  · intro fresh recorded
    obtain ⟨row,held,revoked⟩ := traced.lasting token recorded
    rw [fresh row held] at revoked
    cases revoked

theorem step_single (decode : Text → Option Text) (world : World) (label : Label) (traced : Traced world)
    (single : SingleUse world) : SingleUse (world.step decode label) ↔ KeepsSingleUse world label := by
  cases label with
  | refresh token => exact iff_of_true single trivial
  | logout token => exact iff_of_true single trivial
  | act request does =>
      change SingleUse (world.perform decode request does) ↔ ∀ token next, world.requests[request]? =
        some ⟨token,.committing next⟩ → does = .commit → ∀ row, world.store.committed.get token = some row → row.revoked = false
      unfold World.perform
      cases found : world.requests[request]? with
      | none => exact iff_of_true single (by intro _ _ same; cases same)
      | some asked =>
          obtain ⟨token,stage⟩ := asked
          dsimp only
          cases event : (act decode world.store request token stage does).event with
          | none =>
              refine iff_of_true ?_ ?_
              · unfold SingleUse World.settle
                rw [event,Option.toList_none,List.append_nil]
                exact single
              · intro name next same commits
                cases same
                cases commits
                cases event
          | some done =>
              have events : (world.settle request token (act decode world.store request token stage does)).events =
                  world.events ++ [done] := by rw [World.settle,event]; rfl
              refine (single_append rfl events single).trans ⟨?_,?_⟩
              · intro new name next same commits
                cases same
                cases commits
                cases event
                exact (unrecorded_exact traced found).mp (new token rfl)
              · intro fresh name same
                obtain ⟨mine,⟨next,committing⟩,commits⟩ := act_event decode _ _ _ _ _ name (event.trans (congrArg some same))
                rw [committing] at found fresh
                exact mine ▸ (unrecorded_exact traced found).mpr (fresh token next rfl commits)

theorem single_use_exact (decode : Text → Option Text) (table : Dict Text RefreshToken) (labels : List Label) :
    Throughout (World.step decode) SingleUse (World.init table) labels ↔
      Steps (World.step decode) KeepsSingleUse (World.init table) labels := by
  have fits := steps_invariant (step_traced decode) _ labels (init_traced table)
  rw [throughout_exact (step_single decode) (World.init table) labels fits]
  exact and_iff_right (init_single table)

def rushed : List Label :=
  [.refresh ['t'],.refresh ['t'],.act 0 (.read 0),.act 1 (.read 0),.act 0 .mark,.act 0 (.insert ['u'] 9),.act 0 .commit,
    .act 1 .mark,.act 1 (.insert ['v'] 9),.act 1 .commit]

-- Both requests read the row before either has committed its revocation.
theorem token_exchanged_twice : ¬ Throughout (World.step fun _ => some ['7']) SingleUse
    (World.init (Dict.empty.set ['t'] ⟨7,9,false⟩)) rushed := by
  intro always
  have events : (run (World.step fun _ => some ['7']) (World.init (Dict.empty.set ['t'] ⟨7,9,false⟩)) rushed).events =
      [.exchanged ['t'],.exchanged ['t']] := by decide
  exact throughout_end always [.exchanged ['t']] ['t'] [] events (List.mem_singleton.mpr rfl)

end Kryvaracode.RefreshTokens
