import Kryvaracode.SlidingWindow
import Kryvaracode.InsertionDict
import Kryvaracode.Runs
import Kryvaracode.Exceptions

namespace Kryvaracode.RateLimits
open InsertionDict Runs SlidingWindow

structure RateLimiter (α : Type) where
  limit : Nat
  window : α
  hits : Dict Text (List α)

-- A call of `allow` and what the clock shows when it is made.
structure Call (α : Type) where
  key : Text
  now : α

variable {α : Type} [AddCommGroup α] [LinearOrder α]

namespace RateLimiter

def init (limit : Nat) (window : α) : RateLimiter α := ⟨limit,window,Dict.empty⟩

variable (limiter : RateLimiter α)

-- A key that is not there yet has an empty deque.
def hitsOf (key : Text) : List α := (limiter.hits.get key).getD []

def allow (key : Text) (now : α) : RateLimiter α × Bool :=
  let hits := expire limiter.window now (limiter.hitsOf key)
  if limiter.limit ≤ hits.length then ({limiter with hits := limiter.hits.set key hits},false)
  else ({limiter with hits := limiter.hits.set key (hits ++ [now])},true)

def step (call : Call α) : RateLimiter α := (limiter.allow call.key call.now).1

end RateLimiter

def answers (limiter : RateLimiter α) : List (Call α) → List (Call α × Bool)
  | [] => []
  | call :: rest => (call,(limiter.allow call.key call.now).2) :: answers (limiter.step call) rest

-- When the calls for a key were accepted.
def acceptedAt (key : Text) (log : List (Call α × Bool)) : List α :=
  (log.filter fun entry => entry.2 && decide (entry.1.key = key)).map fun entry => entry.1.now

-- Calls in the order of a clock that does not go back.
structure Timeline (α : Type) [LE α] where
  calls : List (Call α)
  ordered : calls.Pairwise fun first second => first.now ≤ second.now

-- A call is refused exactly when its window holds as many accepted calls as allowed.
def Exact (limit : Nat) (window : α) (calls : List (Call α)) : Prop :=
  ∀ front call rest, calls = front ++ call :: rest →
    (((run RateLimiter.step (.init limit window) front).allow call.key call.now).2 = false ↔
      limit ≤ within (call.now - window) call.now (acceptedAt call.key (answers (.init limit window) front)))

def Capped (limit : Nat) (window : α) (calls : List (Call α)) : Prop :=
  ∀ key start, within start (start + window) (acceptedAt key (answers (.init limit window) calls)) ≤ limit

def Separate (limit : Nat) (window : α) (calls : List (Call α)) : Prop :=
  ∀ key, (answers (.init limit window) calls).filter (fun entry => entry.1.key = key) =
    answers (.init limit window) (calls.filter fun call => call.key = key)

section Calls
variable (limiter : RateLimiter α)

theorem allow_limit (key : Text) (now : α) : (limiter.allow key now).1.limit = limiter.limit := by
  unfold RateLimiter.allow
  dsimp only
  split <;> rfl

theorem allow_window (key : Text) (now : α) : (limiter.allow key now).1.window = limiter.window := by
  unfold RateLimiter.allow
  dsimp only
  split <;> rfl

theorem allow_answer (key : Text) (now : α) : (limiter.allow key now).2 =
    !decide (limiter.limit ≤ (expire limiter.window now (limiter.hitsOf key)).length) := by
  unfold RateLimiter.allow
  dsimp only
  split
  next full => simp [full]
  next room => simp [room]

theorem allow_hitsOf (key : Text) (now : α) (other : Text) : (limiter.allow key now).1.hitsOf other =
    if other = key then expire limiter.window now (limiter.hitsOf key) ++ (if (limiter.allow key now).2 then [now] else [])
    else limiter.hitsOf other := by
  rw [allow_answer]
  unfold RateLimiter.allow
  dsimp only
  split
  next full =>
    rw [decide_eq_true full,RateLimiter.hitsOf,get_set]
    by_cases same : other = key
    · rw [if_pos same,if_pos same]
      exact (List.append_nil _).symm
    · rw [if_neg same,if_neg same,RateLimiter.hitsOf]
  next room =>
    rw [decide_eq_false room,RateLimiter.hitsOf,get_set]
    by_cases same : other = key
    · rw [if_pos same,if_pos same]
      rfl
    · rw [if_neg same,if_neg same,RateLimiter.hitsOf]

theorem answers_append (front rest : List (Call α)) :
    answers limiter (front ++ rest) = answers limiter front ++ answers (run RateLimiter.step limiter front) rest := by
  induction front generalizing limiter with
  | nil => rfl
  | cons call front ih => rw [List.cons_append,answers,answers,ih,List.cons_append,run_cons]

theorem answers_calls (calls : List (Call α)) : (answers limiter calls).map Prod.fst = calls := by
  induction calls generalizing limiter with
  | nil => rfl
  | cons call rest ih => rw [answers,List.map_cons,ih]

theorem run_settings (calls : List (Call α)) : (run RateLimiter.step limiter calls).limit = limiter.limit ∧
    (run RateLimiter.step limiter calls).window = limiter.window := by
  induction calls generalizing limiter with
  | nil => exact ⟨rfl,rfl⟩
  | cons call rest ih =>
      rw [run_cons,(ih _).1,(ih _).2]
      exact ⟨allow_limit limiter call.key call.now,allow_window limiter call.key call.now⟩

omit [AddCommGroup α] [LinearOrder α] in
theorem accepted_append (key : Text) (front rest : List (Call α × Bool)) :
    acceptedAt key (front ++ rest) = acceptedAt key front ++ acceptedAt key rest := by
  rw [acceptedAt,List.filter_append,List.map_append]
  rfl

omit [AddCommGroup α] [LinearOrder α] in
theorem accepted_last (key : Text) (call : Call α) (answer : Bool) :
    acceptedAt key [(call,answer)] = if key = call.key ∧ answer = true then [call.now] else [] := by
  unfold acceptedAt
  cases answer with
  | false => simp
  | true =>
      by_cases same : key = call.key
      · simp [same]
      · simp [same,Ne.symm same]

theorem accepted_sublist (key : Text) (calls : List (Call α)) :
    (acceptedAt key (answers limiter calls)).Sublist (calls.map Call.now) := by
  have kept := (List.filter_sublist (p := fun entry : Call α × Bool => entry.2 && decide (entry.1.key = key))
    (l := answers limiter calls)).map fun entry => entry.1.now
  refine kept.trans ?_
  rw [← answers_calls limiter calls,List.map_map,answers_calls]
  exact List.Sublist.refl _
end Calls

section History

theorem accepted_past (limiter : RateLimiter α) {calls : List (Call α)} {now : α} (past : ∀ call ∈ calls, call.now ≤ now)
    (key : Text) : ∀ time ∈ acceptedAt key (answers limiter calls), time ≤ now := by
  intro time accepted
  obtain ⟨call,listed,rfl⟩ := List.mem_map.mp ((accepted_sublist limiter key calls).subset accepted)
  exact past call listed

theorem accepted_ordered (limiter : RateLimiter α) {calls : List (Call α)}
    (ordered : calls.Pairwise fun first second => first.now ≤ second.now) (key : Text) :
    (acceptedAt key (answers limiter calls)).Pairwise (· ≤ ·) :=
  (List.pairwise_map.mpr ordered).sublist (accepted_sublist limiter key calls)

variable [IsOrderedAddMonoid α]

-- The deque of a key stands for all the calls that were ever accepted for it.
theorem hits_remember (limit : Nat) (window : α) (key : Text) {calls : List (Call α)}
    (ordered : calls.Pairwise fun first second => first.now ≤ second.now) {now : α} (past : ∀ call ∈ calls, call.now ≤ now) :
    Remembers window now ((run RateLimiter.step (.init limit window) calls).hitsOf key)
      (acceptedAt key (answers (.init limit window) calls)) := by
  induction calls using List.reverseRecOn generalizing now with
  | nil => exact fun _ _ => rfl
  | append_singleton front call ih =>
      rw [List.pairwise_append] at ordered
      have earlier : ∀ other ∈ front, other.now ≤ call.now := fun other listed => ordered.2.2 other listed call (by simp)
      have before := ih ordered.1 earlier
      have reached : call.now ≤ now := past call (by simp)
      rw [run_append,answers_append,accepted_append]
      change Remembers window now ((RateLimiter.allow _ call.key call.now).1.hitsOf key)
        (_ ++ acceptedAt key [(call,(RateLimiter.allow _ call.key call.now).2)])
      rw [allow_hitsOf,accepted_last,(run_settings _ front).2]
      refine remembers_later ?_ reached
      by_cases same : key = call.key
      · subst same
        rw [if_pos rfl]
        have kept := remembers_expire before le_rfl
        cases (RateLimiter.allow (run RateLimiter.step (.init limit window) front) call.key call.now).2 with
        | true =>
            rw [if_pos rfl,if_pos ⟨rfl,rfl⟩]
            exact remembers_append kept call.now
        | false =>
            rw [if_neg Bool.false_ne_true,if_neg (by simp),List.append_nil,List.append_nil]
            exact kept
      · rw [if_neg same,if_neg (by simp [same]),List.append_nil]
        exact before

theorem allow_exact (limit : Nat) (window : α) {front : List (Call α)} {call : Call α}
    (ordered : front.Pairwise fun first second => first.now ≤ second.now) (earlier : ∀ other ∈ front, other.now ≤ call.now) :
    ((run RateLimiter.step (.init limit window) front).allow call.key call.now).2 = false ↔
      limit ≤ within (call.now - window) call.now (acceptedAt call.key (answers (.init limit window) front)) := by
  have remembers := hits_remember limit window call.key ordered earlier
  rw [allow_answer,(run_settings _ front).1,(run_settings _ front).2,Bool.not_eq_false',decide_eq_true_eq]
  change limit ≤ (expire window call.now _).length ↔ _
  rw [remembers call.now le_rfl,expire_within (accepted_ordered _ ordered _) (accepted_past _ earlier _)]

theorem allow_capped (limit : Nat) (window : α) {calls : List (Call α)}
    (ordered : calls.Pairwise fun first second => first.now ≤ second.now) : Capped limit window calls := by
  intro key start
  induction calls using List.reverseRecOn with
  | nil => exact Nat.zero_le _
  | append_singleton front call ih =>
      rw [List.pairwise_append] at ordered
      have earlier : ∀ other ∈ front, other.now ≤ call.now := fun other listed => ordered.2.2 other listed call (by simp)
      have exactly := allow_exact limit window ordered.1 earlier
      have before := ih ordered.1
      rw [answers_append,accepted_append,within_append]
      change _ + within _ _ (acceptedAt key [(call,(RateLimiter.allow _ call.key call.now).2)]) ≤ limit
      rw [accepted_last]
      split
      next accepted =>
        obtain ⟨rfl,allowed⟩ := accepted
        by_cases inside : start ≤ call.now ∧ call.now ≤ start + window
        · have room := mt exactly.mpr (by rw [allowed]; exact Bool.noConfusion)
          have fewer := (within_past (accepted_past (.init limit window) earlier call.key) start (start + window)).trans
            (within_mono (sub_le_iff_le_add.mpr inside.2) le_rfl _)
          have one : within start (start + window) [call.now] = 1 := by simp [within,inside]
          omega
        · have none : within start (start + window) [call.now] = 0 := by simpa [within] using inside
          omega
      next _ => exact before
end History

-- What another key does is not seen by a key.
theorem answers_filter (limiter other : RateLimiter α) (key : Text) (calls : List (Call α)) (limit : limiter.limit = other.limit)
    (window : limiter.window = other.window) (same : limiter.hitsOf key = other.hitsOf key) :
    (answers limiter calls).filter (fun entry => entry.1.key = key) = answers other (calls.filter fun call => call.key = key) := by
  induction calls generalizing limiter other with
  | nil => rfl
  | cons call rest ih =>
      by_cases mine : call.key = key
      · subst mine
        have agreed : (limiter.allow call.key call.now).2 = (other.allow call.key call.now).2 := by
          rw [allow_answer,allow_answer,limit,window,same]
        rw [answers,List.filter_cons_of_pos (by simp),List.filter_cons_of_pos (by simp),answers,agreed]
        congr 1
        refine ih (limiter.step call) (other.step call) ?_ ?_ ?_
        · exact (allow_limit _ _ _).trans (limit.trans (allow_limit _ _ _).symm)
        · exact (allow_window _ _ _).trans (window.trans (allow_window _ _ _).symm)
        · unfold RateLimiter.step
          rw [allow_hitsOf,allow_hitsOf,agreed,window,same]
      · rw [answers,List.filter_cons_of_neg (by simpa using mine),List.filter_cons_of_neg (by simpa using mine)]
        refine ih (limiter.step call) other ((allow_limit _ _ _).trans limit) ((allow_window _ _ _).trans window) ?_
        unfold RateLimiter.step
        rw [allow_hitsOf,if_neg (Ne.symm mine),same]

theorem rate_limit_exact [IsOrderedAddMonoid α] (limit : Nat) (window : α) (timeline : Timeline α) :
    Exact limit window timeline.calls ∧ Capped limit window timeline.calls ∧ Separate limit window timeline.calls := by
  refine ⟨?_,allow_capped limit window timeline.ordered,fun key => answers_filter _ _ key _ rfl rfl rfl⟩
  intro front call rest whole
  have ordered := timeline.ordered
  rw [whole,List.pairwise_append] at ordered
  exact allow_exact limit window ordered.1 fun other listed => ordered.2.2 other listed call (by simp)

def threeCalls : Timeline ℤ :=
  ⟨[⟨['a'],0⟩,⟨['a'],60⟩,⟨['a'],61⟩],by decide⟩

theorem rate_limit_exact_three :
    Exact 1 60 threeCalls.calls ∧ Capped 1 60 threeCalls.calls ∧ Separate 1 60 threeCalls.calls ∧
      (answers (.init 1 60) threeCalls.calls).map Prod.snd = [true,false,true] := by
  obtain ⟨exact_,capped,separate⟩ := rate_limit_exact 1 60 threeCalls
  exact ⟨exact_,capped,separate,by decide⟩

end Kryvaracode.RateLimits
