import Kryvaracode.Exceptions
import Kryvaracode.SwarmEngine

namespace Kryvaracode.Swarm
open InsertionDict UnicodeText

variable {values : Values}

def AttributeError (detail : Text) : Failure := ⟨.other "AttributeError".toList,detail⟩

section Judge
-- What `json.dumps` raises for a value, if anything.
variable (refusal : values.Value → Option Failure)

def dumped : Option Failure → Result Unit
  | some failure => .error failure
  | none => .ok ()

-- None is dumped as `null`.
def dumpReply : Option (Reply values) → Result Unit
  | some reply => dumped (reply.values.findSome? refusal)
  | none => .ok ()

-- `reply.get`: None has no such method.
def getting : Option (Reply values) → Result (Reply values)
  | some reply => .ok reply
  | none => .error (AttributeError "'NoneType' object has no attribute 'get'".toList)

def fallback (critique : Reply values) : Bool × Text :=
  if isFlawed critique then (false,"Rejected via fallback: Reasoning engine unavailable and Critic flagged flaws.".toList)
  else (true,"Approved via fallback: No flaws detected by Critic.".toList)

-- The prompt shows the evidence and the critique. `_call_llm_for_verdict`
-- answers None to every prompt, so the fallback decides.
def evaluate (_goal : Text) (implementation critique : Option (Reply values)) : Result (Bool × Text) := do
  let made ← getting implementation
  dumped ((made.get "evidence".toList).bind refusal)
  dumpReply refusal critique
  let reviewed ← getting critique
  .ok (fallback reviewed)

theorem fallback_approves (critique : Reply values) : (fallback critique).1 = !isFlawed critique := by
  unfold fallback
  cases isFlawed critique <;> rfl

theorem evaluate_unreviewed (goal : Text) (implementation : Option (Reply values)) :
    ∃ failure, evaluate refusal goal implementation none = .error failure := by
  cases implementation with
  | none => exact ⟨_,rfl⟩
  | some made =>
      have steps : evaluate refusal goal (some made) none =
          (dumped ((made.get "evidence".toList).bind refusal)).bind fun _ =>
            (getting (none : Option (Reply values))).map fallback := rfl
      rw [steps]
      cases (made.get "evidence".toList).bind refusal <;> exact ⟨_,rfl⟩

-- `json.dumps` takes the evidence and every value of the critique.
def Shown (implementation critique : Reply values) : Prop :=
  (implementation.get "evidence".toList).bind refusal = none ∧ critique.values.findSome? refusal = none

theorem evaluate_ok (goal : Text) (implementation critique : Reply values) (answer : Bool × Text) :
    evaluate refusal goal (some implementation) (some critique) = .ok answer ↔
      Shown refusal implementation critique ∧ fallback critique = answer := by
  have steps : evaluate refusal goal (some implementation) (some critique) =
      (dumped ((implementation.get "evidence".toList).bind refusal)).bind fun _ =>
        (dumped (critique.values.findSome? refusal)).bind fun _ => .ok (fallback critique) := rfl
  rw [steps,Shown]
  cases (implementation.get "evidence".toList).bind refusal with
  | some failure => simp [dumped,Except.bind]
  | none => cases critique.values.findSome? refusal <;> simp [dumped,Except.bind]

theorem flawed_rejected (goal : Text) {implementation critique : Reply values} (shown : Shown refusal implementation critique)
    (flawed : isFlawed critique = true) :
    ∃ reason, evaluate refusal goal (some implementation) (some critique) = .ok (false,reason) := by
  refine ⟨(fallback critique).2,(evaluate_ok refusal goal _ _ _).mpr ⟨shown,?_⟩⟩
  have rejected : (fallback critique).1 = false := by rw [fallback_approves,flawed]; rfl
  rw [← rejected]

end Judge

theorem shown_all (implementation critique : Reply values) : Shown (fun _ => none) implementation critique :=
  ⟨Option.bind_fun_none _,List.findSome?_eq_none_iff.mpr fun _ _ => rfl⟩

section Rounds
variable (roles : Roles values) (blueprint : Reply values)

-- What the executor of round k + 1 is given once the rounds before it were
-- flawed, and what the executor and the critic of that round answer.
def contextAt : Nat → Context values
  | 0 => ⟨some blueprint,none,none⟩
  | k + 1 =>
      let implementation := roles.executor (k + 1) blueprint (contextAt k)
      ⟨some blueprint,some implementation,some (roles.critic (k + 1) implementation blueprint)⟩

def implementationAt (k : Nat) : Reply values := roles.executor (k + 1) blueprint (contextAt roles blueprint k)
def critiqueAt (k : Nat) : Reply values := roles.critic (k + 1) (implementationAt roles blueprint k) blueprint

def engineAt (limit k : Nat) : SwarmEngine values := ⟨contextAt roles blueprint k,k,limit⟩

-- An approval stores no critique.
def approvedAt (limit k : Nat) : SwarmEngine values :=
  ⟨{contextAt roles blueprint k with lastImplementation := some (implementationAt roles blueprint k)},k + 1,limit⟩

def roundAt (limit k : Nat) : SwarmEngine values :=
  if isFlawed (critiqueAt roles blueprint k) then engineAt roles blueprint limit (k + 1) else approvedAt roles blueprint limit k

theorem context_blueprint (k : Nat) : (contextAt roles blueprint k).blueprint = some blueprint := by
  cases k <;> rfl

theorem iterate_at (limit k : Nat) : (engineAt roles blueprint limit k).iterate roles blueprint =
    (roundAt roles blueprint limit k,implementationAt roles blueprint k,isFlawed (critiqueAt roles blueprint k)) := by
  have kept := context_blueprint roles blueprint k
  unfold SwarmEngine.iterate roundAt
  change (if isFlawed (critiqueAt roles blueprint k) then _ else _) = _
  cases isFlawed (critiqueAt roles blueprint k) with
  | false => rfl
  | true =>
      simp only [if_true,engineAt,kept]
      rfl

-- The last round: the first whose critic finds no flaw, or the last there is.
def Last (first left n : Nat) : Prop :=
  first ≤ n ∧ n ≤ first + left ∧ (∀ k, first ≤ k → k < n → isFlawed (critiqueAt roles blueprint k) = true) ∧
    (n < first + left → isFlawed (critiqueAt roles blueprint n) = false)

theorem rounds_last (limit left first : Nat) : ∃ n, Last roles blueprint first left n ∧
    (SwarmEngine.rounds roles blueprint (left + 1) (engineAt roles blueprint limit first)).1 = roundAt roles blueprint limit n := by
  induction left generalizing first with
  | zero =>
      refine ⟨first,⟨le_rfl,le_rfl,by omega,by omega⟩,?_⟩
      unfold SwarmEngine.rounds
      rw [iterate_at]
      cases isFlawed (critiqueAt roles blueprint first) <;> rfl
  | succ left ih =>
      unfold SwarmEngine.rounds
      rw [iterate_at]
      cases verdict : isFlawed (critiqueAt roles blueprint first) with
      | false => exact ⟨first,⟨le_rfl,by omega,by omega,fun _ => verdict⟩,rfl⟩
      | true =>
          obtain ⟨n,⟨low,high,flawed,approved⟩,ended⟩ := ih (first + 1)
          have next : roundAt roles blueprint limit first = engineAt roles blueprint limit (first + 1) := by
            rw [roundAt,verdict,if_pos rfl]
          refine ⟨n,⟨by omega,by omega,fun k above below => ?_,fun more => approved (by omega)⟩,?_⟩
          · rcases Nat.eq_or_lt_of_le above with rfl | above
            · exact verdict
            · exact flawed k above below
          · dsimp only
            rw [next]
            exact ended

theorem last_unique (one : Last roles blueprint first left n) (two : Last roles blueprint first left m) : n = m := by
  obtain ⟨low,high,flawed,approved⟩ := one
  obtain ⟨low',high',flawed',approved'⟩ := two
  rcases Nat.lt_trichotomy n m with less | same | more
  · have verdict := approved (by omega)
    rw [flawed' n low less] at verdict
    cases verdict
  · exact same
  · have verdict := approved' (by omega)
    rw [flawed m low' more] at verdict
    cases verdict

-- A loop that ends without the approval of its last iteration has used up its rounds.
theorem last_flawed (last : Last roles blueprint first left n) (flawed : isFlawed (critiqueAt roles blueprint n) = true) :
    n = first + left := by
  obtain ⟨low,high,_,approved⟩ := last
  by_contra early
  have clean := approved (by omega)
  rw [flawed] at clean
  cases clean

end Rounds

-- The call on a fresh engine: when it stops, what it returns, and what the judge
-- makes of that.
def Reviewed (refusal : values.Value → Option Failure) (roles : Roles values) (goal : Text) : Prop :=
  let blueprint := roles.strategist 0 goal
  let returned := (SwarmEngine.init.runLoop roles goal).2.1
  let limit := (SwarmEngine.init : SwarmEngine values).maxIterations
  ∃ n < limit, (∀ k < n, isFlawed (critiqueAt roles blueprint k) = true) ∧
    (n + 1 < limit → isFlawed (critiqueAt roles blueprint n) = false) ∧ returned.iterations = n + 1 ∧
    returned.finalImplementation = some (implementationAt roles blueprint n) ∧
    returned.finalCritique = some (critiqueAt roles blueprint n) ∧
    ∃ approved reason, evaluate refusal goal returned.finalImplementation returned.finalCritique = .ok (approved,reason) ∧
      (approved = true ↔ isFlawed (critiqueAt roles blueprint n) = false)

-- The critique an approval leaves: that of the round before, if there was one.
theorem approved_critique (roles : Roles values) (blueprint : Reply values) (limit n : Nat)
    (flawed : ∀ k < n, isFlawed (critiqueAt roles blueprint k) = true) :
    ∀ critique, (approvedAt roles blueprint limit n).currentContext.lastCritique = some critique → isFlawed critique = true := by
  intro critique held
  cases n with
  | zero => cases held
  | succ n =>
      cases held
      exact flawed n (Nat.lt_succ_self n)

theorem runLoop_last (roles : Roles values) (goal : Text) : ∃ n, Last roles (roles.strategist 0 goal) 0 4 n ∧
    (SwarmEngine.init.runLoop roles goal).2.1 =
      (roundAt roles (roles.strategist 0 goal) 5 n).result (roles.strategist 0 goal) := by
  obtain ⟨n,last,ended⟩ := rounds_last roles (roles.strategist 0 goal) 5 4 0
  refine ⟨n,last,?_⟩
  rw [← ended]
  rfl

theorem reviewed_exact (refusal : values.Value → Option Failure) (roles : Roles values) (goal : Text) :
    Reviewed refusal roles goal ↔
      (∀ k < 5, isFlawed (critiqueAt roles (roles.strategist 0 goal) k) = true) ∧
        Shown refusal (implementationAt roles (roles.strategist 0 goal) 4) (critiqueAt roles (roles.strategist 0 goal) 4) := by
  obtain ⟨n,last,ended⟩ := runLoop_last roles goal
  unfold Reviewed
  dsimp only
  rw [ended]
  generalize roles.strategist 0 goal = blueprint at last ⊢
  constructor
  · rintro ⟨m,below,flawed,approved,_,implemented,reviewed,answer,reason,judged,_⟩
    have same : n = m := last_unique roles blueprint last
      ⟨Nat.zero_le m,Nat.le_of_lt_succ below,fun k _ => flawed k,fun more => approved (Nat.succ_lt_succ more)⟩
    subst same
    rw [implemented,reviewed,evaluate_ok] at judged
    -- Had the critic approved, the stored critique would be an older, flawed one.
    have verdict : isFlawed (critiqueAt roles blueprint n) = true := by
      by_contra clean
      have stored : (roundAt roles blueprint 5 n).currentContext.lastCritique = some (critiqueAt roles blueprint n) := reviewed
      rw [roundAt,if_neg clean] at stored
      exact clean (approved_critique roles blueprint 5 n flawed _ stored)
    have final : n = 4 := (last_flawed roles blueprint last verdict).trans (Nat.zero_add 4)
    subst final
    refine ⟨fun k small => ?_,judged.1⟩
    rcases Nat.lt_succ_iff_lt_or_eq.mp small with less | rfl
    · exact flawed k less
    · exact verdict
  · rintro ⟨flawed,shown⟩
    have small : n < 5 := by
      obtain ⟨_,high,_,_⟩ := last
      omega
    have final : n = 4 := (last_flawed roles blueprint last (flawed n small)).trans (Nat.zero_add 4)
    subst final
    have stored : roundAt roles blueprint 5 4 = engineAt roles blueprint 5 5 := by
      rw [roundAt,if_pos (flawed 4 (by omega))]
    rw [stored]
    refine ⟨4,Nat.lt_succ_self 4,fun k less => flawed k (Nat.lt_succ_of_lt less),fun more => absurd more (Nat.lt_irrefl 5),
      rfl,rfl,rfl,(fallback (critiqueAt roles blueprint 4)).1,(fallback (critiqueAt roles blueprint 4)).2,
      (evaluate_ok refusal goal _ _ _).mpr ⟨shown,rfl⟩,?_⟩
    rw [fallback_approves]
    cases isFlawed (critiqueAt roles blueprint 4) <;> simp

-- The roles of the repository: the critic approves the second implementation,
-- and the judge rejects it for what was said of the first.
theorem shipped_rejected : (SwarmEngine.init.runLoop invokeRole ['g']).2.1.iterations = 2 ∧
    isFlawed (critiqueAt invokeRole (invokeRole.strategist 0 ['g']) 1) = false ∧
    (∃ reason, evaluate (fun _ => none) ['g'] (SwarmEngine.init.runLoop invokeRole ['g']).2.1.finalImplementation
      (SwarmEngine.init.runLoop invokeRole ['g']).2.1.finalCritique = .ok (false,reason)) ∧
    ¬Reviewed (fun _ => none) invokeRole ['g'] := by
  have counted : (SwarmEngine.init.runLoop invokeRole ['g']).2.1.iterations = 2 := shipped_iterations [] ['g']
  have first : isFlawed (critiqueAt invokeRole (invokeRole.strategist 0 ['g']) 0) = true := shipped_flawed true _
  have second : isFlawed (critiqueAt invokeRole (invokeRole.strategist 0 ['g']) 1) = false := shipped_flawed false _
  have rejected : ∃ reason, evaluate (fun _ => none) ['g'] (SwarmEngine.init.runLoop invokeRole ['g']).2.1.finalImplementation
      (SwarmEngine.init.runLoop invokeRole ['g']).2.1.finalCritique = .ok (false,reason) := by
    obtain ⟨n,last,ended⟩ := runLoop_last invokeRole ['g']
    have same : n = 1 := last_unique _ _ last
      ⟨Nat.zero_le 1,by decide,fun k _ less => Nat.lt_one_iff.mp less ▸ first,fun _ => second⟩
    subst same
    rw [ended,roundAt,if_neg (by simp [second])]
    exact flawed_rejected (fun _ => none) ['g'] (shown_all _ _) first
  refine ⟨counted,second,rejected,?_⟩
  rintro ⟨n,_,_,_,iterations,_,_,approved,reason,judged,agrees⟩
  rw [counted] at iterations
  cases iterations
  obtain ⟨said,answer⟩ := rejected
  rw [answer] at judged
  cases judged
  cases agrees.mpr second

end Kryvaracode.Swarm
