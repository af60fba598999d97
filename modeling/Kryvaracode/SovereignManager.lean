import Kryvaracode.Aegis

namespace Kryvaracode.SovereignManager
open Patterns UnicodeText Aegis

-- `final_implementation` of a swarm result: a dict of texts, or a text.
inductive Implementation where
  | dict (entries : List (Text × Text))
  | text (value : Text)
  deriving DecidableEq, Repr

structure Critique where
  isFlawed : Bool
  reason : Text
  deriving DecidableEq, Repr

structure SwarmResult where
  finalImplementation : Implementation
  finalCritique : Option Critique
  blueprint : Text
  iterations : Nat
  deriving DecidableEq, Repr

def implementationCode : Implementation → Text
  | .dict entries => (entries.lookup "code".toList).getD []
  | .text value => value

abbrev Context := List (Text × Option Text)

-- Governor, memory, swarm, gatekeeper and judge, each with any answers it likes.
structure World where
  checkVitals : Bool × Text
  queryPatterns : Context → List Text → Nat
  runLoop : Text → SwarmResult
  requestApproval : (actionId description riskLevel : Text) → Bool
  evaluate : (goal : Text) → Implementation → Option Critique → Bool × Text

inductive Effect where
  | throttle
  | queryPatterns (context : Context) (tags : List Text)
  | runLoop (goal : Text)
  | requestApproval (actionId description riskLevel : Text)
  | evaluate (goal : Text) (implementation : Implementation) (critique : Option Critique)
  | commitLesson (category content : Text) (iterations : Nat) (tags : List Text)
  deriving DecidableEq, Repr

-- The `risk_level` attribute of a violation object: an enum member, or a plain
-- text on a stand-in object. A member is equal to no text, its own name included.
inductive RiskAttribute where
  | member (level : RiskLevel)
  | text (value : Text)
  deriving DecidableEq, Repr

def RiskAttribute.equals : RiskAttribute → Text → Bool
  | .member _,_ => false
  | .text value,other => value == other

structure Violation where
  name : Text
  riskLevel : RiskAttribute
  deriving DecidableEq, Repr

def ofInvariant (invariant : SafetyInvariant) : Violation := ⟨invariant.name,.member invariant.riskLevel⟩

inductive Outcome where
  | completed (verdict : Text) (result : Implementation)
  | rejected (reason : Text) (details : SwarmResult)
  | blocked (reason : Text) (violations : List Violation)
  deriving DecidableEq, Repr

def Outcome.status : Outcome → Text
  | .completed .. => "completed".toList
  | .rejected .. => "rejected".toList
  | .blocked .. => "blocked".toList

@[simp] theorem completed_status : (Outcome.completed verdict result).status = "completed".toList := rfl
@[simp] theorem rejected_status : (Outcome.rejected reason details).status = "rejected".toList := rfl
@[simp] theorem blocked_status : (Outcome.blocked reason violations).status = "blocked".toList := rfl

-- The names of registered invariants hold no quote, so their list prints so.
def printed (names : List Text) : Text :=
  "[".toList ++ ", ".toList.intercalate (names.map fun name => "'".toList ++ name ++ "'".toList) ++ "]".toList

def isCritical (violation : Violation) : Bool := violation.riskLevel.equals "CRITICAL".toList

def approvalDescription (critical : List Violation) : Text :=
  "Sovereign proposes code with CRITICAL violations: ".toList ++ printed (critical.map (·.name))

def judge (world : World) (goal : Text) (swarm : SwarmResult) : Outcome × List Effect :=
  let asked := Effect.evaluate goal swarm.finalImplementation swarm.finalCritique
  match world.evaluate goal swarm.finalImplementation swarm.finalCritique with
  | (false,reason) => (.rejected reason swarm,[asked])
  | (true,reason) =>
      (.completed reason swarm.finalImplementation,
        [asked,.commitLesson "strategic_pivot".toList
          ("Successfully achieved ".toList ++ goal ++ " using blueprint: ".toList ++ swarm.blueprint)
          swarm.iterations ["success".toList,"omega_prime".toList]])

-- From the verdict on: the part of `execute_omega_task` that decides.
def adjudicate (world : World) (goal : Text) (swarm : SwarmResult) (isSafe : Bool) (violations : List Violation) :
    Outcome × List Effect :=
  let critical := violations.filter isCritical
  if isSafe || critical.isEmpty then judge world goal swarm else
  let request := Effect.requestApproval "omega_execution".toList (approvalDescription critical) "CRITICAL".toList
  if world.requestApproval "omega_execution".toList (approvalDescription critical) "CRITICAL".toList then
    ((judge world goal swarm).1,request :: (judge world goal swarm).2)
  else (.blocked "Human operator rejected safety violations.".toList violations,[request])

inductive Item where
  | truth (value : Bool)
  | violations (list : Option (List Violation))
  | score (value : Nat)
  deriving DecidableEq, Repr

def Item.truthy : Item → Bool
  | .truth value => value
  | .violations list => !(list.getD []).isEmpty
  | .score value => value != 0

def Item.listed : Item → List Violation
  | .violations list => list.getD []
  | _ => []

-- `is_safe, violations = ...`: exactly two items, or a ValueError.
def unpackTwo : List Item → Result (Item × Item)
  | [one,two] => .ok (one,two)
  | [] => .error (ValueError "not enough values to unpack (expected 2, got 0)".toList)
  | [_] => .error (ValueError "not enough values to unpack (expected 2, got 1)".toList)
  | _ :: _ :: _ :: _ => .error (ValueError "too many values to unpack (expected 2)".toList)

def scanned : Metadata := ⟨some "Sovereign_Result".toList,none⟩

def opening (world : World) (goal : Text) (context : Context) : List Effect :=
  (if world.checkVitals.1 then [] else [.throttle]) ++ [.queryPatterns context ["failure_pattern".toList],.runLoop goal]

-- The verifier is whatever object the module holds: tests put a stand-in there.
def executeOmegaTask (verifier : Text → Metadata → List Item) (world : World) (goal : Text) (context : Context) :
    Result Outcome × List Effect :=
  let swarm := world.runLoop goal
  match unpackTwo (verifier (implementationCode swarm.finalImplementation) scanned) with
  | .error problem => (.error problem,opening world goal context)
  | .ok (isSafe,violations) =>
      let (outcome,effects) := adjudicate world goal swarm isSafe.truthy violations.listed
      (.ok outcome,opening world goal context ++ effects)

structure Goal where
  id : Option Text
  description : Option Text
  successCriteria : Option Text

def executeGoal (verifier : Text → Metadata → List Item) (world : World) (goal : Goal) : Result Outcome × List Effect :=
  executeOmegaTask verifier world (goal.description.getD "no description".toList)
    [("goal_id".toList,some (goal.id.getD "unknown".toList)),("success_criteria".toList,goal.successCriteria)]

variable (tables : Tables)

def aegisVerifier (code : Text) (metadata : Metadata) : List Item :=
  let verdict := verifyCode tables code metadata
  [.truth verdict.1,.violations (verdict.2.1.map (·.map ofInvariant)),.score verdict.2.2]

def pairedVerifier (code : Text) (metadata : Metadata) : List Item :=
  let verdict := verifyCode tables code metadata
  [.truth verdict.1,.violations (verdict.2.1.map (·.map ofInvariant))]

def commits : Effect → Bool
  | .commitLesson .. => true
  | _ => false

def asks : Effect → Bool
  | .requestApproval .. => true
  | _ => false

def consults : Effect → Bool
  | .evaluate .. => true
  | _ => false

def Approved (world : World) (goal : Text) : Prop :=
  (world.evaluate goal (world.runLoop goal).finalImplementation (world.runLoop goal).finalCritique).1 = true

def Settled (world : World) (goal : Text) (outcome : Outcome) (effects : List Effect) : Prop :=
  outcome.status ∈ ["completed".toList,"rejected".toList,"blocked".toList] ∧
    (outcome.status = "completed".toList → Approved world goal) ∧
    (effects.any commits = true ↔ outcome.status = "completed".toList)

def Contract (world : World) (goal : Text) (run : Result Outcome × List Effect) : Prop :=
  ∃ outcome, run.1 = .ok outcome ∧ Settled world goal outcome run.2

section Steps
variable {world : World} {goal : Text} {context : Context} {verifier : Text → Metadata → List Item}

theorem judge_settled (world : World) (goal : Text) :
    Settled world goal (judge world goal (world.runLoop goal)).1 (judge world goal (world.runLoop goal)).2 := by
  unfold judge
  split
  · simp [Settled,commits]
  · rename_i approved
    simp [Settled,Approved,approved,commits]

theorem judge_unasked (world : World) (goal : Text) (swarm : SwarmResult) : (judge world goal swarm).2.any asks = false := by
  unfold judge
  split <;> simp [asks]

theorem adjudicate_judged (isSafe : Bool) (violations : List Violation) (swarm : SwarmResult)
    (passed : isSafe = true ∨ violations.filter isCritical = []) :
    adjudicate world goal swarm isSafe violations = judge world goal swarm := by
  unfold adjudicate
  rw [if_pos]
  rcases passed with safe | uncritical
  · simp [safe]
  · simp [uncritical]

theorem adjudicate_refused (violations : List Violation) (swarm : SwarmResult)
    (critical : violations.filter isCritical ≠ [])
    (refused : world.requestApproval "omega_execution".toList
      (approvalDescription (violations.filter isCritical)) "CRITICAL".toList = false) :
    adjudicate world goal swarm false violations = (.blocked "Human operator rejected safety violations.".toList violations,
      [.requestApproval "omega_execution".toList (approvalDescription (violations.filter isCritical)) "CRITICAL".toList]) := by
  have asked : ¬ (false || (violations.filter isCritical).isEmpty) = true := by simpa using critical
  unfold adjudicate
  rw [if_neg asked]
  simp only [refused,Bool.false_eq_true,if_false]

theorem adjudicate_approved (violations : List Violation) (swarm : SwarmResult)
    (critical : violations.filter isCritical ≠ [])
    (approved : world.requestApproval "omega_execution".toList
      (approvalDescription (violations.filter isCritical)) "CRITICAL".toList = true) :
    adjudicate world goal swarm false violations = ((judge world goal swarm).1,
      .requestApproval "omega_execution".toList (approvalDescription (violations.filter isCritical)) "CRITICAL".toList ::
        (judge world goal swarm).2) := by
  have asked : ¬ (false || (violations.filter isCritical).isEmpty) = true := by simpa using critical
  unfold adjudicate
  rw [if_neg asked]
  simp only [approved,if_true]

theorem adjudicate_settled (isSafe : Bool) (violations : List Violation) :
    Settled world goal (adjudicate world goal (world.runLoop goal) isSafe violations).1
      (adjudicate world goal (world.runLoop goal) isSafe violations).2 := by
  have judged := judge_settled world goal
  by_cases passed : isSafe = true ∨ violations.filter isCritical = []
  · rwa [adjudicate_judged isSafe violations _ passed]
  · rw [not_or,Bool.not_eq_true] at passed
    obtain ⟨rfl,critical⟩ := passed
    cases answer : world.requestApproval "omega_execution".toList
        (approvalDescription (violations.filter isCritical)) "CRITICAL".toList with
    | true =>
      rw [adjudicate_approved violations _ critical answer]
      exact ⟨judged.1,judged.2.1,by simpa [commits] using judged.2.2⟩
    | false =>
      rw [adjudicate_refused violations _ critical answer]
      simp [Settled,commits]

@[simp] theorem opening_commits : (opening world goal context).any commits = false := by
  unfold opening; split <;> rfl

@[simp] theorem opening_asks : (opening world goal context).any asks = false := by
  unfold opening; split <;> rfl

@[simp] theorem opening_consults : (opening world goal context).any consults = false := by
  unfold opening; split <;> rfl

theorem executeOmegaTask_paired (isSafe violations : Item)
    (pair : verifier (implementationCode (world.runLoop goal).finalImplementation) scanned = [isSafe,violations]) :
    executeOmegaTask verifier world goal context =
      let decided := adjudicate world goal (world.runLoop goal) isSafe.truthy violations.listed
      (.ok decided.1,opening world goal context ++ decided.2) := by
  simp only [executeOmegaTask,pair,unpackTwo]

theorem executeOmegaTask_contract (isSafe violations : Item)
    (pair : verifier (implementationCode (world.runLoop goal).finalImplementation) scanned = [isSafe,violations]) :
    Contract world goal (executeOmegaTask verifier world goal context) := by
  rw [executeOmegaTask_paired isSafe violations pair]
  refine ⟨_,rfl,?_⟩
  simpa [Settled] using adjudicate_settled isSafe.truthy violations.listed

theorem executeOmegaTask_overfull (one two three : Item)
    (triple : verifier (implementationCode (world.runLoop goal).finalImplementation) scanned = [one,two,three]) :
    executeOmegaTask verifier world goal context =
      (.error (ValueError "too many values to unpack (expected 2)".toList),opening world goal context) := by
  simp only [executeOmegaTask,triple,unpackTwo]

end Steps

-- The verifier answers with three items and the manager takes two.
theorem contract_never (world : World) (goal : Text) (context : Context) :
    ¬ Contract world goal (executeOmegaTask (aegisVerifier tables) world goal context) := by
  intro shown
  obtain ⟨outcome,returned,_⟩ := shown
  rw [executeOmegaTask_overfull _ _ _ rfl] at returned
  cases returned

def agreeable (code : Text) : World where
  checkVitals := (true,"Vitals healthy.".toList)
  queryPatterns _ _ := 0
  runLoop _ := ⟨.dict [("code".toList,code)],some ⟨false,"robust".toList⟩,"plan".toList,2⟩
  requestApproval _ _ _ := true
  evaluate _ _ _ := (true,"Approved: Goal achieved".toList)

theorem approved_task_raises : ¬ Contract (agreeable "print('hello')".toList) "Test goal".toList
    (executeOmegaTask (aegisVerifier ascii) (agreeable "print('hello')".toList) "Test goal".toList []) := by
  intro shown
  obtain ⟨outcome,returned,_⟩ := shown
  rw [executeOmegaTask_overfull _ _ _ rfl] at returned
  cases returned

def GateContract (world : World) (violations : List SafetyInvariant) (run : Result Outcome × List Effect) : Prop :=
  (run.2.any asks = true ↔ ∃ invariant ∈ violations, invariant.riskLevel = .critical) ∧
    ((∃ invariant ∈ violations, invariant.riskLevel = .critical) →
      (∀ actionId description riskLevel, world.requestApproval actionId description riskLevel = false) →
        ∃ outcome, run.1 = .ok outcome ∧ outcome.status = "blocked".toList ∧ run.2.any consults = false)

theorem invariants_uncritical (found : Option (List SafetyInvariant)) :
    (Item.violations (found.map (·.map ofInvariant))).listed.filter isCritical = [] := by
  cases found with
  | none => rfl
  | some invariants => simp [Item.listed,List.filter_eq_nil_iff,isCritical,ofInvariant,RiskAttribute.equals]

theorem pairedVerifier_judged (world : World) (goal : Text) (context : Context) :
    executeOmegaTask (pairedVerifier tables) world goal context =
      (.ok (judge world goal (world.runLoop goal)).1,opening world goal context ++ (judge world goal (world.runLoop goal)).2) := by
  rw [executeOmegaTask_paired _ _ rfl,adjudicate_judged _ _ _ (.inr (invariants_uncritical _))]

-- The gate does its work exactly while it has none: no critical pattern in the code.
theorem gatekeeper_exact (world : World) (goal : Text) (context : Context) :
    let code := implementationCode (world.runLoop goal).finalImplementation
    GateContract world (checkViolation tables code none) (executeOmegaTask (pairedVerifier tables) world goal context) ↔
      ∀ invariant ∈ forbiddenPatterns tables, invariant.riskLevel = .critical → search invariant.pattern code = false := by
  intro code
  have unasked : (executeOmegaTask (pairedVerifier tables) world goal context).2.any asks = false := by
    rw [pairedVerifier_judged]
    simp [judge_unasked]
  constructor
  · intro contract invariant member critical
    by_contra found
    have violated : invariant ∈ checkViolation tables code none :=
      (checkViolation_untargeted tables code invariant).mpr ⟨member,by simpa using found⟩
    rw [contract.1.mpr ⟨invariant,violated,critical⟩] at unasked
    cases unasked
  · intro clean
    have uncritical : ¬ ∃ invariant ∈ checkViolation tables code none, invariant.riskLevel = .critical := by
      intro shown
      obtain ⟨invariant,violated,critical⟩ := shown
      obtain ⟨member,found⟩ := (checkViolation_untargeted tables code invariant).mp violated
      rw [clean invariant member critical] at found
      cases found
    exact ⟨by simp [unasked,uncritical],fun critical => absurd critical uncritical⟩

def refusing (code : Text) : World := { agreeable code with requestApproval := fun _ _ _ => false }

theorem popen_unasked : ¬ GateContract (refusing "os.popen('ls')".toList) (checkViolation ascii "os.popen('ls')".toList none)
    (executeOmegaTask (pairedVerifier ascii) (refusing "os.popen('ls')".toList) "Test goal".toList []) := by
  intro shown
  obtain ⟨asked,_⟩ := shown
  rw [pairedVerifier_judged] at asked
  have critical : ∃ invariant ∈ checkViolation ascii "os.popen('ls')".toList none, invariant.riskLevel = .critical :=
    ⟨arbitraryRemoteShell,(checkViolation_untargeted ascii _ _).mpr ⟨by simp [forbiddenPatterns],by decide +kernel⟩,rfl⟩
  simpa [judge_unasked] using asked.mpr critical

end Kryvaracode.SovereignManager
