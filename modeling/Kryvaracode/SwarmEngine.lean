import Kryvaracode.InsertionDict
import Kryvaracode.Runs
import Kryvaracode.UnicodeText

namespace Kryvaracode.Swarm
open InsertionDict Runs UnicodeText

-- The values of a reply, with what `not value` asks of them.
structure Values where
  Value : Type
  truth : Value → Bool

variable {values : Values}

abbrev Reply (values : Values) := Dict Text values.Value

structure Context (values : Values) where
  blueprint : Option (Reply values)
  lastImplementation : Option (Reply values)
  lastCritique : Option (Reply values)

structure SwarmEngine (values : Values) where
  currentContext : Context values
  iterationCount : Nat
  maxIterations : Nat

def SwarmEngine.init : SwarmEngine values := ⟨⟨none,none,none⟩,0,5⟩

-- What `_invoke_role` answers for a role: it can read the engine's count.
structure Roles (values : Values) where
  strategist : Nat → (goal : Text) → Reply values
  executor : Nat → (blueprint : Reply values) → Context values → Reply values
  critic : Nat → (implementation blueprint : Reply values) → Reply values

-- Roles that answer what they are given and nothing else.
structure Behaviour (values : Values) where
  strategist : (goal : Text) → Reply values
  executor : (blueprint : Reply values) → Context values → Reply values
  critic : (implementation blueprint : Reply values) → Reply values

def Behaviour.roles (behaviour : Behaviour values) : Roles values :=
  ⟨fun _ => behaviour.strategist,fun _ => behaviour.executor,fun _ => behaviour.critic⟩

-- The dict that is returned, with what the executor made during the call.
structure Outcome (values : Values) where
  finalImplementation : Option (Reply values)
  finalCritique : Option (Reply values)
  blueprint : Reply values
  iterations : Nat

def isFlawed (critique : Reply values) : Bool := ((critique.get "is_flawed".toList).map values.truth).getD false

namespace SwarmEngine
variable (roles : Roles values) (engine : SwarmEngine values)

def begin (blueprint : Reply values) : SwarmEngine values :=
  {engine with currentContext := {engine.currentContext with blueprint := some blueprint}}

-- The body of the loop: the engine after it, what was made, and whether it goes on.
def iterate (blueprint : Reply values) : SwarmEngine values × Reply values × Bool :=
  let count := engine.iterationCount + 1
  let implementation := roles.executor count blueprint engine.currentContext
  let built := {engine.currentContext with lastImplementation := some implementation}
  let critique := roles.critic count implementation blueprint
  if isFlawed critique then
    ({engine with iterationCount := count,currentContext := {built with lastCritique := some critique}},implementation,true)
  else ({engine with iterationCount := count,currentContext := built},implementation,false)

def rounds (blueprint : Reply values) : Nat → SwarmEngine values → SwarmEngine values × List (Reply values)
  | 0,engine => (engine,[])
  | left + 1,engine =>
      match engine.iterate roles blueprint with
      | (after,implementation,true) =>
          let later := rounds blueprint left after
          (later.1,implementation :: later.2)
      | (after,implementation,false) => (after,[implementation])

def loop (blueprint : Reply values) : SwarmEngine values × List (Reply values) :=
  rounds roles blueprint (engine.maxIterations - engine.iterationCount) engine

def result (blueprint : Reply values) : Outcome values :=
  ⟨engine.currentContext.lastImplementation,engine.currentContext.lastCritique,blueprint,engine.iterationCount⟩

def runLoop (goal : Text) : SwarmEngine values × Outcome values × List (Reply values) :=
  let blueprint := roles.strategist engine.iterationCount goal
  let ended := (engine.begin blueprint).loop roles blueprint
  (ended.1,ended.1.result blueprint,ended.2)

def called (goal : Text) : SwarmEngine values := (engine.runLoop roles goal).1
end SwarmEngine

def Independent (history : List Text) (goal : Text) : Prop :=
  ∀ (values : Values) (behaviour : Behaviour values),
    let engine := run (SwarmEngine.called behaviour.roles) .init history
    let call := engine.runLoop behaviour.roles goal
    call.2.1 = (SwarmEngine.init.runLoop behaviour.roles goal).2.1 ∧
      1 ≤ call.2.1.iterations ∧ call.2.1.iterations ≤ engine.maxIterations ∧
      ∃ implementation ∈ call.2.2,call.2.1.finalImplementation = some implementation

section Loops
variable (roles : Roles values)

theorem iterate_count (engine : SwarmEngine values) (blueprint : Reply values) :
    (engine.iterate roles blueprint).1.iterationCount = engine.iterationCount + 1 ∧
      (engine.iterate roles blueprint).1.maxIterations = engine.maxIterations ∧
      (engine.iterate roles blueprint).1.currentContext.lastImplementation = some (engine.iterate roles blueprint).2.1 := by
  unfold SwarmEngine.iterate
  dsimp only
  split <;> exact ⟨rfl,rfl,rfl⟩

-- `while self.iteration_count < self.max_iterations`, with `break` on approval.
theorem loop_while (engine : SwarmEngine values) (blueprint : Reply values) : engine.loop roles blueprint =
    if engine.iterationCount < engine.maxIterations then
      match engine.iterate roles blueprint with
      | (after,implementation,true) =>
          let later := after.loop roles blueprint
          (later.1,implementation :: later.2)
      | (after,implementation,false) => (after,[implementation])
    else (engine,[]) := by
  unfold SwarmEngine.loop
  by_cases more : engine.iterationCount < engine.maxIterations
  · obtain ⟨left,measure⟩ : ∃ left, engine.maxIterations - engine.iterationCount = left + 1 :=
      ⟨engine.maxIterations - engine.iterationCount - 1,by omega⟩
    rw [if_pos more,measure,SwarmEngine.rounds]
    have counts := iterate_count roles engine blueprint
    rcases outcome : engine.iterate roles blueprint with ⟨after,implementation,goes⟩
    rw [outcome] at counts
    cases goes with
    | true =>
        have same : after.maxIterations - after.iterationCount = left := by
          rw [counts.1,counts.2.1]
          omega
        dsimp only
        rw [same]
    | false => rfl
  · have none : engine.maxIterations - engine.iterationCount = 0 := by omega
    rw [if_neg more,none,SwarmEngine.rounds]

theorem rounds_count (blueprint : Reply values) (left : Nat) (engine : SwarmEngine values) :
    (engine.iterationCount + min left 1 ≤ (SwarmEngine.rounds roles blueprint left engine).1.iterationCount ∧
      (SwarmEngine.rounds roles blueprint left engine).1.iterationCount ≤ engine.iterationCount + left) ∧
      (SwarmEngine.rounds roles blueprint left engine).1.maxIterations = engine.maxIterations := by
  induction left generalizing engine with
  | zero => exact ⟨⟨Nat.le_refl _,Nat.le_refl _⟩,rfl⟩
  | succ left ih =>
      have counts := iterate_count roles engine blueprint
      unfold SwarmEngine.rounds
      rcases outcome : engine.iterate roles blueprint with ⟨after,implementation,goes⟩
      rw [outcome] at counts
      cases goes with
      | true =>
          have later := ih after
          dsimp only at counts later ⊢
          rw [counts.1,counts.2.1] at later
          exact ⟨by omega,later.2⟩
      | false =>
          dsimp only at counts ⊢
          rw [counts.1]
          exact ⟨by omega,counts.2.1⟩

theorem rounds_produced (blueprint : Reply values) (left : Nat) (engine : SwarmEngine values) :
    ∃ implementation ∈ (SwarmEngine.rounds roles blueprint (left + 1) engine).2,
      (SwarmEngine.rounds roles blueprint (left + 1) engine).1.currentContext.lastImplementation = some implementation := by
  induction left generalizing engine with
  | zero =>
      have built := (iterate_count roles engine blueprint).2.2
      unfold SwarmEngine.rounds
      rcases outcome : engine.iterate roles blueprint with ⟨after,implementation,goes⟩
      rw [outcome] at built
      cases goes <;> exact ⟨implementation,List.mem_cons_self,built⟩
  | succ left ih =>
      have built := (iterate_count roles engine blueprint).2.2
      unfold SwarmEngine.rounds
      rcases outcome : engine.iterate roles blueprint with ⟨after,implementation,goes⟩
      rw [outcome] at built
      cases goes with
      | true =>
          obtain ⟨last,inside,held⟩ := ih after
          exact ⟨last,List.mem_cons_of_mem _ inside,held⟩
      | false => exact ⟨implementation,List.mem_cons_self,built⟩

theorem runLoop_count (engine : SwarmEngine values) (goal : Text) (bounded : engine.iterationCount ≤ engine.maxIterations) :
    (min (engine.iterationCount + 1) engine.maxIterations ≤ (engine.called roles goal).iterationCount ∧
      (engine.called roles goal).iterationCount ≤ engine.maxIterations) ∧
      (engine.called roles goal).maxIterations = engine.maxIterations := by
  have counts := rounds_count roles (roles.strategist engine.iterationCount goal)
    (engine.maxIterations - engine.iterationCount) (engine.begin (roles.strategist engine.iterationCount goal))
  have same : (engine.begin (roles.strategist engine.iterationCount goal)).iterationCount = engine.iterationCount := rfl
  rw [same] at counts
  refine ⟨⟨?_,?_⟩,counts.2⟩
  · refine Nat.le_trans ?_ counts.1.1
    omega
  · refine Nat.le_trans counts.1.2 ?_
    omega

theorem history_count (history : List Text) (engine : SwarmEngine values)
    (bounded : engine.iterationCount ≤ engine.maxIterations) :
    (min (engine.iterationCount + history.length) engine.maxIterations ≤
      (run (SwarmEngine.called roles) engine history).iterationCount ∧
      (run (SwarmEngine.called roles) engine history).iterationCount ≤ engine.maxIterations) ∧
      (run (SwarmEngine.called roles) engine history).maxIterations = engine.maxIterations := by
  induction history generalizing engine with
  | nil => exact ⟨⟨Nat.min_le_left _ _,bounded⟩,rfl⟩
  | cons goal rest ih =>
      have counts := runLoop_count roles engine goal bounded
      have later := ih (engine.called roles goal) (counts.2 ▸ counts.1.2)
      rw [counts.2] at later
      rw [run_cons,List.length_cons]
      refine ⟨⟨Nat.le_trans ?_ later.1.1,later.1.2⟩,later.2⟩
      omega
end Loops

theorem fresh_independent (goal : Text) : Independent [] goal := by
  intro values behaviour
  have counts := rounds_count behaviour.roles (behaviour.strategist goal) 5
    (SwarmEngine.init.begin (behaviour.strategist goal))
  refine ⟨rfl,?_,?_,rounds_produced behaviour.roles (behaviour.strategist goal) 4 _⟩
  · exact counts.1.1
  · exact counts.1.2

-- Replies without a verdict, which the loop takes for approval.
def silent : Behaviour ⟨Unit,fun _ => false⟩ := ⟨fun _ => Dict.empty,fun _ _ => Dict.empty,fun _ _ => Dict.empty⟩

theorem earlier_call_counts (first goal : Text) (rest : List Text) : ¬ Independent (first :: rest) goal := by
  intro independent
  have same := (independent _ silent).1
  have fresh : (SwarmEngine.init.runLoop silent.roles goal).2.1.iterations = 1 := rfl
  have before := history_count silent.roles (first :: rest) .init (Nat.zero_le 5)
  have after := runLoop_count silent.roles (run (SwarmEngine.called silent.roles) .init (first :: rest)) goal
    (before.2 ▸ before.1.2)
  have equal : ((run (SwarmEngine.called silent.roles) .init (first :: rest)).called silent.roles goal).iterationCount = 1 :=
    (congrArg Outcome.iterations same).trans fresh
  have limit : (SwarmEngine.init : SwarmEngine ⟨Unit,fun _ => false⟩).maxIterations = 5 := rfl
  have start : (SwarmEngine.init : SwarmEngine ⟨Unit,fun _ => false⟩).iterationCount = 0 := rfl
  rw [equal,before.2,limit] at after
  rw [start,limit,List.length_cons] at before
  omega

theorem run_independence_exact (history : List Text) (goal : Text) : Independent history goal ↔ history = [] := by
  refine ⟨?_,?_⟩
  · intro independent
    cases history with
    | nil => rfl
    | cons first rest => exact absurd independent (earlier_call_counts first goal rest)
  · intro fresh
    rw [fresh]
    exact fresh_independent goal

theorem second_call_differs : ¬ Independent [['g']] ['g'] := by
  intro independent
  have same := congrArg Outcome.iterations (independent _ silent).1
  have counted : (2 : Nat) = 1 := same
  cases counted

-- The answers the repository ships with.
inductive Said where
  | text (value : Text)
  | flag (truth : Bool)
  deriving DecidableEq, Repr

def said : Values where
  Value := Said
  truth
    | .text value => !value.isEmpty
    | .flag truth => truth

def shippedCritique (flawed : Bool) (reason : Text) : Reply said :=
  (Dict.empty.set "is_flawed".toList (Said.flag flawed)).set "reason".toList (.text reason)

def invokeRole : Roles said where
  strategist _ _ := (Dict.empty.set "plan".toList
    (Said.text "1. Use Forge to create API-wrapper. 2. Use Eye to verify UI. 3. Push to DB.".toList)).set
    "metrics".toList (.text "Latency < 200ms".toList)
  executor _ _ _ := ((Dict.empty.set "status".toList (Said.text "implemented".toList)).set "evidence".toList
    (.text "logs.txt".toList)).set "result".toList (.text "Task complete".toList)
  critic count _ _ :=
    if count < 2 then shippedCritique true "Edge case: network timeout not handled.".toList
    else shippedCritique false "Implementation is robust.".toList

theorem shipped_flawed (flawed : Bool) (reason : Text) : isFlawed (shippedCritique flawed reason) = flawed := by
  have apart : "is_flawed".toList ≠ "reason".toList := by decide
  have held : (shippedCritique flawed reason).get "is_flawed".toList = some (.flag flawed) :=
    (get_set _ _ _ _).trans ((if_neg apart).trans (get_set_same _ _ _))
  unfold isFlawed
  rw [held]
  rfl

theorem shipped_goes (engine : SwarmEngine said) (blueprint : Reply said) :
    (engine.iterate invokeRole blueprint).2.2 = decide (engine.iterationCount = 0) := by
  have verdict : isFlawed (invokeRole.critic (engine.iterationCount + 1)
      (invokeRole.executor (engine.iterationCount + 1) blueprint engine.currentContext) blueprint) =
      decide (engine.iterationCount = 0) := by
    unfold invokeRole
    dsimp only
    split
    next early =>
      rw [shipped_flawed]
      exact (decide_eq_true (by omega)).symm
    next late =>
      rw [shipped_flawed]
      exact (decide_eq_false (by omega)).symm
  unfold SwarmEngine.iterate
  dsimp only
  rw [verdict]
  split
  next first => exact first.symm
  next later => exact (Bool.eq_false_iff.mpr later).symm

theorem shipped_loop (engine : SwarmEngine said) (blueprint : Reply said) (limit : engine.maxIterations = 5)
    (counted : engine.iterationCount ≠ 0) : (engine.loop invokeRole blueprint).1.iterationCount =
      if engine.iterationCount < 5 then engine.iterationCount + 1 else engine.iterationCount := by
  rw [loop_while,limit]
  split
  next more =>
    have goes := shipped_goes engine blueprint
    have counts := (iterate_count invokeRole engine blueprint).1
    rcases outcome : engine.iterate invokeRole blueprint with ⟨after,implementation,again⟩
    rw [outcome] at goes counts
    rw [show again = false from goes.trans (decide_eq_false counted)]
    exact counts
  next => rfl

-- Two rounds for the first call and one for each later, until the count is used up.
theorem shipped_count (engine : SwarmEngine said) (goal : Text) (limit : engine.maxIterations = 5) :
    (engine.called invokeRole goal).iterationCount = if engine.iterationCount = 0 then 2
      else if engine.iterationCount < 5 then engine.iterationCount + 1 else engine.iterationCount := by
  change ((engine.begin _).loop invokeRole _).1.iterationCount = _
  generalize invokeRole.strategist engine.iterationCount goal = blueprint
  by_cases first : engine.iterationCount = 0
  · have more : (engine.begin blueprint).iterationCount < (engine.begin blueprint).maxIterations := by
      change engine.iterationCount < engine.maxIterations
      omega
    rw [if_pos first,loop_while,if_pos more]
    have goes := shipped_goes (engine.begin blueprint) blueprint
    have counts := iterate_count invokeRole (engine.begin blueprint) blueprint
    rcases outcome : (engine.begin blueprint).iterate invokeRole blueprint with ⟨after,implementation,again⟩
    rw [outcome] at goes counts
    rw [show again = true from goes.trans (decide_eq_true first)]
    have one : after.iterationCount = 1 := counts.1.trans (congrArg (· + 1) first)
    change (after.loop invokeRole blueprint).1.iterationCount = 2
    rw [shipped_loop after blueprint (counts.2.1.trans limit) (by omega),one]
    rfl
  · rw [if_neg first]
    exact shipped_loop (engine.begin blueprint) blueprint limit first

theorem shipped_iterations (history : List Text) (goal : Text) :
    ((run (SwarmEngine.called invokeRole) .init history).runLoop invokeRole goal).2.1.iterations = min (history.length + 2) 5 := by
  change ((run (SwarmEngine.called invokeRole) .init history).called invokeRole goal).iterationCount = _
  have limit := (history_count invokeRole history .init (Nat.zero_le 5)).2
  rw [shipped_count _ goal limit]
  induction history using List.reverseRecOn generalizing goal with
  | nil => rfl
  | append_singleton front last ih =>
      have before := (history_count invokeRole front .init (Nat.zero_le 5)).2
      rw [run_append,run_cons,run_nil,shipped_count _ last before,ih last before,List.length_append,List.length_singleton]
      split
      next none => omega
      next => split <;> omega

end Kryvaracode.Swarm
