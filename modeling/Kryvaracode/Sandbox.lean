import Kryvaracode.CodeValidation

namespace Kryvaracode.Sandbox
open CodeValidation UnicodeText

-- How the program text in front of the wrapper ends: with its functions defined,
-- with an uncaught exception, or by leaving the interpreter itself.
inductive Load where
  | defined (functions : List Text) (stdout stderr : Text)
  | raised (stdout stderr : Text)
  | left (code : Int) (stdout stderr : Text)
  deriving DecidableEq, Repr

-- How the call of the target function ends; `json` is the result as the wrapper
-- prints it, and an exception while printing counts as raised.
inductive Call where
  | returned (json stdout stderr : Text)
  | raised (message stdout stderr : Text)
  | left (code : Int) (stdout stderr : Text)
  deriving DecidableEq, Repr

structure Program where
  load : Load
  call : Text → Call

structure Completed where
  returncode : Int
  stdout : Text
  stderr : Text
  deriving DecidableEq, Repr

def targetFunc (functions : List Text) : Option Text :=
  (["execute".toList,"main".toList,"run".toList].find? functions.contains).or functions.head?

-- The script `_wrap_code` puts around a program, run to its end.
def wrapped (program : Program) : Completed :=
  match program.load with
  | .raised stdout stderr => ⟨1,stdout,stderr ++ "Traceback (most recent call last):\n".toList⟩
  | .left code stdout stderr => ⟨code,stdout,stderr⟩
  | .defined functions stdout stderr =>
      match targetFunc functions with
      | none => ⟨1,stdout ++ "Error: No executable function found in synthesized code.\n".toList,stderr⟩
      | some name =>
          match program.call name with
          | .returned json printed logged => ⟨0,stdout ++ printed ++ json ++ "\n".toList,stderr ++ logged⟩
          | .raised message printed logged =>
              ⟨1,stdout ++ printed ++ "Runtime Error: ".toList ++ message ++ "\n".toList,stderr ++ logged⟩
          | .left code printed logged => ⟨code,stdout ++ printed,stderr ++ logged⟩

def Returned (program : Program) : Prop :=
  ∃ functions stdout stderr name json printed logged, program.load = .defined functions stdout stderr ∧
    targetFunc functions = some name ∧ program.call name = .returned json printed logged

def LeftWith (code : Int) (program : Program) : Prop :=
  (∃ stdout stderr, program.load = .left code stdout stderr) ∨
    ∃ functions stdout stderr name printed logged, program.load = .defined functions stdout stderr ∧
      targetFunc functions = some name ∧ program.call name = .left code printed logged

theorem wrapped_zero (program : Program) : (wrapped program).returncode = 0 ↔ Returned program ∨ LeftWith 0 program := by
  obtain ⟨load,call⟩ := program
  cases load with
  | raised stdout stderr => simp [wrapped,Returned,LeftWith]
  | left code stdout stderr => simp [wrapped,Returned,LeftWith]
  | defined functions stdout stderr =>
    cases target : targetFunc functions with
    | none => simp [wrapped,Returned,LeftWith,target]
    | some name => cases ended : call name <;> simp [wrapped,Returned,LeftWith,target,ended]

theorem wrapped_quiet (program : Program) (functions stdout : List _) (loaded : program.load = .defined functions stdout []) :
    (targetFunc functions = none → (wrapped program).returncode = 1 ∧ (wrapped program).stderr = []) ∧
      ∀ name message printed, targetFunc functions = some name → program.call name = .raised message printed [] →
        (wrapped program).returncode = 1 ∧ (wrapped program).stderr = [] := by
  refine ⟨fun missing => ?_,fun name message printed found raised => ?_⟩
  · simp [wrapped,loaded,missing]
  · simp [wrapped,loaded,found,raised]

abbrev Arguments (Value : Type) := List (Text × Value)

-- The interpreter around the sandbox. `start` is told which start it is, so that
-- two starts of one program may differ; Python's None is `none`.
structure Host (Value : Type) where
  parse : Text → Result Node
  prepare : Text → Arguments Value → Result Unit
  start : Nat → Text → Arguments Value → Result Program
  loads : Text → Result (Option Value)
  ofText : Text → Value
  str : Value → Text

variable {Value : Type} (host : Host Value)

def strOf : Option Value → Text
  | none => "None".toList
  | some value => host.str value

def parseResult (stdout : Text) : Result (Option Value) :=
  match host.loads stdout with
  | .ok value => .ok value
  | .error raised => if raised.kind = .jsonDecode then .ok (some (host.ofText stdout)) else .error raised

def attempt (run : Nat) (code : Text) (args : Arguments Value) : Result (Option Value × Option Text) := do
  let result := wrapped (← host.start run code args)
  if result.returncode ≠ 0 then return (none,some result.stderr)
  return (← parseResult host (strip result.stdout),none)

-- Its `except` clauses: what they turn an exception into, if they catch it.
def handled (raised : Failure) : Option Text :=
  match raised.kind with
  | .timeoutExpired => some "Timeout expired".toList
  | .os | .value | .runtime => some raised.detail
  | _ => none

def execute (run : Nat) (code : Text) (args : Arguments Value) : Result (Option Value × Option Text) := do
  let validationError ← validateCode host.parse code
  if truthy validationError then return (none,some ("Code validation failed: ".toList ++ validationError.getD []))
  host.prepare code args
  match attempt host run code args with
  | .ok ended => .ok ended
  | .error raised =>
      match handled raised with
      | some error => .ok (none,some error)
      | none => .error raised

def Launched (code : Text) (args : Arguments Value) : Prop :=
  (∃ validationError, validateCode host.parse code = .ok validationError ∧ truthy validationError = false) ∧
    host.prepare code args = .ok ()

def Silent (run : Nat) (code : Text) (args : Arguments Value) : Prop :=
  Launched host code args ∧
    ((∃ program, host.start run code args = .ok program ∧ (wrapped program).returncode ≠ 0 ∧ (wrapped program).stderr = []) ∨
      ∃ raised, host.start run code args = .error raised ∧ handled raised = some [])

def ExitedZero (run : Nat) (code : Text) (args : Arguments Value) : Prop :=
  ∃ program, host.start run code args = .ok program ∧ (wrapped program).returncode = 0

theorem execute_launched (run : Nat) (code : Text) (args : Arguments Value) (launched : Launched host code args) :
    execute host run code args = match attempt host run code args with
      | .ok ended => .ok ended
      | .error raised => match handled raised with
        | some error => .ok (none,some error)
        | none => .error raised := by
  obtain ⟨⟨validationError,validated,clear⟩,prepared⟩ := launched
  simp only [execute,validated,prepared,clear,bind,Except.bind,Bool.false_eq_true,if_false]

theorem execute_silent (run : Nat) (code : Text) (args : Arguments Value) (silent : Silent host run code args) :
    execute host run code args = .ok (none,some []) ∧ ¬ ExitedZero host run code args := by
  obtain ⟨launched,⟨program,started,failed,quiet⟩ | ⟨raised,started,caught⟩⟩ := silent
  · have ended : attempt host run code args = .ok (none,some []) := by
      simp only [attempt,started,bind,Except.bind,if_pos failed,quiet]
      rfl
    refine ⟨by rw [execute_launched host run code args launched,ended],?_⟩
    intro shown
    obtain ⟨other,same,zero⟩ := shown
    rw [started] at same
    cases same
    exact failed zero
  · have ended : attempt host run code args = .error raised := by simp only [attempt,started,bind,Except.bind]
    refine ⟨by rw [execute_launched host run code args launched,ended]; simp only [caught],?_⟩
    intro shown
    obtain ⟨other,same,_⟩ := shown
    rw [started] at same
    cases same

theorem attempt_cases (run : Nat) (code : Text) (args : Arguments Value) :
    (∃ raised, host.start run code args = .error raised ∧ attempt host run code args = .error raised) ∨
      (∃ program, host.start run code args = .ok program ∧ (wrapped program).returncode ≠ 0 ∧
        attempt host run code args = .ok (none,some (wrapped program).stderr)) ∨
      ExitedZero host run code args := by
  cases started : host.start run code args with
  | error raised => exact .inl ⟨raised,rfl,by simp only [attempt,started,bind,Except.bind]⟩
  | ok program =>
    by_cases zero : (wrapped program).returncode = 0
    · exact .inr (.inr ⟨program,started,zero⟩)
    · refine .inr (.inl ⟨program,rfl,zero,?_⟩)
      simp only [attempt,started,bind,Except.bind,if_pos zero]
      rfl

theorem truthy_false {text : Text} (quiet : truthy (some text) = false) : text = [] := by
  simpa [truthy] using quiet

theorem execute_started (run : Nat) (code : Text) (args : Arguments Value) (result : Option Value) (error : Option Text)
    (ended : execute host run code args = .ok (result,error)) (unreported : truthy error = false) :
    Launched host code args := by
  cases validated : validateCode host.parse code with
  | error raised => simp [execute,validated,bind,Except.bind] at ended
  | ok validationError =>
    cases clear : truthy validationError with
    | true =>
      simp only [execute,validated,clear,bind,Except.bind,if_true] at ended
      cases ended
      exact absurd (truthy_false unreported) (by simp)
    | false =>
      cases prepared : host.prepare code args with
      | error raised => simp [execute,validated,clear,prepared,bind,Except.bind] at ended
      | ok => exact ⟨⟨validationError,validated,clear⟩,prepared⟩

theorem execute_unreported (run : Nat) (code : Text) (args : Arguments Value) (result : Option Value) (error : Option Text)
    (ended : execute host run code args = .ok (result,error)) (unreported : truthy error = false) :
    ExitedZero host run code args ∨ Silent host run code args ∧ result = none := by
  have launched := execute_started host run code args result error ended unreported
  rw [execute_launched host run code args launched] at ended
  rcases attempt_cases host run code args with ⟨raised,started,same⟩ | ⟨program,started,failed,same⟩ | zero
  · rw [same] at ended
    cases caught : handled raised with
    | none => simp [caught] at ended
    | some text =>
      simp only [caught] at ended
      cases ended
      rw [truthy_false unreported] at caught
      exact .inr ⟨⟨launched,.inr ⟨raised,started,caught⟩⟩,rfl⟩
  · rw [same] at ended
    cases ended
    exact .inr ⟨⟨launched,.inl ⟨program,started,failed,truthy_false unreported⟩⟩,rfl⟩
  · exact .inl zero

end Kryvaracode.Sandbox
