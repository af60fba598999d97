import Kryvaracode.Sandbox

namespace Kryvaracode.ToolVerifier
open CodeValidation Sandbox

structure Test (Value : Type) where
  args : Option (Arguments Value)
  expected : Option Value

variable {Value : Type} (host : Host Value)

def numbered (index : Nat) : Text := "Test ".toList ++ (Nat.repr (index + 1)).toList

-- One turn of the loop in `verify`: whether the case passed, and its log line.
def runTest (code : Text) (index : Nat) (test : Test Value) : Result (Bool × Text) := do
  let (result,error) ← execute host index code (test.args.getD [])
  if truthy error then return (false,numbered index ++ " failed with runtime error: ".toList ++ error.getD [])
  match test.expected with
  | some expected =>
      if strOf host result ≠ host.str expected then
        return (false,numbered index ++ " failed: Expected ".toList ++ host.str expected ++ ", got ".toList ++ strOf host result)
      return (true,numbered index ++ " passed.".toList)
  | none => return (true,numbered index ++ " executed successfully (no expected value provided).".toList)

def loop (code : Text) : Nat → List (Test Value) → Bool → List Text → Result (Bool × List Text)
  | _,[],allPassed,logs => .ok (allPassed,logs)
  | index,test :: tests,allPassed,logs =>
      match runTest host code index test with
      | .error raised => .error raised
      | .ok (passed,log) => loop code (index + 1) tests (allPassed && passed) (logs ++ [log])

def verify (code : Text) (tests : List (Test Value)) : Result (Bool × List Text) := loop host code 0 tests true []

inductive ParameterInfo where
  | dict (type : Option Text)
  | text (type : Text)
  | other
  deriving DecidableEq, Repr

def ParameterInfo.type : ParameterInfo → Text
  | .dict type => type.getD "str".toList
  | .text type => type
  | .other => "str".toList

structure Samples (Value : Type) where
  one : Value
  onePointZero : Value
  yes : Value
  testValue : Value

def Samples.ofType (samples : Samples Value) (type : Text) : Value :=
  if type = "int".toList then samples.one
  else if type = "float".toList then samples.onePointZero
  else if type = "bool".toList then samples.yes
  else samples.testValue

def generateTestCases (samples : Samples Value) (parameters : List (Text × ParameterInfo)) : List (Test Value) :=
  [⟨some (parameters.map fun (name,info) => (name,samples.ofType info.type)),none⟩]

def Reported (code : Text) (index : Nat) (test : Test Value) : Prop :=
  ¬ ∃ log, runTest host code index test = .ok (true,log)

theorem runTest_passed (code : Text) (index : Nat) (test : Test Value) :
    (∃ log, runTest host code index test = .ok (true,log)) ↔
      ∃ result error, execute host index code (test.args.getD []) = .ok (result,error) ∧ truthy error = false ∧
        ∀ expected, test.expected = some expected → strOf host result = host.str expected := by
  cases ended : execute host index code (test.args.getD []) with
  | error raised => simp [runTest,ended,bind,Except.bind]
  | ok pair =>
    obtain ⟨result,error⟩ := pair
    cases failed : truthy error with
    | true => simp [runTest,ended,failed,bind,Except.bind,pure,Except.pure]
    | false =>
      cases wanted : test.expected with
      | none => simp [runTest,ended,failed,wanted,bind,Except.bind,pure,Except.pure]
      | some expected =>
        by_cases same : strOf host result = host.str expected <;>
          simp [runTest,ended,failed,wanted,same,bind,Except.bind,pure,Except.pure]

theorem loop_passed (code : Text) (index : Nat) (tests : List (Test Value)) (allPassed : Bool) (logs : List Text) :
    (∃ final, loop host code index tests allPassed logs = .ok (true,final)) ↔
      allPassed = true ∧ ∀ offset test, tests[offset]? = some test → ¬ Reported host code (index + offset) test := by
  induction tests generalizing index allPassed logs with
  | nil => simp [loop]
  | cons test tests ih =>
    have split : (∀ offset other, (test :: tests)[offset]? = some other → ¬ Reported host code (index + offset) other) ↔
        ¬ Reported host code index test ∧
          ∀ offset other, tests[offset]? = some other → ¬ Reported host code (index + 1 + offset) other := by
      constructor
      · intro all
        refine ⟨all 0 test rfl,fun offset other member => ?_⟩
        rw [show index + 1 + offset = index + (offset + 1) by omega]
        exact all (offset + 1) other (by simpa using member)
      · intro shown offset other member
        obtain ⟨first,rest⟩ := shown
        cases offset with
        | zero => cases member; exact first
        | succ offset =>
          rw [show index + (offset + 1) = index + 1 + offset by omega]
          exact rest offset other (by simpa using member)
    rw [split]
    cases ran : runTest host code index test with
    | error raised => simp [loop,ran,Reported]
    | ok pair =>
      obtain ⟨passed,log⟩ := pair
      simp only [loop,ran,ih,Bool.and_eq_true]
      cases passed <;> simp [Reported,ran]

theorem verify_passed (code : Text) (tests : List (Test Value)) :
    (∃ logs, verify host code tests = .ok (true,logs)) ↔
      ∀ index test, tests[index]? = some test → ¬ Reported host code index test := by
  simpa [verify] using loop_passed host code 0 tests true []

def Succeeded (code : Text) (index : Nat) (test : Test Value) : Prop :=
  ExitedZero host index code (test.args.getD []) ∧
    ∀ expected, test.expected = some expected →
      ∃ result error, execute host index code (test.args.getD []) = .ok (result,error) ∧ strOf host result = host.str expected

def SilentFailure (code : Text) (index : Nat) (test : Test Value) : Prop :=
  Silent host index code (test.args.getD []) ∧ ∀ expected, test.expected = some expected → host.str expected = "None".toList

theorem silent_unreported (code : Text) (index : Nat) (test : Test Value) (silent : SilentFailure host code index test) :
    ¬ Reported host code index test ∧ ¬ Succeeded host code index test := by
  obtain ⟨ended,unfinished⟩ := execute_silent host index code _ silent.1
  refine ⟨not_not.mpr ((runTest_passed host code index test).mpr ⟨none,some [],ended,rfl,fun expected wanted => ?_⟩),?_⟩
  · exact (silent.2 expected wanted).symm
  · exact fun succeeded => unfinished succeeded.1

theorem unreported_cases (code : Text) (index : Nat) (test : Test Value) (unreported : ¬ Reported host code index test) :
    Succeeded host code index test ∨ SilentFailure host code index test := by
  obtain ⟨result,error,ended,quiet,same⟩ := (runTest_passed host code index test).mp (not_not.mp unreported)
  rcases execute_unreported host index code _ result error ended quiet with zero | ⟨silent,rfl⟩
  · exact .inl ⟨zero,fun expected wanted => ⟨result,error,ended,same expected wanted⟩⟩
  · exact .inr ⟨silent,fun expected wanted => (same expected wanted).symm⟩

def Trustworthy (code : Text) (tests : List (Test Value)) : Prop :=
  (∃ logs, verify host code tests = .ok (true,logs)) →
    ∀ index test, tests[index]? = some test → Succeeded host code index test

-- A verdict can be trusted exactly when no case fails in silence, or some other
-- case is reported all the same.
theorem trustworthy_exact (code : Text) (tests : List (Test Value)) : Trustworthy host code tests ↔
    (∀ index test, tests[index]? = some test → ¬ SilentFailure host code index test) ∨
      ∃ index test, tests[index]? = some test ∧ Reported host code index test := by
  constructor
  · intro trustworthy
    by_contra neither
    obtain ⟨silent,unreported⟩ := not_or.mp neither
    push Not at silent unreported
    obtain ⟨index,test,member,failed⟩ := silent
    exact (silent_unreported host code index test failed).2
      (trustworthy ((verify_passed host code tests).mpr unreported) index test member)
  · intro condition verified index test member
    have unreported := (verify_passed host code tests).mp verified
    rcases condition with loud | ⟨other,case,listed,reported⟩
    · exact (unreported_cases host code index test (unreported index test member)).resolve_right (loud index test member)
    · exact absurd reported (unreported other case listed)

def single (tree : Node) (program : Program) : Host Text where
  parse _ := .ok tree
  prepare _ _ := .ok ()
  start _ _ _ := .ok program
  loads stdout := .error ⟨.jsonDecode,stdout⟩
  ofText stdout := stdout
  str value := value

-- `def execute(x): raise ValueError(x)`, called with the sample argument.
def raisingTree : Node :=
  .other [.other [.other [.call (.name ⟨"ValueError".toList,by decide⟩) [.name ⟨"x".toList,by decide⟩] []]]]

def raising : Program where
  load := .defined ["execute".toList] [] []
  call _ := .raised "test_value".toList [] []

theorem raising_verified : ¬ Trustworthy (single raisingTree raising) "def execute(x):\n    raise ValueError(x)\n".toList
    [⟨some [("x".toList,"test_value".toList)],none⟩] := by
  intro trustworthy
  have verified : verify (single raisingTree raising) "def execute(x):\n    raise ValueError(x)\n".toList
      [⟨some [("x".toList,"test_value".toList)],none⟩] =
        .ok (true,["Test 1 executed successfully (no expected value provided).".toList]) := by decide +kernel
  obtain ⟨⟨program,started,zero⟩,_⟩ := trustworthy ⟨_,verified⟩ 0 _ rfl
  cases started
  exact absurd zero (by decide)

end Kryvaracode.ToolVerifier
