import Kryvaracode.Exceptions
import Kryvaracode.ShellLine

namespace Kryvaracode.E2BSandbox
open UnicodeText ShellLine

structure Process where
  stdout : Option Text
  stderr : Option Text
  exitCode : Int
  deriving DecidableEq, Repr

structure SandboxResult where
  stdout : Text
  stderr : Text
  exitCode : Int
  timedOut : Bool
  deriving DecidableEq, Repr

-- The client library of the service: it may be missing, a sandbox may fail to
-- start, and a line given to one ends with a process or an exception.
structure Sdk where
  available : Bool
  create : Option Text → Text → Nat → Result Unit
  run : Text → Nat → Result Process

-- `created` stands for the client object and the flag beside it.
structure Client where
  apiKey : Option Text
  templateId : Text
  timeoutSeconds : Nat
  created : Bool
  deriving DecidableEq, Repr

structure Submission where
  line : Text
  timeout : Nat
  deriving DecidableEq, Repr

variable (sdk : Sdk)

def isAvailable (box : Client) : Bool := sdk.available && truthy box.apiKey

def getOrCreateSandbox (box : Client) : Bool × Client :=
  if !isAvailable sdk box then (false,box)
  else if box.created then (true,box)
  else match sdk.create box.apiKey box.templateId box.timeoutSeconds with
    | .ok _ => (true,{box with created := true})
    | .error _ => (false,{box with created := false})

def exports (env : List (Text × Text)) : Text :=
  " ".toList.intercalate (env.map fun (key,value) => key ++ "=".toList ++ value)

def fullCommand (env : List (Text × Text)) (cwd command : Text) : Text :=
  if env.isEmpty then "cd ".toList ++ cwd ++ " && ".toList ++ command
  else "export ".toList ++ exports env ++ " && cd ".toList ++ cwd ++ " && ".toList ++ command

def isTimeout (tables : Tables) (errorMsg : Text) : Bool :=
  decide ("timeout".toList <:+: tables.lower errorMsg) || decide ("timed out".toList <:+: tables.lower errorMsg)

def completed (tables : Tables) (timeout : Nat) : Result Process → SandboxResult
  | .ok proc => ⟨proc.stdout.getD [],proc.stderr.getD [],proc.exitCode,false⟩
  | .error e =>
      if isTimeout tables e.detail then
        ⟨[],"Command timed out after ".toList ++ (Nat.repr timeout).toList ++ "s".toList,-1,true⟩
      else ⟨[],e.detail,-1,false⟩

def runCommand (tables : Tables) (box : Client) (command cwd : Text) (env : List (Text × Text)) (timeoutSeconds : Option Nat) :
    Result SandboxResult × List Submission × Client :=
  if !isAvailable sdk box then (.error (RuntimeError "E2B sandbox not available (missing API key or SDK)".toList),[],box)
  else match getOrCreateSandbox sdk box with
    | (false,box) => (.error (RuntimeError "Failed to initialize E2B sandbox".toList),[],box)
    | (true,box) =>
        let timeout := if timeoutSeconds.getD 0 = 0 then box.timeoutSeconds else timeoutSeconds.getD 0
        let line := fullCommand env cwd command
        (.ok (completed tables timeout (sdk.run line timeout)),[⟨line,timeout⟩],box)

def Ready (box : Client) : Prop :=
  isAvailable sdk box = true ∧ (box.created = true ∨ ∃ done, sdk.create box.apiKey box.templateId box.timeoutSeconds = .ok done)

theorem getOrCreateSandbox_ready (box : Client) : (getOrCreateSandbox sdk box).1 = true ↔ Ready sdk box := by
  unfold getOrCreateSandbox Ready
  cases available : isAvailable sdk box with
  | false => simp
  | true =>
      cases kept : box.created with
      | true => simp
      | false => cases started : sdk.create box.apiKey box.templateId box.timeoutSeconds <;> simp

-- What goes to the sandbox fails as a result, never as an exception: an
-- exception means that nothing was given to it.
theorem runCommand_parts (tables : Tables) (box : Client) (command cwd : Text) (env : List (Text × Text)) (timeout : Option Nat) :
    (Ready sdk box ∧ ∃ result seconds after,
      runCommand sdk tables box command cwd env timeout = (.ok result,[⟨fullCommand env cwd command,seconds⟩],after)) ∨
    (¬ Ready sdk box ∧ ∃ detail after,
      runCommand sdk tables box command cwd env timeout = (.error (RuntimeError detail),[],after)) := by
  have ready := getOrCreateSandbox_ready sdk box
  unfold runCommand
  cases available : isAvailable sdk box with
  | false => exact .inr ⟨by simp [Ready,available],_,_,rfl⟩
  | true =>
      cases got : getOrCreateSandbox sdk box with
      | mk usable after =>
          rw [got] at ready
          cases usable with
          | false => exact .inr ⟨by simpa using ready,_,_,rfl⟩
          | true => exact .inl ⟨ready.mp rfl,_,_,_,rfl⟩

-- The line as a shell reads it: it changes into the directory, and what is left
-- to be read then is the command as it was given.
def Runs (dialect : Dialect) (dir command line : Text) : Prop :=
  Reads dialect line [literal "cd".toList,literal dir,.op "&&".toList] command

theorem fullCommand_text (dir command : Text) : fullCommand [] dir command =
    'c' :: (['d'] ++ ' ' :: (dir ++ ' ' :: '&' :: '&' :: ' ' :: command)) := by
  simp [fullCommand]

theorem fullCommand_runs (dialect : Dialect) (dir command : Text) :
    Runs dialect ('/' :: dir) command (fullCommand [] ('/' :: dir) command) ↔ ∀ c ∈ '/' :: dir, inert dialect c = true := by
  have slash : inert dialect '/' = true := ordinary_inert dialect '/' (by decide) (by decide) (by decide)
  have change := token_literal dialect 'c' ['d'] (by decide) (ordinary_text dialect _ (by decide)) (show ends ' ' = true by decide)
    ('/' :: (dir ++ ' ' :: '&' :: '&' :: ' ' :: command))
  have gap : blank ' ' = true := by decide
  rw [Runs,fullCommand_text]
  refine ⟨?_,?_⟩
  · intro runs
    obtain ⟨later,same,rest⟩ := runs.tail dialect change (List.cons_ne_nil _ _)
    obtain rfl := (List.cons.inj same).2
    obtain ⟨later,same',rest'⟩ := rest.tail dialect (token_blank dialect gap _) (List.cons_ne_nil _ _)
    obtain rfl : _ = later := same'
    exact rest'.inert dialect '/' dir (by decide) slash _
  · intro plain
    have argument := token_literal dialect '/' dir (by decide) plain (show ends ' ' = true by decide) ('&' :: '&' :: ' ' :: command)
    refine .step change (.blank dialect gap (.step argument (.blank dialect gap ?_) rfl)) rfl
    exact .step (token_and dialect (' ' :: command)) (.blank dialect gap (.nil command)) rfl

end Kryvaracode.E2BSandbox
