import Kryvaracode.E2BSandbox
import Kryvaracode.ScopedPaths
import Kryvaracode.ShellPolicy

namespace Kryvaracode.RunShell
open UnicodeText RealPaths ShellLine ShellPolicy ScopedPaths E2BSandbox

def maxOutputChars : Nat := 8000
def maxTimeoutSeconds : Nat := 300

def truncate (text : Text) : Text × Bool :=
  if maxOutputChars < text.length then (text.drop (text.length - maxOutputChars),true) else (text,false)

structure RunShellArgs where
  command : Text
  workdir : Option Text := none
  timeoutSeconds : Nat := 60
  command_length : 1 ≤ command.length ∧ command.length ≤ 8000
  timeout_range : 1 ≤ timeoutSeconds ∧ timeoutSeconds ≤ maxTimeoutSeconds

inductive ShellResult where
  | timedOut (timeoutSeconds : Nat)
  | completed (returncode : Int) (stdout stderr : Text × Bool)
  | e2b (timedOut : Bool) (timeoutSeconds : Option Nat) (returncode : Int) (stdout stderr : Text × Bool)
  deriving DecidableEq, Repr

inductive Submitted where
  | host (argv : List Text) (timeout : Nat) (cwd : Text)
  | sandbox (line : Text) (timeout : Nat)
  deriving DecidableEq, Repr

structure Surroundings where
  tables : Tables
  setting : Setting
  e2bEnabled : Bool
  sdk : Sdk
  subprocessRun : List Text → Nat → Text → Result Process

variable (world : Surroundings)

def hostCwd (args : RunShellArgs) : Result Text :=
  if truthy args.workdir then (resolveScoped world.setting (args.workdir.getD [])).map PurePath.text
  else .ok world.setting.projectRoot.text

def split (command : Text) : Result (List Text) :=
  match QuotedWords.split command with
  | .ok argv => .ok argv
  | .error raised => .error (ValueError raised.message)

def finished (timeout : Nat) : Result Process → Result ShellResult
  | .ok proc => .ok (.completed proc.exitCode (truncate (proc.stdout.getD [])) (truncate (proc.stderr.getD [])))
  | .error raised => if raised.kind = .timeoutExpired then .ok (.timedOut timeout) else .error raised

def runShellHost (args : RunShellArgs) : Result ShellResult × List Submitted :=
  let prepared := do
    checkCommand world.tables args.command
    let cwd ← hostCwd world args
    let argv ← split args.command
    return (argv,cwd)
  match prepared with
  | .error raised => (.error raised,[])
  | .ok (argv,cwd) =>
      (finished args.timeoutSeconds (world.subprocessRun argv args.timeoutSeconds cwd),[.host argv args.timeoutSeconds cwd])

-- Below the project root the sandbox has the same path under its own home; a
-- directory anywhere else becomes that home.
def sandboxPath (path : PurePath) : Text :=
  match path.relativeTo world.setting.projectRoot with
  | some rel => "/home/user/".toList ++ PurePath.text ⟨[],rel⟩
  | none => "/home/user".toList

def sandboxCwd (args : RunShellArgs) : Result Text :=
  if truthy args.workdir then (resolveScoped world.setting (args.workdir.getD [])).map (sandboxPath world)
  else .ok "/home/user".toList

def e2bResult (args : RunShellArgs) (result : SandboxResult) : ShellResult :=
  .e2b result.timedOut (if result.timedOut then some args.timeoutSeconds else none) result.exitCode (truncate result.stdout)
    (truncate result.stderr)

def runShellE2B (box : Client) (args : RunShellArgs) : Result ShellResult × List Submitted × Client :=
  if !isAvailable world.sdk box then (.error (RuntimeError "E2B sandbox not available".toList),[],box)
  else
    match sandboxCwd world args with
    | .error raised => (.error raised,[],box)
    | .ok cwd =>
        match runCommand world.sdk world.tables box args.command cwd [] (some args.timeoutSeconds) with
        | (.error raised,lines,box) => (.error raised,lines.map fun one => .sandbox one.line one.timeout,box)
        | (.ok result,lines,box) =>
            (.ok (e2bResult args result),lines.map fun one => .sandbox one.line one.timeout,box)

def runShell (box : Client) (args : RunShellArgs) : Result ShellResult × List Submitted × Client :=
  if world.e2bEnabled then
    match runShellE2B world box args with
    | (.error raised,submitted,box) =>
        if raised.kind = .runtime then
          let (result,more) := runShellHost world args
          (result,submitted ++ more,box)
        else (.error raised,submitted,box)
    | (.ok result,submitted,box) => (.ok result,submitted,box)
  else
    let (result,submitted) := runShellHost world args
    (result,submitted,box)

theorem runShellHost_parts (args : RunShellArgs) :
    (∃ raised, runShellHost world args = (.error raised,[])) ∨
    (checkCommand world.tables args.command = .ok () ∧ ∃ argv cwd, split args.command = .ok argv ∧ hostCwd world args = .ok cwd ∧
      (runShellHost world args).2 = [.host argv args.timeoutSeconds cwd]) := by
  unfold runShellHost
  cases checked : checkCommand world.tables args.command with
  | error raised => exact .inl ⟨raised,rfl⟩
  | ok done =>
      cases placed : hostCwd world args with
      | error raised => exact .inl ⟨raised,rfl⟩
      | ok cwd =>
          cases cut : split args.command with
          | error raised => exact .inl ⟨raised,rfl⟩
          | ok argv => exact .inr ⟨rfl,argv,cwd,rfl,rfl,rfl⟩

def Sandboxed (box : Client) (args : RunShellArgs) : Prop :=
  world.e2bEnabled = true ∧ Ready world.sdk box ∧
    (truthy args.workdir = true → ∃ path, resolveScoped world.setting (args.workdir.getD []) = .ok path)

theorem sandboxCwd_known (args : RunShellArgs) : (∃ cwd, sandboxCwd world args = .ok cwd) ↔
    (truthy args.workdir = true → ∃ path, resolveScoped world.setting (args.workdir.getD []) = .ok path) := by
  unfold sandboxCwd
  cases named : truthy args.workdir with
  | false => simp
  | true => cases resolveScoped world.setting (args.workdir.getD []) <;> simp [Except.map]

theorem runShellE2B_parts (box : Client) (args : RunShellArgs) :
    (Ready world.sdk box ∧ ∃ cwd result seconds after, sandboxCwd world args = .ok cwd ∧
      runShellE2B world box args = (.ok result,[.sandbox (fullCommand [] cwd args.command) seconds],after)) ∨
    (¬ (Ready world.sdk box ∧ ∃ cwd, sandboxCwd world args = .ok cwd) ∧ ∃ raised after,
      runShellE2B world box args = (.error raised,[],after)) := by
  unfold runShellE2B
  cases available : isAvailable world.sdk box with
  | false => exact .inr ⟨by simp [Ready,available],_,_,rfl⟩
  | true =>
      cases placed : sandboxCwd world args with
      | error raised => exact .inr ⟨by simp,_,_,rfl⟩
      | ok cwd =>
          rcases runCommand_parts world.sdk world.tables box args.command cwd [] (some args.timeoutSeconds) with
            ⟨ready,result,seconds,after,ran⟩ | ⟨unready,detail,after,failed⟩
          · refine .inl ⟨ready,cwd,e2bResult args result,seconds,after,rfl,?_⟩
            simp only [Bool.not_true,Bool.false_eq_true,if_false,ran]
            rfl
          · refine .inr ⟨fun both => unready both.1,RuntimeError detail,after,?_⟩
            simp only [Bool.not_true,Bool.false_eq_true,if_false,failed]
            rfl

-- One backend runs a call or none does, and the host only what was checked.
theorem runShell_parts (box : Client) (args : RunShellArgs) :
    (Sandboxed world box args ∧ ∃ cwd seconds, sandboxCwd world args = .ok cwd ∧
      (runShell world box args).2.1 = [.sandbox (fullCommand [] cwd args.command) seconds]) ∨
    (¬ Sandboxed world box args ∧ ((runShell world box args).2.1 = [] ∨
      checkCommand world.tables args.command = .ok () ∧ ∃ argv cwd, split args.command = .ok argv ∧
        hostCwd world args = .ok cwd ∧ (runShell world box args).2.1 = [.host argv args.timeoutSeconds cwd])) := by
  have host : (runShellHost world args).2 = [] ∨ checkCommand world.tables args.command = .ok () ∧ ∃ argv cwd,
      split args.command = .ok argv ∧ hostCwd world args = .ok cwd ∧
        (runShellHost world args).2 = [.host argv args.timeoutSeconds cwd] := by
    rcases runShellHost_parts world args with ⟨raised,same⟩ | ran
    · exact .inl (by rw [same])
    · exact .inr ran
  unfold runShell
  cases enabled : world.e2bEnabled with
  | false => exact .inr ⟨by simp [Sandboxed,enabled],host⟩
  | true =>
      rcases runShellE2B_parts world box args with ⟨ready,cwd,result,seconds,after,placed,ran⟩ | ⟨unready,raised,after,failed⟩
      · rw [ran]
        exact .inl ⟨⟨enabled,ready,(sandboxCwd_known world args).mp ⟨cwd,placed⟩⟩,cwd,seconds,placed,rfl⟩
      · rw [failed]
        refine .inr ⟨?_,?_⟩
        · intro reached
          exact unready ⟨reached.2.1,(sandboxCwd_known world args).mpr reached.2.2⟩
        · by_cases again : raised.kind = .runtime
          · simpa [again] using host
          · simp [again]

-- Where the sandbox keeps the directory a call asks for: the project root is its
-- home, and what lies outside that is not there at all.
def SandboxDirectory (args : RunShellArgs) (dir : Text) : Prop :=
  if truthy args.workdir then ∃ path rel, resolveScoped world.setting (args.workdir.getD []) = .ok path ∧
    path.relativeTo world.setting.projectRoot = some rel ∧ dir = "/home/user/".toList ++ PurePath.text ⟨[],rel⟩
  else dir = "/home/user".toList

-- Nothing is submitted that the check rejects, and a line given to the sandbox
-- runs the command in the directory asked for.
def Agreed (dialect : Dialect) (args : RunShellArgs) (submitted : List Submitted) : Prop :=
  (submitted ≠ [] → checkCommand world.tables args.command = .ok ()) ∧ ∀ line seconds, .sandbox line seconds ∈ submitted →
    ∃ dir, SandboxDirectory world args dir ∧ Runs dialect dir args.command line

def PlainDirectory (dialect : Dialect) (args : RunShellArgs) : Prop :=
  truthy args.workdir = true → ∃ path rel, resolveScoped world.setting (args.workdir.getD []) = .ok path ∧
    path.relativeTo world.setting.projectRoot = some rel ∧ ∀ c ∈ PurePath.text ⟨[],rel⟩, inert dialect c = true

theorem sandboxDirectory_cwd (asked : SandboxDirectory world args dir) (placed : sandboxCwd world args = .ok cwd) : cwd = dir := by
  unfold SandboxDirectory at asked
  unfold sandboxCwd at placed
  split at asked
  · rename_i named
    obtain ⟨path,rel,returned,below,rfl⟩ := asked
    simp only [named,if_true,returned,Except.map,sandboxPath,below] at placed
    exact (Except.ok.inj placed).symm
  · rename_i named
    rw [if_neg named] at placed
    exact (Except.ok.inj placed).symm.trans asked.symm

theorem sandboxDirectory_root (asked : SandboxDirectory world args dir) : ∃ rest, dir = '/' :: rest := by
  unfold SandboxDirectory at asked
  split at asked
  · obtain ⟨path,rel,_,_,rfl⟩ := asked
    exact ⟨"home/user/".toList ++ PurePath.text ⟨[],rel⟩,rfl⟩
  · exact ⟨"home/user".toList,asked⟩

theorem plainDirectory_exact (dialect : Dialect) (args : RunShellArgs) : PlainDirectory world dialect args ↔
    ∃ dir, SandboxDirectory world args dir ∧ ∀ c ∈ dir, inert dialect c = true := by
  have home := ordinary_text dialect "/home/user/".toList (by decide)
  unfold PlainDirectory SandboxDirectory
  cases named : truthy args.workdir with
  | false =>
      refine ⟨fun _ => ⟨"/home/user".toList,rfl,ordinary_text dialect _ (by decide)⟩,?_⟩
      intro _ absurd'
      cases absurd'
  | true =>
      refine ⟨?_,?_⟩
      · intro plain
        obtain ⟨path,rel,returned,below,still⟩ := plain rfl
        exact ⟨_,⟨path,rel,returned,below,rfl⟩,List.forall_mem_append.mpr ⟨home,still⟩⟩
      · intro plain _
        obtain ⟨dir,⟨path,rel,returned,below,rfl⟩,still⟩ := plain
        exact ⟨path,rel,returned,below,(List.forall_mem_append.mp still).2⟩

-- The sandbox path checks no command and quotes no directory, so the two ways to
-- run a command agree only where neither is needed.
theorem agreed_exact (dialect : Dialect) (box : Client) (args : RunShellArgs) :
    Agreed world dialect args (runShell world box args).2.1 ↔
      (Sandboxed world box args → checkCommand world.tables args.command = .ok () ∧ PlainDirectory world dialect args) := by
  rcases runShell_parts world box args with ⟨reached,cwd,seconds,placed,ran⟩ | ⟨short,ran⟩
  · rw [ran]
    refine ⟨?_,?_⟩
    · intro agreed _
      obtain ⟨dir,asked,runs⟩ := agreed.2 _ seconds (List.mem_singleton_self _)
      obtain rfl := sandboxDirectory_cwd world asked placed
      obtain ⟨rest,rfl⟩ := sandboxDirectory_root world asked
      refine ⟨agreed.1 (List.cons_ne_nil _ _),(plainDirectory_exact world dialect args).mpr ⟨_,asked,?_⟩⟩
      exact (fullCommand_runs dialect rest args.command).mp runs
    · intro safe
      obtain ⟨checked,plain⟩ := safe reached
      obtain ⟨dir,asked,still⟩ := (plainDirectory_exact world dialect args).mp plain
      obtain rfl := sandboxDirectory_cwd world asked placed
      obtain ⟨rest,rfl⟩ := sandboxDirectory_root world asked
      refine ⟨fun _ => checked,?_⟩
      intro line seconds' member
      cases List.mem_singleton.mp member
      exact ⟨_,asked,(fullCommand_runs dialect rest args.command).mpr still⟩
  · refine ⟨fun _ reached => absurd reached short,fun _ => ?_⟩
    rcases ran with nothing | ⟨checked,argv,cwd,_,_,ran⟩
    · rw [nothing]
      exact ⟨fun some' => absurd rfl some',by simp⟩
    · rw [ran]
      exact ⟨fun _ => checked,by simp⟩

def sandboxWorld : Surroundings where
  tables := ascii
  setting := linkedSetting
  e2bEnabled := true
  sdk := ⟨true,fun _ _ _ => .ok (),fun _ _ => .ok ⟨none,none,0⟩⟩
  subprocessRun _ _ _ := .ok ⟨none,none,0⟩

def sandboxClient : Client := ⟨some "key".toList,"base".toList,60,false⟩

def wipe : RunShellArgs where
  command := "rm -rf /".toList
  command_length := by decide
  timeout_range := by decide

def listReboot : RunShellArgs where
  command := "ls".toList
  workdir := some "inner;reboot".toList
  command_length := by decide
  timeout_range := by decide

theorem unchecked_wipes : ¬ Agreed sandboxWorld posix wipe (runShell sandboxWorld sandboxClient wipe).2.1 ∧
    ¬ Agreed sandboxWorld posix listReboot (runShell sandboxWorld sandboxClient listReboot).2.1 := by
  refine ⟨?_,?_⟩
  · intro agreed
    have ran : (runShell sandboxWorld sandboxClient wipe).2.1 = [.sandbox "cd /home/user && rm -rf /".toList 60] := by
      decide +kernel
    have rejected : checkCommand ascii "rm -rf /".toList ≠ .ok () := by decide +kernel
    rw [ran] at agreed
    exact rejected (agreed.1 (List.cons_ne_nil _ _))
  · intro agreed
    have ran : (runShell sandboxWorld sandboxClient listReboot).2.1 =
        [.sandbox (fullCommand [] "/home/user/inner;reboot".toList "ls".toList) 60] := by decide +kernel
    have placed : sandboxCwd sandboxWorld listReboot = .ok "/home/user/inner;reboot".toList := by decide +kernel
    rw [ran] at agreed
    obtain ⟨dir,asked,runs⟩ := agreed.2 _ 60 (List.mem_singleton_self _)
    obtain rfl := sandboxDirectory_cwd sandboxWorld asked placed
    have still := (fullCommand_runs posix "home/user/inner;reboot".toList "ls".toList).mp runs
    have active := special_active posix ';' (by decide)
    rw [still ';' (by decide)] at active
    cases active

end Kryvaracode.RunShell
