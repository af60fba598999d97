import Kryvaracode.Exceptions

namespace Kryvaracode.Aegis
open Patterns UnicodeText

inductive RiskLevel where
  | critical
  | high
  | medium
  | low
  deriving DecidableEq, Repr

def RiskLevel.value : RiskLevel → Nat
  | .critical => 3
  | .high => 2
  | .medium => 1
  | .low => 0

structure SafetyInvariant where
  name : Text
  pattern : Pattern Char
  riskLevel : RiskLevel
  description : Text
  allowedPrefixes : Option (List Text)

variable (tables : Tables)

def notNewline (c : Char) : Bool := c != '\n'
def within (low high c : Char) : Bool := decide (low ≤ c) && decide (c ≤ high)
def anything : List (Pattern Char) := [many notNewline]
def dot : List (Pattern Char) := literal ".".toList
def digits : List (Pattern Char) := plus tables.decimal

def internalHosts : List (Pattern Char) :=
  [seqs (literal "internal".toList),seqs (literal "localhost".toList),seqs (literal "127.0.0.1".toList),
   seqs [literal "10.".toList,digits tables,dot,digits tables,dot,digits tables].flatten,
   seqs [literal "172.".toList,
     [alts [seqs [literal "1".toList,[.one (within '6' '9')]].flatten,seqs [literal "2".toList,[.one tables.decimal]].flatten,
       seqs [literal "3".toList,[.one fun c => c == '0' || c == '1']].flatten]],
     dot,digits tables,dot,digits tables].flatten,
   seqs [literal "192.168.".toList,digits tables,dot,digits tables].flatten,
   seqs [literal "169.254.".toList,digits tables,dot,digits tables].flatten]

def recursiveDelete : SafetyInvariant where
  name := "Recursive Delete".toList
  pattern := alts [seqs (literal "shutil.rmtree(".toList),
    seqs [literal "os.system(".toList,anything,literal "rm".toList,plus space,literal "-rf".toList].flatten]
  riskLevel := .critical
  description := "Prohibits recursive directory deletion.".toList
  allowedPrefixes := some ["C:\\Users\\User\\KRYVARACODE\\temp\\".toList,"/tmp/".toList]

def systemFileAccess : SafetyInvariant where
  name := "System File Access".toList
  pattern := alts [seqs (literal "C:\\Windows\\".toList),seqs (literal "/etc/passwd".toList),seqs (literal "/etc/shadow".toList)]
  riskLevel := .critical
  description := "Prohibits access to sensitive system directories.".toList
  allowedPrefixes := none

def arbitraryRemoteShell : SafetyInvariant where
  name := "Arbitrary Remote Shell".toList
  pattern := alts [seqs [literal "subprocess.Popen(".toList,anything,literal "shell=True".toList,anything].flatten,
    seqs (literal "os.popen(".toList)]
  riskLevel := .critical
  description := "Prohibits shell execution of arbitrary strings.".toList
  allowedPrefixes := none

def unauthorizedSocket : SafetyInvariant where
  name := "Unauthorized Socket/Connection".toList
  pattern := alts [seqs (literal "socket.socket(".toList),
    seqs [literal "requests.".toList,[alts [seqs (literal "get".toList),seqs (literal "post".toList)]],literal "(".toList,
      anything,[.edge tables.word],[alts (internalHosts tables)],[.edge tables.word]].flatten]
  riskLevel := .high
  description := "Prevents unauthorized internal network probing (RFC1918, link-local).".toList
  allowedPrefixes := none

def ctypesMemoryAccess : SafetyInvariant where
  name := "CTypes Memory Access".toList
  pattern := alts [seqs (literal "import ctypes".toList),seqs (literal "ctypes.".toList)]
  riskLevel := .high
  description := "Prohibits direct memory manipulation via ctypes.".toList
  allowedPrefixes := none

def processTermination : SafetyInvariant where
  name := "Process Termination".toList
  pattern := alts [seqs (literal "os._exit(".toList),seqs (literal "sys.exit(".toList)]
  riskLevel := .medium
  description := "Prevents tools from killing the host process.".toList
  allowedPrefixes := none

def forbiddenPatterns : List SafetyInvariant :=
  [recursiveDelete,systemFileAccess,arbitraryRemoteShell,unauthorizedSocket tables,ctypesMemoryAccess,processTermination]

-- A context exempts an invariant only through a non-empty target path.
def exempt (targetPath : Option Text) (invariant : SafetyInvariant) : Bool :=
  match invariant.allowedPrefixes,targetPath with
  | some prefixes,some path => !path.isEmpty && prefixes.any (·.isPrefixOf path)
  | _,_ => false

def checkViolation (code : Text) (targetPath : Option Text) : List SafetyInvariant :=
  (forbiddenPatterns tables).filter fun invariant => search invariant.pattern code && !exempt targetPath invariant

theorem checkViolation_untargeted (code : Text) (invariant : SafetyInvariant) :
    invariant ∈ checkViolation tables code none ↔
      invariant ∈ forbiddenPatterns tables ∧ search invariant.pattern code = true := by
  have open' : exempt none invariant = false := by cases h : invariant.allowedPrefixes <;> simp [exempt,h]
  simp [checkViolation,open']

theorem checkViolation_targeted (code : Text) (targetPath : Option Text) (invariant : SafetyInvariant)
    (found : invariant ∈ checkViolation tables code targetPath) : invariant ∈ checkViolation tables code none := by
  rw [checkViolation_untargeted]
  simp only [checkViolation,List.mem_filter,Bool.and_eq_true] at found
  exact ⟨found.1,found.2.1⟩

structure Metadata where
  toolName : Option Text
  targetPath : Option Text

-- (is_safe, violations, total_risk_score)
abbrev Verdict := Bool × Option (List SafetyInvariant) × Nat

def verifyCode (code : Text) (metadata : Metadata) : Verdict :=
  let violations := checkViolation tables code metadata.targetPath
  if violations.isEmpty then (true,none,0) else
  let totalRiskScore := (violations.map (·.riskLevel.value)).sum
  let criticalViolations := violations.filter (·.riskLevel == .critical)
  if !criticalViolations.isEmpty then (false,some violations,totalRiskScore)
  else if totalRiskScore ≥ 3 then (false,some violations,totalRiskScore)
  else (false,some violations,totalRiskScore)

theorem verifyCode_exact (code : Text) (metadata : Metadata) : verifyCode tables code metadata =
    if (checkViolation tables code metadata.targetPath).isEmpty then (true,none,0)
    else (false,some (checkViolation tables code metadata.targetPath),
      ((checkViolation tables code metadata.targetPath).map (·.riskLevel.value)).sum) := by
  simp only [verifyCode,ite_self]

theorem verifyCode_safe (code : Text) (metadata : Metadata) :
    (verifyCode tables code metadata).1 = true ↔ checkViolation tables code metadata.targetPath = [] := by
  rw [verifyCode_exact]
  split
  · rename_i clean; simpa using clean
  · rename_i found; simpa using found

theorem verifyCode_violations (code : Text) (metadata : Metadata) :
    (verifyCode tables code metadata).2.1.getD [] = checkViolation tables code metadata.targetPath := by
  rw [verifyCode_exact]
  split
  · rename_i clean; simpa using (List.isEmpty_iff.mp clean).symm
  · rfl

structure ToolSource where
  name : Option Text
  code : Option Text
  targetPath : Option Text

def scanToolDefinition (tool : ToolSource) : Bool :=
  (verifyCode tables (tool.code.getD []) ⟨some (tool.name.getD "unknown".toList),tool.targetPath⟩).1

theorem scanToolDefinition_safe (tool : ToolSource) : scanToolDefinition tables tool = true ↔
    checkViolation tables (tool.code.getD []) tool.targetPath = [] := verifyCode_safe tables _ _

end Kryvaracode.Aegis
