import Kryvaracode.Aegis
import Kryvaracode.ToolVerifier

namespace Kryvaracode.ForgeManager
open Patterns UnicodeText Aegis CodeValidation Sandbox ToolVerifier

structure Spec where
  name : Option Text
  description : Option Text
  parameters : List (Text × ParameterInfo)
  logicHint : Option Text

structure ToolDefinition where
  name : Text
  description : Text
  parameters : List (Text × ParameterInfo)
  implementationPath : Text
  functionName : Text
  version : Text
  isVerified : Bool
  deriving DecidableEq, Repr

-- The registry keeps the definition only. `builtFrom` is a note of this model:
-- the synthesised text that was verified before the definition was registered.
structure Entry where
  definition : ToolDefinition
  builtFrom : Text
  deriving DecidableEq, Repr

abbrev Registry := AList fun _ : Text => Entry

-- A distilled lesson: a text, an object with a `content`, or anything printable.
inductive Lesson where
  | text (value : Text)
  | record (content : Text)
  | other (printed : Text)

def Lesson.processed : Lesson → Text
  | .text value => value
  | .record content => content
  | .other printed => printed

-- One call of `forge_capability`, with the answers its surroundings give it.
structure Call (Value : Type) where
  spec : Spec
  getDistilledLessons : Text → Result (List Lesson)
  synthesize : Spec → List Text → Result Text
  host : Host Value
  samples : Samples Value

variable {Value : Type}

def printed (value : Option Text) : Text := value.getD "None".toList

def queryText (spec : Spec) : Text :=
  printed spec.name ++ " ".toList ++ printed spec.description ++ " ".toList ++ printed spec.logicHint

def Call.synthesis (call : Call Value) : Result Text := do
  let lessons ← call.getDistilledLessons (queryText call.spec)
  call.synthesize call.spec (lessons.map Lesson.processed)

def Call.verification (call : Call Value) (code : Text) : Result (Bool × List Text) :=
  verify call.host code (generateTestCases call.samples call.spec.parameters)

def definitionOf (spec : Spec) (toolName : Text) : ToolDefinition where
  name := toolName
  description := spec.description.getD []
  parameters := spec.parameters
  implementationPath := "src/agent/forge/generated/".toList ++ toolName ++ ".py".toList
  functionName := "execute".toList
  version := "1.0.0".toList
  isVerified := true

def registerTool (registry : Registry) (entry : Entry) : Registry := registry.insert entry.definition.name entry

def forgeCapability (registry : Registry) (call : Call Value) : Registry × Bool × Text :=
  let toolName := call.spec.name.getD []
  if toolName.isEmpty then (registry,false,"Tool specification must include a 'name'.".toList) else
  match call.synthesis with
  | .error raised => (registry,false,"Synthesis error: ".toList ++ raised.detail)
  | .ok code =>
      match call.verification code with
      | .error raised => (registry,false,"Verification system error: ".toList ++ raised.detail)
      | .ok (false,logs) => (registry,false,"Verification failed: ".toList ++ "; ".toList.intercalate logs)
      | .ok (true,_) =>
          (registerTool registry ⟨definitionOf call.spec toolName,code⟩,true,
            "Successfully forged and registered ".toList ++ toolName ++ ".".toList)

def Forges (call : Call Value) (code : Text) : Prop :=
  call.spec.name.getD [] ≠ [] ∧ call.synthesis = .ok code ∧ ∃ logs, call.verification code = .ok (true,logs)

theorem forgeCapability_registers (registry : Registry) (call : Call Value) (code : Text) (forges : Forges call code) :
    (forgeCapability registry call).1 =
      registry.insert (call.spec.name.getD []) ⟨definitionOf call.spec (call.spec.name.getD []),code⟩ := by
  obtain ⟨named,synthesised,logs,verified⟩ := forges
  simp only [forgeCapability,List.isEmpty_iff,if_neg named,synthesised,verified]
  rfl

theorem forgeCapability_unchanged (registry : Registry) (call : Call Value) (fails : ∀ code, ¬ Forges call code) :
    (forgeCapability registry call).1 = registry ∧ (forgeCapability registry call).2.1 = false := by
  by_cases named : call.spec.name.getD [] = []
  · simp [forgeCapability,named]
  cases synthesised : call.synthesis with
  | error raised => simp [forgeCapability,named,synthesised]
  | ok code =>
    cases ended : call.verification code with
    | error raised => simp [forgeCapability,named,synthesised,ended]
    | ok verdict =>
      obtain ⟨verified,logs⟩ := verdict
      cases verified with
      | false => simp [forgeCapability,named,synthesised,ended]
      | true => exact absurd ⟨named,synthesised,logs,ended⟩ (fails code)

def run (registry : Registry) (calls : List (Call Value)) : Registry :=
  calls.foldl (fun registry call => (forgeCapability registry call).1) registry

variable (tables : Tables)

def Safe (toolName code : Text) : Prop := (verifyCode tables code ⟨some toolName,none⟩).1 = true

theorem safe_exact (toolName code : Text) : Safe tables toolName code ↔
    ∀ invariant ∈ forbiddenPatterns tables, search invariant.pattern code = false := by
  rw [Safe,verifyCode_safe]
  simp only [List.eq_nil_iff_forall_not_mem,checkViolation_untargeted,not_and,Bool.not_eq_true]

def Gated (registry : Registry) : Prop :=
  ∀ toolName entry, registry.lookup toolName = some entry → entry.definition.isVerified = true →
    Safe tables toolName entry.builtFrom

theorem insert_gated (registry : Registry) (toolName : Text) (entry : Entry) (gated : Gated tables registry)
    (safe : Safe tables toolName entry.builtFrom) : Gated tables (registry.insert toolName entry) := by
  intro other found present verified
  by_cases same : other = toolName
  · subst other
    rw [AList.lookup_insert] at present
    cases present
    exact safe
  · rw [AList.lookup_insert_ne same] at present
    exact gated other found present verified

def Screened (call : Call Value) : Prop :=
  ∀ code, Forges call code → ∀ invariant ∈ forbiddenPatterns tables, search invariant.pattern code = false

theorem forgeCapability_gated (registry : Registry) (call : Call Value) (gated : Gated tables registry)
    (screened : Screened tables call) : Gated tables (forgeCapability registry call).1 := by
  by_cases forges : ∃ code, Forges call code
  · obtain ⟨code,forges⟩ := forges
    rw [forgeCapability_registers registry call code forges]
    exact insert_gated tables registry _ _ gated ((safe_exact tables _ code).mpr (screened code forges))
  · rwa [(forgeCapability_unchanged registry call (not_exists.mp forges)).1]

theorem run_gated (registry : Registry) (calls : List (Call Value)) (gated : Gated tables registry)
    (screened : ∀ call ∈ calls, Screened tables call) : Gated tables (run registry calls) := by
  induction calls generalizing registry with
  | nil => exact gated
  | cons call calls ih =>
    obtain ⟨first,rest⟩ := List.forall_mem_cons.mp screened
    exact ih _ (forgeCapability_gated tables registry call gated first) rest

theorem forges_screened (registry : Registry) (call : Call Value) (gated : Gated tables (forgeCapability registry call).1) :
    Screened tables call := by
  intro code forges
  rw [forgeCapability_registers registry call code forges] at gated
  exact (safe_exact tables _ code).mp (gated _ _ (AList.lookup_insert _) rfl)

-- No call asks Aegis, so the gate holds in every state of a run exactly as long
-- as the code that passes the sandbox happens to pass Aegis too.
theorem run_screened (calls : List (Call Value)) :
    (∀ done, done <+: calls → Gated tables (run ∅ done)) ↔ ∀ call ∈ calls, Screened tables call := by
  constructor
  · intro gated call member
    obtain ⟨before,after,rfl⟩ := List.append_of_mem member
    have reached := gated (before ++ [call]) ⟨after,by simp⟩
    rw [run,List.foldl_append] at reached
    exact forges_screened tables _ call reached
  · rintro screened done ⟨later,rfl⟩
    refine run_gated tables ∅ done ?_ fun call member => screened call (List.mem_append_left later member)
    intro toolName entry present
    rw [AList.lookup_empty] at present
    cases present

-- `def execute(): return open('/etc/passwd').read()`
def readingCode : Text := "def execute():\n    return open('/etc/passwd').read()\n".toList

def readingTree : Node :=
  .other [.other [.other [.call (.attributeAccess (.call (.name ⟨"open".toList,by decide⟩) [.other []] [])
    ⟨"read".toList,by decide⟩) [] []]]]

def reading : Call Text where
  spec := ⟨some "accounts".toList,some "lists accounts".toList,[],none⟩
  getDistilledLessons _ := .ok []
  synthesize _ _ := .ok readingCode
  host := single readingTree ⟨.defined ["execute".toList] [] [],fun _ => .returned "\"root:x:0:0\"".toList [] []⟩
  samples := ⟨"1".toList,"1.0".toList,"True".toList,"test_value".toList⟩

theorem reading_forges : Forges reading readingCode := by
  refine ⟨by decide,rfl,["Test 1 executed successfully (no expected value provided).".toList],?_⟩
  decide +kernel

theorem reading_registered : ¬ ∀ done, done <+: [reading] → Gated ascii (run ∅ done) := by
  intro gated
  have clean := forges_screened ascii ∅ reading (gated [reading] (List.prefix_refl _)) readingCode reading_forges
    systemFileAccess (by simp [forbiddenPatterns])
  have found : search systemFileAccess.pattern readingCode = true := by
    delta systemFileAccess readingCode
    dsimp only
    repeat rewrite [String.toList_ofList]
    decide +kernel
  rw [found] at clean
  cases clean

end Kryvaracode.ForgeManager
