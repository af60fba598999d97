import Kryvaracode.ForgeManager
import Kryvaracode.InsertionDict

namespace Kryvaracode.ForgeAtomicity
open InsertionDict
open ForgeManager (Lesson)

-- The values of a spec, as far as the forge looks at them: whether one counts as
-- true, what it prints, and which key of a dict it is. Each may raise.
structure Objects where
  Value : Type
  Key : Type
  keys : DecidableEq Key
  truth : Value → Result Bool
  printed : Value → Result Text
  key : Value → Result Key
  text : Text → Value
  emptyDict : Value

instance (objects : Objects) : DecidableEq objects.Key := objects.keys

abbrev Spec (objects : Objects) := Dict Text objects.Value

structure ToolDefinition (objects : Objects) where
  name : objects.Value
  description : objects.Value
  parameters : objects.Value
  implementationPath : Text
  functionName : Text
  version : Text
  isVerified : Bool

abbrev Registry (objects : Objects) := Dict objects.Key (ToolDefinition objects)

-- What memory, synthesizer and verifier answer.
structure Surroundings (objects : Objects) where
  TestCases : Type
  getDistilledLessons : Text → Result (List Lesson)
  synthesize : Spec objects → List Text → Result Text
  generateTestCases : Spec objects → Result TestCases
  verify : Text → TestCases → Result (Bool × List Text)

section Forge
variable {objects : Objects} (around : Surroundings objects) (spec : Spec objects)

-- A missing entry prints as None.
def printedEntry (field : Text) : Result Text := ((spec.get field).map objects.printed).getD (.ok "None".toList)

def queryText : Result Text := do
  let name ← printedEntry spec "name".toList
  let description ← printedEntry spec "description".toList
  let logicHint ← printedEntry spec "logic_hint".toList
  return name ++ " ".toList ++ description ++ " ".toList ++ logicHint

def synthesis : Result Text := do
  let query ← queryText spec
  let lessons ← around.getDistilledLessons query
  around.synthesize spec (lessons.map Lesson.processed)

def verification (code : Text) : Result (Bool × List Text) := do
  let testCases ← around.generateTestCases spec
  around.verify code testCases

def definitionOf (name : objects.Value) (toolName : Text) : ToolDefinition objects where
  name := name
  description := (spec.get "description".toList).getD (objects.text [])
  parameters := (spec.get "parameters".toList).getD objects.emptyDict
  implementationPath := "src/agent/forge/generated/".toList ++ toolName ++ ".py".toList
  functionName := "execute".toList
  version := "1.0.0".toList
  isVerified := true

def registerTool (registry : Registry objects) (definition : ToolDefinition objects) : Registry objects × Result Unit :=
  match objects.key definition.name with
  | .error exc => (registry,.error exc)
  | .ok key => (registry.set key definition,.ok ())

-- The three stages, each in a `try` of its own.
def forgeNamed (registry : Registry objects) (name : objects.Value) (toolName : Text) : Registry objects × Bool × Text :=
  match synthesis around spec with
  | .error exc => (registry,false,"Synthesis error: ".toList ++ exc.detail)
  | .ok code =>
      match verification around spec code with
      | .error exc => (registry,false,"Verification system error: ".toList ++ exc.detail)
      | .ok (false,logs) => (registry,false,"Verification failed: ".toList ++ "; ".toList.intercalate logs)
      | .ok (true,_) =>
          match registerTool registry (definitionOf spec name toolName) with
          | (after,.error exc) => (after,false,"Registration error: ".toList ++ exc.detail)
          | (after,.ok ()) => (after,true,"Successfully forged and registered ".toList ++ toolName ++ ".".toList)

def nameMissing : Bool × Text := (false,"Tool specification must include a 'name'.".toList)

-- The name is asked for its truth and printed outside of them.
def forgeCapability (registry : Registry objects) : Registry objects × Result (Bool × Text) :=
  match spec.get "name".toList with
  | none => (registry,.ok nameMissing)
  | some name =>
      match objects.truth name,objects.printed name with
      | .error exc,_ => (registry,.error exc)
      | .ok false,_ => (registry,.ok nameMissing)
      | .ok true,.error exc => (registry,.error exc)
      | .ok true,.ok toolName =>
          let ended := forgeNamed around spec registry name toolName
          (ended.1,.ok ended.2)

-- The registry maps the name of the spec to the new definition and is otherwise the same.
structure Registered (registry after : Registry objects) : Prop where
  added : ∃ name key definition, spec.get "name".toList = some name ∧ objects.key name = .ok key ∧
    after.get key = some definition ∧ definition.name = name ∧ definition.isVerified = true ∧
      ∀ other, other ≠ key → after.get other = registry.get other
  accepted : ∃ code logs, synthesis around spec = .ok code ∧ verification around spec code = .ok (true,logs)

def Atomic (registry : Registry objects) : Prop :=
  ∃ success message, (forgeCapability around spec registry).2 = .ok (success,message) ∧
    if success then Registered around spec registry (forgeCapability around spec registry).1
    else (forgeCapability around spec registry).1 = registry

-- The name can be asked for its truth, and printed if it is true.
def NamePrints : Prop := ∀ name, spec.get "name".toList = some name → ∃ given, objects.truth name = .ok given ∧
  (given = true → ∃ toolName, objects.printed name = .ok toolName)

theorem register_parts (registry : Registry objects) (definition : ToolDefinition objects) :
    (∃ exc, registerTool registry definition = (registry,.error exc)) ∨
      ∃ key, objects.key definition.name = .ok key ∧ registerTool registry definition = (registry.set key definition,.ok ()) := by
  unfold registerTool
  cases found : objects.key definition.name with
  | error exc => exact .inl ⟨exc,rfl⟩
  | ok key => exact .inr ⟨key,rfl,rfl⟩

theorem named_outcome {name : objects.Value} (named : spec.get "name".toList = some name) (registry : Registry objects)
    (toolName : Text) :
    if (forgeNamed around spec registry name toolName).2.1
      then Registered around spec registry (forgeNamed around spec registry name toolName).1
      else (forgeNamed around spec registry name toolName).1 = registry := by
  unfold forgeNamed
  cases synthesised : synthesis around spec with
  | error exc => rfl
  | ok code =>
      cases verified : verification around spec code with
      | error exc => simp [verified]
      | ok verdict =>
          obtain ⟨isVerified,logs⟩ := verdict
          cases isVerified with
          | false => simp [verified]
          | true =>
              simp only [verified]
              rcases register_parts registry (definitionOf spec name toolName) with ⟨exc,same⟩ | ⟨key,found,same⟩
              · simp [same]
              · simp only [same,if_true]
                refine ⟨⟨name,key,definitionOf spec name toolName,named,found,?_,rfl,rfl,?_⟩,code,logs,synthesised,verified⟩
                · exact get_set_same registry key _
                · intro other apart
                  exact (get_set registry key _ other).trans (if_neg apart)

theorem unprintable_raises {name : objects.Value} {exc : Failure} (named : spec.get "name".toList = some name)
    (given : objects.truth name = .ok true) (raised : objects.printed name = .error exc) (registry : Registry objects) :
    (forgeCapability around spec registry).2 = .error exc := by
  unfold forgeCapability
  simp only [named,given,raised]

end Forge

-- The entries of the specs that `ForgeManager.Spec` describes. Only the parameters are a dict.
inductive Field where
  | text (shown : Text)
  | parameters (declared : List (Text × ToolVerifier.ParameterInfo))

def Field.truth : Field → Bool
  | .text shown => !shown.isEmpty
  | .parameters declared => !declared.isEmpty

def Field.printed (reprDict : List (Text × ToolVerifier.ParameterInfo) → Text) : Field → Text
  | .text shown => shown
  | .parameters declared => reprDict declared

def Field.key : Field → Result Text
  | .text shown => .ok shown
  | .parameters _ => .error ⟨.other "TypeError".toList,"unhashable type: 'dict'".toList⟩

abbrev fieldObjects (reprDict : List (Text × ToolVerifier.ParameterInfo) → Text) : Objects where
  Value := Field
  Key := Text
  keys := inferInstance
  truth value := .ok value.truth
  printed value := .ok (value.printed reprDict)
  key := Field.key
  text := Field.text
  emptyDict := .parameters []

-- An absent field is a missing entry.
def withText (field : Text) (given : Option Text) (spec : Dict Text Field) : Dict Text Field :=
  match given with
  | none => spec
  | some shown => spec.set field (.text shown)

def encoded (spec : ForgeManager.Spec) : Dict Text Field :=
  withText "logic_hint".toList spec.logicHint
    ((withText "description".toList spec.description (withText "name".toList spec.name Dict.empty)).set
      "parameters".toList (.parameters spec.parameters))

theorem get_withText (field : Text) (given : Option Text) (spec : Dict Text Field) (other : Text) :
    (withText field given spec).get other =
      if other = field then (given.map Field.text).or (spec.get other) else spec.get other := by
  cases given with
  | none => exact (ite_self (spec.get other)).symm
  | some shown => exact get_set spec field (.text shown) other

section Encoded
variable (spec : ForgeManager.Spec)

theorem encoded_hint : (encoded spec).get "logic_hint".toList = spec.logicHint.map Field.text := by
  rw [encoded,get_withText,if_pos rfl,get_set,if_neg (by decide),get_withText,if_neg (by decide),get_withText,
    if_neg (by decide),get_empty,Option.or_none]

theorem encoded_parameters : (encoded spec).get "parameters".toList = some (.parameters spec.parameters) := by
  rw [encoded,get_withText,if_neg (by decide),get_set_same]

theorem encoded_description : (encoded spec).get "description".toList = spec.description.map Field.text := by
  rw [encoded,get_withText,if_neg (by decide),get_set,if_neg (by decide),get_withText,if_pos rfl,get_withText,
    if_neg (by decide),get_empty,Option.or_none]

theorem encoded_name : (encoded spec).get "name".toList = spec.name.map Field.text := by
  rw [encoded,get_withText,if_neg (by decide),get_set,if_neg (by decide),get_withText,if_neg (by decide),get_withText,
    if_pos rfl,get_empty,Option.or_none]

end Encoded

section Typed
variable (reprDict : List (Text × ToolVerifier.ParameterInfo) → Text)

abbrev typed (spec : ForgeManager.Spec) : Spec (fieldObjects reprDict) := encoded spec

def lifted (definition : ForgeManager.ToolDefinition) : ToolDefinition (fieldObjects reprDict) where
  name := .text definition.name
  description := .text definition.description
  parameters := .parameters definition.parameters
  implementationPath := definition.implementationPath
  functionName := definition.functionName
  version := definition.version
  isVerified := definition.isVerified

def surroundings {Value : Type} (call : ForgeManager.Call Value) : Surroundings (fieldObjects reprDict) where
  TestCases := List (ToolVerifier.Test Value)
  getDistilledLessons := call.getDistilledLessons
  synthesize _ lessons := call.synthesize call.spec lessons
  generateTestCases _ := .ok (ToolVerifier.generateTestCases call.samples call.spec.parameters)
  verify code tests := ToolVerifier.verify call.host code tests

def Represents (general : Registry (fieldObjects reprDict)) (registry : ForgeManager.Registry) : Prop :=
  ∀ toolName, general.get toolName = (registry.lookup toolName).map fun entry => lifted reprDict entry.definition

section Encoded
variable (spec : ForgeManager.Spec)

theorem printed_text {field : Text} {given : Option Text} (found : (encoded spec).get field = given.map Field.text) :
    printedEntry (typed reprDict spec) field = .ok (ForgeManager.printed given) := by
  rw [printedEntry,found]
  cases given with
  | none => rfl
  | some shown => rfl

theorem typed_query : queryText (typed reprDict spec) = .ok (ForgeManager.queryText spec) := by
  rw [queryText,printed_text reprDict spec (encoded_name spec),printed_text reprDict spec (encoded_description spec),
    printed_text reprDict spec (encoded_hint spec)]
  rfl

theorem typed_definition (toolName : Text) : definitionOf (typed reprDict spec) (.text toolName) toolName =
    lifted reprDict (ForgeManager.definitionOf spec toolName) := by
  rw [definitionOf,encoded_description,encoded_parameters]
  cases described : spec.description <;> simp [lifted,ForgeManager.definitionOf,described]

end Encoded

theorem empty_represents : Represents reprDict Dict.empty ∅ := by
  intro toolName
  rw [get_empty,AList.lookup_empty,Option.map_none]

theorem register_represents {general : Registry (fieldObjects reprDict)} {registry : ForgeManager.Registry}
    (represents : Represents reprDict general registry) (entry : ForgeManager.Entry) :
    Represents reprDict (general.set entry.definition.name (lifted reprDict entry.definition))
      (ForgeManager.registerTool registry entry) := by
  intro toolName
  rw [ForgeManager.registerTool,get_set]
  split
  next same => rw [same,AList.lookup_insert,Option.map_some]
  next apart => rw [AList.lookup_insert_ne apart,represents]

variable {Value : Type} (call : ForgeManager.Call Value)

theorem synthesis_typed : synthesis (surroundings reprDict call) (typed reprDict call.spec) = call.synthesis := by
  rw [synthesis,typed_query]
  rfl

def Agree (general : Registry (fieldObjects reprDict) × Bool × Text) (outcome : ForgeManager.Registry × Bool × Text) : Prop :=
  Represents reprDict general.1 outcome.1 ∧ general.2 = outcome.2

theorem verification_typed (code : Text) :
    verification (surroundings reprDict call) (typed reprDict call.spec) code = call.verification code := rfl

theorem registerTool_named (general : Registry (fieldObjects reprDict)) (definition : ForgeManager.ToolDefinition) :
    registerTool general (lifted reprDict definition) = (general.set definition.name (lifted reprDict definition),.ok ()) := rfl

variable {general : Registry (fieldObjects reprDict)} {registry : ForgeManager.Registry}

theorem forgeNamed_typed (represents : Represents reprDict general registry) {toolName : Text}
    (named : call.spec.name = some toolName) (given : toolName.isEmpty = false) :
    Agree reprDict (forgeNamed (surroundings reprDict call) (typed reprDict call.spec) general (.text toolName) toolName)
      (ForgeManager.forgeCapability registry call) := by
  have refused : ∀ message, Agree reprDict (general,false,message) (registry,false,message) := by
    intro message
    exact ⟨represents,rfl⟩
  simp only [forgeNamed,ForgeManager.forgeCapability,named,Option.getD_some,given,Bool.false_eq_true,if_false,
    synthesis_typed,verification_typed]
  cases call.synthesis with
  | error exc => exact refused _
  | ok code =>
      dsimp only
      cases call.verification code with
      | error exc => exact refused _
      | ok verdict =>
          obtain ⟨isVerified,logs⟩ := verdict
          cases isVerified with
          | false => exact refused _
          | true =>
              rw [typed_definition,registerTool_named]
              exact ⟨register_represents reprDict represents ⟨ForgeManager.definitionOf call.spec toolName,code⟩,rfl⟩

-- On such specs the forge is the one of `ForgeManager`, and raises nothing.
theorem forgeCapability_typed (represents : Represents reprDict general registry) :
    ∃ returned,
      (forgeCapability (surroundings reprDict call) (typed reprDict call.spec) general).2 = .ok returned ∧
      Agree reprDict ((forgeCapability (surroundings reprDict call) (typed reprDict call.spec) general).1,returned)
        (ForgeManager.forgeCapability registry call) := by
  unfold forgeCapability
  rw [encoded_name]
  cases named : call.spec.name with
  | none =>
      refine ⟨nameMissing,rfl,?_⟩
      rw [ForgeManager.forgeCapability,named]
      exact ⟨represents,rfl⟩
  | some toolName =>
      cases given : toolName.isEmpty with
      | true =>
          have missing : ForgeManager.forgeCapability registry call = (registry,nameMissing) := by
            simp only [ForgeManager.forgeCapability,named,Option.getD_some,given,if_true,nameMissing]
          simp only [Option.map_some,Field.truth,given,Bool.not_true]
          exact ⟨nameMissing,rfl,missing ▸ ⟨represents,rfl⟩⟩
      | false =>
          simp only [Option.map_some,Field.truth,given,Bool.not_false]
          exact ⟨_,rfl,forgeNamed_typed reprDict call represents named given⟩

def run (general : Registry (fieldObjects reprDict)) (calls : List (ForgeManager.Call Value)) :
    Registry (fieldObjects reprDict) :=
  calls.foldl (fun general call => (forgeCapability (surroundings reprDict call) (typed reprDict call.spec) general).1) general

theorem run_represents (represents : Represents reprDict general registry) (calls : List (ForgeManager.Call Value)) :
    Represents reprDict (run reprDict general calls) (ForgeManager.run registry calls) := by
  induction calls generalizing general registry with
  | nil => exact represents
  | cons call calls ih =>
      obtain ⟨_,_,after,_⟩ := forgeCapability_typed reprDict call represents
      exact ih after

theorem run_registered (calls : List (ForgeManager.Call Value)) (toolName : Text) :
    (run reprDict Dict.empty calls).get toolName =
      ((ForgeManager.run ∅ calls).lookup toolName).map fun entry => lifted reprDict entry.definition :=
  run_represents reprDict (empty_represents reprDict) calls toolName

end Typed

-- Texts, and whole numbers, which print in at most 4300 digits.
inductive Plain where
  | text (shown : Text)
  | number (value : Nat)
  | empty

def printedNumber (maxStrDigits value : Nat) : Result Text :=
  if value < 10 ^ maxStrDigits then .ok (toString value).toList
  else .error (ValueError ("Exceeds the limit (".toList ++ (toString maxStrDigits).toList ++
    " digits) for integer string conversion; use sys.set_int_max_str_digits() to increase the limit".toList))

theorem long_unprintable {maxStrDigits value : Nat} (long : 10 ^ maxStrDigits ≤ value) :
    ∃ exc, printedNumber maxStrDigits value = .error exc := by
  unfold printedNumber
  rw [if_neg (not_lt.mpr long)]
  exact ⟨_,rfl⟩

-- Ten to the power of the digits is not to be computed.
attribute [irreducible] printedNumber

def Plain.printed : Plain → Result Text
  | .text shown => .ok shown
  | .number value => printedNumber 4300 value
  | .empty => .ok "\x7b\x7d".toList

def Plain.truth : Plain → Bool
  | .text shown => !shown.isEmpty
  | .number value => decide (0 < value)
  | .empty => false

def Plain.key : Plain → Result (Text ⊕ Nat)
  | .text shown => .ok (.inl shown)
  | .number value => .ok (.inr value)
  | .empty => .error ⟨.other "TypeError".toList,"unhashable type: 'dict'".toList⟩

def plainObjects : Objects where
  Value := Plain
  Key := Text ⊕ Nat
  keys := inferInstance
  truth value := .ok value.truth
  printed := Plain.printed
  key := Plain.key
  text := Plain.text
  emptyDict := .empty

def agreeable : Surroundings plainObjects where
  TestCases := Unit
  getDistilledLessons _ := .ok []
  synthesize _ _ := .ok []
  generateTestCases _ := .ok ()
  verify _ _ := .ok (true,[])

def numbered (number : Nat) : Spec plainObjects := Dict.empty.set "name".toList (.number number)

theorem long_name_raises (value : Nat) (long : 10 ^ 4300 ≤ value) : ¬ Atomic agreeable (numbered value) Dict.empty := by
  obtain ⟨exc,prints⟩ := long_unprintable long
  have named : (numbered value).get "name".toList = some (.number value) := get_set_same _ _ _
  have some_value : 0 < value := lt_of_lt_of_le (Nat.pow_pos (by decide)) long
  have given : plainObjects.truth (.number value) = .ok true := congrArg Except.ok (decide_eq_true some_value)
  rintro ⟨success,message,returned,_⟩
  rw [unprintable_raises agreeable _ named given prints] at returned
  cases returned

end Kryvaracode.ForgeAtomicity
