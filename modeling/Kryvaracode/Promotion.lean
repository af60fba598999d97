import Kryvaracode.ModelRegistry
import Kryvaracode.Runs
import Mathlib.Algebra.Order.Ring.Rat

namespace Kryvaracode.Models
open Runs

structure ModelMetadata where
  name : Text
  version : Text
  description : Text
  filePath : Text
  createdBy : Nat
  deriving DecidableEq, Repr

structure Records where
  registry : Registry
  metadata : List ModelMetadata

-- What MLflow and the database answer in one call; `commit` also stands for the
-- statements after the stage has been changed.
structure Answers where
  available : Bool
  query : Result (Order ModelMetadata)
  getRun : Text → Result Unit
  getLatestVersions : Result (Order ModelVersion)
  transition : Result Unit
  commit : Result Unit

inductive Decision where
  | refused (message : Text)
  | moves (number : Nat)

-- `register` is done in MLflow, by what trains or by hand.
inductive Label where
  | train (runId experiment : Text) (dataset userId : Nat)
  | register (runId : Text)
  | promote (versionToPromote : Text) (answers : Answers)

def artifactPath (runId : Text) : Text := "mlruns/".toList ++ runId ++ "/artifacts/model".toList

def findVersion (registry : Registry) (order : Order ModelVersion) (runId : Text) : Option ModelVersion :=
  (registry.getLatestVersions order).find? fun model => model.runId = runId

namespace Records

def empty : Records := ⟨.empty,[]⟩

def production (records : Records) : Option ModelVersion := records.registry.latestOf .production

section Promotion
variable {α : Type} [LinearOrder α] [Zero α] (modelName : Text) (metrics : Text → Option α) (format : α → Text)
variable (records : Records) (answers : Answers) (versionToPromote : Text)

def train (runId experiment : Text) (dataset userId : Nat) : Records :=
  let description := "Training experiment: ".toList ++ experiment ++ ", dataset: ".toList ++ (toString dataset).toList
  {records with metadata := records.metadata ++ [⟨modelName,runId,description,artifactPath runId,userId⟩]}

-- The first of the rows with the name, of which any may come first.
def currentProd (order : Order ModelMetadata) : Option ModelMetadata :=
  (order.arrange (records.metadata.filter fun row => row.name = modelName)).head?

-- `metrics` is what was logged as the accuracy of a run.
def accuracyOf (runId : Text) : α := (metrics runId).getD 0

def comparison : Option ModelMetadata → Result (Option Text)
  | none => pure none
  | some row => do
      answers.getRun row.version
      if accuracyOf metrics versionToPromote ≤ accuracyOf metrics row.version then
        pure (some ("New model accuracy (".toList ++ format (accuracyOf metrics versionToPromote) ++
          ") is not better than production (".toList ++ format (accuracyOf metrics row.version) ++ ")".toList))
      else pure none

def moveTo : Result Decision := do
  let order ← answers.getLatestVersions
  match findVersion records.registry order versionToPromote with
  | none => pure (.refused ("Could not find model version number for run ".toList ++ versionToPromote))
  | some model => do
      answers.transition
      pure (.moves model.version)

def decision : Result Decision := do
  let order ← answers.query
  answers.getRun versionToPromote
  let refusal ← comparison metrics format answers versionToPromote (records.currentProd modelName order)
  match refusal with
  | some message => pure (.refused message)
  | none => records.moveTo answers versionToPromote

def recorded : List ModelMetadata :=
  if records.metadata.any fun row => row.version = versionToPromote then records.metadata
  else records.metadata ++ [⟨modelName,versionToPromote,"Promoted to Production via LifecycleService".toList,
    artifactPath versionToPromote,1⟩]

def promoteModel : Records × Result (Bool × Text) :=
  if answers.available then
    match records.decision modelName metrics format answers versionToPromote with
    | .error exc => (records,.ok (false,exc.detail))
    | .ok (.refused message) => (records,.ok (false,message))
    | .ok (.moves number) =>
        match answers.commit with
        | .error exc => ({records with registry := records.registry.transition number},.ok (false,exc.detail))
        | .ok () => (⟨records.registry.transition number,records.recorded modelName versionToPromote⟩,
            .ok (true,"Model ".toList ++ versionToPromote ++ " promoted to Production.".toList))
  else (records,.error (RuntimeError "MLflow not installed - model promotion unavailable".toList))

def step (records : Records) : Label → Records
  | .train runId experiment dataset userId => records.train modelName runId experiment dataset userId
  | .register runId => {records with registry := records.registry.register runId}
  | .promote versionToPromote answers => (records.promoteModel modelName metrics format answers versionToPromote).1

end Promotion
end Records

section Monotone
variable {α : Type} [LinearOrder α] [Zero α] (modelName : Text) (metrics : Text → Option α) (format : α → Text)
open Records (comparison accuracyOf)

-- Whatever is in Production is still outdone or kept there.
def NoWorse (before after : Records) : Prop :=
  ∀ model, before.production = some model →
    ∃ later, after.production = some later ∧ accuracyOf metrics model.runId ≤ accuracyOf metrics later.runId

def Improves (records : Records) : Label → Prop
  | .train .. | .register _ => True
  | .promote versionToPromote answers => ∀ after message,
      records.promoteModel modelName metrics format answers versionToPromote = (after,.ok (true,message)) →
        ∃ later, after.production = some later ∧ later.runId = versionToPromote ∧
          ∀ model, records.production = some model → accuracyOf metrics model.runId < accuracyOf metrics later.runId

-- All of a call goes through but for the comparison and the end.
structure Reaches (records : Records) (answers : Answers) (versionToPromote : Text) : Prop where
  available : answers.available = true
  known : answers.getRun versionToPromote = .ok ()
  listed : ∃ order, answers.getLatestVersions = .ok order ∧
    ∃ stage model, records.registry.latestOf stage = some model ∧ model.runId = versionToPromote
  moves : answers.transition = .ok ()

def BeatsFirstRow (records : Records) (answers : Answers) (versionToPromote : Text) : Prop :=
  ∃ order, answers.query = .ok order ∧ ∀ row, records.currentProd modelName order = some row →
    answers.getRun row.version = .ok () ∧ accuracyOf metrics row.version < accuracyOf metrics versionToPromote

-- A run that beats the row read first beats the version in Production, or where the
-- call then fails is no worse.
def FirstRowStands (records : Records) : Label → Prop
  | .train .. | .register _ => True
  | .promote versionToPromote answers => Reaches records answers versionToPromote →
      BeatsFirstRow modelName metrics records answers versionToPromote → ∀ model, records.production = some model →
        accuracyOf metrics model.runId ≤ accuracyOf metrics versionToPromote ∧
          (answers.commit = .ok () → accuracyOf metrics model.runId < accuracyOf metrics versionToPromote)

section Facts
variable {modelName metrics} {records : Records} {answers : Answers} {versionToPromote : Text}

theorem no_worse_refl (records : Records) : NoWorse metrics records records := fun model held => ⟨model,held,le_rfl⟩

theorem no_worse_trans (first second third : Records) (early : NoWorse metrics first second)
    (late : NoWorse metrics second third) : NoWorse metrics first third := by
  intro model held
  obtain ⟨middle,then_,below⟩ := early model held
  obtain ⟨last,finally_,under⟩ := late middle then_
  exact ⟨last,finally_,below.trans under⟩

theorem comparison_none : comparison metrics format answers versionToPromote row = .ok none ↔ ∀ held, row = some held →
    answers.getRun held.version = .ok () ∧ accuracyOf metrics held.version < accuracyOf metrics versionToPromote := by
  cases row with
  | none => simp [comparison,pure,Except.pure]
  | some held =>
      rw [comparison,then_ok]
      split_ifs with below
      · simp [pure,Except.pure,below.not_gt]
      · simp [pure,Except.pure,not_le.mp below]

theorem found_listed (found : findVersion registry order versionToPromote = some model) :
    model ∈ registry.versions ∧ model.runId = versionToPromote := by
  have named := List.find?_some found
  obtain ⟨stage,listed⟩ := (registry.listed_exact order).mp (List.mem_of_find?_eq_some found)
  exact ⟨(registry.latestOf_exact.mp listed).1,of_decide_eq_true named⟩

theorem listed_found (order : Order ModelVersion) (listed : Registry.latestOf registry stage = some model)
    (named : model.runId = versionToPromote) : ∃ found, findVersion registry order versionToPromote = some found := by
  refine Option.isSome_iff_exists.mp (List.find?_isSome.mpr ⟨model,(registry.listed_exact order).mpr ⟨stage,listed⟩,?_⟩)
  exact decide_eq_true named

theorem moveTo_moves : records.moveTo answers versionToPromote = .ok (.moves number) ↔
    ∃ order, answers.getLatestVersions = .ok order ∧ ∃ model, findVersion records.registry order versionToPromote = some model ∧
      answers.transition = .ok () ∧ model.version = number := by
  rw [Records.moveTo,bind_ok]
  refine exists_congr fun order => and_congr_right fun _ => ?_
  cases found : findVersion records.registry order versionToPromote with
  | none => simp [pure,Except.pure]
  | some model => simp [then_ok,pure,Except.pure]

theorem decision_moves : records.decision modelName metrics format answers versionToPromote = .ok (.moves number) ↔
    BeatsFirstRow modelName metrics records answers versionToPromote ∧ answers.getRun versionToPromote = .ok () ∧
      records.moveTo answers versionToPromote = .ok (.moves number) := by
  simp only [Records.decision,bind_ok,BeatsFirstRow,←comparison_none format]
  refine ⟨?_,?_⟩
  · rintro ⟨order,asked,⟨⟩,known,refusal,compared,moves⟩
    cases refusal with
    | none => exact ⟨⟨order,asked,compared⟩,known,moves⟩
    | some message => cases moves
  · rintro ⟨⟨order,asked,compared⟩,known,moves⟩
    exact ⟨order,asked,(),known,none,compared,moves⟩

theorem reaches_moves (reaches : Reaches records answers versionToPromote)
    (beats : BeatsFirstRow modelName metrics records answers versionToPromote) :
    ∃ model ∈ records.registry.versions, model.runId = versionToPromote ∧
      records.decision modelName metrics format answers versionToPromote = .ok (.moves model.version) := by
  obtain ⟨order,listing,stage,listed,latest,named⟩ := reaches.listed
  obtain ⟨model,found⟩ := listed_found order latest named
  obtain ⟨member,same⟩ := found_listed found
  exact ⟨model,member,same,(decision_moves format).mpr ⟨beats,reaches.known,
    moveTo_moves.mpr ⟨order,listing,model,found,reaches.moves,rfl⟩⟩⟩

theorem moves_reaches (available : answers.available = true)
    (moves : records.decision modelName metrics format answers versionToPromote = .ok (.moves number)) :
    Reaches records answers versionToPromote ∧ BeatsFirstRow modelName metrics records answers versionToPromote := by
  obtain ⟨beats,known,moved⟩ := (decision_moves format).mp moves
  obtain ⟨order,listing,model,found,transition,_⟩ := moveTo_moves.mp moved
  obtain ⟨stage,listed⟩ := (records.registry.listed_exact order).mp (List.mem_of_find?_eq_some found)
  exact ⟨⟨available,known,⟨order,listing,stage,model,listed,(found_listed found).2⟩,transition⟩,beats⟩

-- The end of a call that goes through, after which the run is in Production.
theorem promote_moves (reaches : Reaches records answers versionToPromote)
    (beats : BeatsFirstRow modelName metrics records answers versionToPromote) :
    ∃ after truth message, records.promoteModel modelName metrics format answers versionToPromote = (after,.ok (truth,message)) ∧
      (truth = true ↔ answers.commit = .ok ()) ∧ ∃ later, after.production = some later ∧ later.runId = versionToPromote := by
  obtain ⟨model,member,same,moves⟩ := reaches_moves format reaches beats
  have produced := records.registry.transition_production member
  simp only [Records.promoteModel,reaches.available,if_true,moves]
  cases answers.commit with
  | ok => exact ⟨_,_,_,rfl,by simp,_,produced,same⟩
  | error exc => exact ⟨_,_,_,rfl,by simp,_,produced,same⟩

theorem promote_stays (blocked : Reaches records answers versionToPromote →
      ¬ BeatsFirstRow modelName metrics records answers versionToPromote) :
    ∃ answer, records.promoteModel modelName metrics format answers versionToPromote = (records,answer) ∧
      ∀ message, answer ≠ .ok (true,message) := by
  unfold Records.promoteModel
  split_ifs with available
  · split
    next => exact ⟨_,rfl,by simp⟩
    next => exact ⟨_,rfl,by simp⟩
    next moves =>
        obtain ⟨reaches,beats⟩ := moves_reaches format available moves
        exact absurd beats (blocked reaches)
  · exact ⟨_,rfl,by simp⟩

theorem promote_exact (records : Records) (versionToPromote : Text) (answers : Answers) :
    (Improves modelName metrics format records (.promote versionToPromote answers) ∧
      NoWorse metrics records (records.step modelName metrics format (.promote versionToPromote answers))) ↔
      FirstRowStands modelName metrics records (.promote versionToPromote answers) := by
  simp only [Improves,FirstRowStands,Records.step]
  by_cases goes : Reaches records answers versionToPromote ∧ BeatsFirstRow modelName metrics records answers versionToPromote
  · obtain ⟨after,truth,message,ended,committed,later,produced,named⟩ := promote_moves format goes.1 goes.2
    rw [ended]
    refine ⟨?_,?_⟩
    · rintro ⟨improves,kept⟩ _ _ model held
      refine ⟨?_,?_⟩
      · obtain ⟨last,same,below⟩ := kept model held
        cases produced.symm.trans same
        exact named ▸ below
      · intro commits
        cases committed.mpr commits
        obtain ⟨last,same,_,above⟩ := improves after message rfl
        cases produced.symm.trans same
        exact named ▸ above model held
    · intro stands
      have beaten := stands goes.1 goes.2
      refine ⟨?_,fun model held => ⟨later,produced,named ▸ (beaten model held).1⟩⟩
      intro other text told
      cases told
      exact ⟨later,produced,named,fun model held => named ▸ (beaten model held).2 (committed.mp rfl)⟩
  · obtain ⟨answer,ended,refused⟩ := promote_stays format (not_and.mp goes)
    rw [ended]
    refine iff_of_true ⟨?_,no_worse_refl records⟩ fun reaches beats => absurd ⟨reaches,beats⟩ goes
    intro after message told
    exact absurd (congrArg Prod.snd told) (refused message)

theorem step_exact (records : Records) (label : Label) :
    (Improves modelName metrics format records label ∧ NoWorse metrics records (records.step modelName metrics format label)) ↔
      FirstRowStands modelName metrics records label := by
  cases label with
  | train => exact iff_of_true ⟨trivial,no_worse_refl records⟩ trivial
  | register runId =>
      refine iff_of_true ⟨trivial,?_⟩ trivial
      intro model held
      exact ⟨model,(records.registry.register_production runId).trans held,le_rfl⟩
  | promote versionToPromote answers => exact promote_exact format records versionToPromote answers

end Facts

end Monotone

-- Three runs, of which the first is never in Production.
def threeRuns (runId : Text) : Option ℚ :=
  if runId = "first".toList then some (1/2)
  else if runId = "best".toList then some (9/10)
  else if runId = "middling".toList then some (7/10)
  else none

def Answers.fine : Answers := ⟨true,.ok .asIs,fun _ => .ok (),.ok .asIs,.ok (),.ok ()⟩

def Label.added (runId : Text) : List Label := [.train runId "experiment".toList 1 1,.register runId]

def promotedTwice : List Label :=
  Label.added "first".toList ++ Label.added "best".toList ++ [.promote "best".toList .fine] ++ Label.added "middling".toList

def afterTwo : Records := run (Records.step "kryvara_model".toList threeRuns fun _ => []) .empty promotedTwice

end Kryvaracode.Models
