import Kryvaracode.ModelRegistry

namespace Kryvaracode.Models

def MlflowException (detail : Text) : Failure := ⟨.other "MlflowException".toList,detail⟩

-- A model is the version it was loaded as, a feature processor the run it was
-- downloaded from.
structure Service where
  modelName : Text
  model : Option ModelVersion
  modelUri : Option Text
  featureProcessor : Option Text

-- What the calls made in one attempt come to, where the registry does not decide.
structure Calls where
  loadModel : Result Unit
  getLatestVersions : Result (Order ModelVersion)
  downloadArtifacts : Text → Result Unit
  loadProcessor : Result Unit

structure Mlflow where
  available : Bool
  registry : Registry
  setTrackingUri : Result Unit
  production : Calls
  latest : Calls

namespace Service

def init (modelName : Text) : Service := ⟨modelName,none,none,none⟩

def cleared (service : Service) : Service := {service with model := none,featureProcessor := none}

def processorRun (registry : Registry) (calls : Calls) : Result Text := do
  let order ← calls.getLatestVersions
  match registry.getLatestVersions order with
  | [] => .error (RuntimeError "No model versions found in registry".toList)
  | first :: _ => do
      calls.downloadArtifacts first.runId
      calls.loadProcessor
      pure first.runId

def loadAssociatedFeatureProcessor (service : Service) (registry : Registry) (calls : Calls) : Service × Result Unit :=
  match processorRun registry calls with
  | .ok run => ({service with featureProcessor := some run},.ok ())
  | .error exc => (service,.error (RuntimeError ("Feature processor binding failed: ".toList ++ exc.detail)))

-- `models:/name/alias`, where `found` is the version that the alias stands for.
def attempt (service : Service) (registry : Registry) (label : Text) (found : Option ModelVersion) (calls : Calls) :
    Service × Result Unit :=
  match found with
  | none => (service,.error (MlflowException label))
  | some model =>
      match calls.loadModel with
      | .error exc => (service,.error exc)
      | .ok () =>
          let uri := "models:/".toList ++ service.modelName ++ "/".toList ++ label
          loadAssociatedFeatureProcessor {service with model := some model,modelUri := some uri} registry calls

def loadModelFromMlflow (service : Service) (mlflow : Mlflow) : Service :=
  if mlflow.available then
    match mlflow.setTrackingUri with
    | .error _ => service.cleared
    | .ok () =>
        match service.attempt mlflow.registry "Production".toList (mlflow.registry.latestOf .production) mlflow.production with
        | (loaded,.ok ()) => loaded
        | (broken,.error _) =>
            match broken.attempt mlflow.registry "latest".toList mlflow.registry.latest mlflow.latest with
            | (loaded,.ok ()) => loaded
            | (broken,.error _) => broken.cleared
  else service.cleared

-- Nothing is loaded, or the two come from one run.
def Bound (service : Service) : Prop :=
  (service.model = none ∧ service.featureProcessor = none) ∨
    ∃ model, service.model = some model ∧ service.featureProcessor = some model.runId

end Service

-- The version is there and loads, and the run that is listed first has a processor
-- that loads.
structure Through (registry : Registry) (calls : Calls) (found : Option ModelVersion) (model first : ModelVersion) : Prop where
  found : found = some model
  loads : calls.loadModel = .ok ()
  listed : ∃ order, calls.getLatestVersions = .ok order ∧ (registry.getLatestVersions order).head? = some first
  downloads : calls.downloadArtifacts first.runId = .ok ()
  unpickles : calls.loadProcessor = .ok ()

-- Where an attempt goes through, the run that is listed first is the one of its model.
def Mlflow.FirstListed (mlflow : Mlflow) : Prop :=
  mlflow.available = true → mlflow.setTrackingUri = .ok () →
    (∀ model first, Through mlflow.registry mlflow.production (mlflow.registry.latestOf .production) model first →
      first.runId = model.runId) ∧
    ((∀ model first, ¬ Through mlflow.registry mlflow.production (mlflow.registry.latestOf .production) model first) →
      ∀ model first, Through mlflow.registry mlflow.latest mlflow.registry.latest model first → first.runId = model.runId)

open Service (Bound processorRun attempt loadAssociatedFeatureProcessor loadModelFromMlflow)

theorem cleared_bound (service : Service) : service.cleared.Bound := .inl ⟨rfl,rfl⟩

theorem loaded_bound {service : Service} (loaded : service.model = some model) (taken : service.featureProcessor = some run) :
    service.Bound ↔ run = model.runId := by
  simp [Bound,loaded,taken]

theorem through_unique (through : Through registry calls found model first) (again : Through registry calls found other second) :
    other = model ∧ second = first := by
  obtain ⟨rfl,_,⟨order,answered,head⟩,_,_⟩ := through
  obtain ⟨same,_,⟨_,listed,front⟩,_,_⟩ := again
  cases answered.symm.trans listed
  exact ⟨(Option.some.inj same).symm,Option.some.inj (front.symm.trans head)⟩

theorem processorRun_exact : processorRun registry calls = .ok run ↔
    ∃ order first, calls.getLatestVersions = .ok order ∧ (registry.getLatestVersions order).head? = some first ∧
      calls.downloadArtifacts first.runId = .ok () ∧ calls.loadProcessor = .ok () ∧ first.runId = run := by
  rw [processorRun,bind_ok]
  refine exists_congr fun order => ?_
  cases registry.getLatestVersions order with
  | nil => simp
  | cons first rest => simp [then_ok,pure,Except.pure]

theorem attempt_through (service : Service) (label : Text) (through : Through registry calls found model first) :
    ∃ loaded, service.attempt registry label found calls = (loaded,.ok ()) ∧
      loaded.model = some model ∧ loaded.featureProcessor = some first.runId := by
  obtain ⟨rfl,loads,⟨order,answered,head⟩,downloads,unpickles⟩ := through
  have taken := processorRun_exact.mpr ⟨order,first,answered,head,downloads,unpickles,rfl⟩
  simp only [attempt,loads,loadAssociatedFeatureProcessor,taken]
  exact ⟨_,rfl,rfl,rfl⟩

theorem attempt_ok {service after : Service} (loaded : service.attempt registry label found calls = (after,.ok ())) :
    ∃ model first, Through registry calls found model first := by
  cases found with
  | none => simp [attempt] at loaded
  | some model =>
      cases loads : calls.loadModel with
      | error exc => simp [attempt,loads] at loaded
      | ok =>
          cases taken : processorRun registry calls with
          | error exc => simp [attempt,loads,loadAssociatedFeatureProcessor,taken] at loaded
          | ok run =>
              obtain ⟨order,first,answered,head,downloads,unpickles,_⟩ := processorRun_exact.mp taken
              exact ⟨model,first,rfl,loads,⟨order,answered,head⟩,downloads,unpickles⟩

theorem attempt_fails (service : Service) (label : Text) (blocked : ∀ model first, ¬ Through registry calls found model first) :
    ∃ broken exc, service.attempt registry label found calls = (broken,.error exc) := by
  rcases outcome : service.attempt registry label found calls with ⟨after,result⟩
  cases result with
  | error exc => exact ⟨after,exc,rfl⟩
  | ok =>
      obtain ⟨model,first,through⟩ := attempt_ok outcome
      exact absurd through (blocked model first)

section Connected
variable {mlflow : Mlflow} (service : Service) (available : mlflow.available = true) (connected : mlflow.setTrackingUri = .ok ())
include available connected

theorem production_bound
    (through : Through mlflow.registry mlflow.production (mlflow.registry.latestOf .production) model first) :
    (service.loadModelFromMlflow mlflow).Bound ↔ first.runId = model.runId := by
  obtain ⟨loaded,outcome,served,taken⟩ := attempt_through service "Production".toList through
  simp only [loadModelFromMlflow,available,if_true,connected,outcome]
  exact loaded_bound served taken

theorem latest_bound
    (blocked : ∀ model first, ¬ Through mlflow.registry mlflow.production (mlflow.registry.latestOf .production) model first) :
    (service.loadModelFromMlflow mlflow).Bound ↔
      ∀ model first, Through mlflow.registry mlflow.latest mlflow.registry.latest model first → first.runId = model.runId := by
  obtain ⟨broken,exc,failed⟩ := attempt_fails service "Production".toList blocked
  by_cases goes : ∃ model first, Through mlflow.registry mlflow.latest mlflow.registry.latest model first
  · obtain ⟨model,first,through⟩ := goes
    obtain ⟨loaded,outcome,served,taken⟩ := attempt_through broken "latest".toList through
    simp only [loadModelFromMlflow,available,if_true,connected,failed,outcome]
    rw [loaded_bound served taken]
    refine ⟨?_,fun each => each model first through⟩
    intro same other second again
    obtain ⟨rfl,rfl⟩ := through_unique through again
    exact same
  · push Not at goes
    obtain ⟨gone,exc,missed⟩ := attempt_fails broken "latest".toList goes
    simp only [loadModelFromMlflow,available,if_true,connected,failed,missed]
    exact ⟨fun _ model first through => absurd through (goes model first),fun _ => cleared_bound gone⟩

theorem connected_bound : (service.loadModelFromMlflow mlflow).Bound ↔ mlflow.FirstListed := by
  simp only [Mlflow.FirstListed,available,connected,forall_const]
  by_cases goes : ∃ model first, Through mlflow.registry mlflow.production (mlflow.registry.latestOf .production) model first
  · obtain ⟨model,first,through⟩ := goes
    rw [production_bound service available connected through]
    refine ⟨?_,fun each => each.1 model first through⟩
    intro same
    refine ⟨?_,fun blocked => absurd through (blocked model first)⟩
    intro other second again
    obtain ⟨rfl,rfl⟩ := through_unique through again
    exact same
  · push Not at goes
    rw [latest_bound service available connected goes]
    exact ⟨fun each => ⟨fun model first through => absurd through (goes model first),fun _ => each⟩,fun each => each.2 goes⟩

end Connected

theorem unconnected_cleared (service : Service) (missing : ¬ (mlflow.available = true ∧ mlflow.setTrackingUri = .ok ())) :
    service.loadModelFromMlflow mlflow = service.cleared := by
  unfold loadModelFromMlflow
  split_ifs with available
  · cases connected : mlflow.setTrackingUri with
    | error exc => rfl
    | ok => exact absurd ⟨available,connected⟩ missing
  · rfl

theorem model_binding_exact (service : Service) (mlflow : Mlflow) :
    (service.loadModelFromMlflow mlflow).Bound ↔ mlflow.FirstListed := by
  by_cases reached : mlflow.available = true ∧ mlflow.setTrackingUri = .ok ()
  · exact connected_bound service reached.1 reached.2
  · rw [unconnected_cleared service reached]
    exact iff_of_true (cleared_bound service) fun available connected => absurd ⟨available,connected⟩ reached

def Calls.fine (order : Order ModelVersion) : Calls := ⟨.ok (),.ok order,fun _ => .ok (),.ok ()⟩
def Calls.unreachable : Calls := {Calls.fine .asIs with loadModel := .error (MlflowException [])}

-- A version that a run registered after the one in Production is listed before it.
def laterRun : Registry := ((Registry.empty.register "first".toList).transition 1).register "second".toList

theorem processor_of_later_run :
    ¬ ((Service.init "kryvara_model".toList).loadModelFromMlflow
      ⟨true,laterRun,.ok (),.fine .asIs,.fine .asIs⟩).Bound := by
  have served : ((Service.init "kryvara_model".toList).loadModelFromMlflow
      ⟨true,laterRun,.ok (),.fine .asIs,.fine .asIs⟩).model = some ⟨1,.production,"first".toList⟩ := by decide
  have taken : ((Service.init "kryvara_model".toList).loadModelFromMlflow
      ⟨true,laterRun,.ok (),.fine .asIs,.fine .asIs⟩).featureProcessor = some "second".toList := by decide
  rw [loaded_bound served taken]
  decide

-- Nothing is in Production that can be loaded, and the listing starts where asked.
def Registry.startingWith (registry : Registry) (model : ModelVersion) : Mlflow :=
  ⟨true,registry,.ok (),.unreachable,.fine (.first model)⟩

theorem starting_run (listed : Registry.latestOf registry stage = some model) (latest : registry.latest = some last)
    (bound : ((Service.init []).loadModelFromMlflow (registry.startingWith model)).Bound) : model.runId = last.runId := by
  have blocked : ∀ found first, ¬ Through registry .unreachable (registry.latestOf .production) found first := by
    intro found first through
    cases through.loads
  have each := (latest_bound (Service.init []) rfl rfl blocked).mp bound
  have member := (registry.listed_exact .asIs).mpr ⟨stage,listed⟩
  exact each last model ⟨latest,rfl,⟨.first model,rfl,Order.first_head member⟩,rfl,rfl⟩

-- A listing may start anywhere, so that only versions of one run are safe in all.
theorem bound_always_exact (registry : Registry) :
    (∀ service mlflow, mlflow.registry = registry → (Service.loadModelFromMlflow service mlflow).Bound) ↔
      ∀ stage other, ∀ model ∈ registry.latestOf stage, ∀ last ∈ registry.latestOf other, model.runId = last.runId := by
  refine ⟨?_,?_⟩
  · intro always stage other model listed last known
    obtain ⟨newest,latest⟩ := registry.latest_some (registry.latestOf_exact.mp listed).1
    exact (starting_run listed latest (always _ _ rfl)).trans (starting_run known latest (always _ _ rfl)).symm
  · rintro single service mlflow rfl
    by_cases reached : mlflow.available = true ∧ mlflow.setTrackingUri = .ok ()
    · have agree : ∀ {calls stage model first}, Through mlflow.registry calls (mlflow.registry.latestOf stage) model first →
          first.runId = model.runId := by
        intro calls stage model first through
        obtain ⟨order,_,head⟩ := through.listed
        obtain ⟨other,listed⟩ := (mlflow.registry.listed_exact order).mp (List.mem_of_head? head)
        exact single other stage first listed model through.found
      refine (connected_bound service reached.1 reached.2).mpr fun _ _ => ⟨fun model first through => agree through,?_⟩
      intro _ model first through
      exact agree ⟨mlflow.registry.latest_listed through.found,through.loads,through.listed,through.downloads,through.unpickles⟩
    · rw [unconnected_cleared service reached]
      exact cleared_bound service

end Kryvaracode.Models
