import Kryvaracode.Promotion
import Kryvaracode.Transactions

namespace Kryvaracode.Retraining
open Models Runs Transactions

inductive ExperimentStatus where
  | created
  | running
  | completed
  | failed
  deriving DecidableEq, Repr

structure Experiment where
  id : Nat
  name : Text
  description : Text
  status : ExperimentStatus
  startTime : Int
  endTime : Option Int
  metrics : Option (List (Text × ℚ))
  createdBy : Nat
  deriving DecidableEq

structure Store where
  experiments : List Experiment
  metadata : List ModelMetadata
  deriving DecidableEq

-- How a call ends. An interruption is an exception outside `Exception`.
inductive Outcome (α : Type) where
  | returned (value : α)
  | raised (exc : Failure)
  | interrupted (name : Text)

def Outcome.andThen (first : Outcome α) (next : α → Outcome β) : Outcome β :=
  match first with
  | .returned value => next value
  | .raised exc => .raised exc
  | .interrupted name => .interrupted name

-- What the calls of one task come to. The commits are in their order, and the
-- handler's is the last.
structure Surroundings where
  Frame : Type
  modelName : Text
  startTime : Int
  endTime : Int
  refresh : Outcome Unit
  loadTrainingData : Text → Outcome Frame
  trainModel : Frame → Text → Outcome Text
  creating : Result Unit
  completing : Result Unit
  registering : Result Unit
  failing : Result Unit

-- A sequence hands out an id that no row has.
def Store.nextId (store : Store) : Nat := (store.experiments.map Experiment.id).foldr max 0 + 1

def Store.add (store : Store) (experiment : Experiment) : Store :=
  {store with experiments := store.experiments ++ [experiment]}

def Store.update (store : Store) (id : Nat) (change : Experiment → Experiment) : Store :=
  {store with experiments := store.experiments.map fun row => if row.id = id then change row else row}

def Store.register (store : Store) (row : ModelMetadata) : Store := {store with metadata := store.metadata ++ [row]}

structure Report where
  status : Text
  modelVersion : Text
  experimentId : Nat
  deriving DecidableEq

section Task
variable (s : Surroundings) (experimentName trainingDataPath : Text)

def initialized (id : Nat) : Experiment :=
  ⟨id,experimentName,"Automated retraining triggered by drift detection. Data: ".toList ++ trainingDataPath,.running,
    s.startTime,none,none,1⟩

def finished (experiment : Experiment) : Experiment :=
  {experiment with status := .completed,endTime := some s.endTime,metrics := some [("accuracy".toList,95 / 100)]}

def newModel (id : Nat) (runId : Text) : ModelMetadata :=
  ⟨s.modelName,runId,"Automated run from experiment ".toList ++ (toString id).toList,artifactPath runId,1⟩

-- The refreshed row, the data and the training, of which the run id is kept.
def produce : Outcome Text :=
  s.refresh.andThen fun _ => (s.loadTrainingData trainingDataPath).andThen fun frame => s.trainModel frame experimentName

def record (id : Nat) (session : Session Store) (runId : Text) : Session Store × Outcome Report :=
  match (session.change (·.update id (finished s))).commit PendingRollbackError s.completing with
  | (session,.error exc) => (session,.raised exc)
  | (session,.ok ()) =>
      match (session.change (·.register (newModel s id runId))).commit PendingRollbackError s.registering with
      | (session,.error exc) => (session,.raised exc)
      | (session,.ok ()) => (session,.returned ⟨"success".toList,runId,id⟩)

def attempt (id : Nat) (session : Session Store) : Session Store × Outcome Report :=
  match produce s experimentName trainingDataPath with
  | .returned runId => record s id session runId
  | .raised exc => (session,.raised exc)
  | .interrupted name => (session,.interrupted name)

-- The handler goes on with the session as it is.
def handled (id : Nat) : Session Store × Outcome Report → Session Store × Outcome Report
  | (session,.raised exc) =>
      match (session.change (·.update id ({· with status := .failed}))).commit PendingRollbackError s.failing with
      | (session,.error other) => (session,.raised other)
      | (session,.ok ()) => (session,.raised exc)
  | other => other

def retrainModelTask (store : Store) : Store × Outcome Report :=
  let id := store.nextId
  let opened := (Session.opened store).change (·.add (initialized s experimentName trainingDataPath id))
  let ended :=
    match opened.commit PendingRollbackError s.creating with
    | (session,.error exc) => handled s id (session,.raised exc)
    | (session,.ok ()) => handled s id (attempt s experimentName trainingDataPath id session)
  (ended.1.committed,ended.2)

-- A row for the run that was produced came into the table.
def Registered (before after : Store) : Prop := ∃ runId row, produce s experimentName trainingDataPath = .returned runId ∧
  after.metadata = before.metadata ++ [row] ∧ row.version = runId

-- The one new experiment is completed exactly where its run is registered, else failed.
def Truthful (before after : Store) : Prop := ∃ row, after.experiments = before.experiments ++ [row] ∧
  (row.status = .completed ↔ Registered s experimentName trainingDataPath before after) ∧
    (¬ Registered s experimentName trainingDataPath before after → row.status = .failed)

-- No commit fails after the training, and what fails before it is an `Exception` of
-- which the handler's commit tells.
def Told : Prop :=
  match produce s experimentName trainingDataPath with
  | .returned _ => s.completing = .ok () ∧ s.registering = .ok ()
  | .raised _ => s.failing = .ok ()
  | .interrupted _ => False

end Task

section Rows
variable {store : Store}

theorem nextId_fresh (row : Experiment) (listed : row ∈ store.experiments) : row.id ≠ store.nextId := by
  have bound : ∀ ids : List Nat, ∀ id ∈ ids, id ≤ ids.foldr max 0 := by
    intro ids
    induction ids with
    | nil => intro id inside; cases inside
    | cons first rest ih =>
        intro id inside
        rcases List.mem_cons.mp inside with rfl | later
        · exact le_max_left _ _
        · exact (ih id later).trans (le_max_right _ _)
  exact (Nat.lt_succ_of_le (bound _ row.id (List.mem_map_of_mem listed))).ne

-- Only the row that was added is changed.
theorem update_added (experiment : Experiment) (its : experiment.id = store.nextId) (change : Experiment → Experiment) :
    (store.add experiment).update store.nextId change = store.add (change experiment) := by
  have others : store.experiments.map (fun row => if row.id = store.nextId then change row else row) = store.experiments := by
    refine (List.map_congr_left fun row listed => ?_).trans (List.map_id _)
    exact if_neg (nextId_fresh row listed)
  rw [Store.update,Store.add,List.map_append,others,List.map_singleton,if_pos its]
  rfl

end Rows

section Endings
variable (s : Surroundings)

-- The handler marks the experiment and commits once more.
theorem handled_run (id : Nat) (session : Session Store) (exc : Failure) : (handled s id (session,.raised exc)).1 =
    run (Session.step PendingRollbackError) session
      [.change (·.update id ({· with status := .failed})),.commit s.failing] := by
  rw [handled]
  split
  next other ended => exact congrArg Prod.fst ended.symm
  next ended => exact congrArg Prod.fst ended.symm

theorem handled_spoiled (id : Nat) (session : Session Store) (broken : session.needsRollback = true) (exc : Failure) :
    (handled s id (session,.raised exc)).1.committed = session.committed := by
  rw [handled_run,run_spoiled PendingRollbackError session _ broken]

theorem handled_usable (id : Nat) (store : Store) (exc : Failure) :
    (handled s id (.opened store,.raised exc)).1.committed = match s.failing with
      | .ok () => store.update id ({· with status := .failed})
      | .error _ => store := by
  rw [handled_run,run_cons,run_cons,run_nil,Session.step,Session.step]
  cases s.failing with
  | ok => rw [commit_ok PendingRollbackError _ rfl]; rfl
  | error other => rw [commit_failed PendingRollbackError _ rfl]; rfl

-- A commit that fails in the record of a run is the last that reaches the store.
theorem record_committed (id : Nat) (store : Store) (runId : Text) :
    (handled s id (record s id (.opened store) runId)).1.committed = match s.completing,s.registering with
      | .error _,_ => store
      | .ok (),.error _ => store.update id (finished s)
      | .ok (),.ok () => (store.update id (finished s)).register (newModel s id runId) := by
  rw [record]
  cases s.completing with
  | error exc =>
      rw [commit_failed PendingRollbackError _ rfl]
      exact handled_spoiled s id _ rfl exc
  | ok =>
      rw [commit_ok PendingRollbackError _ rfl]
      cases s.registering with
      | error exc =>
          dsimp only
          rw [commit_failed PendingRollbackError _ rfl]
          exact handled_spoiled s id _ rfl exc
      | ok =>
          dsimp only
          rw [commit_ok PendingRollbackError _ rfl]
          rfl

end Endings

section Task
variable {s : Surroundings} {experimentName trainingDataPath : Text} {store : Store}

theorem task_store (created : s.creating = .ok ()) : (retrainModelTask s experimentName trainingDataPath store).1 =
    match produce s experimentName trainingDataPath with
    | .returned runId =>
        match s.completing,s.registering with
        | .error _,_ => store.add (initialized s experimentName trainingDataPath store.nextId)
        | .ok (),.error _ => store.add (finished s (initialized s experimentName trainingDataPath store.nextId))
        | .ok (),.ok () => (store.add (finished s (initialized s experimentName trainingDataPath store.nextId))).register
            (newModel s store.nextId runId)
    | .raised _ =>
        match s.failing with
        | .ok () => store.add {initialized s experimentName trainingDataPath store.nextId with status := .failed}
        | .error _ => store.add (initialized s experimentName trainingDataPath store.nextId)
    | .interrupted _ => store.add (initialized s experimentName trainingDataPath store.nextId) := by
  rw [retrainModelTask]
  dsimp only
  rw [created,commit_ok PendingRollbackError _ rfl]
  dsimp only
  rw [attempt]
  cases produce s experimentName trainingDataPath with
  | interrupted name => rfl
  | raised exc =>
      refine (handled_usable s store.nextId _ exc).trans ?_
      cases s.failing with
      | ok => exact update_added _ rfl _
      | error other => rfl
  | returned runId =>
      refine (record_committed s store.nextId _ runId).trans ?_
      cases s.completing with
      | error exc => rfl
      | ok =>
          have completed := update_added (initialized s experimentName trainingDataPath store.nextId) rfl (finished s)
          cases s.registering with
          | error exc => exact completed
          | ok => exact congrArg (·.register (newModel s store.nextId runId)) completed

-- An experiment that is all that was added has no model.
theorem unregistered_truthful (row : Experiment) :
    Truthful s experimentName trainingDataPath store (store.add row) ↔ row.status = .failed := by
  have none : ¬ Registered s experimentName trainingDataPath store (store.add row) := by
    rintro ⟨_,added,_,grown,_⟩
    exact absurd (congrArg List.length grown) (by simp [Store.add])
  constructor
  · rintro ⟨other,also,_,told⟩
    cases List.append_cancel_left also
    exact told none
  · intro failed
    refine ⟨row,rfl,iff_of_false ?_ none,fun _ => failed⟩
    rw [failed]
    decide

end Task

theorem retrain_truthful_exact (s : Surroundings) (created : s.creating = .ok ()) (experimentName trainingDataPath : Text)
    (store : Store) : Truthful s experimentName trainingDataPath store
      (retrainModelTask s experimentName trainingDataPath store).1 ↔ Told s experimentName trainingDataPath := by
  rw [task_store created,Told]
  cases produced : produce s experimentName trainingDataPath with
  | interrupted name => exact (unregistered_truthful _).trans (iff_of_false (by intro same; cases same) not_false)
  | raised exc =>
      dsimp only
      cases s.failing with
      | ok => exact (unregistered_truthful _).trans (iff_of_true rfl rfl)
      | error other =>
          rw [unregistered_truthful]
          exact iff_of_false (by intro same; cases same) (by intro same; cases same)
  | returned runId =>
      dsimp only
      cases s.completing with
      | error exc =>
          rw [unregistered_truthful]
          exact iff_of_false (by intro same; cases same) (by rintro ⟨same,_⟩; cases same)
      | ok =>
          cases s.registering with
          | error exc =>
              rw [unregistered_truthful]
              exact iff_of_false (by intro same; cases same) (by rintro ⟨_,same⟩; cases same)
          | ok =>
              refine iff_of_true ?_ ⟨rfl,rfl⟩
              have registered : Registered s experimentName trainingDataPath store
                  ((store.add (finished s (initialized s experimentName trainingDataPath store.nextId))).register
                    (newModel s store.nextId runId)) := ⟨runId,_,produced,rfl,rfl⟩
              exact ⟨_,rfl,iff_of_true rfl registered,fun none => absurd registered none⟩

-- Training that goes through, with every commit but the one named.
def trained (registering failing : Result Unit) : Surroundings where
  Frame := Unit
  modelName := "kryvara_model".toList
  startTime := 0
  endTime := 1
  refresh := .returned ()
  loadTrainingData _ := .returned ()
  trainModel _ _ := .returned "run".toList
  creating := .ok ()
  completing := .ok ()
  registering := registering
  failing := failing

theorem retrain_truthful : Truthful (trained (.ok ()) (.ok ())) ['e'] ['d'] ⟨[],[]⟩
    (retrainModelTask (trained (.ok ()) (.ok ())) ['e'] ['d'] ⟨[],[]⟩).1 :=
  (retrain_truthful_exact (trained (.ok ()) (.ok ())) rfl ['e'] ['d'] ⟨[],[]⟩).mpr ⟨rfl,rfl⟩

-- The experiment is completed, and its model is not there.
theorem completed_unregistered : ¬ Truthful (trained (.error (RuntimeError [])) (.ok ())) ['e'] ['d'] ⟨[],[]⟩
    (retrainModelTask (trained (.error (RuntimeError [])) (.ok ())) ['e'] ['d'] ⟨[],[]⟩).1 := by
  rintro ⟨row,rows,completed,_⟩
  have held : row.status = .completed := by
    cases rows
    rfl
  obtain ⟨_,_,_,grown,_⟩ := completed.mp held
  cases grown

end Kryvaracode.Retraining
