import Kryvaracode.Promotion

namespace Kryvaracode.Models
open Records (comparison accuracyOf)

-- The calls of one promotion that may fail beside those of `Answers`. A transition
-- that fails may have been made all the same; a commit that fails has not.
structure Outage where
  answers : Answers
  landed : Bool
  lookup : Result Unit
  rollback : Result Unit

-- MLflow's answers up to the transition.
def Outage.before (outage : Outage) : Answers := {outage.answers with transition := .ok ()}

def Registry.inProduction (registry : Registry) : List Nat :=
  (registry.versions.filter fun model => model.stage = .production).map ModelVersion.version

namespace Records

-- The handler: the database alone is rolled back.
def handled (records : Records) (outage : Outage) (exc : Failure) : Records × Result (Bool × Text) :=
  match outage.rollback with
  | .error raised => (records,.error raised)
  | .ok () => (records,.ok (false,exc.detail))

def promoted (records : Records) (number : Nat) : Records :=
  {records with registry := records.registry.transition number}

section Promotion
variable {α : Type} [LinearOrder α] [Zero α] (modelName : Text) (metrics : Text → Option α) (format : α → Text)

def promoteModelUnder (records : Records) (outage : Outage) (versionToPromote : Text) : Records × Result (Bool × Text) :=
  if outage.answers.available then
    match records.decision modelName metrics format outage.before versionToPromote with
    | .error exc => records.handled outage exc
    | .ok (.refused message) => (records,.ok (false,message))
    | .ok (.moves number) =>
        match outage.answers.transition with
        | .error exc => (if outage.landed then records.promoted number else records).handled outage exc
        | .ok () =>
            match outage.lookup >>= fun _ => outage.answers.commit with
            | .error exc => (records.promoted number).handled outage exc
            | .ok () => (⟨records.registry.transition number,records.recorded modelName versionToPromote⟩,
                .ok (true,"Model ".toList ++ versionToPromote ++ " promoted to Production.".toList))
  else (records,.error (RuntimeError "MLflow not installed - model promotion unavailable".toList))

end Promotion

end Records

def Unchanged (before after : Records) : Prop :=
  after.registry.inProduction = before.registry.inProduction ∧ after.metadata = before.metadata

-- A version of the run is alone in Production and the run has its row.
structure Installed (after : Records) (versionToPromote : Text) : Prop where
  alone : ∃ model ∈ after.registry.versions, model.runId = versionToPromote ∧
    after.registry.inProduction = [model.version]
  row : ∃ row ∈ after.metadata, row.version = versionToPromote

def Atomic (before : Records) (versionToPromote : Text) (outcome : Records × Result (Bool × Text)) : Prop :=
  ∀ truth message, outcome.2 = .ok (truth,message) →
    if truth then Installed outcome.1 versionToPromote else Unchanged before outcome.1

section Transition
variable {registry : Registry}

theorem moved_stage (model : ModelVersion) (number : Nat) :
    (model.moved number).stage = .production ↔ model.version = number := by
  refine ⟨moved_production,?_⟩
  intro same
  rw [ModelVersion.moved,if_pos same]

theorem transition_inProduction (member : model ∈ registry.versions) :
    (registry.transition model.version).inProduction = [model.version] := by
  have numbers : (registry.transition model.version).inProduction =
      (registry.versions.map ModelVersion.version).filter fun number => number = model.version := by
    rw [Registry.inProduction,Registry.transition,List.filter_map,List.map_map,List.filter_map]
    simp only [Function.comp_def,moved_stage,moved_version]
  have once := List.count_eq_one_of_mem registry.distinct (List.mem_map.mpr ⟨model,member,rfl⟩)
  rw [numbers,List.filter_eq,once]
  rfl

end Transition

section Atomicity
variable {α : Type} [LinearOrder α] [Zero α] (modelName : Text) (metrics : Text → Option α) (format : α → Text)

-- What is read before the transition lets a version of the run be promoted.
def Chosen (records : Records) (answers : Answers) (versionToPromote : Text) (number : Nat) : Prop :=
  answers.available = true ∧ BeatsFirstRow modelName metrics records answers versionToPromote ∧
    answers.getRun versionToPromote = .ok () ∧ ∃ order, answers.getLatestVersions = .ok order ∧
      ∃ model, findVersion records.registry order versionToPromote = some model ∧ model.version = number

-- The transition takes no effect, or the calls after it succeed, or it changes
-- nothing; where the rollback fails nothing is returned.
def Settles (records : Records) (outage : Outage) (versionToPromote : Text) : Prop :=
  ∀ number, Chosen modelName metrics records outage.answers versionToPromote number →
    (outage.answers.transition = .ok () ∨ outage.landed = true) → outage.rollback = .ok () →
      (outage.answers.transition = .ok () ∧ outage.lookup = .ok () ∧ outage.answers.commit = .ok ()) ∨
        records.registry.inProduction = [number]

variable {modelName metrics} {records : Records} {outage : Outage} {versionToPromote : Text}

theorem chosen_moves {number : Nat} (available : outage.answers.available = true) :
    records.decision modelName metrics format outage.before versionToPromote = .ok (.moves number) ↔
      Chosen modelName metrics records outage.answers versionToPromote number := by
  rw [decision_moves,moveTo_moves,Chosen,and_iff_right available]
  refine and_congr Iff.rfl (and_congr Iff.rfl ?_)
  refine exists_congr fun order => and_congr_right fun _ => exists_congr fun model => and_congr_right fun _ => ?_
  exact and_iff_right rfl

theorem moveTo_before (answers : Answers) : records.moveTo answers versionToPromote =
    (records.moveTo {answers with transition := .ok ()} versionToPromote >>= fun decision =>
      match decision with
      | .refused message => pure (.refused message)
      | .moves number => answers.transition >>= fun _ => pure (.moves number)) := by
  unfold Records.moveTo
  cases answers.getLatestVersions with
  | error exc => rfl
  | ok order =>
      dsimp only [bind,Except.bind]
      cases findVersion records.registry order versionToPromote with
      | none => rfl
      | some model => rfl

theorem comparison_before (answers : Answers) (row : Option ModelMetadata) :
    comparison metrics format {answers with transition := .ok ()} versionToPromote row =
      comparison metrics format answers versionToPromote row := by
  cases row <;> rfl

theorem decision_before (answers : Answers) : records.decision modelName metrics format answers versionToPromote =
    (records.decision modelName metrics format {answers with transition := .ok ()} versionToPromote >>= fun decision =>
      match decision with
      | .refused message => pure (.refused message)
      | .moves number => answers.transition >>= fun _ => pure (.moves number)) := by
  unfold Records.decision
  simp only [comparison_before]
  rw [moveTo_before]
  cases answers.query with
  | error exc => rfl
  | ok order =>
      dsimp only [bind,Except.bind]
      cases answers.getRun versionToPromote with
      | error exc => rfl
      | ok =>
          dsimp only
          cases comparison metrics format answers versionToPromote (records.currentProd modelName order) with
          | error exc => rfl
          | ok refusal => cases refusal <;> rfl

-- Where a failed transition has no effect and only the commit fails after it, this
-- is the promotion of a run.
theorem promote_plain (answers : Answers) :
    records.promoteModelUnder modelName metrics format ⟨answers,false,.ok (),.ok ()⟩ versionToPromote =
      records.promoteModel modelName metrics format answers versionToPromote := by
  rw [Records.promoteModelUnder,Records.promoteModel,decision_before format answers,Outage.before]
  dsimp only
  generalize records.decision modelName metrics format {answers with transition := .ok ()} versionToPromote = decided
  cases answers.available with
  | false => rfl
  | true =>
      cases decided with
      | error exc => rfl
      | ok decision =>
          cases decision with
          | refused message => rfl
          | moves number =>
              dsimp only [bind,Except.bind]
              cases answers.transition with
              | error exc => rfl
              | ok =>
                  dsimp only
                  cases answers.commit <;> rfl

theorem handled_atomic (after : Records) (exc : Failure) : Atomic records versionToPromote (after.handled outage exc) ↔
    (outage.rollback = .ok () → Unchanged records after) := by
  rw [Records.handled]
  cases outage.rollback with
  | error raised =>
      refine iff_of_true ?_ (by intro same; cases same)
      intro truth message same
      cases same
  | ok =>
      constructor
      · intro atomic _
        exact atomic false exc.detail rfl
      · intro kept truth message same
        cases same
        exact kept rfl

theorem promoted_unchanged {number : Nat} (chosen : Chosen modelName metrics records outage.answers versionToPromote number) :
    Unchanged records (records.promoted number) ↔ records.registry.inProduction = [number] := by
  obtain ⟨_,_,_,order,_,model,found,rfl⟩ := chosen
  have alone := transition_inProduction (found_listed found).1
  rw [Unchanged,Records.promoted,alone,eq_comm]
  exact and_iff_left rfl

theorem recorded_row (records : Records) :
    ∃ row ∈ records.recorded modelName versionToPromote, row.version = versionToPromote := by
  rw [Records.recorded]
  split
  next known =>
    obtain ⟨row,member,named⟩ := List.any_eq_true.mp known
    exact ⟨row,member,of_decide_eq_true named⟩
  next => exact ⟨_,List.mem_append_right _ List.mem_cons_self,rfl⟩

theorem chosen_installed {number : Nat} (chosen : Chosen modelName metrics records outage.answers versionToPromote number) :
    Installed ⟨records.registry.transition number,records.recorded modelName versionToPromote⟩ versionToPromote := by
  obtain ⟨_,_,_,order,_,model,found,rfl⟩ := chosen
  obtain ⟨member,named⟩ := found_listed found
  refine ⟨⟨model.moved model.version,List.mem_map.mpr ⟨model,member,rfl⟩,?_,?_⟩,recorded_row records⟩
  · rw [ModelVersion.moved,if_pos rfl]
    exact named
  · rw [moved_version]
    exact transition_inProduction member

theorem settles_chosen {number : Nat} (chosen : Chosen modelName metrics records outage.answers versionToPromote number) :
    Settles modelName metrics records outage versionToPromote ↔
      ((outage.answers.transition = .ok () ∨ outage.landed = true) → outage.rollback = .ok () →
        (outage.answers.transition = .ok () ∧ outage.lookup = .ok () ∧ outage.answers.commit = .ok ()) ∨
          Unchanged records (records.promoted number)) := by
  rw [promoted_unchanged chosen]
  refine ⟨fun settles => settles number chosen,?_⟩
  intro settles other again
  have same : other = number := by
    have first := (chosen_moves (fun _ => []) chosen.1).mpr chosen
    have second := (chosen_moves (fun _ => []) chosen.1).mpr again
    cases first.symm.trans second
    rfl
  rw [same]
  exact settles

theorem unchosen_atomic
    (never : ∀ number, ¬ Chosen modelName metrics records outage.answers versionToPromote number) :
    Atomic records versionToPromote (records.promoteModelUnder modelName metrics format outage versionToPromote) := by
  rw [Records.promoteModelUnder]
  split
  next available =>
    split
    next exc _ => exact (handled_atomic records exc).mpr fun _ => ⟨rfl,rfl⟩
    next =>
      intro truth told same
      cases same
      exact ⟨rfl,rfl⟩
    next number decided => exact absurd ((chosen_moves format available).mp decided) (never number)
  next =>
    intro truth message same
    cases same

theorem chosen_atomic {number : Nat} (chosen : Chosen modelName metrics records outage.answers versionToPromote number) :
    Atomic records versionToPromote (records.promoteModelUnder modelName metrics format outage versionToPromote) ↔
      Settles modelName metrics records outage versionToPromote := by
  rw [settles_chosen chosen,Records.promoteModelUnder,if_pos chosen.1,(chosen_moves format chosen.1).mpr chosen]
  dsimp only
  cases outage.answers.transition with
  | error exc =>
      dsimp only
      rw [handled_atomic]
      cases outage.landed with
      | false => exact iff_of_true (fun _ => ⟨rfl,rfl⟩) (by simp)
      | true => simp
  | ok =>
      dsimp only
      cases later : outage.lookup >>= fun _ => outage.answers.commit with
      | error exc =>
          dsimp only
          rw [handled_atomic]
          have unmet : ¬ (outage.lookup = .ok () ∧ outage.answers.commit = .ok ()) := by
            rintro ⟨looked,committed⟩
            cases later.symm.trans (then_ok.mpr ⟨looked,committed⟩)
          simp [unmet]
      | ok =>
          obtain ⟨looked,committed⟩ := then_ok.mp later
          refine iff_of_true ?_ fun _ _ => .inl ⟨rfl,looked,committed⟩
          intro truth message same
          cases same
          exact chosen_installed chosen

theorem promotion_atomic_exact (records : Records) (outage : Outage) (versionToPromote : Text) :
    Atomic records versionToPromote (records.promoteModelUnder modelName metrics format outage versionToPromote) ↔
      Settles modelName metrics records outage versionToPromote := by
  by_cases some : ∃ number, Chosen modelName metrics records outage.answers versionToPromote number
  · obtain ⟨number,chosen⟩ := some
    exact chosen_atomic format chosen
  · rw [not_exists] at some
    exact iff_of_true (unchosen_atomic format some) fun number chosen => absurd chosen (some number)

end Atomicity

-- A run in Production, and a better one whose promotion is not committed.
def unrecorded : Records where
  registry := (Registry.empty.register "old".toList |>.transition 1).register "new".toList
  metadata := []

def uncommitted : Outage := ⟨{Answers.fine with commit := .error (RuntimeError [])},false,.ok (),.ok ()⟩

theorem promotion_half_done : ¬ Atomic unrecorded "new".toList
    (unrecorded.promoteModelUnder "kryvara_model".toList threeRuns (fun _ => []) uncommitted "new".toList) := by
  intro atomic
  have told : (unrecorded.promoteModelUnder "kryvara_model".toList threeRuns (fun _ => []) uncommitted "new".toList).2 =
      .ok (false,[]) := by decide +kernel
  have kept := (atomic false [] told).1
  exact absurd kept (by decide +kernel)

end Kryvaracode.Models
