import Kryvaracode.ModelRegistry
import Kryvaracode.Runs

namespace Kryvaracode.Registrations
open Runs
open Models (Order)

-- A body that the schema has accepted.
structure ModelCreate where
  name : Text
  version : Text
  description : Option Text
  filePath : Text
  fileSize : Option Int
  accuracy : Option ℚ
  name_fits : 1 ≤ name.length ∧ name.length ≤ 100
  version_fits : 1 ≤ version.length ∧ version.length ≤ 50
  description_fits : ∀ text ∈ description, text.length ≤ 5000
  path_fits : 1 ≤ filePath.length ∧ filePath.length ≤ 500
  size_fits : ∀ size ∈ fileSize, 0 ≤ size
  accuracy_fits : ∀ value ∈ accuracy, 0 ≤ value ∧ value ≤ 1

-- A row of `model_metadata` is such a body with an id and an owner.
structure ModelMetadata where
  id : Int
  data : ModelCreate
  createdBy : Int

def ModelCreate.pair (data : ModelCreate) : Text × Text := (data.name,data.version)
def pairs (rows : List ModelMetadata) : List (Text × Text) := rows.map fun row => row.data.pair

-- `if version:` leaves an empty version out of the query.
def matching (name : Text) (version : Option Text) (row : ModelMetadata) : Bool :=
  decide (row.data.name = name) && (!truthy version || decide (some row.data.version = version))

def getModelMetadataByName (order : Order ModelMetadata) (rows : List ModelMetadata) (name : Text) (version : Option Text) :
    Option ModelMetadata := (order.arrange (rows.filter (matching name version))).head?

def createModelMetadata (rows : List ModelMetadata) (data : ModelCreate) (id userId : Int) : List ModelMetadata × Result ModelMetadata :=
  (rows ++ [⟨id,data,userId⟩],.ok ⟨id,data,userId⟩)

def alreadyRegistered (data : ModelCreate) : Failure :=
  ConflictError ("Model '".toList ++ data.name ++ "' version '".toList ++ data.version ++ "' already registered".toList)

def registerModel (order : Order ModelMetadata) (rows : List ModelMetadata) (args : ModelCreate) (user : Option Int) (id : Int) :
    List ModelMetadata × Result ModelMetadata :=
  match user with
  | none => (rows,.error (ForbiddenError "This tool requires an authenticated user".toList))
  | some userId =>
      if (getModelMetadataByName order rows args.name (some args.version)).isSome then (rows,.error (alreadyRegistered args))
      else createModelMetadata rows args id userId

-- A request to one of the two surfaces, with the id that a new row would get.
inductive Registration where
  | tool (args : ModelCreate) (user : Option Int) (id : Int)
  | post (model : ModelCreate) (userId id : Int)

namespace Registration
def data : Registration → ModelCreate
  | .tool args _ _ => args
  | .post model _ _ => model

def user : Registration → Option Int
  | .tool _ user _ => user
  | .post _ userId _ => some userId
end Registration

def register (order : Order ModelMetadata) (rows : List ModelMetadata) : Registration → List ModelMetadata × Result ModelMetadata
  | .tool args user id => registerModel order rows args user id
  | .post model userId id => createModelMetadata rows model id userId

def step (order : Order ModelMetadata) (rows : List ModelMetadata) (registration : Registration) : List ModelMetadata :=
  (register order rows registration).1

-- No pair stands twice, and a name with a version finds at most one row.
def OneEach (rows : List ModelMetadata) : Prop :=
  (pairs rows).Nodup ∧ ∀ name version, version ≠ [] → (rows.filter (matching name (some version))).length ≤ 1

-- A pair that is there is not registered again, and a caller with a user is told.
def Refuses (order : Order ModelMetadata) (rows : List ModelMetadata) (registration : Registration) : Prop :=
  registration.data.pair ∈ pairs rows → (register order rows registration).1 = rows ∧
    ∀ userId, registration.user = some userId →
      (register order rows registration).2 = .error (alreadyRegistered registration.data)

def NotPostedAgain (rows : List ModelMetadata) : Registration → Prop
  | .tool _ _ _ => True
  | .post model _ _ => model.pair ∉ pairs rows

theorem matching_exact (data : ModelCreate) (row : ModelMetadata) :
    matching data.name (some data.version) row = true ↔ row.data.pair = data.pair := by
  have some_version : truthy (some data.version) = true := by
    have long := data.version_fits.1
    cases version : data.version with
    | nil => rw [version] at long; cases long
    | cons c rest => rfl
  unfold matching ModelCreate.pair
  rw [some_version,Bool.and_eq_true,decide_eq_true_eq,Bool.not_true,Bool.false_or,decide_eq_true_eq,Option.some.injEq,
    Prod.mk.injEq]

-- However the rows are ordered, the lookup finds a row where there is one.
theorem lookup_exact (order : Order ModelMetadata) (rows : List ModelMetadata) (data : ModelCreate) :
    (getModelMetadataByName order rows data.name (some data.version)).isSome = true ↔ data.pair ∈ pairs rows := by
  unfold getModelMetadataByName pairs
  rw [List.isSome_head?,List.mem_map]
  refine ⟨?_,?_⟩
  · intro filled
    obtain ⟨row,listed⟩ := List.exists_mem_of_ne_nil _ (by simpa using filled)
    rw [order.mem_arrange,List.mem_filter,matching_exact] at listed
    exact ⟨row,listed⟩
  · intro held
    obtain ⟨row,listed⟩ := held
    rw [← matching_exact,← List.mem_filter,← order.mem_arrange] at listed
    simpa using List.ne_nil_of_mem listed

theorem distinct_one {rows : List ModelMetadata} (distinct : (pairs rows).Nodup) : OneEach rows := by
  refine ⟨distinct,?_⟩
  intro name version some_version
  have same : ∀ row ∈ rows.filter (matching name (some version)), row.data.pair = (name,version) := by
    intro row listed
    have matched := (List.mem_filter.mp listed).2
    have given : truthy (some version) = true := by
      cases version with
      | nil => exact absurd rfl some_version
      | cons c rest => rfl
    unfold matching at matched
    rw [given,Bool.and_eq_true,decide_eq_true_eq,Bool.not_true,Bool.false_or,decide_eq_true_eq,Option.some.injEq] at matched
    rw [ModelCreate.pair,matched.1,matched.2]
  have once : ((rows.filter (matching name (some version))).map fun row => row.data.pair).Nodup :=
    distinct.sublist (List.filter_sublist.map _)
  rw [List.map_congr_left same,List.map_const'] at once
  exact List.nodup_replicate.mp once

theorem tool_refuses (order : Order ModelMetadata) (rows : List ModelMetadata) (args : ModelCreate) (user : Option Int) (id : Int) :
    Refuses order rows (.tool args user id) := by
  intro present
  have found := (lookup_exact order rows args).mpr present
  unfold register registerModel
  cases user with
  | none => exact ⟨rfl,fun _ same => nomatch same⟩
  | some userId =>
      dsimp only
      rw [if_pos found]
      exact ⟨rfl,fun _ _ => rfl⟩

theorem refuses_exact (order : Order ModelMetadata) (rows : List ModelMetadata) (registration : Registration) :
    Refuses order rows registration ↔ NotPostedAgain rows registration := by
  cases registration with
  | tool args user id => exact iff_of_true (tool_refuses order rows args user id) trivial
  | post model userId id =>
      refine ⟨?_,fun absent present => absurd present absent⟩
      intro refuses present
      have longer := congrArg List.length (refuses present).1
      unfold register createModelMetadata at longer
      simp at longer

theorem create_distinct {rows : List ModelMetadata} (distinct : (pairs rows).Nodup) {data : ModelCreate}
    (absent : data.pair ∉ pairs rows) (id userId : Int) : (pairs (createModelMetadata rows data id userId).1).Nodup := by
  unfold pairs createModelMetadata
  rw [List.map_append,List.map_singleton,List.nodup_append]
  refine ⟨distinct,List.nodup_singleton _,?_⟩
  intro pair listed other last same
  rw [List.mem_singleton.mp last] at same
  exact absent (same ▸ listed)

theorem step_distinct (order : Order ModelMetadata) (rows : List ModelMetadata) (registration : Registration)
    (distinct : (pairs rows).Nodup) (fresh : NotPostedAgain rows registration) :
    (pairs (step order rows registration)).Nodup := by
  cases registration with
  | tool args user id =>
      unfold step register registerModel
      cases user with
      | none => exact distinct
      | some userId =>
          dsimp only
          split
          next => exact distinct
          next unfound => exact create_distinct distinct (mt (lookup_exact order rows args).mpr unfound) id userId
  | post model userId id => exact create_distinct distinct fresh id userId

theorem registrations_exact (order : Order ModelMetadata) (registrations : List Registration) :
    (Throughout (step order) OneEach [] registrations ∧ Steps (step order) (Refuses order) [] registrations) ↔
      Steps (step order) NotPostedAgain [] registrations := by
  have same := steps_congr (fun rows registration (_ : True) => refuses_exact order rows registration)
    (steps_forall (fun _ _ _ => trivial) [] : Steps (step order) (fun _ _ => True) [] registrations)
  refine ⟨fun both => same.mp both.2,?_⟩
  intro fresh
  refine ⟨?_,same.mpr fresh⟩
  have always := throughout_invariant (P := fun rows => (pairs rows).Nodup) (step_distinct order) [] registrations .nil fresh
  exact fun front early => distinct_one (always front early)

theorem undescribed : ∀ text ∈ (none : Option Text), text.length ≤ 5000 := by simp
theorem unsized : ∀ size ∈ (none : Option Int), 0 ≤ size := by simp

def firstModel : ModelCreate where
  name := ['m']
  version := ['1']
  description := none
  filePath := ['p']
  fileSize := none
  accuracy := none
  name_fits := by decide
  version_fits := by decide
  description_fits := undescribed
  path_fits := by decide
  size_fits := unsized
  accuracy_fits := nofun

theorem model_registered_twice : ¬ (Throughout (step .asIs) OneEach [] [.tool firstModel (some 1) 1,.post firstModel 1 2] ∧
    Steps (step .asIs) (Refuses .asIs) [] [.tool firstModel (some 1) 1,.post firstModel 1 2]) := by
  intro held
  have twice := (throughout_end held.1).1
  exact absurd twice (by decide)

end Kryvaracode.Registrations
