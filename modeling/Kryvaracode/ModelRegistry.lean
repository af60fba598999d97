import Kryvaracode.Exceptions
import Mathlib.Data.List.MinMax

namespace Kryvaracode.Models

inductive Stage where
  | none
  | staging
  | production
  | archived
  deriving DecidableEq, Repr

def Stage.all : List Stage := [.none,.staging,.production,.archived]

theorem stage_listed (stage : Stage) : stage ∈ Stage.all := by
  cases stage <;> decide

structure ModelVersion where
  version : Nat
  stage : Stage
  runId : Text
  deriving DecidableEq, Repr

-- A server that is asked for no order answers in any.
structure Order (α : Type) where
  arrange : List α → List α
  same : ∀ rows, (arrange rows).Perm rows

def Order.asIs : Order α := ⟨id,List.Perm.refl⟩

def Order.first [DecidableEq α] (row : α) : Order α where
  arrange rows := if row ∈ rows then row :: rows.erase row else rows
  same rows := by
    split_ifs with member
    · exact (List.perm_cons_erase member).symm
    · exact .refl rows

theorem Order.first_head [DecidableEq α] {row : α} (member : row ∈ rows) : ((Order.first row).arrange rows).head? = some row := by
  simp [Order.first,member]

theorem Order.mem_arrange (order : Order α) : row ∈ order.arrange rows ↔ row ∈ rows := (order.same rows).mem_iff

-- The versions of one registered model, which are numbered from 1.
structure Registry where
  versions : List ModelVersion
  distinct : (versions.map ModelVersion.version).Nodup

-- Archives what else is in Production.
def ModelVersion.moved (model : ModelVersion) (number : Nat) : ModelVersion :=
  if model.version = number then {model with stage := .production}
  else if model.stage = .production then {model with stage := .archived}
  else model

theorem moved_version (model : ModelVersion) (number : Nat) : (model.moved number).version = model.version := by
  unfold ModelVersion.moved
  split_ifs <;> rfl

theorem moved_production {model : ModelVersion} (produced : (model.moved number).stage = .production) :
    model.version = number := by
  unfold ModelVersion.moved at produced
  split_ifs at produced with same busy
  · exact same
  · exact absurd produced busy

theorem argmax_distinct {rows : List α} {key : α → Nat} (distinct : (rows.map key).Nodup) :
    rows.argmax key = some row ↔ row ∈ rows ∧ ∀ other ∈ rows, key other ≤ key row := by
  refine ⟨fun most => ⟨List.argmax_mem most,fun other member => List.le_of_mem_argmax member most⟩,?_⟩
  rintro ⟨member,greatest⟩
  cases most : rows.argmax key with
  | none => exact absurd (List.argmax_eq_none.mp most ▸ member) List.not_mem_nil
  | some found =>
      have equal := Nat.le_antisymm (greatest found (List.argmax_mem most)) (List.le_of_mem_argmax member most)
      exact congrArg some (List.inj_on_of_nodup_map distinct (List.argmax_mem most) member equal)

namespace Registry

def empty : Registry := ⟨[],List.nodup_nil⟩

variable (registry : Registry)

def latestOf (stage : Stage) : Option ModelVersion :=
  (registry.versions.filter fun model => model.stage = stage).argmax ModelVersion.version

def latest : Option ModelVersion := registry.versions.argmax ModelVersion.version

def getLatestVersions (order : Order ModelVersion) : List ModelVersion :=
  order.arrange (Stage.all.filterMap registry.latestOf)

def nextNumber : Nat := (registry.latest.elim 0 ModelVersion.version) + 1

theorem latestOf_exact : registry.latestOf stage = some model ↔
    model ∈ registry.versions ∧ model.stage = stage ∧
      ∀ other ∈ registry.versions, other.stage = stage → other.version ≤ model.version := by
  have distinct := registry.distinct.sublist (List.filter_sublist (p := fun model => model.stage = stage) |>.map _)
  simp only [latestOf,argmax_distinct distinct,List.mem_filter,decide_eq_true_eq,and_imp,and_assoc]

theorem latest_exact : registry.latest = some model ↔
    model ∈ registry.versions ∧ ∀ other ∈ registry.versions, other.version ≤ model.version :=
  argmax_distinct registry.distinct

theorem latest_some (member : model ∈ registry.versions) : ∃ newest, registry.latest = some newest := by
  refine Option.ne_none_iff_exists'.mp ?_
  intro missing
  exact List.ne_nil_of_mem member (List.argmax_eq_none.mp missing)

theorem latest_listed (newest : registry.latest = some model) : registry.latestOf model.stage = some model := by
  obtain ⟨member,greatest⟩ := registry.latest_exact.mp newest
  exact registry.latestOf_exact.mpr ⟨member,rfl,fun other known _ => greatest other known⟩

theorem listed_exact (order : Order ModelVersion) :
    model ∈ registry.getLatestVersions order ↔ ∃ stage, registry.latestOf stage = some model := by
  simp only [getLatestVersions,order.mem_arrange,List.mem_filterMap,stage_listed,true_and]

theorem next_fresh (member : model ∈ registry.versions) : model.version < registry.nextNumber := by
  obtain ⟨last,newest⟩ := registry.latest_some member
  rw [nextNumber,newest]
  exact Nat.lt_succ_of_le ((registry.latest_exact.mp newest).2 model member)

-- `register_model` for the model of a run.
def register (runId : Text) : Registry where
  versions := registry.versions ++ [⟨registry.nextNumber,.none,runId⟩]
  distinct := by
    rw [List.map_append,List.nodup_append]
    refine ⟨registry.distinct,List.nodup_singleton _,?_⟩
    intro number known last newest
    obtain ⟨model,member,rfl⟩ := List.mem_map.mp known
    rw [List.mem_singleton.mp newest]
    exact (registry.next_fresh member).ne

-- `transition_model_version_stage`, to Production and with `archive_existing_versions`.
def transition (number : Nat) : Registry where
  versions := registry.versions.map fun model => model.moved number
  distinct := by
    rw [List.map_map]
    exact (List.map_congr_left fun model _ => moved_version model number) ▸ registry.distinct

theorem register_production (runId : Text) :
    (registry.register runId).latestOf .production = registry.latestOf .production := by
  simp [latestOf,register]

theorem transition_production (member : model ∈ registry.versions) :
    (registry.transition model.version).latestOf .production = some {model with stage := .production} := by
  refine (latestOf_exact _).mpr ⟨?_,rfl,?_⟩
  · exact List.mem_map.mpr ⟨model,member,if_pos rfl⟩
  · intro other known produced
    obtain ⟨before,_,rfl⟩ := List.mem_map.mp known
    rw [moved_version,moved_production produced]

end Registry
end Kryvaracode.Models
