import Kryvaracode.JobTurns

namespace Kryvaracode.Scheduling
open ToolInvocation JsonText UnicodeText

section Isolation
variable (digit : Char → Option Nat) (s : Surroundings) (database : Database)

-- The run returns, gives every due job its turn and records each invocation.
structure Isolated (depth : Nat) : Prop where
  returns : ∃ after told, runDueJobs digit s (depth + 1) (start database) = some (after,.completed told) ∧
    ∀ visit ∈ callVisits digit s depth (start database), due digit visit.before.database (s.clock 0) visit.job = true →
      ⟨visit.job,visit.before.database⟩ ∈ after.invoked
  reaches : ∀ job ∈ database.jobs, due digit database (s.clock 0) job = true →
    ∃ visit ∈ callVisits digit s depth (start database), visit.job.object = job.object
  records : ∀ visit ∈ callVisits digit s depth (start database),
    due digit visit.before.database (s.clock 0) visit.job = true → Told digit s (runDueJobs digit s depth) (s.clock 0) visit

def FailureIsolation : Prop := ∃ depth, Isolated digit s database depth

-- The due jobs are on the page, and no invocation spoils the session.
structure Unspoiled (depth : Nat) : Prop where
  usable : database.usable = true
  listed : ∀ job ∈ database.jobs, due digit database (s.clock 0) job = true → job ∈ (s.order 0 database.jobs).take 1000
  settle : ∀ visit ∈ callVisits digit s depth (start database),
    due digit visit.before.database (s.clock 0) visit.job = true → Settles s (runDueJobs digit s depth) visit

variable {digit s database}

theorem run_usable (digit : Char → Option Nat) (s : Surroundings) (usable : database.usable = true) (depth : Nat) :
    runDueJobs digit s (depth + 1) (start database) = jobLoop digit s (runDueJobs digit s depth) (s.clock 0)
        ((s.order 0 database.jobs).take 1000) [] (start database).started ∧
      callVisits digit s depth (start database) = visits digit s (runDueJobs digit s depth) (s.clock 0)
        ((s.order 0 database.jobs).take 1000) (start database).started := by
  have listed := listed_usable s database 0 usable
  refine ⟨?_,?_⟩
  · unfold runDueJobs
    rw [start,listed]
    rfl
  · unfold callVisits
    rw [start,listed]

theorem isolated_unspoiled {depth : Nat} (isolated : Isolated digit s database depth) : Unspoiled digit s database depth := by
  obtain ⟨after,told,completed,_⟩ := isolated.returns
  have usable : database.usable = true := by
    rw [← Bool.not_eq_false]
    intro unusable
    obtain ⟨exc,raised⟩ := run_unusable s database 0 digit unusable depth
    cases raised.symm.trans completed
  obtain ⟨run,turns⟩ := run_usable digit s usable depth
  refine ⟨usable,?_,?_⟩
  · intro job row ready
    obtain ⟨visit,member,same⟩ := isolated.reaches job row ready
    rw [turns] at member
    have front := (visits_page digit s _ _ _ _).1.subset (List.mem_map_of_mem (f := fun visit : Visit => visit.job.object) member)
    obtain ⟨other,listed,alike⟩ := List.mem_map.mp front
    have one := List.inj_on_of_nodup_map (jobs_objects database) (page_member s database 0 1000 other listed) row (alike.trans same)
    rwa [← one]
  · rw [turns]
    rw [run] at completed
    exact (loop_completed _ [] _).mp ⟨after,told,completed⟩

theorem unspoiled_isolated {depth : Nat} (unspoiled : Unspoiled digit s database depth) : Isolated digit s database depth := by
  obtain ⟨run,turns⟩ := run_usable digit s unspoiled.usable depth
  have settle := unspoiled.settle
  rw [turns] at settle
  obtain ⟨after,told,completed⟩ := (loop_completed _ [] _).mpr settle
  refine ⟨⟨after,told,run.trans completed,?_⟩,?_,?_⟩
  · rw [turns]
    exact (loop_grows (run_grows depth) _ [] _ after _ completed).2
  · intro job row ready
    have whole := (visits_page digit s _ _ _ _).2 settle
    have member := List.mem_map_of_mem (f := ScheduledJob.object) (unspoiled.listed job row ready)
    rw [← whole] at member
    rw [turns]
    exact List.mem_map.mp member
  · rw [turns]
    intro visit member ready
    exact turn_told ready (settle visit member ready)

end Isolation

section Audited
variable (tables : Tables)

theorem writeAudit_status (session : Session) (name : Text) (arguments : Members) (user : Option User) (success : Bool)
    (error : Option Text) : (writeAudit tables session name arguments user success error).status = .ready ↔
      session.status = .ready := by
  cases status : session.status <;> simp [writeAudit,createAuditEntry,Session.commit,status]

-- The audit writer drops its own failure, and leaves the session as spoiled as
-- the handler did.
theorem invokeTool_status (tools : List Tool) (name : Text) (tool : Tool) (found : getTool tools name = some tool)
    (arguments : Members) (session : Session) (user : Option User) :
    (invokeTool tables tools name arguments session user).1.status = .ready ↔
      (course tool arguments session user).1.status = .ready := by
  cases validated : tool.parameters arguments with
  | error text => simp only [invokeTool,found,course,validated,writeAudit_status]
  | ok parsed =>
      rcases ran : tool.handler parsed session user with ⟨after,ending⟩
      cases ending <;> simp only [invokeTool,found,course,validated,ran,writeAudit_status]

end Audited

-- Tools that act on the session alone, each through the audited entry.
def tooled (tools : List Tool) : Surroundings where
  user := none
  tables := ascii
  clock _ := 0
  stored now := ⟨now,some 0⟩
  order _ jobs := jobs
  forbidden _ := []
  invoke _ name arguments database :=
    (database.withSession (invokeTool ascii tools name arguments database.session none).1,
      (invokeTool ascii tools name arguments database.session none).2)
  stored_moment := utc_moment
  order_perm _ jobs := List.Perm.refl jobs
  keeps _ _ _ _ _ held := held

def taken : ScheduledJob := ⟨0,1,"copy".toList,"create_scheduled_job".toList,none,60,none,true,none,none⟩

def waiting : ScheduledJob := ⟨1,2,"report".toList,"system_info".toList,none,60,none,true,none,none⟩

def spoiling : Database := ⟨SessionLocal [],[taken,waiting],[],by decide,by decide⟩

end Kryvaracode.Scheduling
