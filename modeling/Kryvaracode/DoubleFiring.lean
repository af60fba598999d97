import Kryvaracode.Scheduler

namespace Kryvaracode.Scheduling
open ToolInvocation JsonText UnicodeText

-- One run ends and calls on each job at most once, the runs inside it counted.
def FiresOnce (digit : Char → Option Nat) (s : Surroundings) (database : Database) : Prop :=
  ∃ depth after outcome, runDueJobs digit s depth (start database) = some (after,outcome) ∧
    (after.invoked.map fun invocation => invocation.job.object).Nodup

def NoDoubleFiring (digit : Char → Option Nat) (database : Database) (now : Int) : Prop :=
  ∀ s : Surroundings, s.clock 0 = now → FiresOnce digit s database

section Single
variable (digit : Char → Option Nat) (s : Surroundings) (nested : Progress → Option (Progress × Outcome)) (now : Int)

theorem jobLoop_single (page : List ScheduledJob) (reports : List JobReport) (progress : Progress)
    (held : ∀ job ∈ page, job ∈ progress.database.held) (ids : (page.map ScheduledJob.id).Nodup)
    (single : ∀ job ∈ page, ∀ database, due digit database now job = true → job.runsRunner = false) :
    ∃ after outcome ran, jobLoop digit s nested now page reports progress = some (after,outcome) ∧
      after.invoked = progress.invoked ++ ran ∧ (ran.map Invocation.job).Sublist page := by
  induction page generalizing reports progress with
  | nil => exact ⟨progress,_,[],rfl,by simp,by simp⟩
  | cons job rest ih =>
      have current := current_held progress.database job (held job (by simp))
      obtain ⟨after,took,ran,invoked,kept⟩ := turn_single digit s nested now job progress (single job (by simp) _)
      rw [List.map_cons,List.nodup_cons] at ids
      have remaining : ∀ other ∈ rest, other ∈ after.database.held := by
        intro other member
        refine kept other (held other (by simp [member])) fun same => ids.1 ?_
        rw [← same]
        exact List.mem_map_of_mem member
      let first := if due digit progress.database now job then [Invocation.mk job progress.database] else []
      have one : (first.map Invocation.job).Sublist [job] := by
        by_cases ready : due digit progress.database now job = true <;> simp [first,ready]
      have last : (first.map Invocation.job).Sublist (job :: rest) := one.trans (List.singleton_sublist.mpr (by simp))
      have later (reports : List JobReport) : ∃ last outcome more, jobLoop digit s nested now rest reports after =
          some (last,outcome) ∧ last.invoked = progress.invoked ++ more ∧ (more.map Invocation.job).Sublist (job :: rest) := by
        obtain ⟨last,outcome,more,ended,added,part⟩ := ih reports after remaining ids.2
          fun other member => single other (by simp [member])
        refine ⟨last,outcome,first ++ more,ended,by rw [added,invoked,List.append_assoc],?_⟩
        rw [List.map_append]
        exact one.append part
      simp only [jobLoop,current,ran]
      cases took with
      | skipped => exact later reports
      | recorded report => exact later (reports ++ [report])
      | raised exc => exact ⟨after,.raised exc,first,rfl,invoked,last⟩
      | interrupted name => exact ⟨after,.interrupted name,first,rfl,invoked,last⟩

end Single

-- The row of one job comes first.
def firstRow (job : ScheduledJob) (jobs : List ScheduledJob) : List ScheduledJob :=
  jobs.filter (fun row => row.object == job.object) ++ jobs.filter fun row => !(row.object == job.object)

theorem firstRow_perm (job : ScheduledJob) (jobs : List ScheduledJob) : (firstRow job jobs).Perm jobs :=
  List.filter_append_perm _ jobs

theorem firstRow_cons (database : Database) (job : ScheduledJob) (row : job ∈ database.jobs) :
    ∃ rest, firstRow job database.jobs = job :: rest := by
  unfold firstRow
  rw [own_row database job row]
  exact ⟨_,rfl⟩

-- A run that calls on the runner is the run inside it, and no more of it is
-- reached until that one ends.
theorem turn_runner (digit : Char → Option Nat) (s : Surroundings) (nested : Progress → Option (Progress × Outcome))
    (now : Int) (runner : ScheduledJob) (progress : Progress) (ready : due digit progress.database now runner = true)
    (runs : runner.runsRunner = true) (endless : nested (progress.began runner) = none) :
    turn digit s nested now runner progress = none := by
  simp only [ScheduledJob.runsRunner,Bool.and_eq_true,decide_eq_true_eq] at runs
  have called : invokeJob s nested runner (progress.began runner) = none := by
    unfold invokeJob invokeRunner
    rw [if_pos runs.1,if_pos runs.2,endless]
  unfold turn
  rw [if_pos ready,called]

theorem runner_recurs (digit : Char → Option Nat) (database : Database) (now : Int) (runner : ScheduledJob)
    (usable : database.usable = true) (row : runner ∈ database.jobs) (ready : due digit database now runner = true)
    (runs : runner.runsRunner = true) (depth : Nat) (progress : Progress) (here : progress.database = database) :
    runDueJobs digit (calm now (firstRow runner) (firstRow_perm runner)) depth progress = none := by
  subst here
  induction depth generalizing progress with
  | zero => rfl
  | succ depth ih =>
      obtain ⟨rest,first⟩ := firstRow_cons progress.database runner row
      let started : Progress := {progress with runs := progress.runs + 1}
      have inner := ih (started.began runner) usable row ready
      have called := turn_runner digit (calm now (firstRow runner) (firstRow_perm runner)) _ now runner started ready runs inner
      have page : (firstRow runner progress.database.jobs).take 1000 = runner :: rest.take 999 := by
        rw [first,List.take_cons (by decide)]
      have current : started.database.current runner = runner :=
        current_held progress.database runner (List.mem_append_left _ row)
      unfold runDueJobs
      rw [listed_usable _ progress.database _ usable]
      change jobLoop digit _ _ now ((firstRow runner progress.database.jobs).take 1000) [] started = none
      rw [page,jobLoop,current,called]

theorem single_fires_once (digit : Char → Option Nat) (s : Surroundings) (database : Database) (now : Int)
    (clock : s.clock 0 = now) (usable : database.usable = true)
    (single : ∀ job ∈ database.jobs, due digit database now job = true → job.runsRunner = false) :
    FiresOnce digit s database := by
  let page := (s.order 0 database.jobs).take 1000
  have rows : ∀ job ∈ page, job ∈ database.jobs := page_member s database 0 1000
  obtain ⟨after,outcome,ran,ended,invoked,part⟩ := jobLoop_single digit s (runDueJobs digit s 0) now page []
    ⟨database,1,[]⟩ (fun job listed => List.mem_append_left _ (rows job listed)) (page_nodup s database 0 1000 _ database.ids)
    fun job listed other ready => single job (rows job listed) (due_usable digit other database now job usable ready)
  refine ⟨1,after,outcome,?_,?_⟩
  · unfold runDueJobs
    rw [start,listed_usable s database 0 usable]
    rwa [clock]
  · rw [invoked,List.nil_append]
    have objects := (page_nodup s database 0 1000 ScheduledJob.object (jobs_objects database)).sublist
      (part.map ScheduledJob.object)
    rwa [List.map_map] at objects

theorem no_double_firing_exact (digit : Char → Option Nat) (database : Database) (now : Int) :
    NoDoubleFiring digit database now ↔ database.usable = false ∨
      ∀ job ∈ database.jobs, due digit database now job = true → job.runsRunner = false := by
  constructor
  · intro once
    by_contra broken
    push Not at broken
    obtain ⟨usable,runner,row,ready,runs⟩ := broken
    obtain ⟨depth,after,outcome,ended,-⟩ := once (calm now (firstRow runner) (firstRow_perm runner)) rfl
    have endless := runner_recurs digit database now runner (by simpa using usable) row ready (by simpa using runs) depth
      (start database) rfl
    rw [ended] at endless
    cases endless
  · intro holds s clock
    cases usable : database.usable with
    | false =>
      obtain ⟨exc,refused⟩ := run_unusable s database 0 digit usable 0
      exact ⟨1,_,.raised exc,refused,List.nodup_nil⟩
    | true =>
      rcases holds with unusable | single
      · rw [usable] at unusable
        cases unusable
      · exact single_fires_once digit s database now clock usable single

def runnerJob : ScheduledJob := ⟨0,1,"again".toList,RUN_SCHEDULED_JOBS,none,3600,none,true,none,none⟩

def runnerTable : Database := ⟨SessionLocal [],[runnerJob],[],by simp,by simp⟩

theorem scheduled_runner_recurs : ¬ NoDoubleFiring asciiDigit runnerTable 0 := by
  intro once
  have ready : due asciiDigit runnerTable 0 runnerJob = true := rfl
  obtain ⟨depth,after,outcome,ended,-⟩ := once (calm 0 (firstRow runnerJob) (firstRow_perm runnerJob)) rfl
  have endless := runner_recurs asciiDigit runnerTable 0 runnerJob rfl (List.mem_singleton.mpr rfl) ready rfl depth
    (start runnerTable) rfl
  rw [ended] at endless
  cases endless

end Kryvaracode.Scheduling
