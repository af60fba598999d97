import Kryvaracode.Scheduler

namespace Kryvaracode.Scheduling
open ToolInvocation JsonText UnicodeText

-- The tools of a table that leave its rows alone. The runner is not one of them.
def Plain (database : Database) : Prop := ∀ job ∈ database.jobs, job.toolName ≠ RUN_SCHEDULED_JOBS

def Steady (s : Surroundings) (jobs : List ScheduledJob) : Prop :=
  ∀ job ∈ jobs, ∀ calls database, (s.invoke calls job.toolName job.given database).1.jobs = database.jobs

-- The jobs called on are those due, and theirs are the rows that tell of it.
def Serves (digit : Char → Option Nat) (database : Database) (now : Int) (after : Progress) : Prop :=
  (∀ job, (∃ invocation ∈ after.invoked, invocation.job = job) ↔
    job ∈ database.jobs ∧ due digit database now job = true) ∧
  List.Forall₂ (fun job row => row.object = job.object ∧ (row.ranAt now ↔ due digit database now job = true))
    database.jobs after.database.jobs

def NoneStarved (digit : Char → Option Nat) (database : Database) (now : Int) : Prop :=
  ∀ s : Surroundings, s.clock 0 = now → Steady s database.jobs → ∀ depth after reports,
    runDueJobs digit s depth (start database) = some (after,.completed reports) → Serves digit database now after

-- What a run that called on some jobs leaves of a row.
def Settled (now : Int) (ran : List ScheduledJob) (job row : ScheduledJob) : Prop :=
  row.object = job.object ∧ ((∃ other ∈ ran, other.id = job.id) → row.ranAt now) ∧
    ((∀ other ∈ ran, other.id ≠ job.id) → row = job)

theorem settled_nil (now : Int) (jobs : List ScheduledJob) : List.Forall₂ (Settled now []) jobs jobs :=
  List.forall₂_same.mpr fun job _ => ⟨rfl,by simp,by simp⟩

section Loop
variable (digit : Char → Option Nat) (s : Surroundings) (nested : Progress → Option (Progress × Outcome)) (now : Int)

theorem settled_record (first : ScheduledJob) (ran : List ScheduledJob) (status : Text) (job row : ScheduledJob)
    (settled : Settled now ran (if job.id = first.id then job.ran status (s.stored now) else job) row) :
    Settled now (first :: ran) job row := by
  by_cases its : job.id = first.id
  · rw [if_pos its] at settled
    obtain ⟨object,told,kept⟩ := settled
    have ranNow : row.ranAt now := by
      by_cases again : ∃ other ∈ ran, other.id = job.id
      · exact told again
      · rw [kept fun other member same => again ⟨other,member,same⟩]
        simp [ScheduledJob.ranAt,ScheduledJob.ran,s.stored_moment]
    exact ⟨object,fun _ => ranNow,fun apart => absurd its.symm (apart first (by simp))⟩
  · rw [if_neg its] at settled
    obtain ⟨object,told,kept⟩ := settled
    refine ⟨object,?_,fun apart => kept fun other member => apart other (by simp [member])⟩
    intro ran
    obtain ⟨other,member,same⟩ := ran
    rcases List.mem_cons.mp member with rfl | later
    · exact absurd same.symm its
    · exact told ⟨other,later,same⟩

theorem turn_steady (job : ScheduledJob) (progress after : Progress) (report : JobReport)
    (plain : job.toolName ≠ RUN_SCHEDULED_JOBS)
    (steady : ∀ calls database, (s.invoke calls job.toolName job.given database).1.jobs = database.jobs)
    (recorded : turn digit s nested now job progress = some (after,.recorded report)) :
    due digit progress.database now job = true ∧ after.database.usable = true ∧
      after.invoked = progress.invoked ++ [⟨job,progress.database⟩] ∧
      ∃ status, after.database.jobs = (progress.database.record job.id status (s.stored now)).jobs := by
  obtain ⟨ready,usable,between,ending,status,invoked,kept,rows⟩ := turn_recorded digit s nested now job progress after
    report recorded
  unfold invokeJob at invoked
  rw [if_neg plain] at invoked
  simp only [Option.some.injEq,Prod.mk.injEq] at invoked
  obtain ⟨rfl,-⟩ := invoked
  exact ⟨ready,usable,kept,status,
    rows.trans (record_same _ progress.database job.id status (s.stored now) (steady _ progress.database))⟩

theorem rest_rows (first : ScheduledJob) (rest : List ScheduledJob) (database after : Database) (status : Text)
    (runAt : Stamp) (ids : ((first :: rest).map ScheduledJob.id).Nodup) (rows : ∀ job ∈ rest, job ∈ database.jobs)
    (recorded : after.jobs = (database.record first.id status runAt).jobs) : ∀ job ∈ rest, job ∈ after.jobs := by
  intro job member
  rw [List.map_cons,List.nodup_cons] at ids
  have apart : job.id ≠ first.id := fun same => ids.1 (same ▸ List.mem_map_of_mem member)
  rw [recorded]
  exact List.mem_map.mpr ⟨job,rows job member,by simp [apart]⟩

theorem jobLoop_served (page : List ScheduledJob) (reports told : List JobReport) (progress after : Progress)
    (rows : ∀ job ∈ page, job ∈ progress.database.jobs) (ids : (page.map ScheduledJob.id).Nodup)
    (usable : progress.database.usable = true) (plain : ∀ job ∈ page, job.toolName ≠ RUN_SCHEDULED_JOBS)
    (steady : Steady s page)
    (completed : jobLoop digit s nested now page reports progress = some (after,.completed told)) :
    after.invoked.map Invocation.job =
        progress.invoked.map Invocation.job ++ page.filter (due digit progress.database now) ∧
      List.Forall₂ (Settled now (page.filter (due digit progress.database now))) progress.database.jobs
        after.database.jobs := by
  induction page generalizing reports progress with
  | nil =>
      simp only [jobLoop,Option.some.injEq,Prod.mk.injEq] at completed
      rw [← completed.1]
      exact ⟨by simp,settled_nil now _⟩
  | cons job rest ih =>
      obtain ⟨row,restRows⟩ := List.forall_mem_cons.mp rows
      obtain ⟨other,restPlain⟩ := List.forall_mem_cons.mp plain
      obtain ⟨alone,restSteady⟩ := List.forall_mem_cons.mp steady
      have restIds : (rest.map ScheduledJob.id).Nodup := (List.nodup_cons.mp ids).2
      have current := current_held progress.database job (List.mem_append_left _ row)
      rw [jobLoop,current] at completed
      split at completed
      · cases completed
      · rename_i next skipped
        obtain ⟨undue,rfl⟩ := turn_skipped digit s nested now job progress next skipped
        have later := ih reports next restRows restIds usable restPlain restSteady completed
        rwa [List.filter_cons_of_neg (by simp [undue])]
      · rename_i next report recorded
        obtain ⟨ready,able,invoked,status,recordedRows⟩ := turn_steady digit s nested now job progress next report
          other alone recorded
        obtain ⟨more,settled⟩ := ih (reports ++ [report]) next (rest_rows job rest progress.database next.database status
          (s.stored now) ids restRows recordedRows) restIds able restPlain restSteady completed
        rw [due_same digit next.database progress.database now able usable] at more settled
        rw [List.filter_cons_of_pos ready]
        refine ⟨by simp [more,invoked],?_⟩
        rw [recordedRows,Database.record,List.forall₂_map_left_iff] at settled
        exact settled.imp fun row last => settled_record s now job _ status row last
      · simp at completed
      · simp at completed

end Loop

theorem calm_steady (now : Int) (order : List ScheduledJob → List ScheduledJob) (permutes : ∀ jobs, List.Perm (order jobs) jobs)
    (jobs : List ScheduledJob) : Steady (calm now order permutes) jobs := fun _ _ _ _ => rfl

section Calm
variable (digit : Char → Option Nat) (now : Int) (order : List ScheduledJob → List ScheduledJob)
  (permutes : ∀ jobs, List.Perm (order jobs) jobs) (nested : Progress → Option (Progress × Outcome))

theorem turn_calm (job : ScheduledJob) (progress : Progress) (plain : job.toolName ≠ RUN_SCHEDULED_JOBS) :
    turn digit (calm now order permutes) nested now job progress = some (progress,.skipped) ∨
      ∃ after report, turn digit (calm now order permutes) nested now job progress = some (after,.recorded report) := by
  unfold turn
  by_cases ready : due digit progress.database now job = true
  · right
    rw [if_pos ready,invokeJob,if_neg plain]
    obtain ⟨after,report,settled⟩ := settle_ready digit (calm now order permutes) now progress.database job
      "success".toList ((progress.began job).withDatabase
        (progress.database.withSession ⟨progress.database.session.audit,.ready⟩)) rfl
    exact ⟨after,report,congrArg some settled⟩
  · left
    rw [if_neg ready]

theorem jobLoop_calm (page : List ScheduledJob) (reports : List JobReport) (progress : Progress)
    (rows : ∀ job ∈ page, job ∈ progress.database.jobs) (ids : (page.map ScheduledJob.id).Nodup)
    (plain : ∀ job ∈ page, job.toolName ≠ RUN_SCHEDULED_JOBS) :
    ∃ after told, jobLoop digit (calm now order permutes) nested now page reports progress = some (after,.completed told) := by
  induction page generalizing reports progress with
  | nil => exact ⟨progress,reports,rfl⟩
  | cons job rest ih =>
      obtain ⟨row,restRows⟩ := List.forall_mem_cons.mp rows
      obtain ⟨other,restPlain⟩ := List.forall_mem_cons.mp plain
      have restIds : (rest.map ScheduledJob.id).Nodup := (List.nodup_cons.mp ids).2
      have current := current_held progress.database job (List.mem_append_left _ row)
      rw [jobLoop,current]
      rcases turn_calm digit now order permutes nested job progress other with skipped | ⟨next,report,recorded⟩
      · rw [skipped]
        exact ih reports progress restRows restIds restPlain
      · obtain ⟨-,-,-,status,recordedRows⟩ := turn_steady digit _ nested now job progress next report
          other (fun _ _ => rfl) recorded
        rw [recorded]
        exact ih (reports ++ [report]) next (rest_rows job rest progress.database next.database status _ ids restRows
          recordedRows) restIds restPlain

end Calm

section Runs
variable (digit : Char → Option Nat) (database : Database) (now : Int)

-- A row tells of the run exactly where its job was called on.
theorem row_ran (page : List ScheduledJob) (rows : ∀ job ∈ page, job ∈ database.jobs) (job : ScheduledJob)
    (row : job ∈ database.jobs) :
    (∃ other ∈ page.filter (due digit database now), other.id = job.id) ↔ job ∈ page.filter (due digit database now) := by
  constructor
  · intro told
    obtain ⟨other,ran,same⟩ := told
    have own := List.inj_on_of_nodup_map database.ids (rows other (List.mem_of_mem_filter ran)) row same
    rwa [← own]
  · intro ran
    exact ⟨job,ran,rfl⟩

theorem run_served (s : Surroundings) (plain : Plain database) (steady : Steady s database.jobs) (clock : s.clock 0 = now)
    (usable : database.usable = true) (depth : Nat) (after : Progress) (reports : List JobReport)
    (completed : runDueJobs digit s depth (start database) = some (after,.completed reports)) :
    after.invoked.map Invocation.job = ((s.order 0 database.jobs).take 1000).filter (due digit database now) ∧
      List.Forall₂ (fun job row => row.object = job.object ∧
          (job ∈ ((s.order 0 database.jobs).take 1000).filter (due digit database now) → row.ranAt now) ∧
          (job ∉ ((s.order 0 database.jobs).take 1000).filter (due digit database now) → row = job))
        database.jobs after.database.jobs := by
  cases depth with
  | zero => cases completed
  | succ depth =>
      have rows : ∀ job ∈ (s.order 0 database.jobs).take 1000, job ∈ database.jobs := page_member s database 0 1000
      unfold runDueJobs at completed
      rw [start,listed_usable s database 0 usable,clock] at completed
      obtain ⟨invoked,settled⟩ := jobLoop_served digit s (runDueJobs digit s depth) now _ [] reports _ after rows
        (page_nodup s database 0 1000 _ database.ids) usable (fun job listed => plain job (rows job listed))
        (fun job listed => steady job (rows job listed)) completed
      refine ⟨by simpa using invoked,?_⟩
      have members := (List.forall₂_and_left _ _).mpr ⟨fun job (row : job ∈ database.jobs) => row,settled⟩
      refine members.imp ?_
      intro job last both
      obtain ⟨row,object,told,kept⟩ := both
      refine ⟨object,?_,?_⟩
      · intro ran
        apply told
        exact (row_ran digit database now _ rows job row).mpr ran
      · intro idle
        apply kept
        intro other ran same
        exact idle ((row_ran digit database now _ rows job row).mp ⟨other,ran,same⟩)

theorem calm_run (order : List ScheduledJob → List ScheduledJob) (permutes : ∀ jobs, List.Perm (order jobs) jobs)
    (plain : Plain database) (usable : database.usable = true) :
    ∃ after reports, runDueJobs digit (calm now order permutes) 1 (start database) = some (after,.completed reports) := by
  have rows := page_member (calm now order permutes) database 0 1000
  unfold runDueJobs
  rw [start,listed_usable _ database 0 usable]
  exact jobLoop_calm digit now order permutes _ _ [] _ rows (page_nodup _ database 0 1000 _ database.ids)
    fun job listed => plain job (rows job listed)

end Runs

-- The row of one job comes last.
def lastRow (job : ScheduledJob) (jobs : List ScheduledJob) : List ScheduledJob :=
  jobs.filter (fun row => !(row.object == job.object)) ++ jobs.filter fun row => row.object == job.object

theorem lastRow_perm (job : ScheduledJob) (jobs : List ScheduledJob) : (lastRow job jobs).Perm jobs :=
  List.perm_append_comm.trans (List.filter_append_perm _ jobs)

theorem lastRow_unlisted (database : Database) (job : ScheduledJob) (row : job ∈ database.jobs) (limit : Nat)
    (more : limit < database.jobs.length) : job ∉ (lastRow job database.jobs).take limit := by
  let others := database.jobs.filter fun other => !(other.object == job.object)
  have parted : lastRow job database.jobs = others ++ [job] := by rw [lastRow,own_row database job row]
  have counted : database.jobs.length = others.length + 1 := by
    rw [← (lastRow_perm job database.jobs).length_eq,parted,List.length_append,List.length_singleton]
  rw [parted,List.take_append_of_le_length (by omega)]
  intro listed
  simpa using (List.mem_filter.mp (List.mem_of_mem_take listed)).2

section Exact
variable (digit : Char → Option Nat) (database : Database) (now : Int)

theorem overfull_starves (plain : Plain database) (usable : database.usable = true) (job : ScheduledJob)
    (row : job ∈ database.jobs) (ready : due digit database now job = true) (overfull : 1000 < database.jobs.length) :
    ¬ NoneStarved digit database now := by
  intro served
  obtain ⟨after,reports,completed⟩ := calm_run digit database now (lastRow job) (lastRow_perm job) plain usable
  obtain ⟨invoked,-⟩ := run_served digit database now (calm now (lastRow job) (lastRow_perm job)) plain
    (calm_steady now _ _ _) rfl usable 1 after reports completed
  obtain ⟨invocation,called,its⟩ := ((served _ rfl (calm_steady now _ _ _) 1 after reports completed).1 job).mpr ⟨row,ready⟩
  have ran : job ∈ after.invoked.map Invocation.job := List.mem_map.mpr ⟨invocation,called,its⟩
  rw [invoked] at ran
  exact lastRow_unlisted database job row 1000 overfull (List.mem_of_mem_filter ran)

theorem early_row_told (plain : Plain database) (usable : database.usable = true) (served : NoneStarved digit database now)
    (job : ScheduledJob) (row : job ∈ database.jobs) (early : job.ranAt now) : due digit database now job = true := by
  let order (jobs : List ScheduledJob) : List ScheduledJob := jobs
  have permutes (jobs : List ScheduledJob) : List.Perm (order jobs) jobs := .refl jobs
  obtain ⟨after,reports,completed⟩ := calm_run digit database now order permutes plain usable
  obtain ⟨-,rows⟩ := run_served digit database now (calm now order permutes) plain (calm_steady now _ _ _) rfl usable 1
    after reports completed
  obtain ⟨-,told⟩ := served _ rfl (calm_steady now order permutes _) 1 after reports completed
  have both : List.Forall₂ (fun job _ => (job.ranAt now → due digit database now job = true) ∧ True) database.jobs
      after.database.jobs := by
    refine List.Forall₂.mp ?_ rows told
    intro job last left said
    refine ⟨?_,trivial⟩
    intro early
    by_contra undue
    have idle := left.2.2 fun ran => undue (List.mem_filter.mp ran).2
    exact undue (said.2.mp (idle ▸ early))
  exact ((List.forall₂_and_left _ _).mp both).1 job row early

-- The page holds every due row where it holds all rows, or where none is due.
theorem page_due (s : Surroundings)
    (whole : database.jobs.length ≤ 1000 ∨ ∀ job ∈ database.jobs, due digit database now job = false) (job : ScheduledJob) :
    job ∈ ((s.order 0 database.jobs).take 1000).filter (due digit database now) ↔
      job ∈ database.jobs ∧ due digit database now job = true := by
  rw [List.mem_filter]
  apply and_congr_left
  intro ready
  refine ⟨page_member s database 0 1000 job,?_⟩
  intro row
  rcases whole with few | none
  · rw [List.take_of_length_le ((s.order_perm 0 database.jobs).length_eq.trans_le few)]
    exact (s.order_perm 0 database.jobs).mem_iff.mpr row
  · rw [none job row] at ready
    cases ready

theorem whole_page_serves (s : Surroundings) (plain : Plain database) (steady : Steady s database.jobs)
    (clock : s.clock 0 = now) (usable : database.usable = true)
    (whole : database.jobs.length ≤ 1000 ∨ ∀ job ∈ database.jobs, due digit database now job = false)
    (told : ∀ job ∈ database.jobs, job.ranAt now → due digit database now job = true) (depth : Nat) (after : Progress)
    (reports : List JobReport)
    (completed : runDueJobs digit s depth (start database) = some (after,.completed reports)) :
    Serves digit database now after := by
  obtain ⟨invoked,rows⟩ := run_served digit database now s plain steady clock usable depth after reports completed
  have ran := page_due digit database now s whole
  refine ⟨?_,?_⟩
  · intro job
    rw [← ran job,← invoked,List.mem_map]
  · have members := (List.forall₂_and_left _ _).mpr ⟨fun job (row : job ∈ database.jobs) => row,rows⟩
    refine members.imp ?_
    intro job last both
    obtain ⟨row,object,dueRow,idleRow⟩ := both
    refine ⟨object,?_,?_⟩
    · intro ranNow
      by_contra undue
      have idle := idleRow fun listed => undue ((ran job).mp listed).2
      exact undue (told job row (idle ▸ ranNow))
    · intro ready
      apply dueRow
      exact (ran job).mpr ⟨row,ready⟩

theorem none_starved_exact (plain : Plain database) : NoneStarved digit database now ↔ database.usable = false ∨
    ((database.jobs.length ≤ 1000 ∨ ∀ job ∈ database.jobs, due digit database now job = false) ∧
      ∀ job ∈ database.jobs, job.ranAt now → due digit database now job = true) := by
  constructor
  · intro served
    cases usable : database.usable with
    | false => exact .inl rfl
    | true =>
      refine .inr ⟨?_,early_row_told digit database now plain usable served⟩
      by_contra broken
      push Not at broken
      obtain ⟨overfull,job,row,ready⟩ := broken
      exact overfull_starves digit database now plain usable job row (by simpa using ready) overfull served
  · intro holds s clock steady depth after reports completed
    cases usable : database.usable with
    | false =>
      cases depth with
      | zero => cases completed
      | succ depth =>
        obtain ⟨exc,refused⟩ := run_unusable s database 0 digit usable depth
        rw [start,refused] at completed
        cases completed
    | true =>
      rcases holds with unusable | ⟨whole,told⟩
      · rw [usable] at unusable
        cases unusable
      · exact whole_page_serves digit database now s plain steady clock usable whole told depth after reports completed

end Exact

def newJob (index : Nat) : ScheduledJob :=
  ⟨index,index + 1,"job ".toList ++ (toString index).toList,"list_dir".toList,none,3600,none,true,none,none⟩

-- A table of jobs that have never run.
def newTable (count : Nat) : Database where
  session := SessionLocal []
  jobs := (List.range count).map newJob
  gone := []
  objects := by
    rw [List.append_nil,List.map_map]
    exact List.nodup_range.map fun one other same => same
  ids := by
    rw [List.map_map]
    refine List.nodup_range.map fun one other same => ?_
    simpa [newJob] using same

theorem newTable_row (count index : Nat) (inside : index < count) : newJob index ∈ (newTable count).jobs :=
  List.mem_map_of_mem (List.mem_range.mpr inside)

theorem newTable_length (count : Nat) : (newTable count).jobs.length = count := by simp [newTable]

theorem newTable_plain (count : Nat) : Plain (newTable count) := by
  intro job row
  obtain ⟨index,-,rfl⟩ := List.mem_map.mp row
  exact show "list_dir".toList ≠ RUN_SCHEDULED_JOBS by decide

theorem small_table_served : Plain (newTable 2) ∧ NoneStarved asciiDigit (newTable 2) 0 := by
  refine ⟨newTable_plain 2,(none_starved_exact asciiDigit (newTable 2) 0 (newTable_plain 2)).mpr (.inr ⟨.inl ?_,?_⟩)⟩
  · simp [newTable_length]
  · intro job row early
    obtain ⟨index,-,rfl⟩ := List.mem_map.mp row
    cases early

theorem overfull_table_starves : Plain (newTable 1001) ∧ ¬ NoneStarved asciiDigit (newTable 1001) 0 := by
  have row := newTable_row 1001 0 (by decide)
  have overfull : 1000 < (newTable 1001).jobs.length := by rw [newTable_length]; decide
  exact ⟨newTable_plain 1001,overfull_starves asciiDigit (newTable 1001) 0 (newTable_plain 1001) rfl (newJob 0) row rfl overfull⟩

end Kryvaracode.Scheduling
