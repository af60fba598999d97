import Kryvaracode.ToolInvocation

namespace Kryvaracode.Scheduling
open ToolInvocation JsonText UnicodeText

-- A datetime in microseconds as it shows, with its distance from UTC where it
-- has a zone. One without a zone is read as UTC.
structure Stamp where
  shown : Int
  ahead : Option Int
  deriving DecidableEq, Repr

def Stamp.moment (stamp : Stamp) : Int := stamp.shown - stamp.ahead.getD 0

-- The object a session holds for a row. It outlives the row, and another row
-- may come to have its id.
structure ScheduledJob where
  object : Nat
  id : Int
  name : Text
  toolName : Text
  arguments : Option Members
  intervalSeconds : Int
  triggerCondition : Option Text
  enabled : Bool
  lastRunAt : Option Stamp
  lastStatus : Option Text

def ScheduledJob.ran (job : ScheduledJob) (status : Text) (runAt : Stamp) : ScheduledJob :=
  {job with lastRunAt := some runAt, lastStatus := some status}

def ScheduledJob.ranAt (job : ScheduledJob) (now : Int) : Prop := job.lastRunAt.map Stamp.moment = some now

structure Database where
  session : Session
  jobs : List ScheduledJob
  gone : List ScheduledJob
  objects : ((jobs ++ gone).map ScheduledJob.object).Nodup
  ids : (jobs.map ScheduledJob.id).Nodup

namespace Database

def held (database : Database) : List ScheduledJob := database.jobs ++ database.gone

def withSession (database : Database) (session : Session) : Database := {database with session := session}

-- Objects already loaded are given their present values.
def current (database : Database) (job : ScheduledJob) : ScheduledJob :=
  (database.held.find? (·.object == job.object)).getD job

def usable (database : Database) : Bool := database.session.status != .needsRollback

def query (database : Database) (rows : α) : Result α :=
  if database.usable then .ok rows else .error ⟨.other "PendingRollbackError".toList,"session needs a rollback".toList⟩

def record (database : Database) (id : Int) (status : Text) (runAt : Stamp) : Database where
  session := database.session
  jobs := database.jobs.map fun job => if job.id = id then job.ran status runAt else job
  gone := database.gone
  objects := by
    have same : (database.jobs.map fun job => if job.id = id then job.ran status runAt else job).map ScheduledJob.object =
        database.jobs.map ScheduledJob.object := by
      rw [List.map_map]
      refine List.map_congr_left fun job _ => ?_
      by_cases its : job.id = id <;> simp [its,ScheduledJob.ran]
    rw [List.map_append,same,← List.map_append]
    exact database.objects
  ids := by
    have same : (database.jobs.map fun job => if job.id = id then job.ran status runAt else job).map ScheduledJob.id =
        database.jobs.map ScheduledJob.id := by
      rw [List.map_map]
      refine List.map_congr_left fun job _ => ?_
      by_cases its : job.id = id <;> simp [its,ScheduledJob.ran]
    rw [same]
    exact database.ids

end Database

-- The digits of an integer literal: one underscore may stand between two.
def digitsFrom (digit : Char → Option Nat) : Bool → Text → Option (List Nat)
  | after,[] => if after then some [] else none
  | after,'_' :: rest => if after then digitsFrom digit false rest else none
  | _,c :: rest => (digit c).bind fun value => (digitsFrom digit true rest).map (value :: ·)

def longest : Nat := 4300

def numeral (digit : Char → Option Nat) (text : Text) : Option Nat :=
  (digitsFrom digit false text).bind fun values =>
    if longest < values.length then none else some (values.foldl (fun total value => 10 * total + value) 0)

-- None is a ValueError.
def int (digit : Char → Option Nat) (text : Text) : Option Int :=
  match strip text with
  | '-' :: rest => (numeral digit rest).map fun value => -(value : Int)
  | '+' :: rest => (numeral digit rest).map Int.ofNat
  | rest => (numeral digit rest).map Int.ofNat

def asciiDigit (c : Char) : Option Nat := if c.isDigit then some (c.toNat - '0'.toNat) else none

example : int asciiDigit " -1_000 ".toList = some (-1000) := by decide
example : int asciiDigit "1__0".toList = none := by decide

-- `not AuditLog.success` is said of the column itself, which is never false.
def notSuccess : Bool := false

def failCount (database : Database) (toolName : Text) : Result Nat :=
  database.query (database.session.audit.filter fun row => row.toolName == toolName && notSuccess).length

-- The condition is cut at its first colon.
def metric (condition : Text) : Text := condition.takeWhile (· ≠ ':')
def thresholdText (condition : Text) : Text := (condition.dropWhile (· ≠ ':')).drop 1

def evaluate (digit : Char → Option Nat) (database : Database) (job : ScheduledJob) : Bool :=
  match job.triggerCondition with
  | none | some [] => false
  | some condition =>
      if condition.contains ':' then
        match int digit (thresholdText condition) with
        | none => false
        | some threshold =>
            if metric condition = "tool_fail_count".toList then
              match failCount database job.toolName with
              | .error _ => false
              | .ok count => decide (threshold ≤ count)
            else false
      else false

def dueByInterval (now : Int) (job : ScheduledJob) : Bool :=
  match job.lastRunAt with
  | none => true
  | some last => decide (job.intervalSeconds * 1000000 ≤ now - last.moment)

def due (digit : Char → Option Nat) (database : Database) (now : Int) (job : ScheduledJob) : Bool :=
  job.enabled && (dueByInterval now job || evaluate digit database job)

def RUN_SCHEDULED_JOBS : Text := "run_scheduled_jobs".toList

def ScheduledJob.given (job : ScheduledJob) : Members := job.arguments.getD []

-- The runner takes no arguments and is refused with any.
def ScheduledJob.runsRunner (job : ScheduledJob) : Bool := job.toolName = RUN_SCHEDULED_JOBS && job.given.isEmpty

structure JobReport where
  jobId : Int
  name : Text
  toolName : Text
  status : Text
  trigger : Text

def JobReport.json (report : JobReport) : Json :=
  .obj [("job_id".toList,.int report.jobId),("name".toList,.str report.name),("tool_name".toList,.str report.toolName),
    ("status".toList,.str report.status),("trigger".toList,.str report.trigger)]

inductive Outcome where
  | completed (reports : List JobReport)
  | raised (exc : Failure)
  | interrupted (name : Text)

-- What `run_scheduled_jobs` makes of a run.
def Outcome.ending : Outcome → Ending
  | .completed reports =>
      .returned (.obj [("jobs_run".toList,.arr (reports.map JobReport.json)),("count".toList,.int reports.length)])
  | .raised exc => .raised exc
  | .interrupted name => .interrupted name

-- The clock and the order of rows are asked once in each run. The tools are all
-- but the runner, and may act differently at each call; none of them changes a
-- row of the table, though they may add rows and delete them.
structure Surroundings where
  user : Option User
  tables : Tables
  clock : Nat → Int
  stored : Int → Stamp
  order : Nat → List ScheduledJob → List ScheduledJob
  forbidden : Members → Text
  invoke : Nat → Text → Members → Database → Database × Ending
  stored_moment : ∀ now, (stored now).moment = now
  order_perm : ∀ runs jobs, List.Perm (order runs jobs) jobs
  keeps : ∀ calls name arguments database, ∀ job ∈ database.held, job ∈ (invoke calls name arguments database).1.held

structure Invocation where
  job : ScheduledJob
  before : Database

structure Progress where
  database : Database
  runs : Nat
  invoked : List Invocation

def Progress.withDatabase (progress : Progress) (database : Database) : Progress := {progress with database := database}

def Progress.began (progress : Progress) (job : ScheduledJob) : Progress :=
  {progress with invoked := progress.invoked ++ [⟨job,progress.database⟩]}

inductive Turn where
  | skipped
  | recorded (report : JobReport)
  | raised (exc : Failure)
  | interrupted (name : Text)

section Run
variable (digit : Char → Option Nat) (s : Surroundings)

def listScheduledJobs (database : Database) (runs skip limit : Nat) : Result (List ScheduledJob) :=
  database.query (((s.order runs database.jobs).drop skip).take limit)

def updateScheduledJobRun (database : Database) (id : Int) (status : Text) (now : Int) : Database × Result Unit :=
  match database.query () with
  | .error exc => (database,.error exc)
  | .ok _ =>
      if database.jobs.any (·.id == id) then
        match database.session.commit [] with
        | (session,.ok _) => ((database.record id status (s.stored now)).withSession session,.ok ())
        | (session,.error exc) => (database.withSession session,.error exc)
      else (database,.ok ())

def audited (progress : Progress) (arguments : Members) (success : Bool) (error : Option Text) : Progress :=
  progress.withDatabase (progress.database.withSession
    (writeAudit s.tables progress.database.session RUN_SCHEDULED_JOBS arguments s.user success error))

def typed (exc : Failure) : Text := exc.kind.name ++ ": ".toList ++ exc.detail

def invokeRunner (nested : Progress → Option (Progress × Outcome)) (arguments : Members) (progress : Progress) :
    Option (Progress × Ending) :=
  if arguments.isEmpty then
    match nested progress with
    | none => none
    | some (after,.completed reports) => some (audited s after arguments true none,(Outcome.completed reports).ending)
    | some (after,.raised exc) => some (audited s after arguments false (some (typed exc)),.raised exc)
    | some (after,.interrupted name) => some (after,.interrupted name)
  else
    some (audited s progress arguments false (some ("ValidationError: ".toList ++ s.forbidden arguments)),
      .raised (ValidationFailedError "Tool arguments failed validation".toList))

def invokeJob (nested : Progress → Option (Progress × Outcome)) (job : ScheduledJob) (progress : Progress) :
    Option (Progress × Ending) :=
  if job.toolName = RUN_SCHEDULED_JOBS then invokeRunner s nested job.given progress
  else
    let (database,ending) := s.invoke progress.invoked.length job.toolName job.given progress.database
    some (progress.withDatabase database,ending)

def trigger (now : Int) (database : Database) (job : ScheduledJob) : Text :=
  if evaluate digit database job && !dueByInterval now job then "event".toList else "interval".toList

def settle (now : Int) (before : Database) (job : ScheduledJob) (status : Text) (after : Progress) : Progress × Turn :=
  match updateScheduledJobRun s after.database job.id status now with
  | (database,.error exc) => (after.withDatabase database,.raised exc)
  | (database,.ok _) =>
      (after.withDatabase database,.recorded ⟨job.id,job.name,job.toolName,status,trigger digit now before job⟩)

def turn (nested : Progress → Option (Progress × Outcome)) (now : Int) (job : ScheduledJob) (progress : Progress) :
    Option (Progress × Turn) :=
  if due digit progress.database now job then
    match invokeJob s nested job (progress.began job) with
    | none => none
    | some (after,.returned _) => some (settle digit s now progress.database job "success".toList after)
    | some (after,.raised exc) =>
        some (settle digit s now progress.database job (("failed: ".toList ++ typed exc).take 500) after)
    | some (after,.interrupted name) => some (after,.interrupted name)
  else some (progress,.skipped)

def jobLoop (nested : Progress → Option (Progress × Outcome)) (now : Int) :
    List ScheduledJob → List JobReport → Progress → Option (Progress × Outcome)
  | [],reports,progress => some (progress,.completed reports)
  | job :: rest,reports,progress =>
      match turn digit s nested now (progress.database.current job) progress with
      | none => none
      | some (after,.skipped) => jobLoop nested now rest reports after
      | some (after,.recorded report) => jobLoop nested now rest (reports ++ [report]) after
      | some (after,.raised exc) => some (after,.raised exc)
      | some (after,.interrupted name) => some (after,.interrupted name)

-- The depth bounds how many runs may be under way at once; none is a run that
-- wants more.
def runDueJobs : Nat → Progress → Option (Progress × Outcome)
  | 0,_ => none
  | depth + 1,progress =>
      let started := {progress with runs := progress.runs + 1}
      match listScheduledJobs s progress.database progress.runs 0 1000 with
      | .error exc => some (started,.raised exc)
      | .ok page => jobLoop digit s (runDueJobs depth) (s.clock progress.runs) page [] started

end Run

theorem current_held (database : Database) (job : ScheduledJob) (held : job ∈ database.held) : database.current job = job := by
  have same : ∀ other ∈ database.held, other.object = job.object → other = job := fun other member alike =>
    List.inj_on_of_nodup_map database.objects member held alike
  unfold Database.current
  cases found : database.held.find? (·.object == job.object) with
  | none => rfl
  | some other =>
      have alike : other.object = job.object := by simpa using List.find?_some found
      exact same other (List.mem_of_find?_eq_some found) alike

theorem record_held (database : Database) (id : Int) (status : Text) (runAt : Stamp) (job : ScheduledJob)
    (held : job ∈ database.held) (apart : job.id ≠ id) : job ∈ (database.record id status runAt).held := by
  rcases List.mem_append.mp held with live | gone
  · exact List.mem_append_left _ (List.mem_map.mpr ⟨job,live,by simp [apart]⟩)
  · exact List.mem_append_right _ gone

theorem record_same (database other : Database) (id : Int) (status : Text) (runAt : Stamp) (same : database.jobs = other.jobs) :
    (database.record id status runAt).jobs = (other.record id status runAt).jobs := by
  simp only [Database.record,same]

theorem query_ok (database : Database) (rows : α) : database.query rows = .ok rows ↔ database.usable = true := by
  unfold Database.query
  cases database.usable <;> simp

theorem failCount_usable (database : Database) (toolName : Text) (usable : database.usable = true) :
    failCount database toolName = .ok 0 := by
  simp [failCount,Database.query,usable,notSuccess]

section Lemmas
variable (digit : Char → Option Nat) (s : Surroundings)

-- Of the session, a condition depends only on whether it can be asked at all.
theorem evaluate_usable (database other : Database) (job : ScheduledJob) (usable : other.usable = true)
    (met : evaluate digit database job = true) : evaluate digit other job = true := by
  unfold evaluate at met ⊢
  split at met
  · cases met
  · cases met
  · rename_i condition nonempty given
    rw [failCount_usable other job.toolName usable]
    by_cases able : database.usable = true
    · rwa [failCount_usable database job.toolName able] at met
    · have failed : failCount database job.toolName =
          .error ⟨.other "PendingRollbackError".toList,"session needs a rollback".toList⟩ := by
        simp [failCount,Database.query,able]
      rw [failed] at met
      split at met
      · split at met
        · cases met
        · split at met <;> cases met
      · cases met

theorem due_usable (database other : Database) (now : Int) (job : ScheduledJob) (usable : other.usable = true)
    (dueThen : due digit database now job = true) : due digit other now job = true := by
  simp only [due,Bool.and_eq_true,Bool.or_eq_true] at dueThen ⊢
  exact ⟨dueThen.1,dueThen.2.imp_right (evaluate_usable digit database other job usable)⟩

theorem due_same (database other : Database) (now : Int) (one : database.usable = true) (two : other.usable = true) :
    due digit database now = due digit other now := by
  funext job
  exact Bool.eq_iff_iff.mpr ⟨due_usable digit database other now job two,due_usable digit other database now job one⟩

theorem update_held (database : Database) (id : Int) (status : Text) (now : Int) (job : ScheduledJob)
    (held : job ∈ database.held) (apart : job.id ≠ id) : job ∈ (updateScheduledJobRun s database id status now).1.held := by
  unfold updateScheduledJobRun
  split
  · exact held
  · split
    · split
      · exact record_held database id status (s.stored now) job held apart
      · exact held
    · exact held

theorem update_ok (database after : Database) (id : Int) (status : Text) (now : Int)
    (updated : updateScheduledJobRun s database id status now = (after,.ok ())) :
    after.jobs = (database.record id status (s.stored now)).jobs ∧ after.usable = true := by
  unfold updateScheduledJobRun at updated
  by_cases usable : database.usable = true
  · simp only [(query_ok database ()).mpr usable] at updated
    split at updated
    · cases ready : database.session.status with
      | ready =>
        simp only [Session.commit,ready,Prod.mk.injEq,and_true] at updated
        subst updated
        exact ⟨rfl,by simp [Database.usable,Database.withSession]⟩
      | refused => simp [Session.commit,ready] at updated
      | needsRollback => simp [Session.commit,ready] at updated
    · rename_i absent
      simp only [Prod.mk.injEq,and_true] at updated
      subst updated
      refine ⟨(List.map_id _).symm.trans (List.map_congr_left fun job member => ?_),usable⟩
      have apart : job.id ≠ id := fun its => absent (List.any_eq_true.mpr ⟨job,member,by simp [its]⟩)
      simp [apart]
  · simp [Database.query,usable] at updated

theorem update_ready (database : Database) (id : Int) (status : Text) (now : Int) (ready : database.session.status = .ready) :
    ∃ after, updateScheduledJobRun s database id status now = (after,.ok ()) := by
  have usable : database.usable = true := by simp [Database.usable,ready]
  simp only [updateScheduledJobRun,(query_ok database ()).mpr usable,Session.commit,ready]
  split
  · exact ⟨_,rfl⟩
  · exact ⟨database,rfl⟩

variable (nested : Progress → Option (Progress × Outcome)) (now : Int)

theorem settle_held (before : Database) (job : ScheduledJob) (status : Text) (after : Progress) (other : ScheduledJob)
    (held : other ∈ after.database.held) (apart : other.id ≠ job.id) :
    other ∈ (settle digit s now before job status after).1.database.held := by
  have kept := update_held s after.database job.id status now other held apart
  unfold settle
  rcases updated : updateScheduledJobRun s after.database job.id status now with ⟨database,result⟩
  rw [updated] at kept
  cases result <;> exact kept

theorem settle_invoked (before : Database) (job : ScheduledJob) (status : Text) (after : Progress) :
    (settle digit s now before job status after).1.invoked = after.invoked := by
  unfold settle
  rcases updateScheduledJobRun s after.database job.id status now with ⟨database,result⟩
  cases result <;> rfl

theorem settle_recorded (before : Database) (job : ScheduledJob) (status : Text) (after last : Progress) (report : JobReport)
    (settled : settle digit s now before job status after = (last,.recorded report)) :
    last.database.jobs = (after.database.record job.id status (s.stored now)).jobs ∧ last.database.usable = true := by
  unfold settle at settled
  rcases updated : updateScheduledJobRun s after.database job.id status now with ⟨database,result⟩
  rw [updated] at settled
  cases result with
  | error exc => simp at settled
  | ok nothing =>
      simp only [Prod.mk.injEq] at settled
      rw [← settled.1]
      exact update_ok s after.database database job.id status now updated

theorem settle_skips (before : Database) (job : ScheduledJob) (status : Text) (after last : Progress) :
    settle digit s now before job status after ≠ (last,.skipped) := by
  unfold settle
  rcases updateScheduledJobRun s after.database job.id status now with ⟨database,result⟩
  cases result <;> simp

theorem settle_ready (before : Database) (job : ScheduledJob) (status : Text) (after : Progress)
    (ready : after.database.session.status = .ready) :
    ∃ last report, settle digit s now before job status after = (last,.recorded report) := by
  obtain ⟨database,updated⟩ := update_ready s after.database job.id status now ready
  simp only [settle,updated]
  exact ⟨_,_,rfl⟩

-- A job whose tool is not the runner, or is given something the runner refuses,
-- starts no run of its own.
theorem invokeJob_single (job : ScheduledJob) (progress : Progress) (single : job.runsRunner = false) :
    ∃ after ending, invokeJob s nested job progress = some (after,ending) ∧ after.invoked = progress.invoked ∧
      ∀ other ∈ progress.database.held, other ∈ after.database.held := by
  unfold invokeJob
  by_cases named : job.toolName = RUN_SCHEDULED_JOBS
  · have given : job.given.isEmpty = false := by simpa [ScheduledJob.runsRunner,named] using single
    simp only [named,if_true,invokeRunner,given]
    exact ⟨_,_,rfl,rfl,fun other held => held⟩
  · simp only [named,if_false]
    exact ⟨_,_,rfl,rfl,s.keeps progress.invoked.length job.toolName job.given progress.database⟩

theorem turn_single (job : ScheduledJob) (progress : Progress)
    (single : due digit progress.database now job = true → job.runsRunner = false) :
    ∃ after result, turn digit s nested now job progress = some (after,result) ∧
      after.invoked = progress.invoked ++
        (if due digit progress.database now job then [Invocation.mk job progress.database] else []) ∧
      ∀ other ∈ progress.database.held, other.id ≠ job.id → other ∈ after.database.held := by
  by_cases ready : due digit progress.database now job = true
  · obtain ⟨after,ending,ran,invoked,kept⟩ := invokeJob_single s nested job (progress.began job) (single ready)
    have settled (status : Text) : ∃ last result, some (settle digit s now progress.database job status after) =
        some (last,result) ∧ last.invoked = progress.invoked ++ [Invocation.mk job progress.database] ∧
        ∀ other ∈ progress.database.held, other.id ≠ job.id → other ∈ last.database.held :=
      ⟨_,_,rfl,(settle_invoked digit s now progress.database job status after).trans invoked,fun other held apart =>
        settle_held digit s now progress.database job status after other (kept other held) apart⟩
    simp only [turn,ready,if_true,ran]
    cases ending with
    | returned result => exact settled _
    | raised exc => exact settled _
    | interrupted name => exact ⟨after,_,rfl,invoked,fun other held _ => kept other held⟩
  · simp only [turn,ready]
    exact ⟨progress,.skipped,rfl,by simp,fun other held _ => held⟩

theorem turn_skipped (job : ScheduledJob) (progress after : Progress)
    (skipped : turn digit s nested now job progress = some (after,.skipped)) :
    due digit progress.database now job = false ∧ after = progress := by
  unfold turn at skipped
  split at skipped
  · split at skipped
    · cases skipped
    · exact absurd (Option.some.inj skipped) (settle_skips digit s now progress.database job _ _ after)
    · exact absurd (Option.some.inj skipped) (settle_skips digit s now progress.database job _ _ after)
    · simp at skipped
  · rename_i undue
    simp only [Option.some.injEq,Prod.mk.injEq,and_true] at skipped
    exact ⟨by simpa using undue,skipped.symm⟩

theorem turn_recorded (job : ScheduledJob) (progress after : Progress) (report : JobReport)
    (recorded : turn digit s nested now job progress = some (after,.recorded report)) :
    due digit progress.database now job = true ∧ after.database.usable = true ∧ ∃ between ending status,
      invokeJob s nested job (progress.began job) = some (between,ending) ∧ after.invoked = between.invoked ∧
      after.database.jobs = (between.database.record job.id status (s.stored now)).jobs := by
  unfold turn at recorded
  split at recorded
  · rename_i ready
    have settled (between : Progress) (status : Text)
        (done : settle digit s now progress.database job status between = (after,.recorded report)) :
        after.database.usable = true ∧ after.invoked = between.invoked ∧
          after.database.jobs = (between.database.record job.id status (s.stored now)).jobs := by
      obtain ⟨rows,usable⟩ := settle_recorded digit s now progress.database job status between after report done
      have kept := settle_invoked digit s now progress.database job status between
      rw [done] at kept
      exact ⟨usable,kept,rows⟩
    split at recorded
    · cases recorded
    · rename_i between result ran
      obtain ⟨usable,kept,rows⟩ := settled between _ (Option.some.inj recorded)
      exact ⟨ready,usable,between,_,_,ran,kept,rows⟩
    · rename_i between exc ran
      obtain ⟨usable,kept,rows⟩ := settled between _ (Option.some.inj recorded)
      exact ⟨ready,usable,between,_,_,ran,kept,rows⟩
    · simp at recorded
  · simp at recorded

end Lemmas

section Page
variable (s : Surroundings) (database : Database) (runs : Nat)

theorem listed_usable (usable : database.usable = true) :
    listScheduledJobs s database runs 0 1000 = .ok ((s.order runs database.jobs).take 1000) :=
  (query_ok database _).mpr usable

theorem run_unusable (digit : Char → Option Nat) (unusable : database.usable = false) (depth : Nat) :
    ∃ exc, runDueJobs digit s (depth + 1) ⟨database,runs,[]⟩ = some (⟨database,runs + 1,[]⟩,.raised exc) := by
  refine ⟨⟨.other "PendingRollbackError".toList,"session needs a rollback".toList⟩,?_⟩
  unfold runDueJobs listScheduledJobs Database.query
  rw [unusable]
  rfl

theorem page_member (limit : Nat) (job : ScheduledJob) (listed : job ∈ (s.order runs database.jobs).take limit) :
    job ∈ database.jobs := (s.order_perm runs database.jobs).mem_iff.mp (List.mem_of_mem_take listed)

theorem page_nodup (limit : Nat) (field : ScheduledJob → α) (distinct : (database.jobs.map field).Nodup) :
    (((s.order runs database.jobs).take limit).map field).Nodup :=
  (((s.order_perm runs database.jobs).map field).nodup_iff.mpr distinct).sublist ((List.take_sublist _ _).map field)

end Page

theorem jobs_objects (database : Database) : (database.jobs.map ScheduledJob.object).Nodup :=
  database.objects.sublist ((List.sublist_append_left _ _).map _)

theorem own_row (database : Database) (job : ScheduledJob) (row : job ∈ database.jobs) :
    database.jobs.filter (fun other => other.object == job.object) = [job] := by
  have same : ∀ other ∈ database.jobs.filter (fun other => other.object == job.object), other = job := by
    intro other kept
    obtain ⟨member,alike⟩ := List.mem_filter.mp kept
    exact List.inj_on_of_nodup_map (jobs_objects database) member row (by simpa using alike)
  have distinct : (database.jobs.filter (fun other => other.object == job.object)).Nodup :=
    (List.Nodup.of_map _ (jobs_objects database)).filter _
  have kept : job ∈ database.jobs.filter (fun other => other.object == job.object) := List.mem_filter.mpr ⟨row,by simp⟩
  by_contra several
  rcases (distinct.ne_singleton_iff job).mp several with none | ⟨other,member,apart⟩
  · rw [none] at kept; cases kept
  · exact apart (same other member)

theorem utc_moment (now : Int) : (⟨now,some 0⟩ : Stamp).moment = now := by simp [Stamp.moment]

-- Tools that leave the table alone and the session ready, under a still clock.
def calm (now : Int) (order : List ScheduledJob → List ScheduledJob) (permutes : ∀ jobs, List.Perm (order jobs) jobs) :
    Surroundings where
  user := none
  tables := ascii
  clock _ := now
  stored now := ⟨now,some 0⟩
  order _ := order
  forbidden _ := []
  invoke _ _ _ database := (database.withSession ⟨database.session.audit,.ready⟩,.returned .null)
  stored_moment := utc_moment
  order_perm _ := permutes
  keeps _ _ _ _ _ held := held

def start (database : Database) : Progress := ⟨database,0,[]⟩

section Depth
variable (digit : Char → Option Nat) (s : Surroundings)

def Extends (nested deeper : Progress → Option (Progress × Outcome)) : Prop :=
  ∀ progress result, nested progress = some result → deeper progress = some result

theorem invokeJob_extends (extended : Extends nested deeper) (job : ScheduledJob) (progress : Progress)
    (result : Progress × Ending) (ran : invokeJob s nested job progress = some result) :
    invokeJob s deeper job progress = some result := by
  unfold invokeJob at ran ⊢
  by_cases named : job.toolName = RUN_SCHEDULED_JOBS
  · rw [if_pos named] at ran ⊢
    unfold invokeRunner at ran ⊢
    by_cases bare : job.given.isEmpty = true
    · rw [if_pos bare] at ran ⊢
      cases inner : nested progress with
      | none => rw [inner] at ran; cases ran
      | some found => rwa [inner,← extended progress found inner] at ran
    · rwa [if_neg bare] at ran ⊢
  · rwa [if_neg named] at ran ⊢

theorem turn_extends (extended : Extends nested deeper) (now : Int) (job : ScheduledJob) (progress : Progress)
    (result : Progress × Turn) (ran : turn digit s nested now job progress = some result) :
    turn digit s deeper now job progress = some result := by
  unfold turn at ran ⊢
  by_cases ready : due digit progress.database now job = true
  · rw [if_pos ready] at ran ⊢
    cases invoked : invokeJob s nested job (progress.began job) with
    | none => rw [invoked] at ran; cases ran
    | some found => rwa [invoked,← invokeJob_extends s extended job (progress.began job) found invoked] at ran
  · rwa [if_neg ready] at ran ⊢

theorem jobLoop_extends (extended : Extends nested deeper) (now : Int) (page : List ScheduledJob)
    (reports : List JobReport) (progress : Progress) (result : Progress × Outcome)
    (ran : jobLoop digit s nested now page reports progress = some result) :
    jobLoop digit s deeper now page reports progress = some result := by
  induction page generalizing reports progress with
  | nil => exact ran
  | cons job rest ih =>
      unfold jobLoop at ran ⊢
      cases taken : turn digit s nested now (progress.database.current job) progress with
      | none => simp [taken] at ran
      | some found =>
          rw [turn_extends digit s extended now _ progress found taken]
          simp only [taken] at ran
          obtain ⟨after,took⟩ := found
          cases took with
          | skipped => exact ih reports after ran
          | recorded report => exact ih (reports ++ [report]) after ran
          | raised exc => exact ran
          | interrupted name => exact ran

-- A run that ends within one depth ends the same within every greater one.
theorem runDueJobs_deeper (depth : Nat) :
    Extends (runDueJobs digit s depth) (runDueJobs digit s (depth + 1)) := by
  induction depth with
  | zero => intro progress result ran; cases ran
  | succ depth ih =>
      intro progress result ran
      unfold runDueJobs at ran ⊢
      cases listed : listScheduledJobs s progress.database progress.runs 0 1000 with
      | error exc => simpa only [listed] using ran
      | ok page =>
          simp only [listed] at ran
          exact jobLoop_extends digit s ih (s.clock progress.runs) page [] _ result ran

theorem runDueJobs_same (depth other : Nat) (progress : Progress) (one two : Progress × Outcome)
    (first : runDueJobs digit s depth progress = some one) (second : runDueJobs digit s other progress = some two) :
    one = two := by
  have lifts (more : Nat) : ∀ depth, Extends (runDueJobs digit s depth) (runDueJobs digit s (depth + more)) := by
    induction more with
    | zero => exact fun depth progress result ran => ran
    | succ more ih => exact fun depth progress result ran =>
        runDueJobs_deeper digit s (depth + more) progress result (ih depth progress result ran)
  have left := lifts other depth progress one first
  have right := lifts depth other progress two second
  rw [Nat.add_comm,left] at right
  exact Option.some.inj right

end Depth

end Kryvaracode.Scheduling
