import Kryvaracode.Scheduler

-- The turns of one run over its page of jobs.
namespace Kryvaracode.Scheduling
open ToolInvocation UnicodeText

-- A job as its object stands when its turn comes.
structure Visit where
  job : ScheduledJob
  before : Progress

def Database.has (database : Database) (job : ScheduledJob) : Prop := ∃ row ∈ database.jobs, row.object = job.object

-- The status that is recorded of an invocation, unless it is interrupted.
def recordedStatus : Ending → Option Text
  | .returned _ => some "success".toList
  | .raised exc => some (("failed: ".toList ++ typed exc).take 500)
  | .interrupted _ => none

-- What the session must allow for a run to be recorded.
def Recordable (database : Database) (id : Int) : Prop :=
  database.usable = true ∧ (database.jobs.any (·.id == id) = true → database.session.status = .ready)

section Visits
variable (digit : Char → Option Nat) (s : Surroundings) (nested : Progress → Option (Progress × Outcome)) (now : Int)

def visits : List ScheduledJob → Progress → List Visit
  | [],_ => []
  | job :: rest,progress =>
      let visit : Visit := ⟨progress.database.current job,progress⟩
      match turn digit s nested now visit.job progress with
      | some (after,.skipped) => visit :: visits rest after
      | some (after,.recorded _) => visit :: visits rest after
      | _ => [visit]

end Visits

section Calls
variable (digit : Char → Option Nat) (s : Surroundings)

def Progress.started (progress : Progress) : Progress := {progress with runs := progress.runs + 1}

-- Those of a run within depth + 1, with the runs inside it within depth.
def callVisits (depth : Nat) (progress : Progress) : List Visit :=
  match listScheduledJobs s progress.database progress.runs 0 1000 with
  | .error _ => []
  | .ok page => visits digit s (runDueJobs digit s depth) (s.clock progress.runs) page progress.started

end Calls

theorem current_object (database : Database) (job : ScheduledJob) : (database.current job).object = job.object := by
  unfold Database.current
  cases found : database.held.find? (·.object == job.object) with
  | none => rfl
  | some other => simpa using List.find?_some found

section Turns
variable {digit : Char → Option Nat} {s : Surroundings} {nested : Progress → Option (Progress × Outcome)} {now : Int}
  {job : ScheduledJob} {progress : Progress}

theorem update_recordable {database : Database} {id : Int} (recordable : Recordable database id) (status : Text) :
    ∃ after, updateScheduledJobRun s database id status now = (after,.ok ()) := by
  obtain ⟨usable,ready⟩ := recordable
  simp only [updateScheduledJobRun,(query_ok database ()).mpr usable]
  cases found : database.jobs.any (·.id == id) with
  | false => exact ⟨database,rfl⟩
  | true =>
      simp only [if_true,Session.commit,ready found]
      exact ⟨_,rfl⟩

theorem update_unrecordable {database : Database} {id : Int} (unrecordable : ¬ Recordable database id) (status : Text) :
    ∃ after exc, updateScheduledJobRun s database id status now = (after,.error exc) := by
  cases usable : database.usable with
  | false =>
      simp only [updateScheduledJobRun,Database.query,usable]
      exact ⟨_,_,rfl⟩
  | true =>
      obtain ⟨found,unready⟩ := Classical.not_imp.mp (not_and.mp unrecordable usable)
      simp only [updateScheduledJobRun,(query_ok database ()).mpr usable,found,if_true,Session.commit]
      cases status : database.session.status with
      | ready => exact absurd status unready
      | refused => exact ⟨_,_,rfl⟩
      | needsRollback => exact ⟨_,_,rfl⟩

theorem settle_recordable (digit : Char → Option Nat) (before : Database) {after : Progress}
    (recordable : Recordable after.database job.id) (status : Text) :
    ∃ database, settle digit s now before job status after = (after.withDatabase database,
        .recorded ⟨job.id,job.name,job.toolName,status,trigger digit now before job⟩) ∧
      database.jobs = (after.database.record job.id status (s.stored now)).jobs ∧ database.usable = true := by
  obtain ⟨database,updated⟩ := update_recordable recordable status
  refine ⟨database,?_,update_ok s after.database database job.id status now updated⟩
  rw [settle,updated]

theorem settle_unrecordable (digit : Char → Option Nat) (before : Database) {after : Progress}
    (unrecordable : ¬ Recordable after.database job.id) (status : Text) :
    ∃ database exc, settle digit s now before job status after = (after.withDatabase database,.raised exc) := by
  obtain ⟨database,exc,updated⟩ := update_unrecordable unrecordable status
  refine ⟨database,exc,?_⟩
  rw [settle,updated]

theorem turn_undue (undue : due digit progress.database now job = false) :
    turn digit s nested now job progress = some (progress,.skipped) := by
  rw [turn,undue]
  rfl

theorem turn_due (ready : due digit progress.database now job = true) {between : Progress} {ending : Ending} {status : Text}
    (ran : invokeJob s nested job (progress.began job) = some (between,ending)) (told : recordedStatus ending = some status) :
    turn digit s nested now job progress = some (settle digit s now progress.database job status between) := by
  rw [turn,if_pos ready,ran]
  cases ending with
  | returned result =>
      cases told
      rfl
  | raised exc =>
      cases told
      rfl
  | interrupted name => cases told

-- An invocation that ends and can be recorded.
def Settles (s : Surroundings) (nested : Progress → Option (Progress × Outcome)) (visit : Visit) : Prop :=
  ∃ between ending, invokeJob s nested visit.job (visit.before.began visit.job) = some (between,ending) ∧
    recordedStatus ending ≠ none ∧ Recordable between.database visit.job.id

-- The row of the job, if it is still there, tells how this invocation ended.
def Told (digit : Char → Option Nat) (s : Surroundings) (nested : Progress → Option (Progress × Outcome)) (now : Int)
    (visit : Visit) : Prop :=
  ∃ between ending after report, invokeJob s nested visit.job (visit.before.began visit.job) = some (between,ending) ∧
    turn digit s nested now visit.job visit.before = some (after,.recorded report) ∧
    recordedStatus ending = some report.status ∧
    ∀ row ∈ after.database.jobs, row.id = visit.job.id →
      row.lastRunAt = some (s.stored now) ∧ row.lastStatus = some report.status

theorem record_rows (database : Database) (id : Int) (status : Text) (runAt : Stamp) {row : ScheduledJob}
    (member : row ∈ (database.record id status runAt).jobs) (its : row.id = id) :
    row.lastRunAt = some runAt ∧ row.lastStatus = some status := by
  obtain ⟨old,_,rfl⟩ := List.mem_map.mp member
  by_cases same : old.id = id
  · rw [if_pos same]
    exact ⟨rfl,rfl⟩
  · rw [if_neg same] at its
    exact absurd its same

theorem turn_told {visit : Visit} (ready : due digit visit.before.database now visit.job = true)
    (settles : Settles s nested visit) : Told digit s nested now visit := by
  obtain ⟨between,ending,ran,ended,recordable⟩ := settles
  obtain ⟨status,told⟩ := Option.ne_none_iff_exists'.mp ended
  obtain ⟨database,settled,rows,_⟩ := settle_recordable digit visit.before.database recordable status
  refine ⟨between,ending,_,_,ran,(turn_due ready ran told).trans (congrArg some settled),told,?_⟩
  intro row member its
  change row ∈ database.jobs at member
  rw [rows] at member
  exact record_rows between.database visit.job.id status (s.stored now) member its

-- A turn after which the run does not go on.
def Stops (took : Option (Progress × Turn)) : Prop :=
  (∀ after, took ≠ some (after,.skipped)) ∧ ∀ after report, took ≠ some (after,.recorded report)

theorem turn_stops {visit : Visit} (ready : due digit visit.before.database now visit.job = true)
    (unsettled : ¬ Settles s nested visit) : Stops (turn digit s nested now visit.job visit.before) := by
  cases ran : invokeJob s nested visit.job (visit.before.began visit.job) with
  | none =>
      have took : turn digit s nested now visit.job visit.before = none := by rw [turn,if_pos ready,ran]
      rw [took]
      refine ⟨?_,?_⟩ <;> intros <;> simp
  | some found =>
      obtain ⟨between,ending⟩ := found
      cases told : recordedStatus ending with
      | some status =>
          have unrecordable : ¬ Recordable between.database visit.job.id := by
            intro recordable
            exact unsettled ⟨between,ending,ran,by rw [told]; exact Option.some_ne_none status,recordable⟩
          obtain ⟨database,exc,settled⟩ := settle_unrecordable digit visit.before.database unrecordable status
          rw [turn_due ready ran told,settled]
          refine ⟨?_,?_⟩ <;> intros <;> simp
      | none =>
          cases ending with
          | returned result => cases told
          | raised exc => cases told
          | interrupted name =>
              have took : turn digit s nested now visit.job visit.before = some (between,.interrupted name) := by
                rw [turn,if_pos ready,ran]
              rw [took]
              refine ⟨?_,?_⟩ <;> intros <;> simp

end Turns

section Loop
variable {digit : Char → Option Nat} {s : Surroundings} {nested : Progress → Option (Progress × Outcome)} {now : Int}

-- All that the first turn of the loop can be, and how the loop and its visits go
-- on after it.
inductive FirstTurn (digit : Char → Option Nat) (s : Surroundings) (nested : Progress → Option (Progress × Outcome)) (now : Int)
    (job : ScheduledJob) (rest : List ScheduledJob) (progress : Progress) (visit : Visit) : Prop where
  | skipped (undue : due digit progress.database now visit.job = false)
      (loop : ∀ reports, jobLoop digit s nested now (job :: rest) reports progress =
        jobLoop digit s nested now rest reports progress)
      (turns : visits digit s nested now (job :: rest) progress = visit :: visits digit s nested now rest progress) :
      FirstTurn digit s nested now job rest progress visit
  | recorded (ready : due digit progress.database now visit.job = true) (settles : Settles s nested visit)
      (after : Progress) (report : JobReport)
      (told : report.jobId = visit.job.id ∧ report.name = visit.job.name ∧ report.toolName = visit.job.toolName)
      (loop : ∀ reports, jobLoop digit s nested now (job :: rest) reports progress =
        jobLoop digit s nested now rest (reports ++ [report]) after)
      (turns : visits digit s nested now (job :: rest) progress = visit :: visits digit s nested now rest after) :
      FirstTurn digit s nested now job rest progress visit
  | stopped (ready : due digit progress.database now visit.job = true) (unsettled : ¬ Settles s nested visit)
      (never : ∀ reports after told, jobLoop digit s nested now (job :: rest) reports progress ≠ some (after,.completed told))
      (turns : visits digit s nested now (job :: rest) progress = [visit]) :
      FirstTurn digit s nested now job rest progress visit

theorem loop_stopped (job : ScheduledJob) (rest : List ScheduledJob) (reports : List JobReport) {progress : Progress}
    (stops : Stops (turn digit s nested now (progress.database.current job) progress)) :
    (∀ after told, jobLoop digit s nested now (job :: rest) reports progress ≠ some (after,.completed told)) ∧
      visits digit s nested now (job :: rest) progress = [⟨progress.database.current job,progress⟩] := by
  rw [visits,jobLoop]
  cases took : turn digit s nested now (progress.database.current job) progress with
  | none =>
      refine ⟨?_,rfl⟩
      intros
      simp
  | some found =>
      obtain ⟨after,ended⟩ := found
      rw [took] at stops
      cases ended with
      | skipped => exact absurd rfl (stops.1 after)
      | recorded report => exact absurd rfl (stops.2 after report)
      | raised exc =>
          refine ⟨?_,rfl⟩
          intros
          simp
      | interrupted name =>
          refine ⟨?_,rfl⟩
          intros
          simp

theorem first_turn (digit : Char → Option Nat) (s : Surroundings) (nested : Progress → Option (Progress × Outcome)) (now : Int)
    (job : ScheduledJob) (rest : List ScheduledJob) (progress : Progress) :
    FirstTurn digit s nested now job rest progress ⟨progress.database.current job,progress⟩ := by
  cases ready : due digit progress.database now (progress.database.current job) with
  | false =>
      have skips : turn digit s nested now (progress.database.current job) progress = some (progress,.skipped) :=
        turn_undue ready
      exact .skipped ready (fun reports => by rw [jobLoop,skips]) (by rw [visits,skips])
  | true =>
      by_cases settles : Settles s nested ⟨progress.database.current job,progress⟩
      · obtain ⟨between,ending,ran,ended,recordable⟩ := settles
        obtain ⟨status,given⟩ := Option.ne_none_iff_exists'.mp ended
        obtain ⟨database,settled,_⟩ := settle_recordable digit progress.database recordable status
        have took := (turn_due ready ran given).trans (congrArg some settled)
        exact .recorded ready ⟨between,ending,ran,ended,recordable⟩ _ _ ⟨rfl,rfl,rfl⟩ (fun reports => by rw [jobLoop,took])
          (by rw [visits,took])
      · have stops := turn_stops ready settles
        exact .stopped ready settles (fun reports => (loop_stopped job rest reports stops).1) (loop_stopped job rest [] stops).2

-- The run ends with its reports exactly when each invocation it makes settles.
theorem loop_completed (page : List ScheduledJob) (reports : List JobReport) (progress : Progress) :
    (∃ after told, jobLoop digit s nested now page reports progress = some (after,.completed told)) ↔
      ∀ visit ∈ visits digit s nested now page progress,
        due digit visit.before.database now visit.job = true → Settles s nested visit := by
  induction page generalizing reports progress with
  | nil =>
      refine iff_of_true ⟨progress,reports,rfl⟩ ?_
      intro visit member
      cases member
  | cons job rest ih =>
      cases first_turn digit s nested now job rest progress with
      | skipped undue loop turns =>
          rw [loop,turns,ih,List.forall_mem_cons]
          refine (and_iff_right ?_).symm
          intro ready
          cases undue.symm.trans ready
      | recorded ready settles after report told loop turns =>
          rw [loop,turns,ih,List.forall_mem_cons]
          exact (and_iff_right fun _ => settles).symm
      | stopped ready unsettled never turns =>
          rw [turns]
          refine iff_of_false ?_ ?_
          · rintro ⟨after,told,completed⟩
            exact never reports after told completed
          · intro all
            exact unsettled (all _ List.mem_cons_self ready)

-- The visits follow the page, and reach its end if the run does.
theorem visits_page (digit : Char → Option Nat) (s : Surroundings) (nested : Progress → Option (Progress × Outcome)) (now : Int)
    (page : List ScheduledJob) (progress : Progress) :
    (visits digit s nested now page progress).map (fun visit => visit.job.object) <+: page.map ScheduledJob.object ∧
      ((∀ visit ∈ visits digit s nested now page progress,
          due digit visit.before.database now visit.job = true → Settles s nested visit) →
        (visits digit s nested now page progress).map (fun visit => visit.job.object) = page.map ScheduledJob.object) := by
  induction page generalizing progress with
  | nil => exact ⟨List.prefix_rfl,fun _ => rfl⟩
  | cons job rest ih =>
      let visit : Visit := ⟨progress.database.current job,progress⟩
      have object : visit.job.object = job.object := current_object progress.database job
      have further : ∀ after, (visit :: visits digit s nested now rest after).map (fun visit => visit.job.object) <+:
            (job :: rest).map ScheduledJob.object ∧
          ((∀ other ∈ visit :: visits digit s nested now rest after,
              due digit other.before.database now other.job = true → Settles s nested other) →
            (visit :: visits digit s nested now rest after).map (fun visit => visit.job.object) =
              (job :: rest).map ScheduledJob.object) := by
        intro after
        obtain ⟨front,whole⟩ := ih after
        rw [List.map_cons,List.map_cons,object]
        refine ⟨List.cons_prefix_cons.mpr ⟨rfl,front⟩,fun all => ?_⟩
        rw [whole (List.forall_mem_cons.mp all).2]
      cases first_turn digit s nested now job rest progress with
      | skipped undue loop turns =>
          rw [turns]
          exact further progress
      | recorded ready settles after report told loop turns =>
          rw [turns]
          exact further after
      | stopped ready unsettled never turns =>
          rw [turns]
          refine ⟨?_,fun all => absurd (all visit List.mem_cons_self ready) unsettled⟩
          rw [List.map_cons,List.map_cons,object]
          exact List.cons_prefix_cons.mpr ⟨rfl,List.nil_prefix⟩

-- What is reported is of an invocation the loop makes.
theorem loop_reports (page : List ScheduledJob) (reports told : List JobReport) (progress after : Progress)
    (completed : jobLoop digit s nested now page reports progress = some (after,.completed told)) :
    ∀ report ∈ told, report ∈ reports ∨ ∃ visit ∈ visits digit s nested now page progress,
      due digit visit.before.database now visit.job = true ∧ report.jobId = visit.job.id ∧
        report.name = visit.job.name ∧ report.toolName = visit.job.toolName := by
  induction page generalizing reports progress with
  | nil =>
      intro report member
      rw [jobLoop] at completed
      cases completed
      exact .inl member
  | cons job rest ih =>
      cases first_turn digit s nested now job rest progress with
      | skipped undue loop turns =>
          rw [loop] at completed
          rw [turns]
          intro report member
          refine (ih reports progress completed report member).imp_right ?_
          rintro ⟨other,found,facts⟩
          exact ⟨other,List.mem_cons_of_mem _ found,facts⟩
      | recorded ready settles next first its loop turns =>
          rw [loop] at completed
          rw [turns]
          intro report member
          rcases ih _ _ completed report member with earlier | ⟨other,found,facts⟩
          · rcases List.mem_append.mp earlier with old | new
            · exact .inl old
            · cases List.mem_singleton.mp new
              exact .inr ⟨_,List.mem_cons_self,ready,its⟩
          · exact .inr ⟨other,List.mem_cons_of_mem _ found,facts⟩
      | stopped ready unsettled never turns => exact absurd completed (never reports after told)

end Loop

-- The log of invocations only grows.
section Growth
variable {digit : Char → Option Nat} {s : Surroundings} {nested : Progress → Option (Progress × Outcome)} {now : Int}

def Grows (nested : Progress → Option (Progress × Outcome)) : Prop :=
  ∀ progress after outcome, nested progress = some (after,outcome) → progress.invoked <+: after.invoked

theorem invokeJob_grows (grows : Grows nested) (job : ScheduledJob) (progress after : Progress) (ending : Ending)
    (ran : invokeJob s nested job progress = some (after,ending)) : progress.invoked <+: after.invoked := by
  unfold invokeJob at ran
  split at ran
  · unfold invokeRunner at ran
    split at ran
    · cases inner : nested progress with
      | none =>
          rw [inner] at ran
          cases ran
      | some found =>
          obtain ⟨between,outcome⟩ := found
          have grown := grows progress between outcome inner
          rw [inner] at ran
          cases outcome <;> cases ran <;> exact grown
    · cases ran
      exact List.prefix_rfl
  · cases ran
    exact List.prefix_rfl

theorem turn_grows (grows : Grows nested) (job : ScheduledJob) (progress after : Progress) (took : Turn)
    (ran : turn digit s nested now job progress = some (after,took)) : progress.invoked <+: after.invoked ∧
      (due digit progress.database now job = true → ⟨job,progress.database⟩ ∈ after.invoked) := by
  cases ready : due digit progress.database now job with
  | false =>
      cases (turn_undue ready).symm.trans ran
      exact ⟨List.prefix_rfl,fun due => absurd due Bool.false_ne_true⟩
  | true =>
      have begun : ∀ between ending, invokeJob s nested job (progress.began job) = some (between,ending) →
          after.invoked = between.invoked → progress.invoked <+: after.invoked ∧
            (true = true → ⟨job,progress.database⟩ ∈ after.invoked) := by
        intro between ending invoked same
        have grown := invokeJob_grows grows job (progress.began job) between ending invoked
        rw [same]
        exact ⟨(List.prefix_append _ _).trans grown,fun _ => grown.subset (List.mem_append_right _ List.mem_cons_self)⟩
      cases invoked : invokeJob s nested job (progress.began job) with
      | none =>
          rw [turn,if_pos ready,invoked] at ran
          cases ran
      | some found =>
          obtain ⟨between,ending⟩ := found
          apply begun between ending invoked
          cases told : recordedStatus ending with
          | some status =>
              rw [turn_due ready invoked told] at ran
              have kept := settle_invoked digit s now progress.database job status between
              rw [Option.some.inj ran] at kept
              exact kept
          | none =>
              cases ending with
              | returned result => cases told
              | raised exc => cases told
              | interrupted name =>
                  rw [turn,if_pos ready,invoked] at ran
                  cases ran
                  rfl

theorem loop_grows (grows : Grows nested) (page : List ScheduledJob) (reports : List JobReport) (progress after : Progress)
    (outcome : Outcome) (ran : jobLoop digit s nested now page reports progress = some (after,outcome)) :
    progress.invoked <+: after.invoked ∧ ∀ visit ∈ visits digit s nested now page progress,
      due digit visit.before.database now visit.job = true → ⟨visit.job,visit.before.database⟩ ∈ after.invoked := by
  induction page generalizing reports progress with
  | nil =>
      rw [jobLoop] at ran
      cases ran
      refine ⟨List.prefix_rfl,?_⟩
      intro visit member
      cases member
  | cons job rest ih =>
      rw [jobLoop] at ran
      rw [visits]
      cases took : turn digit s nested now (progress.database.current job) progress with
      | none =>
          rw [took] at ran
          cases ran
      | some found =>
          obtain ⟨next,taken⟩ := found
          obtain ⟨grown,invoked⟩ := turn_grows grows _ progress next taken took
          rw [took] at ran
          have further : ∀ told, jobLoop digit s nested now rest told next = some (after,outcome) →
              progress.invoked <+: after.invoked ∧
                ∀ visit ∈ (⟨progress.database.current job,progress⟩ :: visits digit s nested now rest next : List Visit),
                  due digit visit.before.database now visit.job = true →
                    ⟨visit.job,visit.before.database⟩ ∈ after.invoked := by
            intro told on
            obtain ⟨later,others⟩ := ih told next on
            refine ⟨grown.trans later,List.forall_mem_cons.mpr ⟨?_,others⟩⟩
            exact fun ready => later.subset (invoked ready)
          cases taken with
          | skipped => exact further reports ran
          | recorded report => exact further (reports ++ [report]) ran
          | raised exc =>
              cases ran
              refine ⟨grown,?_⟩
              intro visit member
              cases List.mem_singleton.mp member
              exact invoked
          | interrupted name =>
              cases ran
              refine ⟨grown,?_⟩
              intro visit member
              cases List.mem_singleton.mp member
              exact invoked

theorem run_grows (depth : Nat) : Grows (runDueJobs digit s depth) := by
  induction depth with
  | zero =>
      intro progress after outcome ran
      cases ran
  | succ depth ih =>
      intro progress after outcome ran
      unfold runDueJobs at ran
      cases listed : listScheduledJobs s progress.database progress.runs 0 1000 with
      | error exc =>
          simp only [listed] at ran
          cases ran
          exact List.prefix_rfl
      | ok page =>
          simp only [listed] at ran
          exact (loop_grows ih page [] _ after outcome ran).1

end Growth

end Kryvaracode.Scheduling
