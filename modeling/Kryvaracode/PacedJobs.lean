import Kryvaracode.Pacing
import Kryvaracode.Starvation

namespace Kryvaracode.Scheduling
open ToolInvocation JsonText UnicodeText

-- What no run changes of a row.
def ScheduledJob.settings (job : ScheduledJob) : ScheduledJob := {job with lastRunAt := none, lastStatus := none}

-- Runs one after another over the same table: when each began and the jobs it called on.
def runAll (digit : Char → Option Nat) : List Surroundings → Database → Option (List (Int × List ScheduledJob))
  | [],_ => some []
  | s :: rest,database =>
      match runDueJobs digit s 1 (start database) with
      | some (after,.completed _) =>
          (runAll digit rest after.database).map ((s.clock 0,after.invoked.map Invocation.job) :: ·)
      | _ => none

theorem settings_field (field : ScheduledJob → α) (fixed : ∀ job, field job.settings = field job) {row job : ScheduledJob}
    (same : row.settings = job.settings) : field row = field job := by
  rw [← fixed row,same,fixed]

def firedAt (id : Int) (log : List (Int × List ScheduledJob)) : List Int :=
  log.filterMap fun entry => if entry.2.any (·.id == id) then some entry.1 else none

-- Whether the condition of a job makes it due at every run.
def eventful (digit : Char → Option Nat) (job : ScheduledJob) : Bool := evaluate digit (newTable 0) job

def ScheduledJob.interval (job : ScheduledJob) : Int := job.intervalSeconds * 1000000

def ScheduledJob.last (job : ScheduledJob) : Option Int := job.lastRunAt.map Stamp.moment

def expected (digit : Char → Option Nat) (job : ScheduledJob) (looks : List Int) : List Int :=
  if job.enabled then if eventful digit job then looks else Pacing.firings job.interval job.last looks else []

structure Paced (digit : Char → Option Nat) (job : ScheduledJob) (looks fired : List Int) : Prop where
  disabled : job.enabled = false → fired = []
  always : job.enabled = true → eventful digit job = true → fired = looks
  exactly : job.enabled = true → eventful digit job = false → fired = Pacing.firings job.interval job.last looks
  spaced : job.enabled = true → eventful digit job = false → fired.Pairwise fun before now => job.interval ≤ now - before
  prompt : job.enabled = true → eventful digit job = false → ∀ front now, front ++ [now] <+: looks →
    ∃ before, (before ∈ Pacing.firings job.interval job.last (front ++ [now]) ∨ job.last = some before) ∧
      now - before < job.interval

section Run
variable {digit : Char → Option Nat} {s : Surroundings} {database : Database} {after : Progress} {reports : List JobReport}

theorem completed_usable (completed : runDueJobs digit s 1 (start database) = some (after,.completed reports)) :
    database.usable = true := by
  by_contra unusable
  obtain ⟨exc,raised⟩ := run_unusable s database 0 digit (Bool.not_eq_true _ ▸ unusable) 0
  rw [start,raised] at completed
  cases completed

theorem evaluate_eventful (usable : database.usable = true) (job : ScheduledJob) :
    evaluate digit database job = eventful digit job :=
  Bool.eq_iff_iff.mpr ⟨evaluate_usable digit database (newTable 0) job rfl,evaluate_usable digit (newTable 0) database job usable⟩

theorem dueByInterval_ripe (now : Int) (job : ScheduledJob) : dueByInterval now job = Pacing.ripe job.interval job.last now := by
  unfold dueByInterval ScheduledJob.last
  cases job.lastRunAt <;> rfl

theorem due_exact (usable : database.usable = true) (now : Int) (job : ScheduledJob) :
    due digit database now job = (job.enabled && (Pacing.ripe job.interval job.last now || eventful digit job)) := by
  rw [due,dueByInterval_ripe,evaluate_eventful usable]

theorem record_settings (database : Database) (id : Int) (status : Text) (runAt : Stamp) :
    (database.record id status runAt).jobs.map ScheduledJob.settings = database.jobs.map ScheduledJob.settings := by
  rw [Database.record,List.map_map]
  refine List.map_congr_left fun job _ => ?_
  by_cases its : job.id = id <;> simp [its,ScheduledJob.ran,ScheduledJob.settings]

theorem jobLoop_settings (nested : Progress → Option (Progress × Outcome)) (now : Int) (page : List ScheduledJob)
    (told : List JobReport) (progress : Progress) (rows : ∀ job ∈ page, job ∈ progress.database.jobs)
    (ids : (page.map ScheduledJob.id).Nodup) (plain : ∀ job ∈ page, job.toolName ≠ RUN_SCHEDULED_JOBS) (steady : Steady s page)
    (completed : jobLoop digit s nested now page told progress = some (after,.completed reports)) :
    after.database.jobs.map ScheduledJob.settings = progress.database.jobs.map ScheduledJob.settings := by
  induction page generalizing told progress with
  | nil =>
      simp only [jobLoop,Option.some.injEq,Prod.mk.injEq] at completed
      rw [← completed.1]
  | cons job rest ih =>
      obtain ⟨row,restRows⟩ := List.forall_mem_cons.mp rows
      obtain ⟨other,restPlain⟩ := List.forall_mem_cons.mp plain
      obtain ⟨alone,restSteady⟩ := List.forall_mem_cons.mp steady
      have restIds : (rest.map ScheduledJob.id).Nodup := (List.nodup_cons.mp ids).2
      have current := current_held progress.database job (List.mem_append_left _ row)
      rw [jobLoop,current] at completed
      split at completed
      · cases completed
      · rename_i next skipped
        obtain ⟨_,rfl⟩ := turn_skipped digit s nested now job progress next skipped
        exact ih told next restRows restIds restPlain restSteady completed
      · rename_i next report recorded
        obtain ⟨_,_,_,status,recordedRows⟩ := turn_steady digit s nested now job progress next report other alone recorded
        rw [ih (told ++ [report]) next (rest_rows job rest progress.database next.database status (s.stored now) ids restRows
          recordedRows) restIds restPlain restSteady completed,recordedRows]
        exact record_settings _ _ _ _
      · simp at completed
      · simp at completed

theorem run_settings (plain : Plain database) (steady : Steady s database.jobs)
    (completed : runDueJobs digit s 1 (start database) = some (after,.completed reports)) :
    after.database.jobs.map ScheduledJob.settings = database.jobs.map ScheduledJob.settings := by
  have rows : ∀ job ∈ (s.order 0 database.jobs).take 1000, job ∈ database.jobs := page_member s database 0 1000
  have usable := completed_usable completed
  unfold runDueJobs at completed
  rw [start,listed_usable s database 0 usable] at completed
  exact jobLoop_settings _ _ _ [] _ rows (page_nodup s database 0 1000 _ database.ids) (fun job listed => plain job (rows job listed))
    (fun job listed => steady job (rows job listed)) completed

theorem settings_row {other : Database} (same : other.jobs.map ScheduledJob.settings = database.jobs.map ScheduledJob.settings)
    {row : ScheduledJob} (member : row ∈ other.jobs) : ∃ job ∈ database.jobs, job.settings = row.settings := by
  have listed : row.settings ∈ database.jobs.map ScheduledJob.settings := same ▸ List.mem_map_of_mem member
  obtain ⟨job,member,alike⟩ := List.mem_map.mp listed
  exact ⟨job,member,alike⟩

theorem forall₂_mem {holds : α → β → Prop} {left : List α} {right : List β} (all : List.Forall₂ holds left right)
    {entry : α} (member : entry ∈ left) : ∃ other ∈ right, holds entry other := by
  induction all with
  | nil => cases member
  | cons first rest ih =>
      rcases List.mem_cons.mp member with rfl | later
      · exact ⟨_,.head _,first⟩
      · obtain ⟨other,there,held⟩ := ih later
        exact ⟨other,.tail _ there,held⟩

-- What one run makes of a job: it is called on if due, and then its row tells of it.
theorem run_row (plain : Plain database) (small : database.jobs.length ≤ 1000) (steady : Steady s database.jobs)
    (completed : runDueJobs digit s 1 (start database) = some (after,.completed reports)) {job : ScheduledJob}
    (member : job ∈ database.jobs) :
    (after.invoked.map Invocation.job).any (·.id == job.id) = due digit database (s.clock 0) job ∧
      ∃ row ∈ after.database.jobs, row.settings = job.settings ∧
        row.last = if due digit database (s.clock 0) job then some (s.clock 0) else job.last := by
  have settings := run_settings plain steady completed
  obtain ⟨invoked,settled⟩ := run_served digit database (s.clock 0) s plain steady rfl (completed_usable completed) 1 after reports completed
  have whole : (s.order 0 database.jobs).take 1000 = s.order 0 database.jobs :=
    List.take_of_length_le ((s.order_perm 0 database.jobs).length_eq.trans_le small)
  have listed : ∀ other, other ∈ (s.order 0 database.jobs).filter (due digit database (s.clock 0)) ↔
      other ∈ database.jobs ∧ due digit database (s.clock 0) other = true := by
    intro other
    rw [List.mem_filter,(s.order_perm 0 database.jobs).mem_iff]
  rw [whole] at invoked settled
  refine ⟨?_,?_⟩
  · rw [invoked,Bool.eq_iff_iff,List.any_eq_true]
    constructor
    · rintro ⟨other,called,same⟩
      obtain ⟨there,ready⟩ := (listed other).mp called
      rwa [← List.inj_on_of_nodup_map database.ids there member (beq_iff_eq.mp same)]
    · exact fun ready => ⟨job,(listed job).mpr ⟨member,ready⟩,beq_self_eq_true _⟩
  · obtain ⟨row,there,object,told,kept⟩ := forall₂_mem settled member
    obtain ⟨twin,twinThere,alike⟩ := settings_row settings.symm member
    have own : twin = row := by
      refine List.inj_on_of_nodup_map (jobs_objects after.database) twinThere there ?_
      exact (settings_field ScheduledJob.object (fun _ => rfl) alike).trans object.symm
    subst own
    refine ⟨twin,there,alike,?_⟩
    by_cases ready : due digit database (s.clock 0) job = true
    · rw [if_pos ready]
      exact told ((listed job).mpr ⟨member,ready⟩)
    · rw [if_neg ready,kept fun called => ready ((listed job).mp called).2]

end Run

theorem expected_cons (digit : Char → Option Nat) {job row : ScheduledJob} (same : row.settings = job.settings) (now : Int)
    (ready : Bool) (exactly : ready = (job.enabled && (Pacing.ripe job.interval job.last now || eventful digit job)))
    (last : row.last = if ready then some now else job.last) (looks : List Int) :
    expected digit job (now :: looks) = (if ready then [now] else []) ++ expected digit row looks := by
  have enabled : row.enabled = job.enabled := settings_field ScheduledJob.enabled (fun _ => rfl) same
  have event : eventful digit row = eventful digit job := settings_field (eventful digit) (fun _ => rfl) same
  have interval : row.interval = job.interval := settings_field ScheduledJob.interval (fun _ => rfl) same
  unfold expected
  rw [enabled,event,interval,last,exactly,Pacing.firings]
  cases job.enabled <;> cases eventful digit job <;> cases Pacing.ripe job.interval job.last now <;> rfl

-- The induction is on the runs; each leaves the rows with their settings.
theorem fired_expected (digit : Char → Option Nat) (surroundings : List Surroundings) (database : Database)
    (log : List (Int × List ScheduledJob)) (plain : Plain database) (small : database.jobs.length ≤ 1000)
    (steady : ∀ s ∈ surroundings, Steady s database.jobs) (ran : runAll digit surroundings database = some log)
    {job : ScheduledJob} (member : job ∈ database.jobs) :
    firedAt job.id log = expected digit job (surroundings.map fun s => s.clock 0) := by
  induction surroundings generalizing database log job with
  | nil =>
      cases ran
      unfold expected
      split
      · split <;> rfl
      · rfl
  | cons s rest ih =>
      rw [runAll] at ran
      split at ran
      · rename_i after reports completed
        obtain ⟨later,known,rfl⟩ := Option.map_eq_some_iff.mp ran
        obtain ⟨first,restSteady⟩ := List.forall_mem_cons.mp steady
        have settings := run_settings plain first completed
        obtain ⟨called,row,there,same,last⟩ := run_row plain small first completed member
        have plain' : Plain after.database := by
          intro row listed
          obtain ⟨job,before,alike⟩ := settings_row settings listed
          exact settings_field ScheduledJob.toolName (fun _ => rfl) alike ▸ plain job before
        have small' : after.database.jobs.length ≤ 1000 := by
          have lengths := congrArg List.length settings
          rw [List.length_map,List.length_map] at lengths
          rwa [lengths]
        have steady' : ∀ s ∈ rest, Steady s after.database.jobs := by
          intro s next row listed calls database
          obtain ⟨job,before,alike⟩ := settings_row settings listed
          have tool : job.toolName = row.toolName := settings_field ScheduledJob.toolName (fun _ => rfl) alike
          have given : job.given = row.given := settings_field ScheduledJob.given (fun _ => rfl) alike
          rw [← tool,← given]
          exact restSteady s next job before calls database
        have id : row.id = job.id := settings_field ScheduledJob.id (fun _ => rfl) same
        have more := ih after.database later plain' small' steady' known there
        rw [id] at more
        rw [List.map_cons,expected_cons digit same (s.clock 0) _ (due_exact (completed_usable completed) _ job) last,← more]
        unfold firedAt
        rw [List.filterMap_cons,called]
        cases due digit database (s.clock 0) job <;> rfl
      · cases ran

-- Runs that are completed, over tools that leave the table alone, keep every job's pace.
theorem jobs_paced (digit : Char → Option Nat) (surroundings : List Surroundings) (database : Database)
    (log : List (Int × List ScheduledJob)) (plain : Plain database) (small : database.jobs.length ≤ 1000)
    (steady : ∀ s ∈ surroundings, Steady s database.jobs) (ran : runAll digit surroundings database = some log)
    (job : ScheduledJob) (member : job ∈ database.jobs) (positive : 0 < job.intervalSeconds) :
    Paced digit job (surroundings.map fun s => s.clock 0) (firedAt job.id log) := by
  have forward : 0 < job.interval := by
    unfold ScheduledJob.interval
    omega
  have fired := fired_expected digit surroundings database log plain small steady ran member
  unfold expected at fired
  refine ⟨?_,?_,?_,?_,?_⟩
  · intro disabled
    rwa [disabled] at fired
  · intro enabled event
    rwa [enabled,event] at fired
  · intro enabled event
    rwa [enabled,event] at fired
  · intro enabled event
    rw [enabled,event] at fired
    rw [fired]
    exact Pacing.firings_spaced job.interval forward.le job.last _
  · intro _ _ front now _
    exact Pacing.firings_prompt job.interval forward job.last front now

def calmAt (now : Int) : Surroundings := calm now id fun jobs => .refl jobs

def hourlyLooks : List Int := [0,10000000,3600000000]

def hourlyLog : List (Int × List ScheduledJob) := (runAll asciiDigit (hourlyLooks.map calmAt) (newTable 2)).getD []

theorem hourly_ran : runAll asciiDigit (hourlyLooks.map calmAt) (newTable 2) = some hourlyLog := by
  have completed : (runAll asciiDigit (hourlyLooks.map calmAt) (newTable 2)).isSome = true := by decide +kernel
  obtain ⟨log,known⟩ := Option.isSome_iff_exists.mp completed
  rw [hourlyLog,known]
  rfl

theorem hourly_paced : Paced asciiDigit (newJob 0) ((hourlyLooks.map calmAt).map fun s => s.clock 0)
    (firedAt (newJob 0).id hourlyLog) := by
  have steady : ∀ s ∈ hourlyLooks.map calmAt, Steady s (newTable 2).jobs := by
    intro s member
    obtain ⟨now,_,rfl⟩ := List.mem_map.mp member
    exact calm_steady now id _ _
  exact jobs_paced asciiDigit _ (newTable 2) hourlyLog (newTable_plain 2) (by rw [newTable_length]; decide) steady hourly_ran
    (newJob 0) (newTable_row 2 0 (by decide)) (by decide)

example : firedAt (newJob 0).id hourlyLog = [0,3600000000] := by decide +kernel

end Kryvaracode.Scheduling
