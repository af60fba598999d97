import Kryvaracode.JobTurns

namespace Kryvaracode.Scheduling
open ToolInvocation JsonText UnicodeText

section Live
variable (digit : Char → Option Nat) (s : Surroundings) (depth : Nat) (progress : Progress)

def Visit.calls (visit : Visit) : Prop := due digit visit.before.database (s.clock progress.runs) visit.job = true

-- A run invokes and reports only jobs whose rows are in the table at their turn.
structure OnlyLive : Prop where
  invoked : ∀ visit ∈ callVisits digit s depth progress, visit.calls digit s progress → visit.before.database.has visit.job
  reported : ∀ after told, runDueJobs digit s (depth + 1) progress = some (after,.completed told) → ∀ report ∈ told,
    ∃ visit ∈ callVisits digit s depth progress, visit.before.database.has visit.job ∧
      report.jobId = visit.job.id ∧ report.name = visit.job.name ∧ report.toolName = visit.job.toolName

-- Where a turn removes the row of a job that is due at its own turn, to come,
-- the row is back by then.
def Spared : Prop :=
  ∀ i j one next later, i < j → (callVisits digit s depth progress)[i]? = some one →
    (callVisits digit s depth progress)[i + 1]? = some next → (callVisits digit s depth progress)[j]? = some later →
    later.calls digit s progress → one.before.database.has later.job → ¬ next.before.database.has later.job →
    ∃ k back, i + 1 < k ∧ k ≤ j ∧ (callVisits digit s depth progress)[k]? = some back ∧ back.before.database.has later.job

end Live

-- The last point before `n` at which `p` holds.
theorem last_before {p : Nat → Prop} {n : Nat} (first : p 0) (absent : ¬ p n) :
    ∃ i, i < n ∧ p i ∧ ∀ k, i < k → k ≤ n → ¬ p k := by
  induction n with
  | zero => exact absurd first absent
  | succ n ih =>
      by_cases here : p n
      · refine ⟨n,Nat.lt_succ_self n,here,?_⟩
        intro k past within
        rw [Nat.le_antisymm within past]
        exact absent
      · obtain ⟨i,early,held,gone⟩ := ih here
        refine ⟨i,Nat.lt_succ_of_lt early,held,?_⟩
        intro k past within
        rcases Nat.le_succ_iff.mp within with below | rfl
        · exact gone k past below
        · exact absent

section Facts
variable {digit : Char → Option Nat} {s : Surroundings} {depth : Nat} {progress : Progress}

theorem visits_first (nested : Progress → Option (Progress × Outcome)) (now : Int) (page : List ScheduledJob) {first : Visit}
    (visited : (visits digit s nested now page progress)[0]? = some first) : first.before = progress := by
  cases page with
  | nil => cases visited
  | cons job rest =>
      rw [visits] at visited
      split at visited <;> cases visited <;> rfl

theorem call_first {first : Visit} (visited : (callVisits digit s depth progress)[0]? = some first) :
    first.before.database = progress.database := by
  unfold callVisits at visited
  split at visited
  · cases visited
  · rw [visits_first _ _ _ visited]
    rfl

-- Each job of the page has its row as the run begins.
theorem call_rows {visit : Visit} (member : visit ∈ callVisits digit s depth progress) : progress.database.has visit.job := by
  unfold callVisits at member
  split at member
  · cases member
  next page listed =>
    have front := (visits_page digit s (runDueJobs digit s depth) (s.clock progress.runs) page progress.started).1
    obtain ⟨job,inside,same⟩ := List.mem_map.mp (front.subset (List.mem_map_of_mem member))
    unfold listScheduledJobs Database.query at listed
    split at listed
    · cases listed
      exact ⟨job,page_member s progress.database progress.runs 1000 job inside,same⟩
    · cases listed

theorem call_reports {after : Progress} {told : List JobReport}
    (completed : runDueJobs digit s (depth + 1) progress = some (after,.completed told)) {report : JobReport}
    (member : report ∈ told) : ∃ visit ∈ callVisits digit s depth progress, visit.calls digit s progress ∧
      report.jobId = visit.job.id ∧ report.name = visit.job.name ∧ report.toolName = visit.job.toolName := by
  unfold runDueJobs at completed
  unfold callVisits
  cases listed : listScheduledJobs s progress.database progress.runs 0 1000 with
  | error exc =>
      simp only [listed] at completed
      cases completed
  | ok page =>
      simp only [listed] at completed
      exact (loop_reports page [] told _ after completed report member).resolve_left List.not_mem_nil

theorem visited_before {later : Visit} {j k : Nat} (third : (callVisits digit s depth progress)[j]? = some later) (within : k ≤ j) :
    ∃ other, (callVisits digit s depth progress)[k]? = some other :=
  ⟨_,List.getElem?_eq_getElem (Nat.lt_of_le_of_lt within (List.getElem?_eq_some_iff.mp third).1)⟩

-- The row of a job that is invoked without it was there as the run began; it was
-- lost for good in the last turn that began with it.
theorem spared_invoked (spared : Spared digit s depth progress) {later : Visit}
    (member : later ∈ callVisits digit s depth progress) (calls : later.calls digit s progress) :
    later.before.database.has later.job := by
  by_contra gone
  obtain ⟨j,third⟩ := List.mem_iff_getElem?.mp member
  let has (k : Nat) : Prop := ∃ other, (callVisits digit s depth progress)[k]? = some other ∧
    other.before.database.has later.job
  have first : has 0 := by
    obtain ⟨start,found⟩ := visited_before third (Nat.zero_le j)
    refine ⟨start,found,?_⟩
    rw [call_first found]
    exact call_rows member
  have absent : ¬ has j := by
    rintro ⟨other,found,held⟩
    cases third.symm.trans found
    exact gone held
  obtain ⟨i,early,⟨one,there,held⟩,never⟩ := last_before first absent
  obtain ⟨next,second⟩ := visited_before third early
  have lost : ¬ next.before.database.has later.job := by
    intro still
    exact never (i + 1) (Nat.lt_succ_self i) early ⟨next,second,still⟩
  obtain ⟨k,back,past,within,found,again⟩ := spared i j one next later early there second third calls held lost
  exact never k (Nat.lt_of_succ_lt past) within ⟨back,found,again⟩

end Facts

theorem only_live_exact (digit : Char → Option Nat) (s : Surroundings) (depth : Nat) (progress : Progress) :
    OnlyLive digit s depth progress ↔ Spared digit s depth progress := by
  constructor
  · intro live i j one next later early _ second third calls held gone
    have here := live.invoked later (List.mem_of_getElem? third) calls
    refine ⟨j,later,?_,Nat.le_refl j,third,here⟩
    refine Nat.lt_of_le_of_ne early ?_
    rintro rfl
    cases second.symm.trans third
    exact gone here
  · intro spared
    refine ⟨fun visit => spared_invoked spared,?_⟩
    intro after told completed report member
    obtain ⟨visit,found,calls,facts⟩ := call_reports completed member
    exact ⟨visit,found,spared_invoked spared found calls,facts⟩

-- The objects of deleted rows stay with the session.
def Database.deleteRow (database : Database) (id : Int) : Database where
  session := database.session
  jobs := database.jobs.filter fun job => job.id != id
  gone := (database.jobs.filter fun job => !(job.id != id)) ++ database.gone
  objects := by
    rw [← List.append_assoc]
    refine (List.Perm.nodup_iff ?_).mpr database.objects
    exact ((List.filter_append_perm _ database.jobs).append_right database.gone).map ScheduledJob.object
  ids := database.ids.sublist (List.filter_sublist.map _)

theorem deleteRow_held (database : Database) (id : Int) (job : ScheduledJob) (held : job ∈ database.held) :
    job ∈ (database.deleteRow id).held := by
  unfold Database.held Database.deleteRow
  rw [← List.append_assoc]
  exact ((List.filter_append_perm _ database.jobs).append_right database.gone).mem_iff.mpr held

def DELETE_SCHEDULED_JOB : Text := "delete_scheduled_job".toList

-- The tool that deletes, given the id 2; the others leave the table alone.
def deleting : Surroundings where
  user := none
  tables := ascii
  clock _ := 0
  stored now := ⟨now,some 0⟩
  order _ jobs := jobs
  forbidden _ := []
  invoke _ name _ database :=
    if name = DELETE_SCHEDULED_JOB then (database.deleteRow 2,.returned .null) else (database,.returned .null)
  stored_moment := utc_moment
  order_perm _ jobs := List.Perm.refl jobs
  keeps _ name _ database job held := by
    by_cases named : name = DELETE_SCHEDULED_JOB
    · rw [if_pos named]
      exact deleteRow_held database 2 job held
    · rwa [if_neg named]

def remover : ScheduledJob :=
  ⟨0,1,"prune".toList,DELETE_SCHEDULED_JOB,some [("job_id".toList,.int 2)],60,none,true,none,none⟩

def removed : ScheduledJob := ⟨1,2,"report".toList,"system_info".toList,none,60,none,true,none,none⟩

def pruned : Database := ⟨SessionLocal [],[remover,removed],[],by decide,by decide⟩

def afterRemoval : Progress := ⟨(pruned.deleteRow 2).record 1 "success".toList ⟨0,some 0⟩,1,[⟨remover,pruned⟩]⟩

theorem removed_runs : ¬ OnlyLive asciiDigit deleting 0 (start pruned) := by
  have second : callVisits asciiDigit deleting 0 (start pruned) = [⟨remover,(start pruned).started⟩,⟨removed,afterRemoval⟩] := rfl
  intro live
  obtain ⟨row,member,same⟩ := live.invoked ⟨removed,afterRemoval⟩ (by rw [second]; simp) rfl
  cases List.mem_singleton.mp member
  cases same

end Kryvaracode.Scheduling
