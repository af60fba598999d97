import Kryvaracode.TaskWaiting
import Kryvaracode.Workflow

namespace Kryvaracode.Tasks
open JsonText InsertionDict Runs TaskQueue
open Workflow (Plan Phase Move View Fulfilled Supported Passes Last Verdict)

variable {floats : Floats}

-- What a task's handler returns or raises at each attempt.
abbrev Handlers := Text → Nat → Except Text Json

inductive Work where
  | begin (taskId : Text) (now : Int)
  | finish (taskId : Text) (now : Int)

def Work.move : Work → Move Text
  | .begin taskId _ => .start taskId
  | .finish taskId _ => .finish taskId

-- A worker marks a task as running, awaits its handler and reports what that came to.
def work (handlers : Handlers) (queue : TaskQueue floats) : Work → TaskQueue floats
  | .begin taskId now => queue.markRunning taskId now
  | .finish taskId now =>
      match queue.getTask taskId with
      | none => queue
      | some task =>
          match handlers taskId task.retriesUsed.toNat with
          | .ok result => queue.markCompleted taskId result now
          | .error message => (queue.markFailed taskId message now).1

-- Workers begin what `get_ready_tasks` lists, and finish what they have begun.
def Allowed (queue : TaskQueue floats) : Work → Prop
  | .begin taskId _ => ∃ task ∈ queue.getReadyTasks, task.taskId = taskId
  | .finish taskId _ => queue.status taskId = some .running

def Idle (queue : TaskQueue floats) : Prop := ∀ step, ¬ Allowed queue step

-- Fresh tasks, whose retries have delays that can be computed.
structure Batch (floats : Floats) where
  tasks : List (QueueTask floats)
  distinct : (tasks.map QueueTask.taskId).Nodup
  fresh : ∀ task ∈ tasks, task.status = .pending ∧ task.retriesUsed = 0
  delays : ∀ task ∈ tasks, ∀ used : Int, 0 < used → used ≤ task.retryPolicy.maxRetries →
    (delay task.retryPolicy used).isOk = true

namespace Batch
variable (batch : Batch floats) (handlers : Handlers)

def find (taskId : Text) : Option (QueueTask floats) := batch.tasks.find? fun task => decide (task.taskId = taskId)

def loaded (maxConcurrent : Int) : TaskQueue floats := batch.tasks.foldl TaskQueue.addTask (.init maxConcurrent)

def plan : Plan Text where
  jobs := (batch.tasks.map QueueTask.taskId).toFinset
  needs taskId := (batch.find taskId).elim [] QueueTask.dependencies
  retries taskId := (batch.find taskId).elim 0 fun task => task.retryPolicy.maxRetries.toNat
  succeeds taskId attempt := (handlers taskId attempt).isOk

theorem mem_find {taskId : Text} {task : QueueTask floats} (found : batch.find taskId = some task) :
    task ∈ batch.tasks ∧ task.taskId = taskId := by
  rw [find] at found
  exact ⟨List.mem_of_find?_eq_some found,by simpa using List.find?_some found⟩

theorem find_mem {task : QueueTask floats} (listed : task ∈ batch.tasks) : batch.find task.taskId = some task := by
  cases found : batch.find task.taskId with
  | none => simpa using List.find?_eq_none.mp found task listed
  | some other =>
      obtain ⟨inside,same⟩ := batch.mem_find found
      exact congrArg some (List.inj_on_of_nodup_map batch.distinct inside listed same)

theorem mem_jobs (taskId : Text) : taskId ∈ (batch.plan handlers).jobs ↔ (batch.find taskId).isSome := by
  rw [plan,List.mem_toFinset,List.mem_map,Option.isSome_iff_exists]
  refine ⟨?_,?_⟩
  · rintro ⟨task,listed,rfl⟩
    exact ⟨task,batch.find_mem listed⟩
  · rintro ⟨task,found⟩
    exact ⟨task,batch.mem_find found⟩

end Batch

def phaseOf (task : QueueTask floats) : Phase :=
  match task.status with
  | .waitingDeps => .waiting
  | .pending => .ready task.retriesUsed.toNat
  | .running => .running task.retriesUsed.toNat
  | .completed => .done task.retriesUsed.toNat
  | .failed | .timeout | .deadLetter | .cancelled => .dead task.retriesUsed.toNat

def view (queue : TaskQueue floats) : View Text := fun taskId => (queue.getTask taskId).map phaseOf

theorem finished_view (queue : TaskQueue floats) (taskId : Text) :
    Workflow.finished (view queue) taskId = decide (queue.status taskId = some .completed) := by
  rw [Workflow.finished,view,status]
  cases queue.getTask taskId with
  | none => rfl
  | some task => cases standing : task.status <;> simp [phaseOf,standing,Phase.finished]

section Loading
variable (batch : Batch floats)

def NoneCompleted (queue : TaskQueue floats) : Prop := ∀ taskId, queue.status taskId ≠ some .completed

-- What is stored of a fresh task while nothing has been completed.
def stored (task : QueueTask floats) : QueueTask floats :=
  if task.dependencies = [] then task else {task with status := .waitingDeps}

theorem admitted_stored {queue : TaskQueue floats} (none : NoneCompleted queue) (task : QueueTask floats) :
    queue.admitted task = stored task := by
  have checked : queue.checkDependencies task = true ↔ task.dependencies = [] := by
    rw [checkDependencies,List.all_eq_true]
    refine ⟨?_,fun empty depId rests => ?_⟩
    · intro met
      refine List.eq_nil_iff_forall_not_mem.mpr fun depId rests => ?_
      exact none depId (of_decide_eq_true (met depId rests))
    · rw [empty] at rests
      cases rests
  rw [admitted,stored,if_congr checked rfl rfl]

theorem stored_pending {task : QueueTask floats} (fresh : task.status = .pending) :
    (stored task).status = .pending ∨ (stored task).status = .waitingDeps := by
  unfold stored
  split
  next => exact .inl fresh
  next => exact .inr rfl

theorem added_none {queue : TaskQueue floats} (none : NoneCompleted queue) {task : QueueTask floats}
    (fresh : task.status = .pending) : NoneCompleted (queue.addTask task) := by
  intro taskId done
  rw [status,addTask_getTask,admitted_stored none] at done
  split at done
  next =>
    rcases stored_pending fresh with ready | waits
    · simp [ready] at done
    · simp [waits] at done
  next => exact none taskId done

theorem adds_getTask (tasks : List (QueueTask floats)) (fresh : ∀ task ∈ tasks, task.status = .pending)
    (distinct : (tasks.map QueueTask.taskId).Nodup) (queue : TaskQueue floats) (none : NoneCompleted queue) (taskId : Text) :
    (tasks.foldl TaskQueue.addTask queue).getTask taskId =
      ((tasks.find? fun task => decide (task.taskId = taskId)).map stored).or (queue.getTask taskId) := by
  induction tasks generalizing queue with
  | nil => rfl
  | cons task rest ih =>
      rw [List.forall_mem_cons] at fresh
      rw [List.map_cons,List.nodup_cons] at distinct
      rw [List.foldl_cons,ih fresh.2 distinct.2 _ (added_none none fresh.1),addTask_getTask,admitted_stored none]
      by_cases same : task.taskId = taskId
      · have apart : rest.find? (fun task => decide (task.taskId = taskId)) = Option.none := by
          rw [List.find?_eq_none]
          intro other inside equal
          exact distinct.1 (List.mem_map.mpr ⟨other,inside,(of_decide_eq_true equal).trans same.symm⟩)
        rw [apart,List.find?_cons_of_pos (by simpa using same),if_pos same.symm]
        rfl
      · rw [List.find?_cons_of_neg (by simpa using same),if_neg (Ne.symm same)]

theorem loaded_getTask (maxConcurrent : Int) (taskId : Text) :
    (batch.loaded maxConcurrent).getTask taskId = (batch.find taskId).map stored := by
  have empty : NoneCompleted (TaskQueue.init maxConcurrent : TaskQueue floats) := by
    intro taskId done
    cases done
  rw [Batch.loaded,adds_getTask batch.tasks (fun task listed => (batch.fresh task listed).1) batch.distinct _ empty]
  exact Option.or_none

theorem loaded_initial (handlers : Handlers) (maxConcurrent : Int) :
    Workflow.Initial (batch.plan handlers) (view (batch.loaded maxConcurrent)) := by
  have phases : ∀ taskId, view (batch.loaded maxConcurrent) taskId =
      (batch.find taskId).map fun task => if task.dependencies = [] then .ready 0 else .waiting := by
    intro taskId
    rw [view,loaded_getTask,Option.map_map]
    cases found : batch.find taskId with
    | none => rfl
    | some task =>
        have fresh := batch.fresh task (batch.mem_find found).1
        rw [Option.map_some,Option.map_some,Function.comp_apply,stored]
        split
        next => simp [phaseOf,fresh]
        next => simp [phaseOf]
  have unfinished : ∀ taskId, Workflow.finished (view (batch.loaded maxConcurrent)) taskId = false := by
    intro taskId
    rw [Workflow.finished,phases]
    cases batch.find taskId with
    | none => rfl
    | some task =>
        rw [Option.map_some,Option.elim_some]
        split <;> rfl
  refine ⟨?_,?_⟩
  · intro taskId
    rw [phases,batch.mem_jobs,Option.isSome_map]
  · intro taskId phase found
    rw [phases,Option.map_eq_some_iff] at found
    obtain ⟨task,listed,rfl⟩ := found
    have needs : (batch.plan handlers).needs taskId = task.dependencies := by simp [Batch.plan,listed]
    rw [Workflow.met,needs]
    cases empty : task.dependencies with
    | nil => exact .inr ⟨rfl,rfl⟩
    | cons first rest =>
        refine .inl ⟨rfl,?_⟩
        rw [List.all_cons,unfinished,Bool.false_and]

end Loading

section Running
variable (batch : Batch floats) (handlers : Handlers)

-- What a stored task keeps of the one that was added, and what it says of its handler.
structure Tended (taskId : Text) (task : QueueTask floats) : Prop where
  named : task.taskId = taskId
  original : ∃ first, batch.find taskId = some first ∧ task.dependencies = first.dependencies ∧
    task.retryPolicy = first.retryPolicy
  used : 0 ≤ task.retriesUsed
  waits : task.status = .waitingDeps → task.retriesUsed = 0
  result : task.status = .completed → handlers taskId task.retriesUsed.toNat = .ok task.result
  error : task.status = .deadLetter → ∃ message, handlers taskId task.retriesUsed.toNat = .error message ∧
    task.error = some message
  regular : task.status ≠ .failed ∧ task.status ≠ .timeout ∧ task.status ≠ .cancelled

def AllTended (queue : TaskQueue floats) : Prop :=
  ∀ taskId task, queue.getTask taskId = some task → Tended batch handlers taskId task

theorem loaded_tended (maxConcurrent : Int) : AllTended batch handlers (batch.loaded maxConcurrent) := by
  intro taskId task found
  rw [loaded_getTask,Option.map_eq_some_iff] at found
  obtain ⟨first,listed,rfl⟩ := found
  obtain ⟨inside,named⟩ := batch.mem_find listed
  obtain ⟨pending,unused⟩ := batch.fresh first inside
  unfold stored
  split
  · exact ⟨named,⟨first,listed,rfl,rfl⟩,unused.ge,fun _ => unused,by simp [pending],by simp [pending],by simp [pending]⟩
  · exact ⟨named,⟨first,listed,rfl,rfl⟩,unused.ge,fun _ => unused,by simp,by simp,by simp⟩

variable {batch handlers} {queue : TaskQueue floats}

theorem plan_needs {taskId : Text} {task : QueueTask floats} (tended : Tended batch handlers taskId task) :
    (batch.plan handlers).needs taskId = task.dependencies := by
  obtain ⟨first,found,same,_⟩ := tended.original
  simp only [Batch.plan,found,Option.elim_some,same]

theorem plan_retries {taskId : Text} {task : QueueTask floats} (tended : Tended batch handlers taskId task) :
    (batch.plan handlers).retries taskId = task.retryPolicy.maxRetries.toNat := by
  obtain ⟨first,found,_,same⟩ := tended.original
  simp only [Batch.plan,found,Option.elim_some,same]

theorem met_checked {taskId : Text} {task : QueueTask floats} (tended : Tended batch handlers taskId task) :
    Workflow.met (batch.plan handlers) (view queue) taskId = queue.checkDependencies task := by
  rw [Workflow.met,plan_needs tended,checkDependencies,funext (finished_view queue)]

theorem view_set {after : TaskQueue floats} {taskId : Text} {task : QueueTask floats}
    (same : ∀ other, after.getTask other = if other = taskId then some task else queue.getTask other) :
    view after = Function.update (view queue) taskId (some (phaseOf task)) := by
  funext other
  rw [view,same]
  by_cases equal : other = taskId
  · rw [if_pos equal,equal,Function.update_self,Option.map_some]
  · rw [if_neg equal,Function.update_of_ne equal,view]

theorem allTended_set {after : TaskQueue floats} {taskId : Text} {task : QueueTask floats}
    (same : ∀ other, after.getTask other = if other = taskId then some task else queue.getTask other)
    (all : AllTended batch handlers queue) (tended : Tended batch handlers taskId task) : AllTended batch handlers after := by
  intro other held found
  rw [same] at found
  split at found
  next equal =>
    cases found
    rw [equal]
    exact tended
  next => exact all other held found

theorem promoted_tended {taskId : Text} {task : QueueTask floats} (tended : Tended batch handlers taskId task) :
    Tended batch handlers taskId (queue.promoted task) := by
  unfold promoted
  split
  · exact ⟨tended.named,tended.original,tended.used,by simp,by simp,by simp,by simp⟩
  · exact tended

-- Looking at the dependents is waking them.
theorem view_unblocked (all : AllTended batch handlers queue) :
    view queue.unblockDependents = Workflow.wake (batch.plan handlers) (view queue) := by
  funext taskId
  rw [view,unblockDependents_getTask,Workflow.wake]
  cases found : queue.getTask taskId with
  | none => simp [view,found]
  | some task =>
      have tended := all taskId task found
      have seen : view queue taskId = some (phaseOf task) := by rw [view,found,Option.map_some]
      have waits : view queue taskId = some .waiting ↔ task.status = .waitingDeps := by
        rw [seen]
        cases standing : task.status <;> simp [phaseOf,standing]
      by_cases freed : task.status = .waitingDeps ∧ queue.checkDependencies task = true
      · have unused := tended.waits freed.1
        rw [if_pos ⟨waits.mpr freed.1,(met_checked tended).trans freed.2⟩,Option.map_some,Option.map_some,promoted,if_pos freed]
        simp [phaseOf,unused]
      · rw [if_neg fun woken => freed ⟨waits.mp woken.1,(met_checked tended).symm.trans woken.2⟩,Option.map_some,
          Option.map_some,promoted,if_neg freed]
        exact seen.symm

theorem begin_step (all : AllTended batch handlers queue) {taskId : Text} {now : Int}
    (allowed : Allowed queue (.begin taskId now)) :
    AllTended batch handlers (queue.markRunning taskId now) ∧ Workflow.Legal (view queue) (.start taskId) ∧
      view (queue.markRunning taskId now) = Workflow.step (batch.plan handlers) (view queue) (.start taskId) := by
  obtain ⟨task,ready,named⟩ := allowed
  obtain ⟨held,found,pending⟩ := (mem_getReadyTasks queue task).mp ready
  have tended := all held task found
  obtain rfl : held = taskId := tended.named.symm.trans named
  have same := absent_replaced (started now) (markRunning_getTask queue held now) found
  have seen : view queue held = some (.ready task.retriesUsed.toNat) := by simp [view,found,phaseOf,pending]
  refine ⟨allTended_set same all ?_,⟨_,seen⟩,?_⟩
  · exact ⟨tended.named,tended.original,tended.used,by simp [started],by simp [started],by simp [started],by simp [started]⟩
  · rw [view_set same]
    simp [Workflow.step,seen,phaseOf,started]

theorem success_step (all : AllTended batch handlers queue) {taskId : Text} {task : QueueTask floats}
    (found : queue.getTask taskId = some task) (running : task.status = .running) {result : Json}
    (returned : handlers taskId task.retriesUsed.toNat = .ok result) (now : Int) :
    AllTended batch handlers (queue.markCompleted taskId result now) ∧
      view (queue.markCompleted taskId result now) = Workflow.step (batch.plan handlers) (view queue) (.finish taskId) := by
  have tended := all taskId task found
  have same := completing_getTask queue taskId task result now
  have finish : Tended batch handlers taskId (finished result now task) :=
    ⟨tended.named,tended.original,tended.used,by simp [finished],fun _ => returned,by simp [finished],by simp [finished]⟩
  have completing := allTended_set same all finish
  have seen : view queue taskId = some (.running task.retriesUsed.toNat) := by simp [view,found,phaseOf,running]
  have passes : (batch.plan handlers).succeeds taskId task.retriesUsed.toNat = true := by
    simp only [Batch.plan,returned,Except.isOk,Except.toBool]
  rw [markCompleted_found queue found]
  refine ⟨?_,?_⟩
  · intro other held kept
    rw [unblockDependents_getTask,Option.map_eq_some_iff] at kept
    obtain ⟨before,stored,rfl⟩ := kept
    exact promoted_tended (completing other before stored)
  · rw [view_unblocked completing,view_set same]
    simp only [Workflow.step,seen,Workflow.settle,passes,if_true]
    rfl

theorem failure_step (all : AllTended batch handlers queue) {taskId : Text} {task : QueueTask floats}
    (found : queue.getTask taskId = some task) (running : task.status = .running) {message : Text}
    (raised : handlers taskId task.retriesUsed.toNat = .error message) (now : Int) :
    AllTended batch handlers (queue.markFailed taskId message now).1 ∧
      view (queue.markFailed taskId message now).1 =
        Workflow.step (batch.plan handlers) (view queue) (.finish taskId) := by
  have tended := all taskId task found
  have same := absent_replaced (failed message now) (markFailed_getTask queue taskId message now) found
  have seen : view queue taskId = some (.running task.retriesUsed.toNat) := by simp [view,found,phaseOf,running]
  have fails : (batch.plan handlers).succeeds taskId task.retriesUsed.toNat = false := by
    simp only [Batch.plan,raised,Except.isOk,Except.toBool]
  have limit : task.retriesUsed.toNat < (batch.plan handlers).retries taskId ↔ retries task = true := by
    rw [plan_retries tended,retries,decide_eq_true_eq]
    have used := tended.used
    omega
  rw [view_set same]
  simp only [Workflow.step,seen,Workflow.settle,fails,Bool.false_eq_true,if_false,limit]
  cases again : retries task with
  | false =>
      have ended : failed message now task = {task with status := .deadLetter,error := some message,completedAt := some now} := by
        simp [failed,again]
      rw [ended] at same ⊢
      refine ⟨allTended_set same all ?_,by simp [phaseOf]⟩
      exact ⟨tended.named,tended.original,tended.used,by simp,by simp,fun _ => ⟨message,raised,rfl⟩,by simp⟩
  | true =>
      obtain ⟨first,listed,_,policy⟩ := tended.original
      have more : task.retriesUsed < task.retryPolicy.maxRetries := of_decide_eq_true again
      have computed := batch.delays first (batch.mem_find listed).1 (task.retriesUsed + 1)
        (Int.lt_add_one_of_le tended.used) (policy ▸ more)
      rw [← policy] at computed
      cases spent : delay task.retryPolicy (task.retriesUsed + 1) with
      | error exc => rw [spent] at computed; cases computed
      | ok duration =>
          have ended : failed message now task = {task with
              status := .pending,error := none,startedAt := none,completedAt := none,retriesUsed := task.retriesUsed + 1} := by
            simp [failed,again,spent]
          rw [ended] at same ⊢
          have next : (task.retriesUsed + 1).toNat = task.retriesUsed.toNat + 1 := Int.toNat_add tended.used Int.one_nonneg
          refine ⟨allTended_set same all ?_,by simp [phaseOf,next]⟩
          exact ⟨tended.named,tended.original,Int.le_add_one tended.used,by simp,by simp,by simp,by simp⟩

-- Every step of a worker is a move of the workflow.
theorem work_step (all : AllTended batch handlers queue) {op : Work} (allowed : Allowed queue op) :
    AllTended batch handlers (work handlers queue op) ∧ Workflow.Legal (view queue) op.move ∧
      view (work handlers queue op) = Workflow.step (batch.plan handlers) (view queue) op.move := by
  cases op with
  | begin taskId now => exact begin_step all allowed
  | finish taskId now =>
      obtain ⟨task,found,running⟩ := Option.map_eq_some_iff.mp allowed
      have legal : Workflow.Legal (view queue) (.finish taskId) :=
        ⟨task.retriesUsed.toNat,by simp [view,found,phaseOf,running]⟩
      cases returned : handlers taskId task.retriesUsed.toNat with
      | ok result =>
          have parts := success_step all found running returned now
          simp only [work,found,returned]
          exact ⟨parts.1,legal,parts.2⟩
      | error message =>
          have parts := failure_step all found running returned now
          simp only [work,found,returned]
          exact ⟨parts.1,legal,parts.2⟩

theorem works_run (ops : List Work) (all : AllTended batch handlers queue) (allowed : Steps (work handlers) Allowed queue ops) :
    AllTended batch handlers (run (work handlers) queue ops) ∧
      Steps (Workflow.step (batch.plan handlers)) Workflow.Legal (view queue) (ops.map Work.move) ∧
        view (run (work handlers) queue ops) = run (Workflow.step (batch.plan handlers)) (view queue) (ops.map Work.move) := by
  induction ops generalizing queue with
  | nil => exact ⟨all,trivial,rfl⟩
  | cons op rest ih =>
      obtain ⟨kept,legal,same⟩ := work_step all allowed.1
      obtain ⟨tended,moves,ended⟩ := ih kept allowed.2
      rw [same] at moves ended
      exact ⟨tended,⟨legal,moves⟩,ended⟩

-- A move of the workflow is one that a worker may make.
theorem legal_allowed (all : AllTended batch handlers queue) {move : Move Text} (legal : Workflow.Legal (view queue) move)
    (now : Int) : ∃ op : Work, Allowed queue op ∧ op.move = move := by
  cases move with
  | start taskId =>
      obtain ⟨tried,seen⟩ := legal
      obtain ⟨task,found,phase⟩ := Option.map_eq_some_iff.mp seen
      have pending : task.status = .pending := by
        cases standing : task.status <;> simp [phaseOf,standing] at phase
        rfl
      exact ⟨.begin taskId now,⟨task,(mem_getReadyTasks queue task).mpr ⟨taskId,found,pending⟩,(all taskId task found).named⟩,rfl⟩
  | finish taskId =>
      obtain ⟨tried,seen⟩ := legal
      obtain ⟨task,found,phase⟩ := Option.map_eq_some_iff.mp seen
      have running : task.status = .running := by
        cases standing : task.status <;> simp [phaseOf,standing] at phase
        rfl
      exact ⟨.finish taskId now,(found_status found).trans (congrArg some running),rfl⟩

end Running

def begun (ops : List Work) (taskId : Text) : Nat := (ops.map Work.move).count (.start taskId)

section Ending
variable (batch : Batch floats) (handlers : Handlers)

-- How a task stands when the workers have nothing left to do.
inductive Concluded (ops : List Work) (queue : TaskQueue floats) (taskId : Text) : Prop where
  | completed (ended : QueueTask floats) (attempt : Nat) (found : queue.getTask taskId = some ended)
      (standing : ended.status = .completed) (fulfilled : Fulfilled (batch.plan handlers) taskId)
      (last : Last (batch.plan handlers) taskId attempt) (result : handlers taskId attempt = .ok ended.result)
      (begins : begun ops taskId = attempt + 1) : Concluded ops queue taskId
  | deadLetter (ended : QueueTask floats) (attempt : Nat) (message : Text) (found : queue.getTask taskId = some ended)
      (standing : ended.status = .deadLetter) (supported : Supported (batch.plan handlers) taskId)
      (last : Last (batch.plan handlers) taskId attempt) (fails : ¬ Passes (batch.plan handlers) taskId)
      (raised : handlers taskId attempt = .error message) (error : ended.error = some message)
      (begins : begun ops taskId = attempt + 1) : Concluded ops queue taskId
  | waiting (ended : QueueTask floats) (found : queue.getTask taskId = some ended)
      (standing : ended.status = .waitingDeps) (unsupported : ¬ Supported (batch.plan handlers) taskId)
      (begins : begun ops taskId = 0) : Concluded ops queue taskId

variable {batch handlers} {maxConcurrent : Int} {ops : List Work}
  (allowed : Steps (work handlers) Allowed (batch.loaded maxConcurrent) ops)
include allowed

theorem works_length : ops.length ≤ (batch.tasks.map fun task => 2 * (task.retryPolicy.maxRetries.toNat + 1)).sum := by
  obtain ⟨_,legal,_⟩ := works_run ops (loaded_tended batch handlers maxConcurrent) allowed
  have short := Workflow.run_length (loaded_initial batch handlers maxConcurrent) legal
  have summed : ∑ taskId ∈ (batch.plan handlers).jobs, 2 * ((batch.plan handlers).retries taskId + 1) = _ :=
    List.sum_toFinset _ batch.distinct
  rw [List.length_map,summed,List.map_map] at short
  refine short.trans_eq (congrArg List.sum (List.map_congr_left fun task listed => ?_))
  simp only [Function.comp_apply,Batch.plan,batch.find_mem listed,Option.elim_some]

theorem idle_concluded (idle : Idle (run (work handlers) (batch.loaded maxConcurrent) ops)) {task : QueueTask floats}
    (listed : task ∈ batch.tasks) :
    Concluded batch handlers ops (run (work handlers) (batch.loaded maxConcurrent) ops) task.taskId := by
  have initial := loaded_initial batch handlers maxConcurrent
  obtain ⟨all,legal,same⟩ := works_run ops (loaded_tended batch handlers maxConcurrent) allowed
  have sound := Workflow.run_sound initial legal
  have counted := Workflow.run_started legal task.taskId
  rw [Workflow.initial_started initial,Nat.zero_add,← same] at counted
  rw [← same] at sound
  have halted : Workflow.Halted (view (run (work handlers) (batch.loaded maxConcurrent) ops)) := by
    intro move next
    obtain ⟨op,may,_⟩ := legal_allowed all next 0
    exact idle op may
  have known : task.taskId ∈ (batch.plan handlers).jobs := (batch.mem_jobs handlers _).mpr (by rw [batch.find_mem listed]; rfl)
  obtain ⟨phase,seen⟩ := Option.isSome_iff_exists.mp ((sound.listed _).mpr known)
  obtain ⟨ended,found,phased⟩ := Option.map_eq_some_iff.mp seen
  have tended := all _ ended found
  have begins : begun ops task.taskId = phase.started := by
    rw [Workflow.startedOf,seen,Option.elim_some] at counted
    exact counted.symm
  have verdict := Workflow.halted_verdict sound halted seen
  obtain ⟨unfailed,timely,kept⟩ := tended.regular
  cases verdict with
  | done attempt fulfilled last success =>
      have standing : ended.status = .completed ∧ ended.retriesUsed.toNat = attempt := by
        cases held : ended.status <;> simp_all [phaseOf]
      refine .completed ended attempt found standing.1 fulfilled last ?_ begins
      rw [← standing.2]
      exact tended.result standing.1
  | dead attempt supported last fails =>
      have standing : ended.status = .deadLetter ∧ ended.retriesUsed.toNat = attempt := by
        cases held : ended.status <;> simp_all [phaseOf]
      obtain ⟨message,raised,error⟩ := tended.error standing.1
      rw [standing.2] at raised
      exact .deadLetter ended attempt message found standing.1 supported last fails raised error begins
  | waiting unsupported =>
      have standing : ended.status = .waitingDeps := by
        cases held : ended.status <;> simp_all [phaseOf]
      exact .waiting ended found standing unsupported begins

end Ending

-- The second task waits for the first, whose handler raises once.
def errands : Batch wholeFloats where
  tasks := [.created ['a'] [] 0,.created ['b'] [['a']] 1]
  distinct := by decide
  fresh := by decide
  delays := fun _ _ _ _ _ => rfl

def errandHandlers : Handlers := fun taskId attempt =>
  if taskId = ['a'] ∧ attempt = 0 then .error ['x'] else .ok .null

def errandRun : List Work :=
  [.begin ['a'] 1,.finish ['a'] 2,.begin ['a'] 3,.finish ['a'] 4,.begin ['b'] 5,.finish ['b'] 6]

end Kryvaracode.Tasks
