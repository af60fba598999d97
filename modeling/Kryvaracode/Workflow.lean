import Kryvaracode.Runs

-- Jobs that wait for one another and are tried again, started and finished in
-- whatever order.
namespace Workflow
open Runs
universe u
variable {κ : Type u}

structure Plan (κ : Type u) where
  jobs : Finset κ
  needs : κ → List κ
  retries : κ → Nat
  succeeds : κ → Nat → Bool

-- How often a job was tried before the present attempt.
inductive Phase where
  | waiting
  | ready (tried : Nat)
  | running (tried : Nat)
  | done (tried : Nat)
  | dead (tried : Nat)
  deriving DecidableEq

def Phase.finished : Phase → Bool
  | .done _ => true
  | .waiting | .ready _ | .running _ | .dead _ => false

def Phase.started : Phase → Nat
  | .waiting => 0
  | .ready tried => tried
  | .running tried | .done tried | .dead tried => tried + 1

def Phase.ended : Phase → Nat
  | .waiting => 0
  | .ready tried | .running tried => tried
  | .done tried | .dead tried => tried + 1

abbrev View (κ : Type u) := κ → Option Phase

inductive Move (κ : Type u) where
  | start (job : κ)
  | finish (job : κ)
  deriving DecidableEq

def Move.job : Move κ → κ
  | .start job | .finish job => job

def finished (view : View κ) (job : κ) : Bool := (view job).elim false Phase.finished

-- What the attempts that a job is given come to once its needs are met.
def Passes (plan : Plan κ) (job : κ) : Prop := ∃ attempt ≤ plan.retries job, plan.succeeds job attempt = true

-- What a job's own attempts and those of all it rests on come to.
inductive Fulfilled (plan : Plan κ) : κ → Prop where
  | intro (job : κ) (known : job ∈ plan.jobs) (passes : Passes plan job)
      (rests : ∀ need ∈ plan.needs job, Fulfilled plan need) : Fulfilled plan job

def Supported (plan : Plan κ) (job : κ) : Prop := ∀ need ∈ plan.needs job, Fulfilled plan need

section Machine
variable (plan : Plan κ)

def met (view : View κ) (job : κ) : Bool := (plan.needs job).all (finished view)

def wake (view : View κ) : View κ := fun job =>
  if view job = some .waiting ∧ met plan view job = true then some (.ready 0) else view job

def Legal (view : View κ) : Move κ → Prop
  | .start job => ∃ tried, view job = some (.ready tried)
  | .finish job => ∃ tried, view job = some (.running tried)

def Halted (view : View κ) : Prop := ∀ move, ¬ Legal view move

def Phase.Sound (view : View κ) (job : κ) : Phase → Prop
  | .waiting => met plan view job = false
  | .ready tried | .running tried => met plan view job = true ∧ tried ≤ plan.retries job ∧
      ∀ attempt < tried, plan.succeeds job attempt = false
  | .done tried => Fulfilled plan job ∧ tried ≤ plan.retries job ∧
      (∀ attempt < tried, plan.succeeds job attempt = false) ∧ plan.succeeds job tried = true
  | .dead tried => met plan view job = true ∧ tried = plan.retries job ∧
      ∀ attempt ≤ tried, plan.succeeds job attempt = false

structure Sound (view : View κ) : Prop where
  listed : ∀ job, (view job).isSome ↔ job ∈ plan.jobs
  phases : ∀ job phase, view job = some phase → phase.Sound plan view job

-- Before anything has been started.
structure Initial (view : View κ) : Prop where
  listed : ∀ job, (view job).isSome ↔ job ∈ plan.jobs
  waiting : ∀ job phase, view job = some phase →
    phase = .waiting ∧ met plan view job = false ∨ phase = .ready 0 ∧ met plan view job = true

theorem initial_sound {view : View κ} (initial : Initial plan view) : Sound plan view := by
  refine ⟨initial.listed,?_⟩
  intro job phase found
  rcases initial.waiting job phase found with ⟨rfl,unmet⟩ | ⟨rfl,ready⟩
  · exact unmet
  · exact ⟨ready,Nat.zero_le _,fun attempt early => absurd early (Nat.not_lt_zero attempt)⟩

variable {plan}

theorem finished_fulfilled {view : View κ} (sound : Sound plan view) {job : κ} (ended : finished view job = true) :
    Fulfilled plan job := by
  unfold finished at ended
  cases found : view job with
  | none => rw [found] at ended; cases ended
  | some phase =>
      have held := sound.phases job phase found
      rw [found] at ended
      cases phase with
      | done tried => exact held.1
      | waiting | ready tried | running tried | dead tried => cases ended

theorem met_supported {view : View κ} (sound : Sound plan view) {job : κ} (ready : met plan view job = true) :
    Supported plan job := fun need rests => finished_fulfilled sound (List.all_eq_true.mp ready need rests)

theorem met_grows {view after : View κ} (grows : ∀ job, finished view job = true → finished after job = true) {job : κ}
    (ready : met plan view job = true) : met plan after job = true :=
  List.all_eq_true.mpr fun need rests => grows need (List.all_eq_true.mp ready need rests)

theorem met_same {view after : View κ} (same : ∀ job, finished after job = finished view job) (job : κ) : met plan after job = met plan view job := by
  rw [met,met,funext same]

theorem wake_finished (view : View κ) (job : κ) : finished (wake plan view) job = finished view job := by
  unfold finished wake
  split
  next woken => rw [woken.1]; rfl
  next => rfl

theorem wake_met (view : View κ) (job : κ) : met plan (wake plan view) job = met plan view job :=
  met_same (wake_finished view) job

variable {view : View κ}

-- Whether a job is done once nothing more can be started or finished.
theorem halted_finished (sound : Sound plan view) (halted : Halted view) {job : κ} (fulfilled : Fulfilled plan job) :
    finished view job = true := by
  induction fulfilled with
  | intro job known passes rests ih =>
      have ready : met plan view job = true := List.all_eq_true.mpr ih
      obtain ⟨phase,found⟩ := Option.isSome_iff_exists.mp ((sound.listed job).mpr known)
      have right := sound.phases job phase found
      cases phase with
      | waiting => exact absurd ready (Bool.eq_false_iff.mp right)
      | ready tried => exact absurd ⟨tried,found⟩ (halted (.start job))
      | running tried => exact absurd ⟨tried,found⟩ (halted (.finish job))
      | done tried => rw [finished,found]; rfl
      | dead tried =>
          obtain ⟨attempt,early,success⟩ := passes
          rw [right.2.2 attempt (right.2.1 ▸ early)] at success
          cases success

-- The attempt after which a job is not tried again.
structure Last (plan : Plan κ) (job : κ) (attempt : Nat) : Prop where
  within : attempt ≤ plan.retries job
  earlier : ∀ before < attempt, plan.succeeds job before = false
  stops : plan.succeeds job attempt = true ∨ attempt = plan.retries job

inductive Verdict (plan : Plan κ) (job : κ) : Phase → Prop where
  | done (attempt : Nat) (fulfilled : Fulfilled plan job) (last : Last plan job attempt)
      (success : plan.succeeds job attempt = true) : Verdict plan job (.done attempt)
  | dead (attempt : Nat) (supported : Supported plan job) (last : Last plan job attempt)
      (fails : ¬ Passes plan job) : Verdict plan job (.dead attempt)
  | waiting (unsupported : ¬ Supported plan job) : Verdict plan job .waiting

theorem halted_verdict (sound : Sound plan view) (halted : Halted view) {job : κ} {phase : Phase}
    (found : view job = some phase) : Verdict plan job phase := by
  have right := sound.phases job phase found
  cases phase with
  | waiting =>
      refine .waiting fun supported => ?_
      have ready : met plan view job = true :=
        List.all_eq_true.mpr fun need rests => halted_finished sound halted (supported need rests)
      exact absurd ready (Bool.eq_false_iff.mp right)
  | ready tried => exact absurd ⟨tried,found⟩ (halted (.start job))
  | running tried => exact absurd ⟨tried,found⟩ (halted (.finish job))
  | done tried => exact .done tried right.1 ⟨right.2.1,right.2.2.1,.inl right.2.2.2⟩ right.2.2.2
  | dead tried =>
      obtain ⟨ready,all,failed⟩ := right
      refine .dead tried (met_supported sound ready) ⟨all.le,fun before early => failed before early.le,.inr all⟩ ?_
      rintro ⟨attempt,early,success⟩
      rw [failed attempt (all ▸ early)] at success
      cases success

def startedOf (view : View κ) (job : κ) : Nat := (view job).elim 0 Phase.started
def endedOf (view : View κ) (job : κ) : Nat := (view job).elim 0 Phase.ended

theorem startedOf_wake (job : κ) : startedOf (wake plan view) job = startedOf view job := by
  unfold startedOf wake
  split
  next woken => rw [woken.1]; rfl
  next => rfl

theorem endedOf_wake (job : κ) : endedOf (wake plan view) job = endedOf view job := by
  unfold endedOf wake
  split
  next woken => rw [woken.1]; rfl
  next => rfl

theorem initial_started (initial : Initial plan view) (job : κ) : startedOf view job = 0 := by
  unfold startedOf
  cases found : view job with
  | none => rfl
  | some phase =>
      rcases initial.waiting job phase found with ⟨rfl,_⟩ | ⟨rfl,_⟩
      · rfl
      · rfl

theorem sound_started (sound : Sound plan view) (job : κ) : startedOf view job ≤ plan.retries job + 1 := by
  unfold startedOf
  cases found : view job with
  | none => exact Nat.zero_le _
  | some phase =>
      have right := sound.phases job phase found
      cases phase with
      | waiting => exact Nat.zero_le _
      | ready tried => exact Nat.le_succ_of_le right.2.1
      | running tried | done tried => exact Nat.succ_le_succ right.2.1
      | dead tried => exact Nat.succ_le_succ right.2.1.le

theorem ended_started (view : View κ) (job : κ) : endedOf view job ≤ startedOf view job := by
  unfold endedOf startedOf
  cases view job with
  | none => exact le_rfl
  | some phase => cases phase <;> simp [Phase.ended,Phase.started]

section Moves
variable [DecidableEq κ]

section Machine
variable (plan)

def settle (view : View κ) (job : κ) (tried : Nat) : View κ :=
  if plan.succeeds job tried then wake plan (Function.update view job (some (.done tried)))
  else if tried < plan.retries job then Function.update view job (some (.ready (tried + 1)))
  else Function.update view job (some (.dead tried))

def step (view : View κ) : Move κ → View κ
  | .start job =>
      match view job with
      | some (.ready tried) => Function.update view job (some (.running tried))
      | _ => view
  | .finish job =>
      match view job with
      | some (.running tried) => settle plan view job tried
      | _ => view

end Machine

theorem update_finished (job : κ) (phase : Phase) (other : κ) :
    finished (Function.update view job (some phase)) other = if other = job then phase.finished else finished view other := by
  unfold finished
  by_cases equal : other = job
  · rw [if_pos equal,equal,Function.update_self,Option.elim_some]
  · rw [if_neg equal,Function.update_of_ne equal]

-- Nothing that was finished is touched, and nothing is finished.
theorem replaced_sound (sound : Sound plan view) {job : κ} {old new : Phase} (held : view job = some old)
    (before : old.finished = false) (now : new.finished = false) (fits : new.Sound plan view job) :
    Sound plan (Function.update view job (some new)) := by
  have same : ∀ other, finished (Function.update view job (some new)) other = finished view other := by
    intro other
    rw [update_finished]
    split
    next equal => rw [now,finished,equal,held,Option.elim_some,before]
    next => rfl
  have kept : ∀ other phase, Phase.Sound plan view other phase →
      Phase.Sound plan (Function.update view job (some new)) other phase := by
    intro other phase right
    cases phase <;> simpa only [Phase.Sound,met_same same other] using right
  refine ⟨?_,?_⟩
  · intro other
    rw [← sound.listed other]
    by_cases equal : other = job
    · rw [equal,Function.update_self,held]; rfl
    · rw [Function.update_of_ne equal]
  · intro other phase found
    apply kept
    by_cases equal : other = job
    · rw [equal,Function.update_self,Option.some.injEq] at found
      rw [equal,← found]
      exact fits
    · rw [Function.update_of_ne equal] at found
      exact sound.phases other phase found

theorem wake_sound {job : κ} {tried : Nat} (sound : Sound plan view) (held : view job = some (.running tried))
    (success : plan.succeeds job tried = true) :
    Sound plan (wake plan (Function.update view job (some (.done tried)))) := by
  have right := sound.phases job _ held
  have grows : ∀ other, finished view other = true →
      finished (Function.update view job (some (.done tried))) other = true := by
    intro other ended
    rw [update_finished]
    split
    next => rfl
    next => exact ended
  refine ⟨?_,?_⟩
  · intro other
    rw [← sound.listed other,wake]
    by_cases equal : other = job
    · simp [equal,held]
    · rw [Function.update_of_ne equal]
      split
      next woken => rw [woken.1]; rfl
      next => rfl
  · intro other phase found
    unfold wake at found
    split at found
    next woken =>
      rw [← Option.some.inj found]
      exact ⟨(wake_met _ other).trans woken.2,Nat.zero_le _,fun attempt early => absurd early (Nat.not_lt_zero attempt)⟩
    next unwoken =>
      by_cases equal : other = job
      · rw [equal,Function.update_self,Option.some.injEq] at found
        rw [equal,← found]
        have known : job ∈ plan.jobs := (sound.listed job).mp (by rw [held]; rfl)
        exact ⟨.intro job known ⟨tried,right.2.1,success⟩ (met_supported sound right.1),right.2.1,right.2.2,success⟩
      · have before := found
        rw [Function.update_of_ne equal] at before
        have old := sound.phases other phase before
        cases phase with
        | waiting =>
            rw [Phase.Sound,wake_met]
            exact eq_false_of_ne_true fun ready => unwoken ⟨found,ready⟩
        | ready _ | running _ | dead _ => exact ⟨(wake_met _ other).trans (met_grows grows old.1),old.2⟩
        | done _ => exact old
theorem step_sound (view : View κ) (move : Move κ) (sound : Sound plan view) (legal : Legal view move) :
    Sound plan (step plan view move) := by
  cases move with
  | start job =>
      obtain ⟨tried,held⟩ := legal
      simp only [step,held]
      exact replaced_sound sound held rfl rfl (sound.phases job (.ready tried) held)
  | finish job =>
      obtain ⟨tried,held⟩ := legal
      obtain ⟨ready,few,failed⟩ := sound.phases job _ held
      simp only [step,held,settle]
      split
      next success => exact wake_sound sound held success
      next failure =>
        have attempts : ∀ attempt < tried + 1, plan.succeeds job attempt = false := by
          intro attempt early
          rcases Nat.lt_succ_iff_lt_or_eq.mp early with before | now
          · exact failed attempt before
          · rw [now]
            exact eq_false_of_ne_true failure
        split
        next more => exact replaced_sound sound held rfl rfl ⟨ready,more,attempts⟩
        next spent =>
          refine replaced_sound sound held rfl rfl ⟨ready,le_antisymm few (not_lt.mp spent),?_⟩
          exact fun attempt early => attempts attempt (Nat.lt_succ_of_le early)

theorem run_sound {view : View κ} (initial : Initial plan view) {moves : List (Move κ)}
    (legal : Steps (step plan) Legal view moves) : Sound plan (run (step plan) view moves) :=
  throughout_end (throughout_invariant step_sound view moves (initial_sound plan initial) legal)

section Counting

theorem startedOf_update (job : κ) (phase : Phase) (other : κ) :
    startedOf (Function.update view job (some phase)) other = if other = job then phase.started else startedOf view other := by
  unfold startedOf
  by_cases equal : other = job
  · rw [if_pos equal,equal,Function.update_self,Option.elim_some]
  · rw [if_neg equal,Function.update_of_ne equal]

theorem endedOf_update (job : κ) (phase : Phase) (other : κ) :
    endedOf (Function.update view job (some phase)) other = if other = job then phase.ended else endedOf view other := by
  unfold endedOf
  by_cases equal : other = job
  · rw [if_pos equal,equal,Function.update_self,Option.elim_some]
  · rw [if_neg equal,Function.update_of_ne equal]

theorem settle_started {job : κ} {tried : Nat} (held : view job = some (.running tried)) (other : κ) :
    startedOf (settle plan view job tried) other = startedOf view other := by
  have same : startedOf view job = tried + 1 := by rw [startedOf,held]; rfl
  unfold settle
  split
  next =>
    rw [startedOf_wake,startedOf_update]
    split
    next equal => rw [equal,same]; rfl
    next => rfl
  next =>
    split
    all_goals
      rw [startedOf_update]
      split
      next equal => rw [equal,same]; rfl
      next => rfl

theorem settle_ended {job : κ} {tried : Nat} (held : view job = some (.running tried)) (other : κ) :
    endedOf (settle plan view job tried) other = endedOf view other + if other = job then 1 else 0 := by
  have same : endedOf view job = tried := by rw [endedOf,held]; rfl
  unfold settle
  split
  next =>
    rw [endedOf_wake,endedOf_update]
    split
    next equal => rw [equal,same]; rfl
    next => rfl
  next =>
    split
    all_goals
      rw [endedOf_update]
      split
      next equal => rw [equal,same]; rfl
      next => rfl

theorem step_started {move : Move κ} (legal : Legal view move) (job : κ) :
    startedOf (step plan view move) job = startedOf view job + if move = .start job then 1 else 0 := by
  cases move with
  | start other =>
      obtain ⟨tried,held⟩ := legal
      simp only [step,held,startedOf_update,Move.start.injEq,eq_comm (a := other)]
      split
      next equal => rw [equal,startedOf,held]; rfl
      next => rfl
  | finish other =>
      obtain ⟨tried,held⟩ := legal
      simp only [step,held,settle_started held,reduceCtorEq,if_false,Nat.add_zero]

theorem step_ended {move : Move κ} (legal : Legal view move) (job : κ) :
    endedOf (step plan view move) job = endedOf view job + if move = .finish job then 1 else 0 := by
  cases move with
  | start other =>
      obtain ⟨tried,held⟩ := legal
      simp only [step,held,endedOf_update,reduceCtorEq,if_false,Nat.add_zero]
      split
      next equal => rw [equal,endedOf,held]; rfl
      next => rfl
  | finish other =>
      obtain ⟨tried,held⟩ := legal
      simp only [step,held,settle_ended held,Move.finish.injEq,eq_comm]

-- A count that grows by one with each of the moves it is about.
theorem run_counts (count : View κ → Nat) (counted : Move κ)
    (grows : ∀ view move, Legal view move → count (step plan view move) = count view + if move = counted then 1 else 0)
    {moves : List (Move κ)} (legal : Steps (step plan) Legal view moves) :
    count (run (step plan) view moves) = count view + moves.count counted := by
  induction moves generalizing view with
  | nil => rfl
  | cons move rest ih =>
      rw [run_cons,ih legal.2,grows view move legal.1,List.count_cons,Nat.add_assoc,Nat.add_comm (rest.count counted)]
      congr 2
      exact if_congr beq_iff_eq.symm rfl rfl

theorem run_started {moves : List (Move κ)} (legal : Steps (step plan) Legal view moves) (job : κ) :
    startedOf (run (step plan) view moves) job = startedOf view job + moves.count (.start job) :=
  run_counts (fun view => startedOf view job) (.start job) (fun _ _ legal => step_started legal job) legal

theorem run_ended {moves : List (Move κ)} (legal : Steps (step plan) Legal view moves) (job : κ) :
    endedOf (run (step plan) view moves) job = endedOf view job + moves.count (.finish job) :=
  run_counts (fun view => endedOf view job) (.finish job) (fun _ _ legal => step_ended legal job) legal

-- Each move is about a listed job.
theorem moves_listed (sound : Sound plan view) {moves : List (Move κ)} (legal : Steps (step plan) Legal view moves) :
    ∀ move ∈ moves, move.job ∈ plan.jobs := by
  induction moves generalizing view with
  | nil => exact fun move absurd => nomatch absurd
  | cons move rest ih =>
      refine List.forall_mem_cons.mpr ⟨?_,ih (step_sound view move sound legal.1) legal.2⟩
      rw [← sound.listed]
      cases move with
      | start job | finish job =>
          obtain ⟨tried,held⟩ := legal.1
          exact Option.isSome_iff_exists.mpr ⟨_,held⟩

theorem count_job (moves : List (Move κ)) (job : κ) :
    (moves.map Move.job).count job = moves.count (.start job) + moves.count (.finish job) := by
  induction moves with
  | nil => rfl
  | cons move rest ih =>
      rw [List.map_cons,List.count_cons,List.count_cons,List.count_cons,ih]
      cases move with
      | start other => simp [Move.job]; omega
      | finish other => simp [Move.job]; omega

-- A job is started once more than it is retried, at most, and finished as often.
theorem run_length (initial : Initial plan view) {moves : List (Move κ)} (legal : Steps (step plan) Legal view moves) :
    moves.length ≤ ∑ job ∈ plan.jobs, 2 * (plan.retries job + 1) := by
  have sound := run_sound initial legal
  have listed : ∀ job ∈ (moves.map Move.job : Multiset κ), job ∈ plan.jobs := by
    intro job inside
    obtain ⟨move,member,rfl⟩ := List.mem_map.mp (Multiset.mem_coe.mp inside)
    exact moves_listed (initial_sound plan initial) legal move member
  have counted := Multiset.sum_count_eq_card listed
  rw [Multiset.coe_card,List.length_map] at counted
  rw [← counted]
  refine Finset.sum_le_sum fun job _ => ?_
  have starts := run_started legal job
  have ends := run_ended legal job
  have few := sound_started sound job
  have fewer := ended_started (run (step plan) view moves) job
  rw [Multiset.coe_count,count_job]
  omega

end Counting

end Moves
end Machine
end Workflow
