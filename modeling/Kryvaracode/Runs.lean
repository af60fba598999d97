import Mathlib

-- Runs of a machine on a list of operations, and what holds along them.
namespace Runs
universe u v w
variable {σ : Type u} {ω : Type v} (step : σ → ω → σ)

def run (state : σ) (ops : List ω) : σ := ops.foldl step state

-- A condition on state and operation that is met at each step.
def Steps (ok : σ → ω → Prop) : σ → List ω → Prop
  | _,[] => True
  | state,op :: rest => ok state op ∧ Steps ok (step state op) rest

def Throughout (P : σ → Prop) (state : σ) (ops : List ω) : Prop :=
  ∀ front, front <+: ops → P (run step state front)

-- `P` at each point up to the first at which `gone` holds.
def Until (gone P : σ → Prop) : σ → List ω → Prop
  | state,[] => gone state ∨ P state
  | state,op :: rest => gone state ∨ (P state ∧ Until gone P (step state op) rest)

-- What holds of an index at some point of the run stays until the index is gone.
def Lasting {ι : Type w} (gone has : ι → σ → Prop) (state : σ) (ops : List ω) : Prop :=
  ∀ front rest, front ++ rest = ops → ∀ index, has index (run step state front) →
    Until step (gone index) (has index) (run step state front) rest

-- Related at any two points of the run, the earlier to the later.
def Along (R : σ → σ → Prop) (state : σ) (ops : List ω) : Prop :=
  ∀ front middle, front ++ middle <+: ops → R (run step state front) (run step state (front ++ middle))

section Facts
variable {step}

@[simp] theorem run_nil (state : σ) : run step state [] = state := rfl
@[simp] theorem run_cons (state : σ) (op : ω) (rest : List ω) :
    run step state (op :: rest) = run step (step state op) rest := rfl

theorem run_append (state : σ) (front rest : List ω) :
    run step state (front ++ rest) = run step (run step state front) rest := List.foldl_append

theorem steps_append (ok : σ → ω → Prop) (state : σ) (front rest : List ω) :
    Steps step ok state (front ++ rest) ↔ Steps step ok state front ∧ Steps step ok (run step state front) rest := by
  induction front generalizing state with
  | nil => simp [Steps]
  | cons op front ih => simp only [List.cons_append,Steps,run_cons,ih,and_assoc]

theorem steps_failure {ok : σ → ω → Prop} {state : σ} {ops : List ω} (unmet : ¬ Steps step ok state ops) :
    ∃ front op rest, ops = front ++ op :: rest ∧ ¬ ok (run step state front) op := by
  induction ops generalizing state with
  | nil => exact absurd trivial unmet
  | cons op rest ih =>
      by_cases first : ok state op
      · obtain ⟨front,later,tail,whole,failed⟩ := ih fun met => unmet ⟨first,met⟩
        exact ⟨op :: front,later,tail,by rw [whole,List.cons_append],failed⟩
      · exact ⟨[],op,rest,rfl,first⟩

theorem steps_front (ok : σ → ω → Prop) (state : σ) (front ops : List ω) (early : front <+: ops)
    (met : Steps step ok state ops) : Steps step ok state front := by
  obtain ⟨rest,rfl⟩ := early
  exact ((steps_append ok state front rest).mp met).1

theorem steps_members {ok stronger : σ → ω → Prop} {state : σ} {ops : List ω} (met : Steps step ok state ops)
    (implied : ∀ op ∈ ops, ∀ state, ok state op → stronger state op) : Steps step stronger state ops := by
  induction ops generalizing state with
  | nil => trivial
  | cons op rest ih =>
      rw [List.forall_mem_cons] at implied
      exact ⟨implied.1 state met.1,ih met.2 implied.2⟩

theorem steps_forall {ok : σ → ω → Prop} {ops : List ω} (always : ∀ op ∈ ops, ∀ state, ok state op) (state : σ) :
    Steps step ok state ops := by
  induction ops generalizing state with
  | nil => trivial
  | cons op rest ih =>
      rw [List.forall_mem_cons] at always
      exact ⟨always.1 state,ih always.2 (step state op)⟩

theorem steps_invariant {P : σ → Prop} (kept : ∀ state op, P state → P (step state op)) (state : σ) (ops : List ω)
    (start : P state) : Steps step (fun state _ => P state) state ops := by
  induction ops generalizing state with
  | nil => trivial
  | cons op rest ih => exact ⟨start,ih (step state op) (kept state op start)⟩

theorem steps_congr {fit first second : σ → ω → Prop} (equal : ∀ state op, fit state op → (first state op ↔ second state op))
    {state : σ} {ops : List ω} (fits : Steps step fit state ops) : Steps step first state ops ↔ Steps step second state ops := by
  induction ops generalizing state with
  | nil => rfl
  | cons op rest ih => rw [Steps,Steps,equal state op fits.1,ih fits.2]

theorem steps_and (first second : σ → ω → Prop) (state : σ) (ops : List ω) :
    Steps step (fun state op => first state op ∧ second state op) state ops ↔
      Steps step first state ops ∧ Steps step second state ops := by
  induction ops generalizing state with
  | nil => simp [Steps]
  | cons op rest ih => simp only [Steps,ih,and_and_and_comm]

theorem steps_run {R : σ → σ → Prop} (refl : ∀ state, R state state)
    (trans : ∀ first second third, R first second → R second third → R first third) {state : σ} {ops : List ω}
    (met : Steps step (fun state op => R state (step state op)) state ops) : R state (run step state ops) := by
  induction ops generalizing state with
  | nil => exact refl state
  | cons op rest ih => exact trans _ _ _ met.1 (ih met.2)

theorem along_exact {R : σ → σ → Prop} (refl : ∀ state, R state state)
    (trans : ∀ first second third, R first second → R second third → R first third) (state : σ) (ops : List ω) :
    Along step R state ops ↔ Steps step (fun state op => R state (step state op)) state ops := by
  refine ⟨?_,?_⟩
  · intro along
    by_contra unmet
    obtain ⟨front,op,rest,rfl,failed⟩ := steps_failure unmet
    have related := along front [op] ⟨rest,by simp⟩
    rw [run_append] at related
    exact failed related
  · intro met front middle early
    have later := ((steps_append _ state front middle).mp (steps_front _ state (front ++ middle) ops early met)).2
    rw [run_append]
    exact steps_run refl trans later

theorem throughout_cons (P : σ → Prop) (state : σ) (op : ω) (rest : List ω) :
    Throughout step P state (op :: rest) ↔ P state ∧ Throughout step P (step state op) rest := by
  refine ⟨?_,?_⟩
  · intro always
    refine ⟨always [] List.nil_prefix,?_⟩
    intro front early
    exact always (op :: front) (List.cons_prefix_cons.mpr ⟨rfl,early⟩)
  · intro parts front early
    cases front with
    | nil => exact parts.1
    | cons first front =>
        obtain ⟨rfl,later⟩ := List.cons_prefix_cons.mp early
        exact parts.2 front later

theorem throughout_invariant {P : σ → Prop} {ok : σ → ω → Prop}
    (kept : ∀ state op, P state → ok state op → P (step state op)) (state : σ) (ops : List ω) (start : P state)
    (met : Steps step ok state ops) : Throughout step P state ops := by
  induction ops generalizing state with
  | nil =>
      intro front early
      rw [List.prefix_nil.mp early]
      exact start
  | cons op rest ih =>
      exact (throughout_cons P state op rest).mpr ⟨start,ih (step state op) (kept state op start met.1) met.2⟩

theorem throughout_end {P : σ → Prop} {state : σ} {ops : List ω} (always : Throughout step P state ops) :
    P (run step state ops) := always ops (List.prefix_refl ops)

theorem throughout_steps {P : σ → Prop} {ok stronger : σ → ω → Prop} (implied : ∀ state op, P state → ok state op → stronger state op)
    {state : σ} {ops : List ω} (always : Throughout step P state ops) (met : Steps step ok state ops) :
    Steps step stronger state ops := by
  induction ops generalizing state with
  | nil => trivial
  | cons op rest ih =>
      obtain ⟨start,later⟩ := (throughout_cons P state op rest).mp always
      exact ⟨implied state op start met.1,ih later met.2⟩

-- Where one step keeps `P` exactly under `ok`, a whole run does.
theorem throughout_exact {P : σ → Prop} {fit ok : σ → ω → Prop}
    (exact : ∀ state op, fit state op → P state → (P (step state op) ↔ ok state op)) (state : σ) (ops : List ω)
    (fits : Steps step fit state ops) : Throughout step P state ops ↔ P state ∧ Steps step ok state ops := by
  induction ops generalizing state with
  | nil =>
      refine ⟨fun always => ⟨always [] List.nil_prefix,trivial⟩,?_⟩
      intro parts front early
      rw [List.prefix_nil.mp early]
      exact parts.1
  | cons op rest ih =>
      rw [throughout_cons,ih (step state op) fits.2,Steps]
      refine and_congr_right ?_
      intro start
      rw [exact state op fits.1 start]

-- `Q` carries the run as long as the steps are `ok`, and `P` fails at once when
-- one is not.
theorem throughout_carried {P Q : σ → Prop} {ok : σ → ω → Prop} (implied : ∀ state, Q state → P state)
    (kept : ∀ state op, Q state → ok state op → Q (step state op))
    (lost : ∀ state op, Q state → ¬ ok state op → ¬ P (step state op)) (state : σ) (ops : List ω) (start : Q state) :
    Throughout step P state ops ↔ Steps step ok state ops := by
  constructor
  · intro always
    induction ops generalizing state with
    | nil => trivial
    | cons op rest ih =>
        have later := ((throughout_cons P state op rest).mp always).2
        have met : ok state op := by
          by_contra unmet
          exact lost state op start unmet (later [] List.nil_prefix)
        exact ⟨met,ih (step state op) (kept state op start met) later⟩
  · intro met front early
    exact implied _ (throughout_invariant kept state ops start met front early)

theorem until_start {gone P : σ → Prop} {state : σ} {ops : List ω} (lasts : Until step gone P state ops) :
    gone state ∨ P state := by
  cases ops with
  | nil => exact lasts
  | cons op rest => exact lasts.imp_right And.left

-- Gone for good where nothing that is gone comes back.
theorem until_run {gone P : σ → Prop} {fit : σ → ω → Prop}
    (stays : ∀ state op, fit state op → gone state → gone (step state op)) (state : σ) (ops : List ω)
    (fits : Steps step fit state ops) (lasts : Until step gone P state ops) :
    gone (run step state ops) ∨ P (run step state ops) := by
  induction ops generalizing state with
  | nil => exact lasts
  | cons op rest ih =>
      rcases lasts with left | held
      · have away := throughout_invariant (fun state op left met => stays state op met left) state (op :: rest) left fits
        exact .inl (throughout_end away)
      · exact ih (step state op) fits.2 held.2

-- Where no run is longer than the bound, each can be brought to an end.
theorem bounded_ends {ok : σ → ω → Prop} {state : σ} {bound : Nat}
    (bounded : ∀ ops, Steps step ok state ops → ops.length ≤ bound) (ops : List ω) (met : Steps step ok state ops) :
    ∃ more, Steps step ok state (ops ++ more) ∧ ∀ op, ¬ ok (run step state (ops ++ more)) op := by
  by_cases ended : ∀ op, ¬ ok (run step state ops) op
  · refine ⟨[],?_⟩
    rw [List.append_nil]
    exact ⟨met,ended⟩
  · push Not at ended
    obtain ⟨op,next⟩ := ended
    have longer : Steps step ok state (ops ++ [op]) := (steps_append ok state ops [op]).mpr ⟨met,next,trivial⟩
    have short := bounded (ops ++ [op]) longer
    obtain ⟨more,whole⟩ := bounded_ends bounded (ops ++ [op]) longer
    rw [List.append_assoc] at whole
    exact ⟨[op] ++ more,whole⟩
termination_by bound - ops.length
decreasing_by
  rw [List.length_append,List.length_singleton] at short ⊢
  omega

variable {ι : Type w}

theorem until_steps (gone has : ι → σ → Prop) (index : ι) (state : σ) (ops : List ω) (held : has index state)
    (met : Steps step (fun state op => ∀ index, has index state → has index (step state op) ∨ gone index (step state op))
      state ops) : Until step (gone index) (has index) state ops := by
  induction ops generalizing state with
  | nil => exact .inr held
  | cons op rest ih =>
      refine .inr ⟨held,?_⟩
      rcases met.1 index held with still | left
      · exact ih (step state op) still met.2
      · cases rest with
        | nil => exact .inl left
        | cons next later => exact .inl left

theorem lasting_exact (gone has : ι → σ → Prop) (apart : ∀ index state, gone index state → ¬ has index state) (state : σ)
    (ops : List ω) : Lasting step gone has state ops ↔
      Steps step (fun state op => ∀ index, has index state → has index (step state op) ∨ gone index (step state op))
        state ops := by
  refine ⟨?_,?_⟩
  · intro lasts
    induction ops generalizing state with
    | nil => trivial
    | cons op rest ih =>
        refine ⟨?_,ih (step state op) ?_⟩
        · intro index held
          rcases lasts [] (op :: rest) rfl index held with left | along
          · exact absurd held (apart index state left)
          · exact (until_start along.2).symm
        · intro front later whole index held
          exact lasts (op :: front) later (by rw [List.cons_append,whole]) index held
  · intro met front rest whole index held
    subst whole
    exact until_steps gone has index (run step state front) rest held ((steps_append _ state front rest).mp met).2
end Facts

end Runs
