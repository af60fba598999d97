import Mathlib

-- Instants that are forgotten from the front once they are older than a window.
namespace SlidingWindow
universe u
variable {α : Type u} [LinearOrder α]

-- How many of the instants lie in a closed interval.
def within (first last : α) (times : List α) : Nat := times.countP fun time => decide (first ≤ time ∧ time ≤ last)

theorem within_append (first last : α) (front rest : List α) :
    within first last (front ++ rest) = within first last front + within first last rest := List.countP_append

theorem within_mono {first second last final : α} (early : second ≤ first) (late : last ≤ final) (times : List α) :
    within first last times ≤ within second final times := by
  refine List.countP_mono_left ?_
  intro time _ inside
  rw [decide_eq_true_eq] at inside ⊢
  exact ⟨early.trans inside.1,inside.2.trans late⟩

-- What is over by `now` is counted whether the interval ends there or later.
theorem within_past {now : α} {times : List α} (past : ∀ time ∈ times, time ≤ now) (first last : α) :
    within first last times ≤ within first now times := by
  refine List.countP_mono_left ?_
  intro time listed inside
  rw [decide_eq_true_eq] at inside ⊢
  exact ⟨inside.1,past time listed⟩

variable [AddCommGroup α]

def expired (window now hit : α) : Bool := decide (window < now - hit)

def expire (window now : α) (hits : List α) : List α := hits.dropWhile (expired window now)

-- From `now` on, what is kept is as good as the whole history.
def Remembers (window now : α) (hits history : List α) : Prop :=
  ∀ later, now ≤ later → expire window later hits = expire window later history

theorem remembers_append {window now : α} {hits history : List α} (remembers : Remembers window now hits history) (hit : α) :
    Remembers window now (hits ++ [hit]) (history ++ [hit]) := by
  intro later reached
  have same := remembers later reached
  unfold expire at same ⊢
  rw [List.dropWhile_append,List.dropWhile_append,same]

theorem remembers_later {window now later : α} {hits history : List α} (remembers : Remembers window now hits history)
    (passed : now ≤ later) : Remembers window later hits history := fun after reached => remembers after (passed.trans reached)

variable [IsOrderedAddMonoid α]

theorem expired_exact (window now hit : α) : expired window now hit = true ↔ hit < now - window := by
  rw [expired,decide_eq_true_eq,lt_sub_comm]

theorem expired_later {window first second hit : α} (later : first ≤ second) (old : expired window first hit = true) :
    expired window second hit = true := by
  rw [expired_exact] at old ⊢
  exact old.trans_le (sub_le_sub_right later window)

theorem expire_expire {window first second : α} (later : first ≤ second) (hits : List α) :
    expire window second (expire window first hits) = expire window second hits := by
  induction hits with
  | nil => rfl
  | cons hit rest ih =>
      by_cases old : expired window first hit = true
      · unfold expire at ih ⊢
        rw [List.dropWhile_cons_of_pos old,List.dropWhile_cons_of_pos (expired_later later old),ih]
      · unfold expire
        rw [List.dropWhile_cons_of_neg old]

-- In order of time, what is left at the front is all that the window covers.
theorem expire_within {window now : α} {times : List α} (ordered : times.Pairwise (· ≤ ·)) (past : ∀ time ∈ times, time ≤ now) :
    (expire window now times).length = within (now - window) now times := by
  induction times with
  | nil => rfl
  | cons time rest ih =>
      rw [List.pairwise_cons] at ordered
      rw [List.forall_mem_cons] at past
      unfold expire within at ih ⊢
      by_cases old : expired window now time = true
      · have outside : ¬ (now - window ≤ time ∧ time ≤ now) := fun inside =>
          absurd ((expired_exact window now time).mp old) inside.1.not_gt
        rw [List.dropWhile_cons_of_pos old,ih ordered.2 past.2,List.countP_cons_of_neg (by simpa using outside)]
      · rw [expired_exact,not_lt] at old
        have inside : ∀ other ∈ time :: rest, decide (now - window ≤ other ∧ other ≤ now) = true := by
          rw [List.forall_mem_cons,decide_eq_true_eq]
          refine ⟨⟨old,past.1⟩,?_⟩
          intro other later
          exact decide_eq_true ⟨old.trans (ordered.1 other later),past.2 other later⟩
        rw [List.dropWhile_cons_of_neg (by rw [expired_exact,not_lt]; exact old),List.countP_eq_length.mpr inside]

theorem remembers_expire {window now later : α} {hits history : List α} (remembers : Remembers window now hits history)
    (passed : now ≤ later) : Remembers window later (expire window later hits) history := by
  intro after reached
  rw [expire_expire reached]
  exact remembers after (passed.trans reached)

end SlidingWindow
