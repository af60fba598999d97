import Mathlib

-- Something that is done again once an interval has passed since it was last done.
namespace Pacing
variable {τ : Type*} [AddCommGroup τ] [LinearOrder τ] (interval : τ)

def ripe : Option τ → τ → Bool
  | none,_ => true
  | some before,now => decide (interval ≤ now - before)

-- The looks at which it is done.
def firings : Option τ → List τ → List τ
  | _,[] => []
  | last,now :: rest => if ripe interval last now then now :: firings (some now) rest else firings last rest

-- When it was last done after some looks.
def latest : Option τ → List τ → Option τ
  | last,[] => last
  | last,now :: rest => if ripe interval last now then latest (some now) rest else latest last rest

theorem firings_append (last : Option τ) (front rest : List τ) :
    firings interval last (front ++ rest) = firings interval last front ++ firings interval (latest interval last front) rest := by
  induction front generalizing last with
  | nil => rfl
  | cons now front ih =>
      rw [List.cons_append,firings,firings,latest]
      split
      · rw [ih,List.cons_append]
      · exact ih last

theorem latest_fired (last : Option τ) (looks : List τ) {before : τ} (known : latest interval last looks = some before) :
    before ∈ firings interval last looks ∨ last = some before := by
  induction looks generalizing last with
  | nil => exact .inr known
  | cons now looks ih =>
      rw [latest] at known
      rw [firings]
      by_cases due : ripe interval last now = true
      · rw [if_pos due] at known ⊢
        rcases ih (some now) known with fired | same
        · exact .inl (.tail now fired)
        · exact .inl (Option.some.inj same ▸ .head _)
      · rw [if_neg due] at known ⊢
        exact ih last known

-- At no look has it been left undone for the interval.
theorem firings_prompt (positive : 0 < interval) (last : Option τ) (front : List τ) (now : τ) :
    ∃ before, (before ∈ firings interval last (front ++ [now]) ∨ last = some before) ∧ now - before < interval := by
  rw [firings_append,firings]
  by_cases due : ripe interval (latest interval last front) now = true
  · rw [if_pos due]
    exact ⟨now,.inl (List.mem_append_right _ (.head _)),by rwa [sub_self]⟩
  · rw [if_neg due]
    cases known : latest interval last front with
    | none =>
        rw [known] at due
        exact absurd rfl due
    | some before =>
        rw [known] at due
        refine ⟨before,?_,not_le.mp fun long => due (decide_eq_true long)⟩
        rcases latest_fired interval last front known with fired | same
        · exact .inl (List.mem_append_left _ fired)
        · exact .inr same

variable [IsOrderedAddMonoid τ]

theorem firings_after (positive : 0 ≤ interval) (before : τ) (looks : List τ) :
    ∀ now ∈ firings interval (some before) looks, interval ≤ now - before := by
  induction looks generalizing before with
  | nil => exact List.forall_mem_nil _
  | cons look looks ih =>
      rw [firings]
      split
      · rename_i due
        have first := of_decide_eq_true due
        refine List.forall_mem_cons.mpr ⟨first,?_⟩
        intro now fired
        have later := ih look now fired
        have forward : 0 ≤ look - before := positive.trans first
        calc interval ≤ now - look := later
          _ ≤ now - look + (look - before) := le_add_of_nonneg_right forward
          _ = now - before := sub_add_sub_cancel now look before
      · exact ih before

-- Twice in no less than the interval.
theorem firings_spaced (positive : 0 ≤ interval) (last : Option τ) (looks : List τ) :
    (firings interval last looks).Pairwise fun before now => interval ≤ now - before := by
  induction looks generalizing last with
  | nil => exact .nil
  | cons look looks ih =>
      rw [firings]
      split
      · exact .cons (firings_after interval positive look looks) (ih (some look))
      · exact ih last

end Pacing
