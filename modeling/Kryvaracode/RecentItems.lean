import Kryvaracode.Runs

-- Sequences that keep their last items, and slices taken from their end.
namespace RecentItems
open Runs
universe u v w
variable {α : Type u}

-- `items[start:]`
def sliceFrom (start : Int) (items : List α) : List α :=
  items.drop (if start < 0 then (start + items.length).toNat else start.toNat)

-- A deque with a bound drops its oldest item.
def push (bound : Nat) (held : List α) (item : α) : List α := (held ++ [item]).drop (held.length + 1 - bound)

-- The last `count` items in their order, or all where there are fewer.
structure Window (count : Nat) (items found : List α) : Prop where
  suffix : found <:+ items
  size : found.length = min count items.length

theorem rtake_window (count : Nat) (items : List α) : Window count items (items.rtake count) := by
  refine ⟨List.drop_suffix _ items,?_⟩
  rw [List.rtake,List.length_drop]
  omega

theorem window_exact (count : Nat) (items found : List α) : Window count items found ↔ found = items.rtake count := by
  constructor
  · intro window
    have whole := rtake_window count items
    have size := window.size.trans whole.size.symm
    exact (List.suffix_of_suffix_length_le window.suffix whole.suffix size.le).eq_of_length size
  · rintro rfl
    exact rtake_window count items

theorem exists_window (count : Nat) (items : List α) (P : List α → Prop) :
    (∃ found, Window count items found ∧ P found) ↔ P (items.rtake count) := by
  simp only [window_exact,exists_eq_left]

theorem rtake_all {count : Nat} {items : List α} (few : items.length ≤ count) : items.rtake count = items := by
  rw [List.rtake,Nat.sub_eq_zero_of_le few,List.drop_zero]

theorem rtake_eq_nil (count : Nat) (items : List α) : items.rtake count = [] ↔ count = 0 ∨ items = [] := by
  rw [List.rtake,List.drop_eq_nil_iff,← List.length_eq_zero_iff]
  omega

-- What falls out of a first part is gone from the whole as well.
theorem rtake_rtake_append (bound : Nat) (front rest : List α) :
    (front.rtake bound ++ rest).rtake bound = (front ++ rest).rtake bound := by
  have kept := (rtake_window bound front).size
  refine (window_exact bound (front ++ rest) _).mp ⟨?_,?_⟩
  · refine (List.drop_suffix _ _).trans ?_
    obtain ⟨gone,whole⟩ := (rtake_window bound front).suffix
    exact ⟨gone,by rw [← List.append_assoc,whole]⟩
  · rw [(rtake_window bound _).size,List.length_append,List.length_append,kept]
    omega

theorem push_rtake (bound : Nat) (held : List α) (item : α) : push bound held item = (held ++ [item]).rtake bound := by
  rw [push,List.rtake,List.length_append,List.length_singleton]

theorem pushes_rtake (bound : Nat) (held items : List α) (within : held.length ≤ bound) :
    items.foldl (push bound) held = (held ++ items).rtake bound := by
  induction items generalizing held with
  | nil => rw [List.foldl_nil,List.append_nil,rtake_all within]
  | cons item rest ih =>
      have short : (push bound held item).length ≤ bound := by
        rw [push_rtake,(rtake_window bound _).size]
        exact Nat.min_le_left _ _
      rw [List.foldl_cons,ih _ short,push_rtake,rtake_rtake_append,List.append_assoc]
      rfl

-- A negative bound of a slice counts from the end, but zero is not negative.
theorem sliceFrom_neg (limit : Nat) (items : List α) :
    sliceFrom (-(limit : Int)) items = if limit = 0 then items else items.rtake limit := by
  rw [sliceFrom]
  split
  next below =>
    have place : (-(limit : Int) + items.length).toNat = items.length - limit := by omega
    rw [place,if_neg (by omega)]
    rfl
  next above =>
    have zero : limit = 0 := by omega
    subst zero
    rfl

theorem slice_window (limit : Nat) (items : List α) :
    Window limit items (sliceFrom (-(limit : Int)) items) ↔ 1 ≤ limit ∨ items = [] := by
  rw [window_exact,sliceFrom_neg]
  split
  next zero =>
    subst zero
    rw [List.rtake_zero]
    exact ⟨.inr,fun some => some.resolve_left (by decide)⟩
  next positive => exact iff_of_true rfl (.inl (Nat.one_le_iff_ne_zero.mpr positive))

section Machine
variable {σ : Type v} {ω : Type w} (step : σ → ω → σ) (added : σ → ω → List α)

-- What the steps of a run add, one after the other.
def addedBy : σ → List ω → List α
  | _,[] => []
  | state,op :: rest => added state op ++ addedBy (step state op) rest

variable {step added}

theorem run_retained (held : σ → List α) {bound : Nat}
    (each : ∀ state op, (held state).length ≤ bound → held (step state op) = (held state ++ added state op).rtake bound)
    (state : σ) (ops : List ω) (within : (held state).length ≤ bound) :
    held (run step state ops) = (held state ++ addedBy step added state ops).rtake bound := by
  induction ops generalizing state with
  | nil => rw [run_nil,addedBy,List.append_nil,rtake_all within]
  | cons op rest ih =>
      have first := each state op within
      have short : (held (step state op)).length ≤ bound := by
        rw [first,(rtake_window bound _).size]
        exact Nat.min_le_left _ _
      rw [run_cons,ih (step state op) short,first,rtake_rtake_append,addedBy,List.append_assoc]

end Machine

end RecentItems
