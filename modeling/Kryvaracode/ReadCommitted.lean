import Kryvaracode.InsertionDict

-- Transactions under READ COMMITTED: each reads what is committed and its own
-- writes, and a row that one has written is locked to the others until it ends.
namespace ReadCommitted
open InsertionDict
universe u v
variable {κ : Type u} {ν : Type v} [DecidableEq κ]

structure Store (κ : Type u) (ν : Type v) where
  committed : Dict κ ν
  staged : List (Dict κ ν)

def merged (below above : Dict κ ν) : Dict κ ν := above.entries.foldl (fun rows entry => rows.set entry.1 entry.2) below

namespace Store
variable (store : Store κ ν)

def init (rows : Dict κ ν) : Store κ ν := ⟨rows,[]⟩
def start : Store κ ν := {store with staged := store.staged ++ [Dict.empty]}
def pending (txn : Nat) : Dict κ ν := (store.staged[txn]?).getD Dict.empty
def view (txn : Nat) (key : κ) : Option ν := (store.pending txn).get key <|> store.committed.get key

def free (txn : Nat) (key : κ) : Bool :=
  (List.range store.staged.length).all fun other => decide (other = txn) || ((store.pending other).get key).isNone

def write (txn : Nat) (key : κ) (value : ν) : Store κ ν :=
  {store with staged := store.staged.set txn ((store.pending txn).set key value)}

def commit (txn : Nat) : Store κ ν :=
  ⟨merged store.committed (store.pending txn),store.staged.set txn Dict.empty⟩

def rollback (txn : Nat) : Store κ ν := {store with staged := store.staged.set txn Dict.empty}
end Store

theorem set_cases {α : Type u} {requests : List α} {request other : Nat} {after asked : α}
    (found : (requests.set request after)[other]? = some asked) :
    (other = request ∧ asked = after) ∨ (other ≠ request ∧ requests[other]? = some asked) := by
  by_cases same : other = request
  · refine .inl ⟨same,?_⟩
    rw [same,List.getElem?_set] at found
    split at found
    next =>
      split at found
      next => exact (Option.some.inj found).symm
      next => cases found
    next apart => exact absurd rfl apart
  · rw [List.getElem?_set_ne (Ne.symm same)] at found
    exact .inr ⟨same,found⟩

theorem append_cases {α : Type u} {requests : List α} {request : Nat} {arrived asked : α}
    (found : (requests ++ [arrived])[request]? = some asked) :
    requests[request]? = some asked ∨ (request = requests.length ∧ asked = arrived) := by
  rw [List.getElem?_append] at found
  split at found
  next => exact .inl found
  next outside =>
    rw [List.getElem?_singleton] at found
    split at found
    next first => exact .inr ⟨by omega,(Option.some.inj found).symm⟩
    next => cases found

-- No two transactions hold one row.
def Apart (store : Store κ ν) : Prop :=
  ∀ key first second, (store.pending first).get key ≠ none → (store.pending second).get key ≠ none → first = second

theorem entries_foldl (entries : List (κ × ν)) (distinct : (entries.map Prod.fst).Nodup) (below : Dict κ ν) (key : κ) :
    (entries.foldl (fun rows entry => rows.set entry.1 entry.2) below).get key =
      (entries.lookup key <|> below.get key) := by
  induction entries generalizing below with
  | nil => rfl
  | cons entry rest ih =>
      obtain ⟨first,value⟩ := entry
      rw [List.map_cons,List.nodup_cons] at distinct
      rw [List.foldl_cons,ih distinct.2,get_set,lookup_entry]
      by_cases same : key = first
      · have absent : rest.lookup key = none := (lookup_none rest key).mpr (same ▸ distinct.1)
        rw [absent,if_pos same,if_pos same]
        rfl
      · rw [if_neg same,if_neg same]

theorem merged_get (below above : Dict κ ν) (key : κ) : (merged below above).get key = (above.get key <|> below.get key) :=
  entries_foldl above.entries above.distinct below key

section Laws
variable (store : Store κ ν)

omit [DecidableEq κ] in
theorem pending_outside (txn : Nat) (outside : store.staged.length ≤ txn) : store.pending txn = Dict.empty := by
  rw [Store.pending,List.getElem?_eq_none outside]
  rfl

omit [DecidableEq κ] in
theorem set_pending (txn : Nat) (rows : Dict κ ν) (inside : txn < store.staged.length) (other : Nat) :
    (Store.mk store.committed (store.staged.set txn rows)).pending other =
      if other = txn then rows else store.pending other := by
  unfold Store.pending
  by_cases same : other = txn
  · rw [if_pos same,same,List.getElem?_set_self inside]
    rfl
  · rw [if_neg same,List.getElem?_set_ne (Ne.symm same)]

omit [DecidableEq κ] in
theorem start_pending (txn : Nat) : store.start.pending txn = store.pending txn := by
  unfold Store.pending Store.start
  rcases Nat.lt_trichotomy txn store.staged.length with inside | same | outside
  · rw [List.getElem?_append_left inside]
  · rw [same,List.getElem?_concat_length,List.getElem?_eq_none (Nat.le_refl _)]
    rfl
  · rw [List.getElem?_eq_none (by simpa using outside),List.getElem?_eq_none (Nat.le_of_lt outside)]

theorem write_pending (txn : Nat) (key : κ) (value : ν) (inside : txn < store.staged.length) (other : Nat) :
    (store.write txn key value).pending other =
      if other = txn then (store.pending txn).set key value else store.pending other :=
  set_pending store txn _ inside other

omit [DecidableEq κ] in
theorem rollback_pending (txn : Nat) (inside : txn < store.staged.length) (other : Nat) :
    (store.rollback txn).pending other = if other = txn then Dict.empty else store.pending other :=
  set_pending store txn _ inside other

theorem commit_pending (txn : Nat) (inside : txn < store.staged.length) (other : Nat) :
    (store.commit txn).pending other = if other = txn then Dict.empty else store.pending other :=
  set_pending store txn _ inside other

theorem commit_get (txn : Nat) (key : κ) : (store.commit txn).committed.get key = store.view txn key :=
  merged_get store.committed (store.pending txn) key

theorem view_none (txn : Nat) (key : κ) :
    store.view txn key = none ↔ (store.pending txn).get key = none ∧ store.committed.get key = none := by
  unfold Store.view
  cases (store.pending txn).get key <;> simp

theorem free_exact (txn : Nat) (key : κ) :
    store.free txn key = true ↔ ∀ other, other ≠ txn → (store.pending other).get key = none := by
  simp only [Store.free,List.all_eq_true,List.mem_range,Bool.or_eq_true,decide_eq_true_eq,Option.isNone_iff_eq_none]
  refine ⟨?_,?_⟩
  · intro unlocked other apart
    by_cases inside : other < store.staged.length
    · exact (unlocked other inside).resolve_left apart
    · rw [pending_outside store other (Nat.le_of_not_lt inside)]
      rfl
  · intro unlocked other _
    exact or_iff_not_imp_left.mpr (unlocked other)

variable {store}

theorem write_apart (apart : Apart store) (txn : Nat) (key : κ) (value : ν) (inside : txn < store.staged.length)
    (unlocked : store.free txn key = true) : Apart (store.write txn key value) := by
  have nobody := (free_exact store txn key).mp unlocked
  have before : ∀ other asked, ((store.write txn key value).pending other).get asked ≠ none →
      (store.pending other).get asked ≠ none ∨ (asked = key ∧ other = txn) := by
    intro other asked held
    rw [write_pending store txn key value inside] at held
    split at held
    next same =>
      rw [get_set] at held
      split at held
      next mine => exact .inr ⟨mine,same⟩
      next => exact .inl (same ▸ held)
    next => exact .inl held
  intro asked first second held also
  rcases before first asked held with earlier | ⟨mine,rfl⟩
  · rcases before second asked also with other | ⟨mine,rfl⟩
    · exact apart asked first second earlier other
    · by_contra different
      exact earlier (mine ▸ nobody first different)
  · rcases before second asked also with other | ⟨_,same⟩
    · by_contra different
      exact other (mine ▸ nobody second (Ne.symm different))
    · exact same.symm

theorem ended_apart (apart : Apart store) (after : Store κ ν) (txn : Nat)
    (pending : ∀ other, after.pending other = if other = txn then Dict.empty else store.pending other) : Apart after := by
  have before : ∀ other key, (after.pending other).get key ≠ none → (store.pending other).get key ≠ none := by
    intro other key held
    rw [pending] at held
    split at held
    next => exact absurd rfl held
    next => exact held
  intro key first second held also
  exact apart key first second (before first key held) (before second key also)

-- Until it ends, nobody else's commit reaches a row that a transaction has written.
theorem commit_other (apart : Apart store) (txn other : Nat) (key : κ) (different : other ≠ txn)
    (held : (store.pending other).get key ≠ none) : (store.commit txn).committed.get key = store.committed.get key := by
  rw [commit_get,Store.view]
  cases written : (store.pending txn).get key with
  | none => rfl
  | some value => exact absurd (apart key other txn held (by simp [written])) different
end Laws

end ReadCommitted
