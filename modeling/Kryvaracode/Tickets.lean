import Kryvaracode.InsertionDict

-- Tickets that are handed out once and spent once, and the table that marks the
-- spent ones.
namespace Tickets
open InsertionDict
universe u v w
variable {κ : Type u} {ν : Type v} {ρ : Type w}

def keys (granted : List (κ × ν)) : List κ := granted.map Prod.fst

structure Sound (granted : List (κ × ν)) (spent : List κ) : Prop where
  distinct : (keys granted).Nodup
  once : spent.Nodup
  known : ∀ key ∈ spent, key ∈ keys granted

theorem sound_nil : Sound (κ := κ) (ν := ν) [] [] :=
  ⟨List.nodup_nil,List.nodup_nil,fun _ inside => absurd inside List.not_mem_nil⟩

variable {granted : List (κ × ν)} {spent : List κ} {key : κ} {value : ν}

theorem sound_grant (value : ν) (sound : Sound granted spent) (fresh : key ∉ keys granted) : Sound (granted ++ [(key,value)]) spent := by
  refine ⟨?_,sound.once,?_⟩
  · rw [keys,List.map_append]
    exact sound.distinct.append (List.nodup_singleton key) (List.disjoint_singleton.mpr fresh)
  · intro other inside
    rw [keys,List.map_append]
    exact List.mem_append_left _ (sound.known other inside)

theorem sound_spend (sound : Sound granted spent) (held : key ∈ keys granted) (unspent : key ∉ spent) :
    Sound granted (spent ++ [key]) := by
  refine ⟨sound.distinct,sound.once.append (List.nodup_singleton key) (List.disjoint_singleton.mpr unspent),?_⟩
  intro other inside
  rcases List.mem_append.mp inside with earlier | now
  · exact sound.known other earlier
  · exact List.mem_singleton.mp now ▸ held

section Live
variable [DecidableEq κ]

def live (granted : List (κ × ν)) (spent : List κ) : List (κ × ν) := granted.filter fun ticket => decide (ticket.1 ∉ spent)

theorem mem_live (ticket : κ × ν) : ticket ∈ live granted spent ↔ ticket ∈ granted ∧ ticket.1 ∉ spent := by
  rw [live,List.mem_filter,decide_eq_true_eq]

theorem live_grant (fresh : key ∉ spent) : live (granted ++ [(key,value)]) spent = live granted spent ++ [(key,value)] := by
  rw [live,List.filter_append,List.filter_singleton,decide_eq_true fresh]
  rfl

theorem live_spend (key : κ) : live granted (spent ++ [key]) = (live granted spent).filter fun ticket => decide (ticket.1 ≠ key) := by
  rw [live,live,List.filter_filter]
  refine List.filter_congr fun ticket _ => ?_
  rw [← Bool.decide_and,decide_eq_decide,List.mem_append,List.mem_singleton,not_or,and_comm]

-- Of tickets with keys of their own, those of a kind without the one of a key.
theorem without_count (tickets : List (κ × ν)) (apart : (keys tickets).Nodup) (listed : (key,value) ∈ tickets)
    (kind : ν → Bool) : tickets.countP (fun ticket => kind ticket.2) =
      (tickets.filter fun ticket => decide (ticket.1 ≠ key)).countP (fun ticket => kind ticket.2) +
        (if kind value then 1 else 0) := by
  induction tickets with
  | nil => cases listed
  | cons first rest ih =>
      rw [keys,List.map_cons,List.nodup_cons] at apart
      by_cases same : first.1 = key
      · have others : rest.filter (fun ticket => decide (ticket.1 ≠ key)) = rest := by
          refine List.filter_eq_self.mpr fun ticket inside => decide_eq_true fun its => apart.1 ?_
          rw [same,← its]
          exact List.mem_map_of_mem (f := Prod.fst) inside
        have first_value : first = (key,value) := by
          rcases List.mem_cons.mp listed with now | later
          · exact now.symm
          · exact absurd (same ▸ List.mem_map_of_mem (f := Prod.fst) later) apart.1
        rw [List.countP_cons,List.filter_cons_of_neg (by simp [same]),others,first_value]
      · have later : (key,value) ∈ rest := (List.mem_cons.mp listed).resolve_left fun now => same (now ▸ rfl)
        rw [List.countP_cons,List.filter_cons_of_pos (by simp [same]),List.countP_cons,ih apart.2 later]
        omega

-- A spent ticket takes one away from those of its kind.
theorem spend_count (sound : Sound granted spent) (held : (key,value) ∈ granted) (unspent : key ∉ spent) (kind : ν → Bool) :
    (live granted spent).countP (fun ticket => kind ticket.2) =
      (live granted (spent ++ [key])).countP (fun ticket => kind ticket.2) + (if kind value then 1 else 0) := by
  have apart : (keys (live granted spent)).Nodup := (List.filter_sublist.map Prod.fst).nodup sound.distinct
  rw [live_spend]
  exact without_count _ apart ((mem_live _).mpr ⟨held,unspent⟩) kind

theorem lookup_granted (sound : Sound granted spent) : granted.lookup key = some value ↔ (key,value) ∈ granted :=
  (lookup_mem granted sound.distinct key value).symm

-- A table with one row for each ticket, which shows whether it is spent.
def Shows (row : ν → Bool → ρ) (table : Dict κ ρ) (granted : List (κ × ν)) (spent : List κ) : Prop :=
  ∀ key, table.get key = (granted.lookup key).map fun value => row value (decide (key ∈ spent))

variable {row : ν → Bool → ρ} {table : Dict κ ρ}

theorem shows_nil : Shows row Dict.empty [] ([] : List κ) := fun _ => rfl

theorem shows_grant (value : ν) (shows_ : Shows row table granted spent) (sound : Sound granted spent) (fresh : key ∉ keys granted) :
    Shows row (table.set key (row value false)) (granted ++ [(key,value)]) spent := by
  have unspent : key ∉ spent := fun inside => fresh (sound.known key inside)
  intro other
  rw [get_set,List.lookup_append]
  by_cases same : other = key
  · rw [if_pos same,same,(lookup_none granted key).mpr fresh,Option.none_or,lookup_entry,if_pos rfl,Option.map_some,
      decide_eq_false unspent]
  · rw [if_neg same,shows_ other,lookup_entry,if_neg same,List.lookup_nil,Option.or_none]

theorem shows_spend (shows_ : Shows row table granted spent) (held : granted.lookup key = some value) :
    Shows row (table.set key (row value true)) granted (spent ++ [key]) := by
  intro other
  rw [get_set]
  by_cases same : other = key
  · rw [if_pos same,same,held,Option.map_some,decide_eq_true (List.mem_append_right spent (List.mem_singleton_self key))]
  · rw [if_neg same,shows_ other]
    have apart : (other ∈ spent ++ [key]) ↔ other ∈ spent := by simp [same]
    rw [decide_eq_decide.mpr apart]

theorem shows_absent (shows_ : Shows row table granted spent) : table.get key = none ↔ key ∉ keys granted := by
  rw [shows_ key,Option.map_eq_none_iff,lookup_none]
  rfl

theorem shows_row (shows_ : Shows row table granted spent) (sound : Sound granted spent) {found : ρ}
    (held : table.get key = some found) :
    ∃ value gone, (key,value) ∈ granted ∧ found = row value gone ∧ (gone = true ↔ key ∈ spent) := by
  rw [shows_ key,Option.map_eq_some_iff] at held
  obtain ⟨value,listed,rfl⟩ := held
  exact ⟨value,_,(lookup_granted sound).mp listed,rfl,decide_eq_true_iff⟩

theorem shows_live (shows_ : Shows row table granted spent) (sound : Sound granted spent)
    (lives : (key,value) ∈ live granted spent) : table.get key = some (row value false) := by
  obtain ⟨listed,unspent⟩ := (mem_live _).mp lives
  rw [shows_ key,(lookup_granted sound).mpr listed,Option.map_some,decide_eq_false unspent]

end Live
end Tickets
