import Mathlib

-- A finite map that lists its keys in the order of their first insertion.
namespace InsertionDict
universe u v
variable {κ : Type u} {ν : Type v}

structure Dict (κ : Type u) (ν : Type v) where
  entries : List (κ × ν)
  distinct : (entries.map Prod.fst).Nodup

def Dict.empty : Dict κ ν := ⟨[],List.nodup_nil⟩
def Dict.keys (dict : Dict κ ν) : List κ := dict.entries.map Prod.fst
def Dict.values (dict : Dict κ ν) : List ν := dict.entries.map Prod.snd
def Dict.size (dict : Dict κ ν) : Nat := dict.entries.length

def Dict.filter (dict : Dict κ ν) (keep : κ → ν → Bool) : Dict κ ν :=
  ⟨dict.entries.filter fun entry => keep entry.1 entry.2,(List.filter_sublist.map Prod.fst).nodup dict.distinct⟩

def Dict.map (dict : Dict κ ν) (change : ν → ν) : Dict κ ν where
  entries := dict.entries.map fun entry => (entry.1,change entry.2)
  distinct := by
    rw [List.map_map]
    exact dict.distinct

variable [DecidableEq κ]

def put (key : κ) (value : ν) : List (κ × ν) → List (κ × ν)
  | [] => [(key,value)]
  | (other,old) :: rest => if other = key then (key,value) :: rest else (other,old) :: put key value rest

theorem mem_put_keys (key : κ) (value : ν) (entries : List (κ × ν)) (other : κ) :
    other ∈ (put key value entries).map Prod.fst ↔ other = key ∨ other ∈ entries.map Prod.fst := by
  induction entries with
  | nil => simp [put]
  | cons entry rest ih =>
      rcases entry with ⟨first,old⟩
      by_cases same : first = key
      · subst same
        simp [put]
      · simp only [put,same,if_false,List.map_cons,List.mem_cons,ih]
        exact or_left_comm

theorem put_distinct (key : κ) (value : ν) (entries : List (κ × ν)) (distinct : (entries.map Prod.fst).Nodup) :
    ((put key value entries).map Prod.fst).Nodup := by
  induction entries with
  | nil => simp [put]
  | cons entry rest ih =>
      rcases entry with ⟨first,old⟩
      rw [List.map_cons,List.nodup_cons] at distinct
      by_cases same : first = key
      · subst same
        simpa [put] using distinct
      · simp only [put,same,if_false,List.map_cons,List.nodup_cons]
        refine ⟨?_,ih distinct.2⟩
        rw [mem_put_keys]
        intro found
        rcases found with equal | inside
        · exact same equal
        · exact distinct.1 inside

def Dict.get (dict : Dict κ ν) (key : κ) : Option ν := dict.entries.lookup key

def Dict.set (dict : Dict κ ν) (key : κ) (value : ν) : Dict κ ν :=
  ⟨put key value dict.entries,put_distinct key value dict.entries dict.distinct⟩

def Dict.erase (dict : Dict κ ν) (key : κ) : Dict κ ν := dict.filter fun other _ => decide (other ≠ key)

theorem lookup_entry (first key : κ) (value : ν) (rest : List (κ × ν)) :
    List.lookup key ((first,value) :: rest) = if key = first then some value else rest.lookup key := by
  by_cases same : key = first
  · simp [same]
  · have apart : (key == first) = false := beq_false_of_ne same
    simp only [List.lookup,apart,if_neg same]

theorem lookup_put (key : κ) (value : ν) (entries : List (κ × ν)) (other : κ) :
    (put key value entries).lookup other = if other = key then some value else entries.lookup other := by
  induction entries with
  | nil => simp [put,lookup_entry]
  | cons entry rest ih =>
      rcases entry with ⟨first,old⟩
      by_cases same : first = key
      · subst same
        by_cases asked : other = first <;> simp [put,lookup_entry,asked]
      · by_cases asked : other = first
        · subst asked
          simp [put,same]
        · simp [put,lookup_entry,same,asked,ih]

theorem lookup_none (entries : List (κ × ν)) (key : κ) :
    entries.lookup key = none ↔ key ∉ entries.map Prod.fst := by
  induction entries with
  | nil => simp
  | cons entry rest ih =>
      rcases entry with ⟨first,old⟩
      by_cases asked : key = first
      · simp [asked]
      · rw [lookup_entry,if_neg asked,ih,List.map_cons,List.mem_cons,not_or]
        exact (and_iff_right asked).symm

theorem lookup_mem (entries : List (κ × ν)) (distinct : (entries.map Prod.fst).Nodup) (key : κ) (value : ν) :
    (key,value) ∈ entries ↔ entries.lookup key = some value := by
  induction entries with
  | nil => simp
  | cons entry rest ih =>
      rcases entry with ⟨first,old⟩
      rw [List.map_cons,List.nodup_cons] at distinct
      by_cases asked : key = first
      · subst asked
        have outside : (key,value) ∉ rest := by
          intro inside
          exact distinct.1 (List.mem_map.mpr ⟨(key,value),inside,rfl⟩)
        simp [outside,eq_comm]
      · simp [lookup_entry,asked,ih distinct.2]

theorem lookup_filter (entries : List (κ × ν)) (distinct : (entries.map Prod.fst).Nodup) (keep : κ → ν → Bool)
    (key : κ) : (entries.filter fun entry => keep entry.1 entry.2).lookup key = (entries.lookup key).filter (keep key) := by
  have kept : ((entries.filter fun entry => keep entry.1 entry.2).map Prod.fst).Nodup :=
    (List.filter_sublist.map Prod.fst).nodup distinct
  ext value
  rw [← lookup_mem _ kept,List.mem_filter,Option.filter_eq_some_iff,lookup_mem _ distinct]

theorem put_last (key : κ) (value : ν) (entries : List (κ × ν)) (new : key ∉ entries.map Prod.fst) :
    put key value entries = entries ++ [(key,value)] := by
  induction entries with
  | nil => rfl
  | cons entry rest ih =>
      rcases entry with ⟨first,old⟩
      rw [List.map_cons,List.mem_cons,not_or] at new
      rw [put,if_neg (Ne.symm new.1),ih new.2]
      rfl

theorem put_put (key : κ) (first second : ν) (entries : List (κ × ν)) :
    put key second (put key first entries) = put key second entries := by
  induction entries with
  | nil => simp [put]
  | cons entry rest ih =>
      rcases entry with ⟨other,old⟩
      by_cases same : other = key
      · simp [put,same]
      · simp [put,same,ih]

section Reads
variable (dict : Dict κ ν)

@[simp] theorem get_empty (key : κ) : (Dict.empty : Dict κ ν).get key = none := rfl

theorem get_set (key : κ) (value : ν) (other : κ) :
    (dict.set key value).get other = if other = key then some value else dict.get other :=
  lookup_put key value dict.entries other

@[simp] theorem get_set_same (key : κ) (value : ν) : (dict.set key value).get key = some value := by
  rw [get_set,if_pos rfl]

@[simp] theorem set_set (key : κ) (first second : ν) : (dict.set key first).set key second = dict.set key second := by
  simp only [Dict.set,put_put]

theorem get_filter (keep : κ → ν → Bool) (key : κ) :
    (dict.filter keep).get key = (dict.get key).filter (keep key) :=
  lookup_filter dict.entries dict.distinct keep key

theorem get_map (change : ν → ν) (key : κ) : (dict.map change).get key = (dict.get key).map change := by
  obtain ⟨entries,distinct⟩ := dict
  simp only [Dict.get,Dict.map]
  clear distinct
  induction entries with
  | nil => rfl
  | cons entry rest ih =>
      rw [List.map_cons,lookup_entry,ih,lookup_entry]
      split <;> rfl

theorem get_erase (key other : κ) : (dict.erase key).get other = if other = key then none else dict.get other := by
  rw [Dict.erase,get_filter]
  by_cases same : other = key
  · cases dict.get other <;> simp [same]
  · cases dict.get other <;> simp [same]

theorem mem_entries (key : κ) (value : ν) : (key,value) ∈ dict.entries ↔ dict.get key = some value :=
  lookup_mem dict.entries dict.distinct key value

theorem mem_values (value : ν) : value ∈ dict.values ↔ ∃ key, dict.get key = some value := by
  rw [Dict.values,List.mem_map]
  refine ⟨?_,?_⟩
  · intro found
    obtain ⟨⟨key,held⟩,inside,rfl⟩ := found
    exact ⟨key,(mem_entries dict key held).mp inside⟩
  · intro found
    obtain ⟨key,held⟩ := found
    exact ⟨(key,value),(mem_entries dict key value).mpr held,rfl⟩

theorem not_mem_keys (key : κ) : key ∉ dict.keys ↔ dict.get key = none := (lookup_none dict.entries key).symm

theorem keys_set_new (key : κ) (value : ν) (new : dict.get key = none) : (dict.set key value).keys = dict.keys ++ [key] := by
  have absent := (not_mem_keys dict key).mpr new
  change (put key value dict.entries).map Prod.fst = _
  rw [put_last key value dict.entries absent,List.map_append]
  rfl

theorem size_zero : dict.size = 0 ↔ ∀ key, dict.get key = none := by
  rw [Dict.size,List.length_eq_zero_iff]
  refine ⟨?_,?_⟩
  · intro none key
    simp [Dict.get,none]
  · intro absent
    rw [List.eq_nil_iff_forall_not_mem]
    intro entry inside
    have held := (mem_entries dict entry.1 entry.2).mp inside
    rw [absent entry.1] at held
    cases held
end Reads

section Counting
variable (holds : ν → Bool)

def weight (value : Option ν) : Nat := if value.any holds then 1 else 0

-- Writing one key moves a count by what was under the key and what is now.
theorem countP_put (key : κ) (value : ν) (entries : List (κ × ν)) :
    (put key value entries).countP (holds ·.2) + weight holds (entries.lookup key) =
      entries.countP (holds ·.2) + weight holds (some value) := by
  induction entries with
  | nil => simp [put,weight]
  | cons entry rest ih =>
      rcases entry with ⟨first,old⟩
      by_cases same : first = key
      · subst same
        simp only [put,if_true,lookup_entry,List.countP_cons,weight,Option.any_some]
        omega
      · simp only [put,same,if_false,lookup_entry,Ne.symm same,List.countP_cons]
        omega

theorem countP_set (dict : Dict κ ν) (key : κ) (value : ν) :
    (dict.set key value).values.countP holds + weight holds (dict.get key) =
      dict.values.countP holds + weight holds (some value) := by
  simp only [Dict.values,List.countP_map]
  exact countP_put holds key value dict.entries

omit [DecidableEq κ] in
theorem countP_filter (dict : Dict κ ν) (keep : κ → ν → Bool) (kept : ∀ key value, holds value = true → keep key value = true) :
    (dict.filter keep).values.countP holds = dict.values.countP holds := by
  simp only [Dict.values,Dict.filter,List.countP_map,List.countP_filter]
  refine List.countP_congr ?_
  intro entry _
  have same := kept entry.1 entry.2
  cases truth : holds entry.2 <;> simp_all

end Counting

end InsertionDict
