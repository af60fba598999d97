import Mathlib

-- The first places of a list in the order in which a stable sort puts its members.
namespace StableTop
variable {α : Type*} {ι : Type*} [LT ι] (atLeast : α → α → Bool)

-- The better goes first, and of equals the earlier.
def Precedes (score : ι → α) (first second : ι) : Prop :=
  atLeast (score first) (score second) = true ∧ (atLeast (score second) (score first) = true → first < second)

-- Exactly the best `count` of all places, in order.
structure Top {many : Nat} (score : Fin many → α) (count : Nat) (places : List (Fin many)) : Prop where
  distinct : places.Nodup
  length : places.length = min count many
  ordered : places.Pairwise (Precedes atLeast score)
  omitted : ∀ kept ∈ places, ∀ left, left ∉ places → Precedes atLeast score kept left

def ranked (scores : List α) : List (α × Nat) :=
  scores.zipIdx.mergeSort fun first second => atLeast first.1 second.1

section Facts
variable {atLeast} (trans : ∀ a b c, atLeast a b = true → atLeast b c = true → atLeast a c = true)
  (total : ∀ a b, (atLeast a b || atLeast b a) = true)

-- Numbered once more, every pair has its own place beside it.
theorem numbered_twice {scores : List α} {tagged : (α × Nat) × Nat} (inside : tagged ∈ scores.zipIdx.zipIdx) :
    tagged.1.2 = tagged.2 := by
  have found := List.mem_zipIdx' inside
  rw [found.2,List.getElem_zipIdx]
  exact Nat.zero_add _

variable (atLeast) in
theorem ranked_places (scores : List α) : ((ranked atLeast scores).map Prod.snd).Perm (List.range scores.length) := by
  have all := (List.mergeSort_perm scores.zipIdx fun first second => atLeast first.1 second.1).map Prod.snd
  rwa [List.zipIdx_map_snd,← List.range_eq_range'] at all

include trans total in
-- The sort keeps equals in their order, as one that goes by the place too would.
theorem ranked_ordered (scores : List α) : (ranked atLeast scores).Pairwise fun first second =>
    atLeast first.1 second.1 = true ∧ (atLeast second.1 first.1 = true → first.2 ≤ second.2) := by
  rw [ranked,← List.mergeSort_zipIdx,List.pairwise_map]
  apply List.Pairwise.imp_of_mem ?_ (List.pairwise_mergeSort (List.zipIdxLE_trans (fun a b c => trans a.1 b.1 c.1))
    (List.zipIdxLE_total (fun a b => total a.1 b.1)) _)
  intro first second one two before
  have left := numbered_twice (List.mem_mergeSort.mp one)
  have right := numbered_twice (List.mem_mergeSort.mp two)
  unfold List.zipIdxLE at before
  split at before
  next better =>
    refine ⟨better,?_⟩
    intro equal
    rw [if_pos equal,decide_eq_true_eq] at before
    rwa [left,right]
  next => cases before

-- The places of a list as members of its own range.
theorem placed {β : Type*} (items : List β) (score : β → α) (ranks : List (α × Nat))
    (inside : ∀ scored ∈ ranks, scored ∈ (items.map score).zipIdx) :
    ∃ places : List (Fin items.length), ranks = places.map fun place => (score (items.get place),place.val) := by
  have fits : ∀ scored ∈ ranks, scored.2 < items.length := fun scored member =>
    List.length_map score ▸ (List.mem_zipIdx' (inside scored member)).1
  refine ⟨ranks.attach.map fun scored => ⟨scored.val.2,fits scored.val scored.property⟩,?_⟩
  rw [List.map_map]
  calc ranks = ranks.attach.map Subtype.val := (List.attach_map_subtype_val ranks).symm
    _ = _ := List.map_congr_left fun scored _ => ?_
  have found := (List.mem_zipIdx' (inside scored.val scored.property)).2
  rw [List.getElem_map] at found
  exact Prod.ext found rfl

include trans total in
theorem ranked_top {β : Type*} (items : List β) (score : β → α) (count : Nat) : ∃ places : List (Fin items.length),
    Top atLeast (fun place => score (items.get place)) count places ∧
      (ranked atLeast (items.map score)).take count = places.map fun place => (score (items.get place),place.val) := by
  obtain ⟨all,same⟩ := placed items score (ranked atLeast (items.map score)) fun _ inside => List.mem_mergeSort.mp inside
  have whole := ranked_places atLeast (items.map score)
  rw [same,List.map_map,List.length_map] at whole
  have distinct : all.Nodup := (whole.nodup_iff.mpr List.nodup_range).of_map
  have every : ∀ place, place ∈ all := by
    intro place
    have found := whole.mem_iff.mpr (List.mem_range.mpr place.isLt)
    obtain ⟨other,inside,equal⟩ := List.mem_map.mp found
    exact Fin.ext equal ▸ inside
  have ordered : all.Pairwise (Precedes atLeast fun place => score (items.get place)) := by
    have sorted := ranked_ordered trans total (items.map score)
    rw [same,List.pairwise_map] at sorted
    apply List.Pairwise.imp₂ ?_ sorted distinct
    intro first second before apart
    exact ⟨before.1,fun equal => lt_of_le_of_ne (before.2 equal) apart⟩
  have split := List.take_append_drop count all
  refine ⟨all.take count,⟨distinct.sublist (List.take_sublist count all),?_,ordered.sublist (List.take_sublist count all),?_⟩,?_⟩
  · have sizes := whole.length_eq
    rw [List.length_map,List.length_range] at sizes
    rw [List.length_take,sizes]
  · intro kept inside left outside
    rw [← split,List.pairwise_append] at ordered
    have later := every left
    rw [← split,List.mem_append] at later
    exact ordered.2.2 kept inside left (later.resolve_left outside)
  · rw [same,List.map_take]

variable (atLeast) in
-- Sorted themselves, the items go as their scores do.
theorem ranked_items {β : Type*} (items : List β) (score : β → α) : ∃ tagged : List (β × Nat),
    (∀ item ∈ tagged, items[item.2]? = some item.1) ∧
      tagged.map Prod.fst = (items.mergeSort fun first second => atLeast (score first) (score second)) ∧
        tagged.map (Prod.map score id) = ranked atLeast (items.map score) := by
  refine ⟨items.zipIdx.mergeSort fun first second => atLeast (score first.1) (score second.1),?_,?_,?_⟩
  · intro item inside
    exact List.mem_zipIdx_iff_getElem?.mp (List.mem_mergeSort.mp inside)
  · calc _ = (items.zipIdx.map Prod.fst).mergeSort fun first second => atLeast (score first) (score second) :=
          List.map_mergeSort fun _ _ _ _ => rfl
      _ = _ := by rw [List.zipIdx_map_fst]
  · calc _ = (items.zipIdx.map (Prod.map score id)).mergeSort fun first second => atLeast first.1 second.1 :=
          List.map_mergeSort fun _ _ _ _ => rfl
      _ = _ := by rw [List.map_zipIdx,ranked]

end Facts
end StableTop
