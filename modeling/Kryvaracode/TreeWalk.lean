import Mathlib

namespace TreeWalk
variable {α : Type} (children : α → List α)

def Below (top bottom : α) : Prop := Relation.ReflTransGen (fun parent child => child ∈ children parent) top bottom

theorem below_cases (top bottom : α) : Below children top bottom ↔
    bottom = top ∨ ∃ child ∈ children top, Below children child bottom := by
  unfold Below
  rw [Relation.ReflTransGen.cases_head_iff,eq_comm]

-- Breadth first: the front of the queue is yielded and its children join the back.
def walk : Nat → List α → List α
  | 0,_ => []
  | _ + 1,[] => []
  | fuel + 1,node :: todo => node :: walk fuel (todo ++ children node)

theorem walk_below (fuel : Nat) (todo : List α) (found : α) (member : found ∈ walk children fuel todo) :
    ∃ top ∈ todo, Below children top found := by
  induction fuel generalizing todo with
  | zero => cases member
  | succ fuel ih =>
    cases todo with
    | nil => cases member
    | cons node todo =>
      rcases List.mem_cons.mp member with rfl | later
      · exact ⟨found,List.mem_cons_self ..,.refl⟩
      · obtain ⟨top,queued,below⟩ := ih _ later
        rcases List.mem_append.mp queued with old | child
        · exact ⟨top,List.mem_cons_of_mem _ old,below⟩
        · exact ⟨node,List.mem_cons_self ..,(below_cases children node found).mpr (.inr ⟨top,child,below⟩)⟩

-- A measure that counts each node once bounds the walk.
section Measured
variable (size : α → Nat) (measured : ∀ node, size node = 1 + ((children node).map size).sum)
include measured

theorem queue_shrinks (node : α) (todo : List α) :
    ((node :: todo).map size).sum = 1 + ((todo ++ children node).map size).sum := by
  simp only [List.map_cons,List.sum_cons,List.map_append,List.sum_append,measured node]
  omega

theorem below_walk (fuel : Nat) (todo : List α) (enough : (todo.map size).sum ≤ fuel) (top found : α)
    (queued : top ∈ todo) (below : Below children top found) : found ∈ walk children fuel todo := by
  induction fuel generalizing todo top with
  | zero =>
    cases todo with
    | nil => cases queued
    | cons node todo => rw [queue_shrinks children size measured] at enough; omega
  | succ fuel ih =>
    cases todo with
    | nil => cases queued
    | cons node todo =>
      rw [queue_shrinks children size measured] at enough
      have rest := ih (todo ++ children node) (by omega)
      rcases List.mem_cons.mp queued with rfl | old
      · rcases (below_cases children top found).mp below with rfl | ⟨child,member,lower⟩
        · exact List.mem_cons_self ..
        · exact List.mem_cons_of_mem _ (rest child (List.mem_append_right _ member) lower)
      · exact List.mem_cons_of_mem _ (rest top (List.mem_append_left _ old) below)

theorem walk_exact (root found : α) : found ∈ walk children (size root) [root] ↔ Below children root found := by
  constructor
  · intro member
    obtain ⟨top,queued,below⟩ := walk_below children _ _ found member
    rwa [List.mem_singleton.mp queued] at below
  · exact below_walk children size measured _ _ (by simp) root found (List.mem_singleton_self root)

end Measured
end TreeWalk
